import TextWorld.Proofs.Engine.Structure

/-!
Who listens to whom. Going down from the conversation that holds somebody one comes by all that list
them, and the last of these, which is the latest of all, hears their lines. Going up from a
conversation one comes by all that it lies under, each earlier than the one before.
-/

namespace TextWorld

namespace Forest

variable {τ ε : Type} {f : Forest τ ε} {a o x id current found r r' : ConversationId}
  {actor : CharacterId} {l chain : List ConversationId}

/-- Going down child by child in search of the deepest conversation that lists an actor, where
`found` is the deepest so far, one ends with `result`. -/
inductive Searches (f : Forest τ ε) (actor : CharacterId) :
    (current found result : ConversationId) → Prop
  | done {current found : ConversationId} (h : f.child? current = none) :
      Searches f actor current found found
  | down {current child found result : ConversationId} (hchild : f.child? current = some child)
      (h : Searches f actor child (if f.lists child actor then child else found) result) :
      Searches f actor current found result

/-- Going up parent by parent as long as there is a conversation, one comes by these. -/
inductive Climbs (f : Forest τ ε) : Option ConversationId → List ConversationId → Prop
  | done {start : Option ConversationId} (h : ∀ id ∈ start, f.contains id = false) :
      Climbs f start []
  | up {id : ConversationId} {chain : List ConversationId} (hid : f.contains id = true)
      (h : Climbs f (f.parent? id) chain) : Climbs f (some id) (id :: chain)

theorem Searches.unique (h : f.Searches actor current found r)
    (h' : f.Searches actor current found r') : r = r' := by
  induction h with
  | done hnone =>
    cases h' with
    | done => rfl
    | down hchild _ =>
      rw [hnone] at hchild
      cases hchild
  | down hchild _ ih =>
    cases h' with
    | done hnone =>
      rw [hnone] at hchild
      cases hchild
    | down hchild' h' =>
      rw [hchild] at hchild'
      cases hchild'
      exact ih h'

theorem Below.searches (h : f.Below id l) :
    f.Searches actor id found ((l.filter (f.lists · actor)).getLastD found) := by
  induction l generalizing id found with
  | nil => exact .done h
  | cons d l ih =>
    obtain ⟨hchild, hbelow⟩ := h
    refine .down hchild ?_
    -- What has been found so far changes with each of the chain that lists the actor.
    rw [List.filter_cons]
    split
    · rw [List.getLastD_cons]
      exact ih hbelow
    · exact ih hbelow

/-- The search comes to an end, and with this result only. -/
theorem searches_iff (hf : f.Linked) :
    f.Searches actor id id r ↔ r = f.innermostFor id actor := by
  have hsearch : f.Searches actor id id (f.innermostFor id actor) :=
    (below_descendants hf id).searches
  constructor
  · exact fun h => h.unique hsearch
  · rintro rfl
    exact hsearch

/-- If the search has found the current conversation where that one lists the actor, then it ends
with the latest of those below that do. -/
theorem Searches.greatest (hf : f.Linked) (h : f.Searches actor current found r)
    (hfound : f.lists found actor = true) (hle : found.index ≤ current.index)
    (hcurrent : f.lists current actor = true → found = current) :
    f.lists r actor = true ∧ found.index ≤ r.index ∧
      ∀ x, f.Under x current → f.lists x actor = true → x.index ≤ r.index := by
  induction h with
  | @done current found hnone =>
    refine ⟨hfound, Nat.le_refl _, fun x hx hlist => ?_⟩
    -- There is nothing below, so only the current conversation can list the actor.
    obtain rfl | ⟨d, hd, -⟩ := hx.through_child hf
    · exact Nat.le_of_eq (congrArg Id.index (hcurrent hlist).symm)
    · rw [hnone] at hd
      cases hd
  | @down current child found result hchild _ ih =>
    have hlt := (hf.parent_there ((hf.child_iff current child).1 hchild)).2
    -- What was found is not deeper than what is found from now on.
    have hrest : f.lists result actor = true ∧ found.index ≤ result.index ∧
        ∀ x, f.Under x child → f.lists x actor = true → x.index ≤ result.index := by
      by_cases hd : f.lists child actor = true
      · rw [if_pos hd] at ih
        obtain ⟨hresult, hchildle, hall⟩ := ih hd (Nat.le_refl _) fun _ => rfl
        exact ⟨hresult, by omega, hall⟩
      · rw [if_neg hd] at ih
        exact ih hfound (by omega) fun hd' => absurd hd' hd
    obtain ⟨hresult, hfoundle, hall⟩ := hrest
    refine ⟨hresult, hfoundle, fun x hx hlist => ?_⟩
    obtain rfl | ⟨d, hd, hxd⟩ := hx.through_child hf
    · rw [← hcurrent hlist]
      exact hfoundle
    · rw [hchild] at hd
      cases hd
      exact hall x hxd hlist

theorem Climbs.unique {start : Option ConversationId} {chain' : List ConversationId}
    (h : f.Climbs start chain) (h' : f.Climbs start chain') : chain = chain' := by
  induction h generalizing chain' with
  | done hgone =>
    cases h' with
    | done => rfl
    | @up id _ hid _ =>
      rw [hgone id rfl] at hid
      cases hid
  | up hid _ ih =>
    cases h' with
    | done hgone =>
      rw [hgone _ rfl] at hid
      cases hid
    | up _ h' => rw [ih h']

theorem Under.index_le (hf : f.Linked) (h : f.Under a o) : o.index ≤ a.index := by
  induction h with
  | refl a => exact Nat.le_refl _
  | step ha _ ih =>
    have hlt := (hf.parent_there ha).2
    omega

theorem climbs_of_gone (h : f.get? id = none) : f.Climbs (some id) [] := by
  refine .done fun x hx => ?_
  cases hx
  exact contains_eq_false_iff.2 h

theorem mem_not_later_self (h : (f.get? id).isSome) :
    id ∈ f.table.keys.filter fun x => x.index ≤ id.index := by
  rw [List.mem_filter, Std.ExtTreeMap.mem_keys, Std.ExtTreeMap.mem_iff_isSome_getElem?]
  exact ⟨h, decide_eq_true (Nat.le_refl _)⟩

/-- Ids get smaller from parent to parent, so a way up has no more conversations than are there. -/
theorem climbs_ascend (hf : f.Linked) (count : Nat) (id : ConversationId)
    (hcount : (f.table.keys.filter fun x => x.index ≤ id.index).length ≤ count) :
    f.Climbs (some id) (f.ascend count id) := by
  induction count generalizing id with
  | zero =>
    cases hc : f.get? id with
    | none => exact climbs_of_gone hc
    | some c =>
      have hpos := List.length_pos_of_mem (mem_not_later_self (Option.isSome_of_eq_some hc))
      omega
  | succ count ih =>
    rw [ascend]
    cases hc : f.get? id with
    | none => exact climbs_of_gone hc
    | some c =>
      have hid : f.contains id = true := contains_of_get? hc
      have hparent : f.parent? id = c.parent := by
        rw [parent?, hc]
        rfl
      dsimp only
      cases hp : c.parent with
      | none =>
        refine .up hid (.done fun x hx => ?_)
        rw [hparent, hp] at hx
        cases hx
      | some p =>
        refine .up hid ?_
        rw [hparent, hp]
        rw [hp] at hparent
        have hlt := (hf.parent_there hparent).2
        apply ih
        -- Of those up to the conversation, it is itself not one of those up to its parent.
        have hless := length_filter_lt (l := f.table.keys) (p := fun x => x.index ≤ id.index)
          (q := fun x => x.index ≤ p.index)
          (mem_not_later_self (Option.isSome_of_eq_some hc)) (by simpa using hlt)
          (fun x hx => by simp only [decide_eq_true_eq] at hx ⊢; omega)
        omega

theorem climbs_lineage (hf : f.Linked) (id : ConversationId) :
    f.Climbs (some id) (f.lineage id) := by
  apply climbs_ascend hf
  have hle := List.length_filter_le (fun x => decide (x.index ≤ id.index)) f.table.keys
  rwa [Std.ExtTreeMap.length_keys] at hle

/-- The climb comes to an end, and comes by these only. -/
theorem climbs_iff (hf : f.Linked) : f.Climbs (some id) chain ↔ chain = f.lineage id := by
  constructor
  · exact fun h => h.unique (climbs_lineage hf id)
  · rintro rfl
    exact climbs_lineage hf id

/-- All conversations that a conversation lies under, from itself up to the top. -/
structure IsLineage (f : Forest τ ε) (id : ConversationId) (chain : List ConversationId) :
    Prop where
  first : chain.head? = some id
  mem_iff : ∀ a, a ∈ chain ↔ f.Under id a
  descending : chain.Pairwise fun a b => b.index < a.index
  top : ∃ a ∈ chain.getLast?, f.parent? a = none

theorem Climbs.isLineage (hf : f.Linked) (h : f.Climbs (some id) chain)
    (hid : f.contains id = true) : f.IsLineage id chain := by
  generalize hstart : some id = start at h
  induction h generalizing id with
  | done hgone =>
    rw [hgone id hstart.symm] at hid
    cases hid
  | @up x chain _ h ih =>
    cases hstart
    cases hp : f.parent? x with
    | none =>
      rw [hp] at h
      cases h
      refine ⟨rfl, fun a => ?_, List.pairwise_singleton _ _, x, rfl, hp⟩
      rw [List.mem_singleton]
      constructor
      · rintro rfl
        exact .refl a
      · intro hx
        cases hx with
        | refl => rfl
        | step hb _ =>
          rw [hp] at hb
          cases hb
    | some p =>
      obtain ⟨hthere, hlt⟩ := hf.parent_there hp
      have hchain := ih (contains_iff.2 hthere) hp.symm
      -- Whatever lies above is the conversation itself or lies above its parent.
      have hmem (a : ConversationId) : a ∈ x :: chain ↔ f.Under x a := by
        rw [List.mem_cons, hchain.mem_iff]
        constructor
        · rintro (rfl | ha)
          · exact .refl a
          · exact .step hp ha
        · intro hx
          cases hx with
          | refl => exact .inl rfl
          | step hb hx =>
            rw [hp] at hb
            cases hb
            exact .inr hx
      refine ⟨rfl, hmem, List.pairwise_cons.2 ⟨fun a ha => ?_, hchain.descending⟩, ?_⟩
      · have hle := ((hchain.mem_iff a).1 ha).index_le hf
        omega
      · obtain ⟨top, htop, hnone⟩ := hchain.top
        refine ⟨top, ?_, hnone⟩
        rw [List.getLast?_cons, htop]
        rfl

theorem isLineage_lineage (hf : f.Linked) (hid : f.contains id = true) :
    f.IsLineage id (f.lineage id) :=
  (climbs_lineage hf id).isLineage hf hid

theorem mem_lineage (hf : f.Linked) (hid : f.contains id = true) :
    a ∈ f.lineage id ↔ f.Under id a :=
  (isLineage_lineage hf hid).mem_iff a

end Forest

variable {S : Setting}

/-- Whoever takes part in conversations is heard by the latest of them, and both walks along the
links come to an end. -/
structure State.Attended (s : State S) : Prop where
  active_iff : ∀ {x id}, (s.world.character? x).isSome →
    (activeConversation s.world s.forest x = some id ↔
      s.forest.lists id x = true ∧
        ∀ other, s.forest.lists other x = true → other.index ≤ id.index)
  idle_iff : ∀ {x}, (s.world.character? x).isSome →
    (activeConversation s.world s.forest x = none ↔ ∀ id, s.forest.lists id x = false)
  search_ends : ∀ {x start result},
    s.forest.Searches x start start result ↔ result = s.forest.innermostFor start x
  climb_ends : ∀ {id chain}, s.forest.Climbs (some id) chain ↔ chain = s.forest.lineage id
  lineage_up : ∀ {id}, s.forest.contains id = true →
    s.forest.IsLineage id (s.forest.lineage id)

namespace State

variable {s : State S} {x : CharacterId} {c : Character} {o id : ConversationId}

theorem Coherent.lists_nothing (h : s.Coherent) (hc : s.world.character? x = some c)
    (hnone : c.conversation = none) (id : ConversationId) : s.forest.lists id x = false := by
  rw [Bool.eq_false_iff]
  intro hlist
  obtain ⟨o, ho, -⟩ := h.holder hlist hc
  rw [hnone] at ho
  cases ho

theorem Coherent.activeConversation_held (h : s.Coherent) (hc : s.world.character? x = some c)
    (ho : c.conversation = some o) :
    activeConversation s.world s.forest x = some (s.forest.innermostFor o x) := by
  obtain ⟨d, hd, -⟩ := Forest.lists_iff.1 (h.held hc ho)
  have hthere : s.forest.contains o = true := Forest.contains_of_get? hd
  simp [activeConversation, hc, ho, hthere]

theorem activeConversation_free (hc : s.world.character? x = some c)
    (hnone : c.conversation = none) : activeConversation s.world s.forest x = none := by
  simp [activeConversation, hc, hnone]

/-- The search starts from the conversation that holds the actor, and all that list the actor lie
below that one. -/
theorem Coherent.innermost_greatest (h : s.Coherent) (hc : s.world.character? x = some c)
    (ho : c.conversation = some o) :
    s.forest.lists (s.forest.innermostFor o x) x = true ∧
      ∀ other, s.forest.lists other x = true →
        other.index ≤ (s.forest.innermostFor o x).index := by
  have hsearch : s.forest.Searches x o o (s.forest.innermostFor o x) :=
    (Forest.searches_iff h.linked).2 rfl
  obtain ⟨hlist, -, hgreatest⟩ :=
    hsearch.greatest h.linked (h.held hc ho) (Nat.le_refl _) fun _ => rfl
  refine ⟨hlist, fun other hother => hgreatest other ?_ hother⟩
  obtain ⟨o', ho', hunder⟩ := h.holder hother hc
  rw [ho] at ho'
  cases ho'
  exact hunder

theorem Coherent.active_iff (h : s.Coherent) (hx : (s.world.character? x).isSome) :
    activeConversation s.world s.forest x = some id ↔
      s.forest.lists id x = true ∧
        ∀ other, s.forest.lists other x = true → other.index ≤ id.index := by
  obtain ⟨c, hc⟩ := Option.isSome_iff_exists.1 hx
  cases ho : c.conversation with
  | none =>
    rw [activeConversation_free hc ho, h.lists_nothing hc ho]
    simp
  | some o =>
    obtain ⟨hlist, hgreatest⟩ := h.innermost_greatest hc ho
    rw [h.activeConversation_held hc ho, Option.some.injEq]
    constructor
    · rintro rfl
      exact ⟨hlist, hgreatest⟩
    · -- There are no two greatest ones.
      rintro ⟨hlist', hgreatest'⟩
      have hle := hgreatest' _ hlist
      have hge := hgreatest _ hlist'
      exact congrArg Id.mk (Nat.le_antisymm hle hge)

theorem Coherent.idle_iff (h : s.Coherent) (hx : (s.world.character? x).isSome) :
    activeConversation s.world s.forest x = none ↔ ∀ id, s.forest.lists id x = false := by
  obtain ⟨c, hc⟩ := Option.isSome_iff_exists.1 hx
  cases ho : c.conversation with
  | none =>
    rw [activeConversation_free hc ho]
    exact iff_of_true rfl (h.lists_nothing hc ho)
  | some o =>
    rw [h.activeConversation_held hc ho]
    -- The conversation that holds somebody lists them.
    refine iff_of_false (Option.some_ne_none _) fun hnothing => ?_
    have hlist := h.held hc ho
    rw [hnothing o] at hlist
    cases hlist

theorem Coherent.attended (h : s.Coherent) : s.Attended where
  active_iff := h.active_iff
  idle_iff := h.idle_iff
  search_ends := Forest.searches_iff h.linked
  climb_ends := Forest.climbs_iff h.linked
  lineage_up := Forest.isLineage_lineage h.linked

end State

/-- From a world that has come about by operations, whatever is called and whatever the programs
do: at every moment that a program can look, and at the end, each character is heard by the latest
conversation that lists them. -/
theorem attended_throughout {w : World} (hw : w.Reachable) (memory : S.Memory)
    (calls : List (Rules S × Call S)) :
    (∀ sight ∈ (Call.runAll calls (.initial w memory)).sights, sight.state.Attended) ∧
      (Call.runAll calls (.initial w memory)).state.Attended := by
  obtain ⟨hsights, hlast⟩ := coherent_throughout hw memory calls
  exact ⟨fun sight hsight => (hsights sight hsight).attended, hlast.attended⟩

/-- A conversation with both, below it one with the cook only, and below that one with both
again. -/
def talkInTurns : Program plainSetting Unit := do
  let _ ← Program.start [⟨3⟩, ⟨4⟩] () none
  let _ ← Program.startChild ⟨1⟩ [⟨4⟩] ()
  let _ ← Program.startChild ⟨2⟩ [⟨4⟩, ⟨3⟩] ()
  pure ()

/-- The guest, whom the second conversation leaves out, is heard by the third. -/
theorem attended_throughout_talkInTurns :
    ∃ w s, World.empty.run innWithTwo = some w ∧
      (Call.runAll [(chatter, .withContext talkInTurns)] (.initial w ())).state = s ∧
      s.forest.lists ⟨2⟩ ⟨3⟩ = false ∧
      activeConversation s.world s.forest ⟨3⟩ = some ⟨3⟩ ∧ s.Attended := by
  have hrun : (World.empty.run innWithTwo).map (fun w =>
      let s := (Call.runAll [(chatter, .withContext talkInTurns)] (.initial w ())).state
      (s.forest.lists ⟨2⟩ ⟨3⟩, activeConversation s.world s.forest ⟨3⟩)) =
        some (false, some ⟨3⟩) := by decide
  obtain ⟨w, hw, hheard⟩ := Option.map_eq_some_iff.1 hrun
  rw [Prod.mk.injEq] at hheard
  obtain ⟨hlist, hactive⟩ := hheard
  have hall := attended_throughout (S := plainSetting) ⟨innWithTwo, hw⟩ ()
    [(chatter, .withContext talkInTurns)]
  exact ⟨w, _, hw, rfl, hlist, hactive, hall.2⟩

end TextWorld

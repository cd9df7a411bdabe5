import TextWorld.Proofs.Conversation.Coherence

/-!
The end of a conversation. It goes with everything below it, from the bottom upwards, so that each
conversation has no child any more when its turn comes, and the others are as they were.
-/

namespace TextWorld

namespace State

variable {S : Setting} {s : State S} {id : ConversationId} {c : Conversation S.Talk S.Ending}

theorem character?_release (s : State S) (id : ConversationId) (participants : List CharacterId)
    (x : CharacterId) :
    (s.release id participants).world.character? x =
      if x ∈ participants then
        (s.world.character? x).map fun c =>
          { c with conversation := if c.conversation = some id then none else c.conversation }
      else s.world.character? x := by
  apply Table.getElem?_foldl_modify
  intro c
  by_cases hc : c.conversation = some id
  · simp [hc]
  · simp [hc]

theorem close_eq (hc : s.forest.get? id = some c) :
    s.close id = { s with forest := s.forest.remove id }.release id c.participants := by
  rw [close, hc]

theorem forest_close (s : State S) (id : ConversationId) :
    (s.close id).forest = s.forest.remove id := by
  cases hc : s.forest.get? id with
  | none => rw [close, hc, Forest.remove, hc]
  | some c => rw [close_eq hc]; rfl

theorem get?_close (s : State S) (id : ConversationId) : (s.close id).forest.get? id = none := by
  rw [forest_close]
  cases hc : s.forest.get? id with
  | none => rw [Forest.remove, hc]; exact hc
  | some c => rw [Forest.get?_remove hc, if_pos rfl]

/-- A conversation that is ended is closed last, after everything below it. -/
theorem get?_closeAll (s : State S) (id : ConversationId) :
    (s.closeAll id).forest.get? id = none := by
  rw [closeAll, List.reverse_cons, List.foldl_append]
  exact get?_close _ id

theorem character_close (hc : s.forest.get? id = some c) {x : CharacterId} {d : Character}
    (hd : (s.close id).world.character? x = some d) :
    ∃ e, s.world.character? x = some e ∧
      (d.conversation = e.conversation ∧ (e.conversation = some id → x ∉ c.participants) ∨
        d.conversation = none ∧ e.conversation = some id) := by
  rw [close_eq hc, character?_release] at hd
  split at hd
  · obtain ⟨e, he, rfl⟩ := Option.map_eq_some_iff.1 hd
    refine ⟨e, he, ?_⟩
    by_cases hconv : e.conversation = some id
    · exact .inr ⟨by simp [hconv], hconv⟩
    · exact .inl ⟨by simp [hconv], fun h => absurd h hconv⟩
  · rename_i hx
    exact ⟨d, hd, .inl ⟨rfl, fun _ => hx⟩⟩

theorem Coherent.close (h : s.Coherent) (hc : s.forest.get? id = some c)
    (hleaf : s.forest.child? id = none) : (s.close id).Coherent := by
  have hforest : (s.close id).forest = s.forest.remove id := by
    rw [close_eq hc]
    rfl
  have hlast : (s.close id).world.lastIndex = s.world.lastIndex := by
    rw [close_eq hc]
    rfl
  have hlists : ∀ {y x}, (s.close id).forest.lists y x = true →
      id ≠ y ∧ s.forest.lists y x = true := by
    intro y x hlist
    rw [hforest, Forest.lists_remove hc] at hlist
    split at hlist
    · cases hlist
    · rename_i hne
      exact ⟨hne, hlist⟩
  -- The conversation goes with its pending line, and its participants are let go of.
  refine ⟨?_, ?_, ?_, ?_, ?_, ?_, ?_⟩
  · rw [hforest]
    exact h.linked.remove hc hleaf
  · rw [hforest, Forest.scheduler_remove hc]
    exact h.kept.cancel id
  · intro x d o hd ho
    obtain ⟨e, he, ⟨hsame, hnot⟩ | ⟨hnone, -⟩⟩ := character_close hc hd
    · have hlist := h.held he (hsame.symm.trans ho)
      rw [hforest, Forest.lists_remove hc, if_neg]
      · exact hlist
      · -- Whoever is held by the conversation takes part in it, and has been let go of.
        rintro rfl
        obtain ⟨c', hc', hx⟩ := Forest.lists_iff.1 hlist
        rw [hc] at hc'
        cases hc'
        exact hnot (hsame.symm.trans ho) hx
    · rw [hnone] at ho
      cases ho
  · intro y x d hlist hd
    obtain ⟨hne, hlist⟩ := hlists hlist
    obtain ⟨e, he, hor⟩ := character_close hc hd
    obtain ⟨o, ho, hunder⟩ := h.holder hlist he
    -- Nothing lies below the conversation, so it holds nobody for another one.
    have hoid : o ≠ id := by
      rintro rfl
      rcases hunder.through_child h.linked with rfl | ⟨d', hd', -⟩
      · exact hne rfl
      · rw [hleaf] at hd'
        cases hd'
    refine ⟨o, ?_, ?_⟩
    · rcases hor with ⟨hsame, -⟩ | ⟨-, hid⟩
      · exact hsame.trans ho
      · rw [ho] at hid
        exact absurd (Option.some.inj hid) hoid
    · rw [hforest]
      exact hunder.remove h.linked hc hleaf hne
  · intro line hline
    rw [hforest, Forest.scheduler_remove hc] at hline
    obtain ⟨hline, hne⟩ := (Scheduler.holds_cancel h.kept _ _).1 hline
    rw [hforest, Forest.isSome_remove hc, if_neg (Ne.symm hne)]
    exact h.scheduled hline
  · intro x hx
    rw [hlast]
    obtain ⟨d, hd⟩ := Option.isSome_iff_exists.1 hx
    obtain ⟨e, he, -⟩ := character_close hc hd
    exact h.character_drawn (Option.isSome_of_eq_some he)
  · intro y x hlist
    rw [hlast]
    exact h.listed_drawn (hlists hlist).2

/-- The second state is the first without some conversations. -/
structure Without (s s' : State S) (gone : List ConversationId) : Prop where
  coherent : s'.Coherent
  rest : ∀ x, (s'.forest.get? x).map Conversation.unlinked =
    if x ∈ gone then none else (s.forest.get? x).map Conversation.unlinked
  lastIndex : s'.forest.lastIndex = s.forest.lastIndex

theorem without_close (h : s.Coherent) (hc : s.forest.get? id = some c)
    (hleaf : s.forest.child? id = none) : s.Without (s.close id) [id] := by
  refine ⟨h.close hc hleaf, fun x => ?_, ?_⟩
  · have hget : (s.close id).forest.get? x = (s.forest.remove id).get? x := by
      rw [close_eq hc]
      rfl
    rw [hget, Forest.unlinked_remove hc]
    simp only [List.mem_singleton, eq_comm]
  · rw [close_eq hc]
    exact Forest.lastIndex_remove _ _

theorem without_foldl_close (h : s.Coherent) {l : List ConversationId} (hl : s.forest.Below id l)
    (hc : s.forest.get? id = some c) : s.Without ((id :: l).reverse.foldl close s) (id :: l) := by
  induction l generalizing id c with
  | nil => exact without_close h hc hl
  | cons d l ih =>
    obtain ⟨hd, hbelow⟩ := hl
    have hparent := (h.linked.child_iff id d).1 hd
    obtain ⟨e, he⟩ := Option.isSome_iff_exists.1 (Forest.isSome_of_parent? hparent)
    obtain ⟨hcoherent, hrest, hlast⟩ := ih hbelow he
    have hfold : (id :: d :: l).reverse.foldl close s =
        ((d :: l).reverse.foldl close s).close id := by
      rw [List.reverse_cons, List.foldl_append]
      rfl
    rw [hfold]
    generalize (d :: l).reverse.foldl close s = u at hcoherent hrest hlast
    have hnot : id ∉ d :: l := by
      intro hmem
      have hbelow' : s.forest.Below id (d :: l) := ⟨hd, hbelow⟩
      have hlt := (hbelow'.of_mem h.linked hmem).1
      omega
    have hid := hrest id
    rw [if_neg hnot, hc] at hid
    obtain ⟨c', hc', -⟩ := Option.map_eq_some_iff.1 hid
    -- What was below is gone, and with it the only child.
    have hleaf : u.forest.child? id = none := by
      cases hchild : u.forest.child? id with
      | none => rfl
      | some x =>
        have hup := (hcoherent.linked.child_iff id x).1 hchild
        rw [Forest.parent?_eq, hrest] at hup
        split at hup
        · cases hup
        · rename_i hx
          rw [← Forest.parent?_eq, ← h.linked.child_iff, hd] at hup
          cases hup
          exact absurd List.mem_cons_self hx
    obtain ⟨hcoherent', hrest', hlast'⟩ := without_close hcoherent hc' hleaf
    refine ⟨hcoherent', fun x => ?_, hlast'.trans hlast⟩
    rw [hrest', hrest]
    by_cases hx : x = id
    · simp [hx]
    · simp [hx]

/-- A conversation without children ends alone. -/
theorem closeAll_of_leaf (hleaf : s.forest.child? id = none) : s.closeAll id = s.close id := by
  rw [closeAll, Forest.descendants_of_leaf hleaf]
  rfl

/-- Ending a conversation takes it and everything below it away, and nothing else. -/
theorem without_closeAll (h : s.Coherent) (hc : s.forest.get? id = some c) :
    s.Without (s.closeAll id) (id :: s.forest.descendants id) :=
  without_foldl_close h (Forest.below_descendants h.linked id) hc

/-- What is below a conversation comes after it, and its parent before it, so the parent stays. -/
theorem parent_there_closeAll (h : s.Coherent) (hc : s.forest.get? id = some c)
    {p : ConversationId} (hp : c.parent = some p) :
    (s.forest.get? p).isSome ∧ ((s.closeAll id).forest.get? p).isSome := by
  have hup : s.forest.parent? id = some p := by
    rw [Forest.parent?, hc]
    exact hp
  obtain ⟨hthere, hlt⟩ := h.linked.parent_there hup
  have hnot : p ∉ id :: s.forest.descendants id := by
    intro hmem
    rcases List.mem_cons.1 hmem with rfl | hmem
    · omega
    · have hbelow := Forest.below_descendants h.linked id
      have hafter := (hbelow.of_mem h.linked hmem).1
      omega
  have hsome := congrArg Option.isSome ((without_closeAll h hc).rest p)
  rw [if_neg hnot, Option.isSome_map, Option.isSome_map] at hsome
  exact ⟨hthere, hsome.trans hthere⟩

end State

end TextWorld

import TextWorld.Engine.Callback
import TextWorld.Proofs.Conversation.Lineage
import TextWorld.Proofs.Conversation.Scheduling
import TextWorld.Proofs.World.Company

/-!
Conversations, their participants and their pending lines in step. A participant is held by the
conversation or by one above it, and nothing is held by or pending for a conversation that is gone.
-/

namespace TextWorld

namespace State

variable {S : Setting} {s s' : State S}

/-- What the engine and the programs rely on about conversations. -/
structure Coherent (s : State S) : Prop where
  linked : s.forest.Linked
  kept : s.forest.scheduler.Kept
  held : ∀ {x c id}, s.world.character? x = some c → c.conversation = some id →
    s.forest.lists id x = true
  holder : ∀ {id x c}, s.forest.lists id x = true → s.world.character? x = some c →
    ∃ o, c.conversation = some o ∧ s.forest.Under id o
  scheduled : ∀ {line}, s.forest.scheduler.Holds line → (s.forest.get? line.conversation).isSome
  character_drawn : ∀ {x}, (s.world.character? x).isSome → x.index ≤ s.world.lastIndex
  listed_drawn : ∀ {id x}, s.forest.lists id x = true → x.index ≤ s.world.lastIndex

theorem coherent_initial {w : World} (hw : w.Reachable) (memory : S.Memory) :
    (initial w memory : State S).Coherent := by
  have hlists (id : ConversationId) (x : CharacterId) :
      (initial w memory : State S).forest.lists id x = false := by
    have hget : (Forest.empty : Forest S.Talk S.Ending).get? id = none :=
      Std.ExtTreeMap.getElem?_empty
    rw [Forest.lists, initial, hget]
  have hqueue (slot : Slot) : (Scheduler.empty).queue[slot]? = none :=
    Std.ExtTreeMap.getElem?_empty
  refine ⟨Forest.linked_empty, Scheduler.kept_empty, ?_, ?_, ?_, ?_, ?_⟩
  · intro x c id hc hid
    rw [(hw.no_company hc).1] at hid
    cases hid
  · intro id x c hlist
    rw [hlists] at hlist
    cases hlist
  · rintro line ⟨slot, hslot⟩
    rw [initial, Forest.empty, hqueue] at hslot
    cases hslot
  · intro x hx
    obtain ⟨c, hc⟩ := Option.isSome_iff_exists.1 hx
    exact (hw.no_company hc).2
  · intro id x hlist
    rw [hlists] at hlist
    cases hlist

theorem Coherent.world (h : s.Coherent) {w : World} (hw : s.world.SameCompany w) :
    Coherent { s with world := w } := by
  refine ⟨h.linked, h.kept, ?_, ?_, h.scheduled, ?_, ?_⟩
  · intro x c id hc hid
    rcases hw.company hc with ⟨d, hd, hdc⟩ | ⟨hnone, -⟩
    · exact h.held hd (hdc.trans hid)
    · rw [hnone] at hid
      cases hid
  · intro id x c hlist hc
    rcases hw.company hc with ⟨d, hd, hdc⟩ | ⟨-, hlt⟩
    · obtain ⟨o, ho, hunder⟩ := h.holder hlist hd
      exact ⟨o, hdc.symm.trans ho, hunder⟩
    -- Whoever has come is too new to take part in anything.
    · have hdrawn := h.listed_drawn hlist
      omega
  · intro x hx
    obtain ⟨c, hc⟩ := Option.isSome_iff_exists.1 hx
    rcases hw.company hc with ⟨d, hd, -⟩ | ⟨-, -, hle⟩
    · exact Nat.le_trans (h.character_drawn (Option.isSome_of_eq_some hd)) hw.lastIndex
    · exact hle
  · intro id x hlist
    exact Nat.le_trans (h.listed_drawn hlist) hw.lastIndex

/-- Another scheduler whose pending lines belong to conversations that are there. -/
theorem Coherent.scheduler (h : s.Coherent) {scheduler : Scheduler} (hkept : scheduler.Kept)
    (hlines : ∀ {line}, scheduler.Holds line → (s.forest.get? line.conversation).isSome) :
    Coherent { s with forest.scheduler := scheduler } :=
  ⟨⟨h.linked.child_iff, h.linked.parent_there, h.linked.drawn⟩, hkept, h.held,
    fun hlist hc => by
      obtain ⟨o, ho, hunder⟩ := h.holder hlist hc
      exact ⟨o, ho, hunder.mono fun hparent => hparent⟩,
    hlines, h.character_drawn, h.listed_drawn⟩

theorem Coherent.schedule (h : s.Coherent) {id : ConversationId} {actor : CharacterId}
    {line : String} {delay : Duration} {reply : Except Error Unit × State S}
    (hr : s.schedule id actor line delay = some reply) : reply.2.Coherent := by
  rw [State.schedule] at hr
  split at hr
  · cases hr
    exact h
  · rename_i hcontains
    obtain ⟨due, -, rfl⟩ := Option.map_eq_some_iff.1 hr
    have hthere : (s.forest.get? id).isSome := by
      rw [← Forest.contains_iff]
      simpa using hcontains
    refine h.scheduler (h.kept.schedule _) ?_
    intro l hl
    rcases Scheduler.Holds.of_schedule h.kept hl with rfl | hl
    · exact hthere
    · exact h.scheduled hl

theorem Coherent.cancel (h : s.Coherent) (id : ConversationId) :
    Coherent { s with forest.scheduler := s.forest.scheduler.cancel id } := by
  refine h.scheduler (h.kept.cancel id) ?_
  intro l hl
  exact h.scheduled ((Scheduler.holds_cancel h.kept id l).1 hl).1

theorem Coherent.fire (h : s.Coherent) {now : Duration} {through : Nat} {fired : ScheduledLine}
    {scheduler : Scheduler}
    (hpop : s.forest.scheduler.popNext now through = some (fired, scheduler)) :
    Coherent { s with forest.scheduler := scheduler } := by
  refine h.scheduler (h.kept.popNext hpop) ?_
  intro l hl
  exact h.scheduled (Scheduler.Holds.of_popNext hpop hl)

/-- A change to a conversation that leaves its participants and its links alone. -/
theorem Coherent.modify (h : s.Coherent) (id : ConversationId)
    {g : Conversation S.Talk S.Ending → Conversation S.Talk S.Ending}
    (hparticipants : ∀ c, (g c).participants = c.participants)
    (hparent : ∀ c, (g c).parent = c.parent) (hchild : ∀ c, (g c).child = c.child) :
    Coherent { s with forest := s.forest.modify id g } := by
  have hp := Forest.parent?_modify hparent s.forest id
  have hl := Forest.lists_modify hparticipants s.forest id
  refine ⟨⟨?_, ?_, ?_⟩, h.kept, ?_, ?_, ?_, h.character_drawn, ?_⟩
  · intro p c
    rw [hp, Forest.child?_modify hchild]
    exact h.linked.child_iff p c
  · intro p c hpc
    rw [hp] at hpc
    rw [Forest.isSome_modify]
    exact h.linked.parent_there hpc
  · intro x hx
    rw [Forest.isSome_modify] at hx
    exact h.linked.drawn hx
  · intro x c o hc ho
    rw [hl]
    exact h.held hc ho
  · intro x actor c hlist hcharacter
    rw [hl] at hlist
    obtain ⟨o, ho, hunder⟩ := h.holder hlist hcharacter
    refine ⟨o, ho, hunder.mono ?_⟩
    intro a b hab
    rw [hp]
    exact hab
  · intro line hline
    rw [Forest.isSome_modify]
    exact h.scheduled hline
  · intro x actor hlist
    rw [hl] at hlist
    exact h.listed_drawn hlist

theorem Coherent.setTalk (h : s.Coherent) (id : ConversationId) (talk : Option S.Talk) :
    (s.setTalk id talk).Coherent :=
  h.modify id (fun _ => rfl) (fun _ => rfl) fun _ => rfl

theorem Coherent.handBack (h : s.Coherent) (id : ConversationId) (data : Value) :
    (s.handBack id data).Coherent :=
  h.modify id (fun _ => rfl) (fun _ => rfl) fun _ => rfl

theorem Coherent.takeHandedBack (h : s.Coherent) {id : ConversationId} {data : Value}
    {forest : Forest S.Talk S.Ending} (htake : s.forest.takeHandedBack id = some (data, forest)) :
    Coherent { s with forest } := by
  obtain ⟨_, rest, -, -, rfl⟩ := Forest.takeHandedBack_eq htake
  exact h.modify id (fun _ => rfl) (fun _ => rfl) fun _ => rfl

theorem character?_hold (s : State S) (id : ConversationId) (participants : List CharacterId)
    (x : CharacterId) :
    (s.hold id participants).world.character? x =
      if x ∈ participants then
        (s.world.character? x).map fun c =>
          { c with conversation := if c.conversation.isNone then some id else c.conversation }
      else s.world.character? x := by
  apply Table.getElem?_foldl_modify
  intro c
  cases c.conversation <;> rfl

theorem character_hold {id : ConversationId} {participants : List CharacterId} {x : CharacterId}
    {d : Character} (hd : (s.hold id participants).world.character? x = some d) :
    ∃ e, s.world.character? x = some e ∧
      (d.conversation = e.conversation ∧ (x ∈ participants → e.conversation ≠ none) ∨
        d.conversation = some id ∧ e.conversation = none ∧ x ∈ participants) := by
  rw [character?_hold] at hd
  split at hd
  · rename_i hx
    obtain ⟨e, he, rfl⟩ := Option.map_eq_some_iff.1 hd
    refine ⟨e, he, ?_⟩
    cases hconv : e.conversation with
    | none => exact .inr ⟨rfl, rfl, hx⟩
    | some o => exact .inl ⟨rfl, fun _ => Option.some_ne_none o⟩
  · rename_i hx
    exact ⟨d, hd, .inl ⟨rfl, fun h => absurd h hx⟩⟩

/-- Who is held by nobody, or by a conversation above, can take part in a new conversation. -/
theorem Coherent.add (h : s.Coherent) {c : Conversation S.Talk S.Ending} (hchild : c.child = none)
    (hparent : ∀ p, c.parent = some p → (s.forest.get? p).isSome ∧ s.forest.child? p = none)
    (hfree : ∀ x ∈ c.participants, ∃ d, s.world.character? x = some d ∧
      ∀ o, d.conversation = some o → ∃ p, c.parent = some p ∧ s.forest.Under p o) :
    (s.addConversation c).2.Coherent := by
  have hfresh := h.linked.fresh c
  have hnew : ∀ {x}, (s.forest.get? x).isSome → (s.forest.insert c).1 ≠ x := by
    rintro x hx rfl
    rw [hfresh] at hx
    cases hx
  have hup : ∀ {a b}, s.forest.parent? a = some b →
      (s.forest.insert c).2.parent? a = some b := by
    intro a b hab
    rw [Forest.parent?_insert, if_neg (hnew (Forest.isSome_of_parent? hab))]
    exact hab
  have hlisted : ∀ {y x}, s.forest.lists y x = true →
      (s.forest.insert c).2.lists y x = true := by
    intro y x hlist
    obtain ⟨d, hd, -⟩ := Forest.lists_iff.1 hlist
    rw [Forest.lists_insert, if_neg (hnew (Option.isSome_of_eq_some hd))]
    exact hlist
  have horigin : ∀ {x d}, (s.addConversation c).2.world.character? x = some d →
      ∃ e, s.world.character? x = some e ∧
        (d.conversation = e.conversation ∧ (x ∈ c.participants → e.conversation ≠ none) ∨
          d.conversation = some (s.forest.insert c).1 ∧ e.conversation = none ∧
            x ∈ c.participants) := fun hd => character_hold hd
  -- What was there keeps its parent and its participants; the holds change for those who join.
  refine ⟨h.linked.insert hchild hparent, ?_, ?_, ?_, ?_, ?_, ?_⟩
  · change (s.forest.insert c).2.scheduler.Kept
    rw [Forest.scheduler_insert]
    exact h.kept
  · intro x d o hd ho
    change (s.forest.insert c).2.lists o x = true
    obtain ⟨e, he, ⟨hsame, -⟩ | ⟨hheld, -, hx⟩⟩ := horigin hd
    · exact hlisted (h.held he (hsame.symm.trans ho))
    · rw [Forest.lists_insert, if_pos (Option.some.inj (hheld.symm.trans ho))]
      simpa using hx
  · intro y x d hlist hd
    change (s.forest.insert c).2.lists y x = true at hlist
    obtain ⟨e, he, hor⟩ := horigin hd
    rw [Forest.lists_insert] at hlist
    by_cases hy : (s.forest.insert c).1 = y
    · rw [if_pos hy] at hlist
      have hx : x ∈ c.participants := by simpa using hlist
      rcases hor with ⟨hsame, hne⟩ | ⟨hheld, -, -⟩
      · -- The holder is above the parent, and so above the new conversation.
        obtain ⟨o, ho⟩ := Option.ne_none_iff_exists'.1 (hne hx)
        obtain ⟨e', he', hfree'⟩ := hfree x hx
        have heq : e = e' := Option.some.inj (he.symm.trans he')
        subst heq
        obtain ⟨p, hp, hunder⟩ := hfree' o ho
        refine ⟨o, hsame.trans ho, .step ?_ (hunder.mono hup)⟩
        change (s.forest.insert c).2.parent? y = some p
        rw [Forest.parent?_insert, if_pos hy]
        exact hp
      · refine ⟨(s.forest.insert c).1, hheld, ?_⟩
        rw [hy]
        exact .refl y
    · rw [if_neg hy] at hlist
      obtain ⟨o, ho, hunder⟩ := h.holder hlist he
      rcases hor with ⟨hsame, -⟩ | ⟨-, hnone, -⟩
      · exact ⟨o, hsame.trans ho, hunder.mono hup⟩
      · rw [hnone] at ho
        cases ho
  · intro line hline
    change (s.forest.insert c).2.scheduler.Holds line at hline
    rw [Forest.scheduler_insert] at hline
    exact Forest.isSome_insert _ _ (h.scheduled hline)
  · intro x hx
    obtain ⟨d, hd⟩ := Option.isSome_iff_exists.1 hx
    obtain ⟨e, he, -⟩ := horigin hd
    exact h.character_drawn (Option.isSome_of_eq_some he)
  · intro y x hlist
    change (s.forest.insert c).2.lists y x = true at hlist
    change x.index ≤ s.world.lastIndex
    rw [Forest.lists_insert] at hlist
    split at hlist
    · have hx : x ∈ c.participants := by simpa using hlist
      obtain ⟨d, hd, -⟩ := hfree x hx
      exact h.character_drawn (Option.isSome_of_eq_some hd)
    · exact h.listed_drawn hlist

theorem of_checkFree {participants : List CharacterId} (h : s.checkFree participants = .ok ()) :
    ∀ x ∈ participants, ∃ c, s.world.character? x = some c ∧ c.conversation = none := by
  induction participants with
  | nil => simp
  | cons p ps ih =>
    rw [checkFree] at h
    split at h
    · cases h
    · rename_i c hc
      split at h
      · cases h
      · rename_i hnone
        intro x hx
        rcases List.mem_cons.1 hx with rfl | hx
        · exact ⟨c, hc, hnone⟩
        · exact ih h x hx

theorem of_checkJoinable {lineage : List ConversationId} {child : Option ConversationId}
    {participants : List CharacterId} (h : s.checkJoinable lineage child participants = .ok ()) :
    ∀ x ∈ participants, child = none ∧ ∃ c, s.world.character? x = some c ∧
      ∀ o, c.conversation = some o → o ∈ lineage := by
  induction participants generalizing child with
  | nil => simp
  | cons p ps ih =>
    rw [checkJoinable] at h
    split at h
    · cases h
    · rename_i c hc
      split at h
      · cases h
      · cases h
      · rename_i hfilter
        intro x hx
        rcases List.mem_cons.1 hx with rfl | hx
        · refine ⟨rfl, c, hc, fun o ho => ?_⟩
          rw [ho] at hfilter
          simpa using hfilter
        · exact ih h x hx

theorem Coherent.start (h : s.Coherent) (participants : List CharacterId) (talk : S.Talk)
    (ending : Option S.Ending) : (s.start participants talk ending).2.Coherent := by
  rw [State.start]
  split
  · exact h
  · split
    · exact h
    · rename_i hcheck
      refine h.add rfl (fun p hp => by cases hp) fun x hx => ?_
      obtain ⟨c, hc, hnone⟩ := of_checkFree hcheck x hx
      refine ⟨c, hc, fun o ho => ?_⟩
      rw [hnone] at ho
      cases ho

theorem Coherent.startChild (h : s.Coherent) (parent : ConversationId)
    (participants : List CharacterId) (talk : S.Talk) :
    (s.startChild parent participants talk).2.Coherent := by
  rw [State.startChild]
  split
  · exact h
  · rename_i hcontains
    have hthere : (s.forest.get? parent).isSome := by
      rw [← Forest.contains_iff]
      simpa using hcontains
    split
    · exact h
    · rename_i hne
      split
      · exact h
      · rename_i hcheck
        -- The check meets the parent's child, if there is one, at the first participant.
        have hjoin := of_checkJoinable hcheck
        obtain ⟨y, hy⟩ := List.exists_mem_of_ne_nil _ hne
        have hleaf := (hjoin y hy).1
        refine h.add rfl (fun p hp => ?_) fun x hx => ?_
        · cases hp
          exact ⟨hthere, hleaf⟩
        · obtain ⟨-, c, hc, hlineage⟩ := hjoin x hx
          refine ⟨c, hc, fun o ho => ⟨parent, rfl, ?_⟩⟩
          exact Forest.under_of_mem_lineage (hlineage o ho)

end State

end TextWorld

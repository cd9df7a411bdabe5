import TextWorld.Conversation.Forest

/-!
The links between conversations. A conversation and its child name each other, ids grow towards
the child, and so the conversations below one another form a chain.
-/

namespace TextWorld

/-- A conversation without its link to a child, which is all that others change of it. -/
def Conversation.unlinked {τ ε : Type} (c : Conversation τ ε) : Conversation τ ε :=
  { c with child := none }

namespace Forest

variable {τ ε : Type} {f f' : Forest τ ε} {a b d o p x id : ConversationId}
  {c : Conversation τ ε}

theorem get?_eq (f : Forest τ ε) (id : ConversationId) : f.get? id = f.table[id]? := rfl

theorem contains_iff : f.contains id = true ↔ (f.get? id).isSome := by
  rw [contains, get?_eq, Std.ExtTreeMap.contains_eq_isSome_getElem?]

theorem contains_eq_false_iff : f.contains id = false ↔ f.get? id = none := by
  rw [Bool.eq_false_iff, Ne, contains_iff, Bool.not_eq_true, Option.isSome_eq_false_iff,
    Option.isNone_iff_eq_none]

theorem contains_of_get? {id : ConversationId} {c : Conversation τ ε} (hc : f.get? id = some c) :
    f.contains id = true := by
  rw [contains_iff, hc]
  rfl

theorem child?_of_get? {id : ConversationId} {c : Conversation τ ε} (hc : f.get? id = some c) :
    f.child? id = c.child := by
  rw [child?, hc]
  rfl

theorem lists_iff {actor : CharacterId} :
    f.lists id actor = true ↔ ∃ c, f.get? id = some c ∧ actor ∈ c.participants := by
  rw [lists]
  cases f.get? id with
  | none => simp
  | some c => simp

theorem get?_modify (f : Forest τ ε) (id x : ConversationId)
    (g : Conversation τ ε → Conversation τ ε) :
    (f.modify id g).get? x = if id = x then (f.get? x).map g else f.get? x :=
  Table.getElem?_modify f.table id x g

theorem get?_modifyParent (f : Forest τ ε) (id : Option ConversationId) (x : ConversationId)
    (g : Conversation τ ε → Conversation τ ε) :
    (f.modifyParent id g).get? x = if id = some x then (f.get? x).map g else f.get? x := by
  cases id with
  | none => simp [modifyParent]
  | some id =>
    rw [modifyParent, get?_modify]
    simp only [Option.some.injEq]

theorem lastIndex_modifyParent (f : Forest τ ε) (id : Option ConversationId)
    (g : Conversation τ ε → Conversation τ ε) :
    (f.modifyParent id g).lastIndex = f.lastIndex := by
  cases id <;> rfl

theorem lastIndex_insert (f : Forest τ ε) (c : Conversation τ ε) :
    (f.insert c).2.lastIndex = f.lastIndex + 1 := by
  rw [insert]
  dsimp only
  rw [lastIndex_modifyParent]

theorem lastIndex_remove (f : Forest τ ε) (id : ConversationId) :
    (f.remove id).lastIndex = f.lastIndex := by
  rw [remove]
  cases f.get? id with
  | none => rfl
  | some c => exact lastIndex_modifyParent _ _ _

theorem scheduler_modifyParent (f : Forest τ ε) (id : Option ConversationId)
    (g : Conversation τ ε → Conversation τ ε) :
    (f.modifyParent id g).scheduler = f.scheduler := by
  cases id <;> rfl

theorem scheduler_insert (f : Forest τ ε) (c : Conversation τ ε) :
    (f.insert c).2.scheduler = f.scheduler := by
  rw [insert]
  exact scheduler_modifyParent _ _ _

theorem scheduler_remove (hc : f.get? id = some c) :
    (f.remove id).scheduler = f.scheduler.cancel id := by
  rw [remove, hc]
  exact scheduler_modifyParent _ _ _

theorem get?_insert (f : Forest τ ε) (c : Conversation τ ε) (x : ConversationId) :
    (f.insert c).2.get? x =
      if (f.insert c).1 = x then some c
      else if c.parent = some x then
        (f.get? x).map fun p => { p with child := some (f.insert c).1 }
      else f.get? x := by
  have h := get?_modifyParent f c.parent x fun p => { p with child := some (f.insert c).1 }
  rw [← h, get?_eq, get?_eq]
  exact Table.getElem?_insert _ _ _ _

theorem get?_remove (hc : f.get? id = some c) (x : ConversationId) :
    (f.remove id).get? x =
      if id = x then none
      else if c.parent = some x then
        (f.get? x).map fun p => { p with child := if p.child = some id then none else p.child }
      else f.get? x := by
  have herase (y : ConversationId) : ({ f with
      table := f.table.erase id, scheduler := f.scheduler.cancel id } : Forest τ ε).get? y =
      if id = y then none else f.get? y :=
    Table.getElem?_erase f.table id y
  rw [remove, hc]
  dsimp only
  rw [get?_modifyParent, herase]
  by_cases hx : id = x
  · simp [hx]
  · simp [hx]

theorem unlinked_insert (f : Forest τ ε) (c : Conversation τ ε) (x : ConversationId) :
    ((f.insert c).2.get? x).map Conversation.unlinked =
      if (f.insert c).1 = x then some c.unlinked else (f.get? x).map Conversation.unlinked := by
  rw [get?_insert]
  split
  · rfl
  · split
    · cases f.get? x <;> rfl
    · rfl

theorem unlinked_remove (hc : f.get? id = some c) (x : ConversationId) :
    ((f.remove id).get? x).map Conversation.unlinked =
      if id = x then none else (f.get? x).map Conversation.unlinked := by
  rw [get?_remove hc]
  split
  · rfl
  · split
    · cases f.get? x <;> rfl
    · rfl

theorem parent?_eq (f : Forest τ ε) (x : ConversationId) :
    f.parent? x = ((f.get? x).map Conversation.unlinked).bind (·.parent) := by
  rw [parent?]
  cases f.get? x <;> rfl

theorem lists_eq (f : Forest τ ε) (x : ConversationId) (actor : CharacterId) :
    f.lists x actor =
      (((f.get? x).map Conversation.unlinked).map (·.participants.contains actor)).getD false := by
  rw [lists]
  cases f.get? x <;> rfl

section Modify

variable {g : Conversation τ ε → Conversation τ ε}

theorem isSome_modify (f : Forest τ ε) (id x : ConversationId) :
    ((f.modify id g).get? x).isSome = (f.get? x).isSome := by
  rw [get?_modify]
  split
  · rw [Option.isSome_map]
  · rfl

theorem takeHandedBack_eq {data : Value} (h : f.takeHandedBack id = some (data, f')) :
    ∃ c rest, f.get? id = some c ∧ c.handedBack.toList = data :: rest.toList ∧
      f' = f.modify id fun c => { c with handedBack := rest } := by
  rw [takeHandedBack] at h
  obtain ⟨c, hc, h⟩ := Option.bind_eq_some_iff.1 h
  obtain ⟨⟨value, rest⟩, hpop, h⟩ := Option.bind_eq_some_iff.1 h
  cases h
  exact ⟨c, rest, hc, Queue.toList_of_pop? hpop, rfl⟩

theorem parent?_modify (hg : ∀ c, (g c).parent = c.parent) (f : Forest τ ε)
    (id x : ConversationId) : (f.modify id g).parent? x = f.parent? x := by
  rw [parent?, parent?, get?_modify]
  by_cases hx : id = x
  · rw [if_pos hx]
    cases f.get? x with
    | none => rfl
    | some c => exact hg c
  · rw [if_neg hx]

theorem child?_modify (hg : ∀ c, (g c).child = c.child) (f : Forest τ ε)
    (id x : ConversationId) : (f.modify id g).child? x = f.child? x := by
  rw [child?, child?, get?_modify]
  by_cases hx : id = x
  · rw [if_pos hx]
    cases f.get? x with
    | none => rfl
    | some c => exact hg c
  · rw [if_neg hx]

theorem lists_modify (hg : ∀ c, (g c).participants = c.participants) (f : Forest τ ε)
    (id x : ConversationId) (actor : CharacterId) :
    (f.modify id g).lists x actor = f.lists x actor := by
  rw [lists, lists, get?_modify]
  by_cases hx : id = x
  · rw [if_pos hx]
    cases f.get? x with
    | none => rfl
    | some c => exact congrArg (List.contains · actor) (hg c)
  · rw [if_neg hx]

end Modify

theorem parent?_insert (f : Forest τ ε) (c : Conversation τ ε) (x : ConversationId) :
    (f.insert c).2.parent? x = if (f.insert c).1 = x then c.parent else f.parent? x := by
  rw [parent?_eq, unlinked_insert]
  split
  · rfl
  · rw [parent?_eq]

theorem isSome_insert (f : Forest τ ε) (c : Conversation τ ε) (h : (f.get? x).isSome) :
    ((f.insert c).2.get? x).isSome := by
  have hmap := congrArg Option.isSome (unlinked_insert f c x)
  rw [Option.isSome_map] at hmap
  rw [hmap]
  split
  · rfl
  · rw [Option.isSome_map]
    exact h

theorem lists_insert (f : Forest τ ε) (c : Conversation τ ε) (x : ConversationId)
    (actor : CharacterId) :
    (f.insert c).2.lists x actor =
      if (f.insert c).1 = x then c.participants.contains actor else f.lists x actor := by
  rw [lists_eq, unlinked_insert]
  split
  · rfl
  · rw [lists_eq]

theorem isSome_remove (hc : f.get? id = some c) (x : ConversationId) :
    ((f.remove id).get? x).isSome = if id = x then false else (f.get? x).isSome := by
  have hmap := congrArg Option.isSome (unlinked_remove hc x)
  rw [Option.isSome_map] at hmap
  rw [hmap]
  split
  · rfl
  · rw [Option.isSome_map]

theorem lists_remove (hc : f.get? id = some c) (x : ConversationId) (actor : CharacterId) :
    (f.remove id).lists x actor = if id = x then false else f.lists x actor := by
  rw [lists_eq, unlinked_remove hc]
  split
  · rfl
  · rw [lists_eq]

theorem parent?_remove (hc : f.get? id = some c) (x : ConversationId) :
    (f.remove id).parent? x = if id = x then none else f.parent? x := by
  rw [parent?_eq, unlinked_remove hc]
  split
  · rfl
  · rw [parent?_eq]

theorem isSome_of_parent? (h : f.parent? x = some p) : (f.get? x).isSome := by
  rw [parent?] at h
  obtain ⟨c, hc, -⟩ := Option.bind_eq_some_iff.1 h
  exact Option.isSome_of_eq_some hc

/-- Parents and children name each other, parents are there and have smaller ids, and no id has
been handed out that is not counted. -/
structure Linked (f : Forest τ ε) : Prop where
  child_iff : ∀ p c, f.child? p = some c ↔ f.parent? c = some p
  parent_there : ∀ {p c}, f.parent? c = some p → (f.get? p).isSome ∧ p.index < c.index
  drawn : ∀ {id}, (f.get? id).isSome → id.index ≤ f.lastIndex

theorem linked_empty : (empty : Forest τ ε).Linked := by
  have hget (x : ConversationId) : (empty : Forest τ ε).get? x = none := by
    rw [get?_eq]
    exact Std.ExtTreeMap.getElem?_empty
  have hparent (x : ConversationId) : (empty : Forest τ ε).parent? x = none := by
    rw [parent?, hget]
    rfl
  refine ⟨fun p c => ?_, fun {p c} h => ?_, fun {id} h => ?_⟩
  · rw [hparent, child?, hget]
    simp
  · rw [hparent] at h
    cases h
  · rw [hget] at h
    cases h

/-- The id for the next conversation has not been handed out. -/
theorem Linked.fresh (h : f.Linked) (c : Conversation τ ε) : f.get? (f.insert c).1 = none := by
  cases hget : f.get? (f.insert c).1 with
  | none => rfl
  | some d =>
    have hdrawn := h.drawn (Option.isSome_of_eq_some hget)
    have hfirst : (f.insert c).1.index = f.lastIndex + 1 := rfl
    omega

theorem child?_insert (h : f.Linked) (hc : c.child = none)
    (hp : ∀ p, c.parent = some p → (f.get? p).isSome) (x : ConversationId) :
    (f.insert c).2.child? x =
      if c.parent = some x then some (f.insert c).1 else f.child? x := by
  rw [child?, get?_insert]
  by_cases hnew : (f.insert c).1 = x
  -- The conversation itself is too new to be its own parent.
  · rw [if_pos hnew, if_neg, child?, ← hnew, h.fresh c]
    · exact hc
    · intro hparent
      have hthere := hp _ hparent
      rw [← hnew, h.fresh c] at hthere
      cases hthere
  · rw [if_neg hnew]
    by_cases hparent : c.parent = some x
    · obtain ⟨q, hq⟩ := Option.isSome_iff_exists.1 (hp x hparent)
      rw [if_pos hparent, if_pos hparent, hq]
      rfl
    · rw [if_neg hparent, if_neg hparent, child?]

/-- A new conversation can be put at the top, or below one that has no child yet. -/
theorem Linked.insert (h : f.Linked) (hc : c.child = none)
    (hp : ∀ p, c.parent = some p → (f.get? p).isSome ∧ f.child? p = none) :
    (f.insert c).2.Linked := by
  have hthere : ∀ p, c.parent = some p → (f.get? p).isSome := fun p hparent => (hp p hparent).1
  have hfresh : f.parent? (f.insert c).1 = none := by
    rw [parent?, h.fresh c]
    rfl
  refine ⟨fun p d => ?_, fun {p d} hpd => ?_, fun {id} hid => ?_⟩
  · rw [child?_insert h hc hthere, parent?_insert]
    -- The only new link is the one between the conversation and its parent.
    by_cases hparent : c.parent = some p
    · rw [if_pos hparent]
      by_cases hd : (f.insert c).1 = d
      · simp [hd, hparent]
      · rw [if_neg hd, ← h.child_iff, (hp p hparent).2]
        simp [hd]
    · rw [if_neg hparent]
      by_cases hd : (f.insert c).1 = d
      · rw [if_pos hd, h.child_iff, ← hd, hfresh]
        simp [hparent]
      · rw [if_neg hd]
        exact h.child_iff p d
  · rw [parent?_insert] at hpd
    split at hpd
    · rename_i hd
      -- The new id is above all that have been handed out.
      have hq := hthere p hpd
      have hdrawn := h.drawn hq
      have hfirst : (f.insert c).1.index = f.lastIndex + 1 := rfl
      refine ⟨isSome_insert f c hq, ?_⟩
      rw [← hd]
      omega
    · obtain ⟨hq, hlt⟩ := h.parent_there hpd
      exact ⟨isSome_insert f c hq, hlt⟩
  · rw [get?_insert] at hid
    rw [lastIndex_insert]
    split at hid
    · rename_i heq
      rw [← heq]
      exact Nat.le_refl _
    · have hold : (f.get? id).isSome := by
        split at hid
        · rwa [Option.isSome_map] at hid
        · exact hid
      exact Nat.le_succ_of_le (h.drawn hold)

theorem child?_remove (h : f.Linked) (hc : f.get? id = some c) (x : ConversationId) :
    (f.remove id).child? x =
      if id = x ∨ f.child? x = some id then none else f.child? x := by
  rw [child?, get?_remove hc]
  by_cases hx : id = x
  · rw [if_pos hx, if_pos (.inl hx)]
    rfl
  · rw [if_neg hx]
    have hparent : c.parent = some x ↔ f.child? x = some id := by
      rw [h.child_iff, parent?, hc]
      exact Iff.rfl
    by_cases hchild : f.child? x = some id
    · rw [if_pos (hparent.2 hchild), if_pos (.inr hchild)]
      rw [child?] at hchild
      obtain ⟨q, hq, hqc⟩ := Option.bind_eq_some_iff.1 hchild
      rw [hq]
      simp [hqc]
    · rw [if_neg fun hp => hchild (hparent.1 hp), if_neg (by simp [hx, hchild]), child?]

/-- A conversation without a child can be taken away. -/
theorem Linked.remove (h : f.Linked) (hc : f.get? id = some c) (hleaf : f.child? id = none) :
    (f.remove id).Linked := by
  refine ⟨fun p d => ?_, fun {p d} hpd => ?_, fun {x} hx => ?_⟩
  · rw [child?_remove h hc, parent?_remove hc]
    by_cases hd : id = d
    · subst hd
      rw [if_pos rfl]
      split
      · simp
      · rename_i hno
        simp only [reduceCtorEq, iff_false]
        exact fun hchild => hno (.inr hchild)
    · rw [if_neg hd, ← h.child_iff]
      split
      · rename_i hor
        constructor
        · intro hnone
          cases hnone
        · intro hchild
          rcases hor with rfl | hid
          · rw [hleaf] at hchild
            cases hchild
          · rw [hid] at hchild
            exact absurd (Option.some.inj hchild) hd
      · exact Iff.rfl
  · rw [parent?_remove hc] at hpd
    split at hpd
    · cases hpd
    · obtain ⟨hthere, hlt⟩ := h.parent_there hpd
      refine ⟨?_, hlt⟩
      rw [isSome_remove hc, if_neg]
      · exact hthere
      -- Nobody has the leaf for a parent.
      · rintro rfl
        have hchild := (h.child_iff id d).2 hpd
        rw [hleaf] at hchild
        cases hchild
  · rw [isSome_remove hc] at hx
    rw [lastIndex_remove]
    split at hx
    · cases hx
    · exact h.drawn hx

end Forest

end TextWorld

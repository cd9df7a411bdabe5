import TextWorld.Conversation.Scheduler

/-!
The two tables of a scheduler describe the same pending lines, one for each conversation.
-/

namespace TextWorld

namespace Scheduler

variable {s s' : Scheduler} {id : ConversationId} {line l : ScheduledLine}

def Holds (s : Scheduler) (line : ScheduledLine) : Prop :=
  ∃ slot : Slot, s.queue[slot]? = some line

/-- A line is queued in a slot exactly if the slot is noted for the line's conversation. -/
structure Kept (s : Scheduler) : Prop where
  queued : ∀ {slot : Slot} {line : ScheduledLine}, s.queue[slot]? = some line →
    s.index[line.conversation]? = some slot
  indexed : ∀ {id : ConversationId} {slot : Slot}, s.index[id]? = some slot →
    ∃ line, s.queue[slot]? = some line ∧ line.conversation = id
  drawn : ∀ {slot : Slot}, (s.queue[slot]?).isSome → slot.sequence ≤ s.lastSequence

theorem kept_empty : empty.Kept where
  queued h := by simp [empty] at h
  indexed h := by simp [empty] at h
  drawn h := by simp [empty] at h

theorem cancel_none (h : s.index[id]? = none) : s.cancel id = s := by
  rw [cancel, Std.ExtTreeMap.get?_eq_getElem?, h]

theorem cancel_some {slot : Slot} (h : s.index[id]? = some slot) :
    s.cancel id = { s with queue := s.queue.erase slot, index := s.index.erase id } := by
  rw [cancel, Std.ExtTreeMap.get?_eq_getElem?, h]

/-- What is left when one slot is taken out of both tables. -/
theorem Kept.erase (h : s.Kept) {slot : Slot} (hslot : s.index[id]? = some slot) :
    Kept { s with queue := s.queue.erase slot, index := s.index.erase id } := by
  -- Each slot belongs to one conversation and each conversation has one slot, so the two tables
  -- lose each other's entry.
  refine ⟨?_, ?_, ?_⟩
  · intro other line hline
    rw [Table.getElem?_erase] at hline ⊢
    split at hline
    · cases hline
    · rename_i hne
      have hindex := h.queued hline
      rw [if_neg]
      · exact hindex
      · intro heq
        rw [← heq, hslot] at hindex
        exact hne (Option.some.inj hindex)
  · intro x other hother
    rw [Table.getElem?_erase] at hother
    split at hother
    · cases hother
    · rename_i hne
      obtain ⟨line, hline, hconv⟩ := h.indexed hother
      refine ⟨line, ?_, hconv⟩
      rw [Table.getElem?_erase, if_neg]
      · exact hline
      · rintro rfl
        obtain ⟨line', hline', hconv'⟩ := h.indexed hslot
        rw [hline] at hline'
        cases hline'
        exact hne (hconv'.symm.trans hconv)
  · intro other hother
    rw [Table.getElem?_erase] at hother
    split at hother
    · cases hother
    · exact h.drawn hother

theorem Kept.cancel (h : s.Kept) (id : ConversationId) : (s.cancel id).Kept := by
  cases hslot : s.index[id]? with
  | none =>
    rw [cancel_none hslot]
    exact h
  | some slot =>
    rw [cancel_some hslot]
    exact h.erase hslot

theorem Holds.of_erase {slot : Slot} {index : Table ConversationId Slot}
    (h : Holds { s with queue := s.queue.erase slot, index } l) : s.Holds l := by
  obtain ⟨other, hother⟩ := h
  rw [Table.getElem?_erase] at hother
  split at hother
  · cases hother
  · exact ⟨other, hother⟩

theorem holds_cancel (h : s.Kept) (id : ConversationId) (l : ScheduledLine) :
    (s.cancel id).Holds l ↔ s.Holds l ∧ l.conversation ≠ id := by
  cases hslot : s.index[id]? with
  | none =>
    rw [cancel_none hslot]
    refine ⟨fun hl => ⟨hl, ?_⟩, fun hl => hl.1⟩
    rintro rfl
    obtain ⟨slot, hl⟩ := hl
    have hindex := h.queued hl
    rw [hslot] at hindex
    cases hindex
  | some slot =>
    rw [cancel_some hslot]
    obtain ⟨line, hline, hconv⟩ := h.indexed hslot
    constructor
    · intro hl
      refine ⟨hl.of_erase, ?_⟩
      rintro rfl
      obtain ⟨other, hother⟩ := hl
      rw [Table.getElem?_erase] at hother
      split at hother
      · cases hother
      · rename_i hne
        have hindex := h.queued hother
        rw [hslot] at hindex
        exact hne (Option.some.inj hindex)
    · rintro ⟨⟨other, hother⟩, hne⟩
      refine ⟨other, ?_⟩
      rw [Table.getElem?_erase, if_neg]
      · exact hother
      · rintro rfl
        rw [hline] at hother
        cases hother
        exact hne hconv

theorem Kept.schedule (h : s.Kept) (line : ScheduledLine) : (s.schedule line).Kept := by
  have hc := h.cancel line.conversation
  -- Nothing has the new sequence number yet, and nothing is pending for the conversation.
  have hlast : (s.cancel line.conversation).lastSequence = s.lastSequence := by
    unfold Scheduler.cancel
    split <;> rfl
  have hfree : ∀ {slot : Slot} {l : ScheduledLine},
      (s.cancel line.conversation).queue[slot]? = some l →
      l.conversation ≠ line.conversation ∧ slot ≠ ⟨line.due, s.lastSequence + 1⟩ := by
    intro slot l hl
    refine ⟨((holds_cancel h _ _).1 ⟨slot, hl⟩).2, ?_⟩
    rintro rfl
    have hdrawn := hc.drawn (Option.isSome_of_eq_some hl)
    rw [hlast] at hdrawn
    dsimp only at hdrawn
    omega
  dsimp only [Scheduler.schedule]
  rw [hlast]
  refine ⟨?_, ?_, ?_⟩
  · intro slot l hl
    dsimp only at hl ⊢
    rw [Table.getElem?_insert] at hl ⊢
    split at hl
    · rename_i hslot
      cases hl
      rw [if_pos rfl, hslot]
    · rw [if_neg (Ne.symm (hfree hl).1)]
      exact hc.queued hl
  · intro id slot hslot
    dsimp only at hslot ⊢
    rw [Table.getElem?_insert] at hslot
    split at hslot
    · rename_i hid
      cases hslot
      exact ⟨line, by rw [Table.getElem?_insert, if_pos rfl], hid⟩
    · obtain ⟨l, hl, hconv⟩ := hc.indexed hslot
      exact ⟨l, by rw [Table.getElem?_insert, if_neg (Ne.symm (hfree hl).2)]; exact hl, hconv⟩
  · intro slot hslot
    dsimp only at hslot ⊢
    rw [Table.getElem?_insert] at hslot
    split at hslot
    · rename_i heq
      subst heq
      exact Nat.le_refl _
    · have hdrawn := hc.drawn hslot
      omega

theorem Holds.of_schedule (h : s.Kept) (hl : (s.schedule line).Holds l) : l = line ∨ s.Holds l := by
  obtain ⟨slot, hslot⟩ := hl
  dsimp only [Scheduler.schedule] at hslot
  rw [Table.getElem?_insert] at hslot
  split at hslot
  · exact .inl (Option.some.inj hslot).symm
  · exact .inr ((holds_cancel h _ _).1 ⟨slot, hslot⟩).1

/-- A line that is taken was in the slot that both tables lose. -/
theorem popNext_spec {now : Duration} {through : Nat}
    (hpop : s.popNext now through = some (line, s')) :
    ∃ slot, s.queue[slot]? = some line ∧
      s' = { s with queue := s.queue.erase slot, index := s.index.erase line.conversation } := by
  obtain ⟨⟨slot, l⟩, hfind, heq⟩ := Option.map_eq_some_iff.1 hpop
  cases heq
  have hmem := List.mem_of_find?_eq_some hfind
  have hqueue := (List.takeWhile_sublist _).subset hmem
  exact ⟨slot, Std.ExtTreeMap.mem_toList_iff_getElem?_eq_some.1 hqueue, rfl⟩

theorem Kept.popNext (h : s.Kept) {now : Duration} {through : Nat}
    (hpop : s.popNext now through = some (line, s')) : s'.Kept := by
  obtain ⟨slot, hslot, rfl⟩ := popNext_spec hpop
  exact h.erase (h.queued hslot)

theorem Holds.of_popNext {now : Duration} {through : Nat}
    (hpop : s.popNext now through = some (line, s')) (hl : s'.Holds l) : s.Holds l := by
  obtain ⟨slot, -, rfl⟩ := popNext_spec hpop
  exact hl.of_erase

end Scheduler

end TextWorld

import TextWorld.Proofs.Conversation.Scheduling

/-!
Pending lines as time goes by. Those that are taken come in the order of their slots; what was
pending stays so until it is taken or withdrawn, and what is scheduled since has a later number.
-/

namespace TextWorld

namespace Slot

/-- The earlier time comes first, and of equal times what was scheduled first. -/
def Before (a b : Slot) : Prop := a.due < b.due ∨ a.due = b.due ∧ a.sequence < b.sequence

variable {a b c : Slot}

theorem before_iff : a.Before b ↔ compare a b = .lt := by
  change _ ↔ (compare a.due.nanos b.due.nanos).then (compare a.sequence b.sequence) = .lt
  rw [Ordering.then_eq_lt, Std.LawfulEqCmp.compare_eq_iff_eq, Nat.compare_eq_lt, Nat.compare_eq_lt]
  constructor
  · rintro (hlt | ⟨heq, hlt⟩)
    · exact .inl hlt
    · exact .inr ⟨congrArg Duration.nanos heq, hlt⟩
  · rintro (hlt | ⟨heq, hlt⟩)
    · exact .inl hlt
    · refine .inr ⟨?_, hlt⟩
      obtain ⟨⟨_⟩, _⟩ := a
      obtain ⟨⟨_⟩, _⟩ := b
      exact congrArg Duration.mk heq

theorem Before.due_le (h : a.Before b) : a.due ≤ b.due := by
  rcases h with hlt | ⟨heq, -⟩
  · exact Nat.le_of_lt hlt
  · exact Nat.le_of_eq (congrArg Duration.nanos heq)

theorem Before.ne (h : a.Before b) : a ≠ b := by
  rintro rfl
  rcases h with hlt | ⟨-, hlt⟩
  · exact Nat.lt_irrefl _ hlt
  · exact Nat.lt_irrefl _ hlt

theorem Before.asymm (h : a.Before b) : ¬b.Before a := by
  rw [before_iff] at h ⊢
  rw [Std.OrientedCmp.gt_of_lt h]
  decide

end Slot

/-- A list in which whatever comes before something accepted is accepted too. -/
theorem mem_takeWhile {α : Type} {p : α → Bool} {l : List α}
    (h : l.Pairwise fun a b => p b = true → p a = true) {x : α} (hx : x ∈ l) (hp : p x = true) :
    x ∈ l.takeWhile p := by
  induction l with
  | nil => cases hx
  | cons a l ih =>
    rw [List.pairwise_cons] at h
    have ha : p a = true := by
      rcases List.mem_cons.1 hx with rfl | hx
      · exact hp
      · exact h.1 x hx hp
    rw [List.takeWhile_cons_of_pos ha]
    rcases List.mem_cons.1 hx with rfl | hx
    · exact List.mem_cons_self
    · exact List.mem_cons_of_mem _ (ih h.2 hx)

namespace Scheduler

variable {s s' s'' : Scheduler} {slot other : Slot} {line l : ScheduledLine}
variable {now : Duration} {through : Nat} {id : ConversationId}

/-- A line that is due and old enough is taken out of its slot, the first of all these. -/
structure Takes (s : Scheduler) (now : Duration) (through : Nat) (slot : Slot)
    (line : ScheduledLine) (s' : Scheduler) : Prop where
  queued : s.queue[slot]? = some line
  due : slot.due ≤ now
  old : slot.sequence ≤ through
  first : ∀ {other : Slot} {l : ScheduledLine}, s.queue[other]? = some l →
    other.sequence ≤ through → other = slot ∨ slot.Before other
  left : s' = { s with queue := s.queue.erase slot, index := s.index.erase line.conversation }

theorem sorted_queue (s : Scheduler) :
    s.queue.toList.Pairwise fun a b => a.1.Before b.1 := by
  have hsorted := Std.ExtTreeMap.ordered_keys_toList (t := s.queue)
  exact hsorted.imp Slot.before_iff.2

theorem mem_queue : (slot, line) ∈ s.queue.toList ↔ s.queue[slot]? = some line :=
  Std.ExtTreeMap.mem_toList_iff_getElem?_eq_some

theorem takes_of_popNext (h : s.popNext now through = some (line, s')) :
    ∃ slot, s.Takes now through slot line s' := by
  obtain ⟨⟨slot, l⟩, hfind, heq⟩ := Option.map_eq_some_iff.1 h
  cases heq
  have hmem := List.mem_of_find?_eq_some hfind
  have hdue : slot.due ≤ now := by
    simpa using List.all_eq_true.1 List.all_takeWhile _ hmem
  obtain ⟨hold, skipped, rest, htaken, hskipped⟩ := List.find?_eq_some_iff_append.1 hfind
  have hsplit : s.queue.toList = skipped ++ (slot, l) :: (rest ++ s.queue.toList.dropWhile
      fun e => e.1.due ≤ now) := by
    rw [← List.cons_append, ← List.append_assoc, ← htaken, List.takeWhile_append_dropWhile]
  refine ⟨slot, ?_, hdue, by simpa using hold, fun {other l'} hother holder => ?_, rfl⟩
  · exact mem_queue.1 ((List.takeWhile_sublist _).subset hmem)
  · have hsorted := s.sorted_queue
    rw [hsplit, List.pairwise_append, List.pairwise_cons] at hsorted
    rw [← mem_queue, hsplit] at hother
    rcases List.mem_append.1 hother with hearlier | hlater
    · -- What comes earlier is too new.
      have hnew := hskipped _ hearlier
      simp [holder] at hnew
    · rcases List.mem_cons.1 hlater with heq | hlater
      · exact .inl (congrArg Prod.fst heq)
      · exact .inr (hsorted.2.1.1 _ hlater)

/-- When nothing is taken, nothing that is old enough is due. -/
theorem not_due_of_popNext (h : s.popNext now through = none) (hslot : s.queue[slot]? = some line)
    (hold : slot.sequence ≤ through) : ¬slot.due ≤ now := by
  intro hdue
  have hnone := List.find?_eq_none.1 (Option.map_eq_none_iff.1 h)
  -- The queue is sorted by time, so all that is due stands at its beginning.
  have hmem : (slot, line) ∈ s.queue.toList.takeWhile fun e => e.1.due ≤ now := by
    apply mem_takeWhile _ (mem_queue.2 hslot) (by simpa using hdue)
    refine s.sorted_queue.imp fun {a b} hbefore hb => ?_
    simp only [decide_eq_true_eq] at hb ⊢
    exact Nat.le_trans hbefore.due_le hb
  exact hnone _ hmem (by simpa using hold)

/-- The slots that were drawn up to then. -/
def older (s : Scheduler) (through : Nat) : List Slot :=
  s.queue.keys.filter (·.sequence ≤ through)

theorem mem_older : slot ∈ s.older through ↔
    (∃ line, s.queue[slot]? = some line) ∧ slot.sequence ≤ through := by
  rw [older, List.mem_filter, Std.ExtTreeMap.mem_keys, decide_eq_true_eq,
    Std.ExtTreeMap.mem_iff_isSome_getElem?, Option.isSome_iff_exists]

theorem popNext_of_older (h : s.older through = []) : s.popNext now through = none := by
  cases hpop : s.popNext now through with
  | none => rfl
  | some taken =>
    obtain ⟨slot, htakes⟩ := takes_of_popNext hpop
    have hmem : slot ∈ s.older through := mem_older.2 ⟨⟨_, htakes.queued⟩, htakes.old⟩
    rw [h] at hmem
    cases hmem

theorem nodup_older (s : Scheduler) (through : Nat) : (s.older through).Nodup :=
  Std.ExtTreeMap.nodup_keys.filter _

theorem length_older_le (s : Scheduler) (through : Nat) : (s.older through).length ≤ s.size := by
  rw [size, ← Std.ExtTreeMap.length_keys]
  exact List.length_filter_le _ _

/-- What is pending in the second was pending in the first, or has been scheduled since. -/
structure Later (s s' : Scheduler) : Prop where
  lastSequence : s.lastSequence ≤ s'.lastSequence
  pending : ∀ {slot : Slot} {line : ScheduledLine}, s'.queue[slot]? = some line →
    s.queue[slot]? = some line ∨ s.lastSequence < slot.sequence ∧ slot.due = line.due

namespace Later

theorem refl (s : Scheduler) : s.Later s := ⟨Nat.le_refl _, .inl⟩

theorem trans (h : s.Later s') (h' : s'.Later s'') : s.Later s'' := by
  refine ⟨Nat.le_trans h.lastSequence h'.lastSequence, fun {slot line} hslot => ?_⟩
  rcases h'.pending hslot with hslot | ⟨hnew, hdue⟩
  · exact h.pending hslot
  · exact .inr ⟨Nat.lt_of_le_of_lt h.lastSequence hnew, hdue⟩

theorem erase (s : Scheduler) (slot : Slot) (index : Table ConversationId Slot) :
    s.Later { s with queue := s.queue.erase slot, index } := by
  refine ⟨Nat.le_refl _, fun {other line} hother => .inl ?_⟩
  rw [Table.getElem?_erase] at hother
  split at hother
  · cases hother
  · exact hother

theorem cancel (s : Scheduler) (id : ConversationId) : s.Later (s.cancel id) := by
  unfold Scheduler.cancel
  split
  · exact .refl s
  · exact erase s _ _

theorem schedule (s : Scheduler) (line : ScheduledLine) : s.Later (s.schedule line) := by
  -- What was pending for the conversation goes first, and then a number is drawn.
  have hcancel := cancel s line.conversation
  refine hcancel.trans ⟨Nat.le_succ _, fun {slot l} hslot => ?_⟩
  dsimp only [Scheduler.schedule] at hslot
  rw [Table.getElem?_insert] at hslot
  split at hslot
  · rename_i heq
    cases hslot
    rw [← heq]
    exact .inr ⟨Nat.lt_succ_self _, rfl⟩
  · exact .inl hslot

theorem takes (h : s.Takes now through slot line s') : s.Later s' := by
  rw [h.left]
  exact erase s slot _

/-- Slots that were drawn up to then come from the first. -/
theorem old (h : s.Later s') (hthrough : through ≤ s.lastSequence)
    (hslot : s'.queue[slot]? = some line) (hold : slot.sequence ≤ through) :
    s.queue[slot]? = some line := by
  rcases h.pending hslot with hslot | ⟨hnew, -⟩
  · exact hslot
  · exact absurd (Nat.le_trans hold hthrough) (Nat.not_le.2 hnew)

end Later

/-- Each slot has the time of its line. -/
def Dated (s : Scheduler) : Prop :=
  ∀ (slot : Slot) (line : ScheduledLine), s.queue[slot]? = some line → slot.due = line.due

theorem dated_empty : empty.Dated := fun slot line h => by simp [empty] at h

theorem Dated.later (hs : s.Dated) (h : s.Later s') : s'.Dated := by
  intro slot line hslot
  rcases h.pending hslot with hslot | ⟨-, hdue⟩
  · exact hs slot line hslot
  · exact hdue

/-- A line leaves with its slot only. -/
theorem Takes.keeps (h : s.Takes now through slot line s') (hother : s.queue[other]? = some l)
    (hne : other ≠ slot) : s'.queue[other]? = some l := by
  rw [h.left, Table.getElem?_erase, if_neg (Ne.symm hne)]
  exact hother

theorem Takes.not_queued (h : s.Takes now through slot line s') : s'.queue[slot]? = none := by
  rw [h.left, Table.getElem?_erase, if_pos rfl]

theorem Kept.takes (hk : s.Kept) (h : s.Takes now through slot line s') : s'.Kept := by
  rw [h.left]
  exact hk.erase (hk.queued h.queued)

theorem Kept.keeps_cancel (hk : s.Kept) (hslot : s.queue[slot]? = some line)
    (hne : line.conversation ≠ id) : (s.cancel id).queue[slot]? = some line := by
  cases hindex : s.index[id]? with
  | none =>
    rw [cancel_none hindex]
    exact hslot
  | some drawn =>
    rw [cancel_some hindex, Table.getElem?_erase, if_neg]
    · exact hslot
    · -- The slot in the index is that of another conversation.
      rintro rfl
      obtain ⟨l, hl, hconversation⟩ := hk.indexed hindex
      rw [hslot] at hl
      cases hl
      exact hne hconversation

theorem lastSequence_cancel (s : Scheduler) (id : ConversationId) :
    (s.cancel id).lastSequence = s.lastSequence := by
  unfold cancel
  split <;> rfl

theorem queued_schedule (s : Scheduler) (line : ScheduledLine) :
    (s.schedule line).queue[(⟨line.due, s.lastSequence + 1⟩ : Slot)]? = some line := by
  dsimp only [schedule]
  rw [lastSequence_cancel, Table.getElem?_insert, if_pos rfl]

theorem Kept.keeps_schedule (hk : s.Kept) (hslot : s.queue[slot]? = some l)
    (hne : l.conversation ≠ line.conversation) :
    (s.schedule line).queue[slot]? = some l := by
  dsimp only [Scheduler.schedule]
  rw [lastSequence_cancel, Table.getElem?_insert, if_neg]
  · exact hk.keeps_cancel hslot hne
  · -- The number is new.
    rintro rfl
    have hdrawn := hk.drawn (Option.isSome_of_eq_some hslot)
    dsimp only at hdrawn
    omega

/-- A queued line is the pending one of its conversation. -/
theorem Kept.pending_eq (hk : s.Kept) (hslot : s.queue[slot]? = some line) :
    s.pending line.conversation = some line := by
  have hindex := hk.queued hslot
  simp only [pending, Std.ExtTreeMap.get?_eq_getElem?, hindex, hslot, Option.bind_some]

end Scheduler

end TextWorld

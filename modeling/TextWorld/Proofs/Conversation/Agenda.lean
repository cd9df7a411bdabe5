import TextWorld.Proofs.Conversation.Due

/-!
The scheduler as a plain list. The list holds the pending lines in the order in which they were
scheduled, one for each conversation. Whatever is asked of the two tables is answered as the list
answers it.
-/

namespace TextWorld

instance : DecidableRel Slot.Before := fun a b =>
  inferInstanceAs (Decidable (a.due < b.due ∨ a.due = b.due ∧ a.sequence < b.sequence))

/-- A pending line and the number under which it was scheduled. -/
structure Appointment where
  sequence : Nat
  line : ScheduledLine
  deriving DecidableEq, Repr

def Appointment.slot (e : Appointment) : Slot := ⟨e.line.due, e.sequence⟩

/-- Whether the time of an appointment comes before all others of some, and of equal times its
number. -/
def Appointment.leads (e : Appointment) (es : List Appointment) : Bool :=
  es.all fun f => f = e ∨ e.slot.Before f.slot

theorem Appointment.leads_iff {e : Appointment} {es : List Appointment} :
    e.leads es = true ↔ ∀ f ∈ es, f = e ∨ e.slot.Before f.slot := by
  simp only [leads, List.all_eq_true, decide_eq_true_eq]

theorem Appointment.eq_iff {e : Appointment} {n : Nat} {line : ScheduledLine} :
    e = ⟨n, line⟩ ↔ e.slot = ⟨line.due, n⟩ ∧ e.line = line := by
  constructor
  · rintro rfl
    exact ⟨rfl, rfl⟩
  · rintro ⟨hslot, hline⟩
    have hsequence : e.sequence = n := congrArg Slot.sequence hslot
    rw [← hsequence, ← hline]

/-- Pending lines in the order in which they were scheduled. -/
structure Agenda where
  entries : List Appointment
  lastSequence : Nat

namespace Agenda

def empty : Agenda := ⟨[], 0⟩

def lines (a : Agenda) : List ScheduledLine := a.entries.map (·.line)

def pending (a : Agenda) (id : ConversationId) : Option ScheduledLine :=
  a.lines.find? (·.conversation = id)

def nextDue (a : Agenda) : Option Duration := (a.lines.map (·.due.nanos)).min?.map Duration.mk

def cancel (a : Agenda) (id : ConversationId) : Agenda :=
  { a with entries := a.entries.filter (·.line.conversation ≠ id) }

/-- Writes a line last, in place of an earlier one of its conversation. -/
def schedule (a : Agenda) (line : ScheduledLine) : Agenda :=
  { entries := (a.cancel line.conversation).entries ++ [⟨a.lastSequence + 1, line⟩]
    lastSequence := a.lastSequence + 1 }

/-- The entries that are due by `now` and were scheduled no later than `through`. -/
def ready (a : Agenda) (now : Duration) (through : Nat) : List Appointment :=
  a.entries.filter fun e => e.line.due ≤ now ∧ e.sequence ≤ through

/-- Takes the one entry that comes before all others that are ready. -/
def popNext (a : Agenda) (now : Duration) (through : Nat) : Option (ScheduledLine × Agenda) :=
  ((a.ready now through).find? (·.leads (a.ready now through))).map fun e =>
    (e.line, { a with entries := a.entries.filter (· ≠ e) })

def due (a : Agenda) (now : Duration) : List Appointment := a.entries.filter (·.line.due ≤ now)

def withoutDue (a : Agenda) (now : Duration) : Agenda :=
  { a with entries := a.entries.filter fun e => ¬e.line.due ≤ now }

/-- Takes all that is due by `now`, sorted by time; lines of equal time stay in their order. -/
def popDue (a : Agenda) (now : Duration) : List ScheduledLine × Agenda :=
  (((a.due now).map (·.line)).mergeSort fun l m => l.due ≤ m.due, a.withoutDue now)

end Agenda

namespace Scheduler

inductive Op where
  | schedule (line : ScheduledLine)
  | cancel (id : ConversationId)
  | popNext (now : Duration) (through : Nat)
  | popDue (now : Duration)

/-- Carries out an operation and hands out the lines that are no longer pending: the one that is
replaced or withdrawn, or those that have come due. -/
def perform (s : Scheduler) : Op → List ScheduledLine × Scheduler
  | .schedule line => ((s.pending line.conversation).toList, s.schedule line)
  | .cancel id => ((s.pending id).toList, s.cancel id)
  | .popNext now through =>
    match s.popNext now through with
    | none => ([], s)
    | some (line, s) => ([line], s)
  | .popDue now => s.popDue now

end Scheduler

/-- The same on the plain list. -/
def Agenda.perform (a : Agenda) : Scheduler.Op → List ScheduledLine × Agenda
  | .schedule line => ((a.pending line.conversation).toList, a.schedule line)
  | .cancel id => ((a.pending id).toList, a.cancel id)
  | .popNext now through =>
    match a.popNext now through with
    | none => ([], a)
    | some (line, a) => ([line], a)
  | .popDue now => a.popDue now

namespace Scheduler

/-- What each of some operations hands out, one after another, and what is left in the end. -/
def replay {σ : Type} (perform : σ → Op → List ScheduledLine × σ) (s : σ) :
    List Op → List (List ScheduledLine) × σ
  | [] => ([], s)
  | op :: ops =>
    let later := replay perform (perform s op).2 ops
    ((perform s op).1 :: later.1, later.2)

variable {s s' : Scheduler} {a : Agenda} {slot other : Slot} {line l : ScheduledLine}
variable {now : Duration} {through : Nat} {id : ConversationId}

theorem queue_cancel (hk : s.Kept) : (s.cancel id).queue[slot]? = some line ↔
    s.queue[slot]? = some line ∧ line.conversation ≠ id := by
  constructor
  · intro h
    refine ⟨?_, ((holds_cancel hk id line).1 ⟨slot, h⟩).2⟩
    unfold cancel at h
    split at h
    · exact h
    · rw [Table.getElem?_erase] at h
      split at h
      · cases h
      · exact h
  · rintro ⟨h, hne⟩
    exact hk.keeps_cancel h hne

theorem queue_schedule (hk : s.Kept) : (s.schedule line).queue[slot]? = some l ↔
    slot = ⟨line.due, s.lastSequence + 1⟩ ∧ l = line ∨
      s.queue[slot]? = some l ∧ l.conversation ≠ line.conversation := by
  by_cases hslot : slot = ⟨line.due, s.lastSequence + 1⟩
  · -- The number is new, so nothing was queued under it.
    have hfree : s.queue[slot]? ≠ some l := by
      intro h
      have hdrawn := hk.drawn (Option.isSome_of_eq_some h)
      rw [hslot] at hdrawn
      exact Nat.not_succ_le_self _ hdrawn
    have hqueued := queued_schedule s line
    rw [← hslot] at hqueued
    rw [hqueued, Option.some.injEq]
    constructor
    · intro h
      exact .inl ⟨hslot, h.symm⟩
    · rintro (⟨-, rfl⟩ | ⟨h, -⟩)
      · rfl
      · exact absurd h hfree
  · dsimp only [schedule]
    rw [lastSequence_cancel, Table.getElem?_insert, if_neg (Ne.symm hslot), queue_cancel hk]
    simp only [hslot, false_and, false_or]

theorem Takes.queue (h : s.Takes now through slot line s') : s'.queue[other]? = some l ↔
    other ≠ slot ∧ s.queue[other]? = some l := by
  rw [h.left, Table.getElem?_erase]
  by_cases hother : slot = other
  · simp [hother]
  · simp [hother, Ne.symm hother]

/-- The two tables hold the entries of the list and nothing else. -/
structure Records (s : Scheduler) (a : Agenda) : Prop where
  kept : s.Kept
  dated : s.Dated
  listed : ∀ e : Appointment, e ∈ a.entries ↔ s.queue[e.slot]? = some e.line
  ordered : a.entries.Pairwise (·.sequence < ·.sequence)
  lastSequence : a.lastSequence = s.lastSequence

theorem records_empty : empty.Records .empty where
  kept := kept_empty
  dated := dated_empty
  listed e := by simp [empty, Agenda.empty]
  ordered := .nil
  lastSequence := rfl

namespace Records

/-- What is queued stands in the list under the number of its slot. -/
theorem mem_entries (h : s.Records a) (hslot : s.queue[slot]? = some line) :
    ∃ e ∈ a.entries, e.slot = slot ∧ e.line = line := by
  have hdue : slot.due = line.due := h.dated slot line hslot
  have hsame : Appointment.slot ⟨slot.sequence, line⟩ = slot := by
    rw [Appointment.slot, ← hdue]
  refine ⟨⟨slot.sequence, line⟩, ?_, hsame, rfl⟩
  rw [h.listed, hsame]
  exact hslot

theorem drawn (h : s.Records a) {e : Appointment} (he : e ∈ a.entries) :
    e.sequence ≤ s.lastSequence := by
  have hqueued := (h.listed e).1 he
  exact h.kept.drawn (Option.isSome_of_eq_some hqueued)

theorem nodup (h : s.Records a) : a.entries.Nodup :=
  h.ordered.imp fun {_ _} hlt heq => Nat.ne_of_lt hlt (congrArg Appointment.sequence heq)

/-- The list holds one entry for a conversation, since the index holds one slot for it. -/
theorem one_each (h : s.Records a) {e f : Appointment} (he : e ∈ a.entries) (hf : f ∈ a.entries)
    (hconversation : e.line.conversation = f.line.conversation) : e = f := by
  have hine := h.kept.queued ((h.listed e).1 he)
  have hinf := h.kept.queued ((h.listed f).1 hf)
  rw [hconversation, hinf] at hine
  have hslot : f.slot = e.slot := Option.some.inj hine
  have hline : s.queue[e.slot]? = some f.line := by rw [← hslot]; exact (h.listed f).1 hf
  rw [(h.listed e).1 he] at hline
  exact Appointment.eq_iff.2 ⟨hslot.symm, Option.some.inj hline⟩

theorem cancel (h : s.Records a) (id : ConversationId) : (s.cancel id).Records (a.cancel id) where
  kept := h.kept.cancel id
  dated := h.dated.later (.cancel s id)
  listed e := by
    rw [Agenda.cancel, List.mem_filter, decide_eq_true_eq, h.listed, queue_cancel h.kept]
  ordered := h.ordered.filter _
  lastSequence := by
    rw [lastSequence_cancel]
    exact h.lastSequence

theorem schedule (h : s.Records a) (line : ScheduledLine) :
    (s.schedule line).Records (a.schedule line) where
  kept := h.kept.schedule line
  dated := h.dated.later (.schedule s line)
  listed e := by
    rw [Agenda.schedule, List.mem_append, List.mem_singleton, or_comm, h.lastSequence,
      Appointment.eq_iff, queue_schedule h.kept, (h.cancel line.conversation).listed,
      queue_cancel h.kept]
  ordered := by
    have hcancel := h.cancel line.conversation
    rw [Agenda.schedule, List.pairwise_append]
    refine ⟨hcancel.ordered, List.pairwise_singleton .., fun e he f hf => ?_⟩
    have hdrawn := hcancel.drawn he
    rw [lastSequence_cancel, ← h.lastSequence] at hdrawn
    rw [List.mem_singleton.1 hf]
    exact Nat.lt_succ_of_le hdrawn
  lastSequence := by
    change a.lastSequence + 1 = (s.cancel line.conversation).lastSequence + 1
    rw [lastSequence_cancel, h.lastSequence]

theorem takes (h : s.Records a) {e : Appointment}
    (htakes : s.Takes now through e.slot e.line s') :
    s'.Records { a with entries := a.entries.filter (· ≠ e) } where
  kept := h.kept.takes htakes
  dated := h.dated.later (.takes htakes)
  listed f := by
    rw [List.mem_filter, decide_eq_true_eq, htakes.queue, h.listed, and_comm]
    refine and_congr_left fun hf => not_congr ⟨fun heq => by rw [heq], fun hslot => ?_⟩
    -- One slot holds one line.
    have hline : s.queue[f.slot]? = some e.line := by rw [hslot]; exact htakes.queued
    rw [hf] at hline
    exact Appointment.eq_iff.2 ⟨hslot, Option.some.inj hline⟩
  ordered := h.ordered.filter _
  lastSequence := by
    rw [htakes.left]
    exact h.lastSequence

/-- The line that the index and the queue find is the one that the list has for the
conversation. -/
theorem pending_eq (h : s.Records a) (id : ConversationId) : s.pending id = a.pending id := by
  rw [Agenda.pending, Agenda.lines]
  cases hindex : s.index[id]? with
  | none =>
    have hs : s.pending id = none := by
      rw [pending, Std.ExtTreeMap.get?_eq_getElem?, hindex, Option.bind_none]
    rw [hs, eq_comm, List.find?_eq_none]
    intro l hl hconversation
    obtain ⟨e, he, rfl⟩ := List.mem_map.1 hl
    have hqueued := h.kept.queued ((h.listed e).1 he)
    rw [of_decide_eq_true hconversation, hindex] at hqueued
    cases hqueued
  | some slot =>
    obtain ⟨line, hline, rfl⟩ := h.kept.indexed hindex
    obtain ⟨e, he, -, rfl⟩ := h.mem_entries hline
    rw [h.kept.pending_eq hline]
    cases hfind : (a.entries.map (·.line)).find? (·.conversation = e.line.conversation) with
    | none =>
      have hnot := List.find?_eq_none.1 hfind _ (List.mem_map_of_mem he)
      simp at hnot
    | some l =>
      obtain ⟨f, hf, rfl⟩ := List.mem_map.1 (List.mem_of_find?_eq_some hfind)
      have hconversation : f.line.conversation = e.line.conversation := by
        simpa using List.find?_some hfind
      rw [h.one_each hf he hconversation]

theorem mem_ready {e : Appointment} : e ∈ a.ready now through ↔
    e ∈ a.entries ∧ e.line.due ≤ now ∧ e.sequence ≤ through := by
  rw [Agenda.ready, List.mem_filter, decide_eq_true_eq]

theorem popNext_none (h : s.Records a) (hpop : s.popNext now through = none) :
    a.ready now through = [] := by
  rw [List.eq_nil_iff_forall_not_mem]
  intro e he
  obtain ⟨hmem, hdue, hold⟩ := mem_ready.1 he
  exact not_due_of_popNext hpop ((h.listed e).1 hmem) hold hdue

/-- The line that is taken is the first that is ready, by time and then by number. -/
theorem popNext_some (h : s.Records a) (hpop : s.popNext now through = some (line, s')) :
    ∃ e ∈ a.ready now through, e.line = line ∧ s.Takes now through e.slot e.line s' ∧
      e.leads (a.ready now through) = true := by
  obtain ⟨slot, htakes⟩ := takes_of_popNext hpop
  obtain ⟨e, he, rfl, rfl⟩ := h.mem_entries htakes.queued
  refine ⟨e, mem_ready.2 ⟨he, htakes.due, htakes.old⟩, rfl, htakes, ?_⟩
  rw [Appointment.leads_iff]
  intro f hf
  obtain ⟨hmem, -, hold⟩ := mem_ready.1 hf
  have hqueued := (h.listed f).1 hmem
  rcases htakes.first hqueued hold with hslot | hbefore
  · have hline := (h.listed e).1 he
    rw [← hslot, hqueued] at hline
    exact .inl (Appointment.eq_iff.2 ⟨hslot, Option.some.inj hline⟩)
  · exact .inr hbefore

end Records

theorem find?_leads {es : List Appointment} {e : Appointment} (he : e ∈ es)
    (hleads : e.leads es = true) : es.find? (·.leads es) = some e := by
  cases hfind : es.find? (·.leads es) with
  | none => exact absurd hleads (List.find?_eq_none.1 hfind e he)
  | some f =>
    have hf := List.mem_of_find?_eq_some hfind
    have hfound := List.find?_some hfind
    -- Two entries cannot come before one another.
    rcases Appointment.leads_iff.1 hleads f hf with rfl | hlater
    · rfl
    · rcases Appointment.leads_iff.1 hfound e he with rfl | hearlier
      · rfl
      · exact absurd hearlier hlater.asymm

namespace Records

theorem popNext (h : s.Records a) (now : Duration) (through : Nat) :
    s.popNext now through = none ∧ a.popNext now through = none ∨
      ∃ line s' a', s.popNext now through = some (line, s') ∧
        a.popNext now through = some (line, a') ∧ s'.Records a' := by
  cases hpop : s.popNext now through with
  | none =>
    refine .inl ⟨rfl, ?_⟩
    rw [Agenda.popNext, h.popNext_none hpop]
    rfl
  | some taken =>
    obtain ⟨line, s'⟩ := taken
    obtain ⟨e, he, rfl, htakes, hleads⟩ := h.popNext_some hpop
    refine .inr ⟨e.line, s', _, rfl, ?_, h.takes htakes⟩
    rw [Agenda.popNext, find?_leads he hleads]
    rfl

/-- The queue is the list in another order. -/
theorem toList_perm (h : s.Records a) :
    s.queue.toList.Perm (a.entries.map fun e => (e.slot, e.line)) := by
  have hqueue : s.queue.toList.Nodup :=
    s.sorted_queue.imp fun {_ _} hbefore heq => hbefore.ne (congrArg Prod.fst heq)
  have hentries : (a.entries.map fun e => (e.slot, e.line)).Nodup := by
    rw [List.Nodup, List.pairwise_map]
    refine h.nodup.imp fun {e f} hne heq => hne ?_
    exact Appointment.eq_iff.2 ⟨congrArg Prod.fst heq, congrArg Prod.snd heq⟩
  rw [List.perm_ext_iff_of_nodup hqueue hentries]
  rintro ⟨slot, line⟩
  rw [mem_queue, List.mem_map]
  constructor
  · intro hslot
    obtain ⟨e, he, rfl, rfl⟩ := h.mem_entries hslot
    exact ⟨e, he, rfl⟩
  · rintro ⟨e, he, heq⟩
    cases heq
    exact (h.listed e).1 he

theorem size_eq (h : s.Records a) : s.size = a.entries.length := by
  calc s.size = s.queue.toList.length := Std.ExtTreeMap.length_toList.symm
    _ = (a.entries.map fun e => (e.slot, e.line)).length := h.toList_perm.length_eq
    _ = a.entries.length := List.length_map ..

theorem isEmpty_eq (h : s.Records a) : s.isEmpty = a.entries.isEmpty := by
  calc s.isEmpty = s.queue.toList.isEmpty := Std.ExtTreeMap.isEmpty_toList.symm
    _ = (a.entries.map fun e => (e.slot, e.line)).isEmpty := h.toList_perm.isEmpty_eq
    _ = a.entries.isEmpty := List.isEmpty_map ..

end Records

/-- Sorting by time alone keeps entries of one time in the order of their numbers. -/
theorem mergeSort_before {es : List Appointment} (h : es.Pairwise (·.sequence < ·.sequence)) :
    (es.mergeSort fun e f => e.line.due ≤ f.line.due).Pairwise fun e f =>
      e.slot.Before f.slot := by
  let le (e f : Appointment) : Bool := e.line.due ≤ f.line.due
  have htrans (e f g : Appointment) (hef : le e f = true) (hfg : le f g = true) :
      le e g = true := by
    have hle := Nat.le_trans (of_decide_eq_true hef) (of_decide_eq_true hfg)
    exact decide_eq_true hle
  have htotal (e f : Appointment) : (le e f || le f e) = true := by
    rw [Bool.or_eq_true, decide_eq_true_eq, decide_eq_true_eq]
    exact Nat.le_total _ _
  have hsorted := List.pairwise_mergeSort htrans htotal es
  -- Among the entries of one time nothing moves.
  have htied (d : Duration) :
      (es.mergeSort le).filter (·.line.due = d) = es.filter (·.line.due = d) := by
    have hties : (es.filter (·.line.due = d)).Pairwise fun e f => le e f = true := by
      apply List.pairwise_of_forall_mem_list
      intro e he f hf
      have hedue := of_decide_eq_true (List.mem_filter.1 he).2
      have hfdue := of_decide_eq_true (List.mem_filter.1 hf).2
      exact decide_eq_true (Nat.le_of_eq (congrArg Duration.nanos (hedue.trans hfdue.symm)))
    have hsublist := (List.sublist_mergeSort htrans htotal hties List.filter_sublist).filter
      (·.line.due = d)
    simp only [List.filter_filter, Bool.and_self] at hsublist
    have hlength := ((List.mergeSort_perm es le).filter (·.line.due = d)).length_eq
    exact (hsublist.eq_of_length hlength.symm).symm
  rw [List.pairwise_iff_forall_sublist] at hsorted h ⊢
  intro e f hef
  have hdue : e.line.due ≤ f.line.due := of_decide_eq_true (hsorted hef)
  rcases Nat.lt_or_eq_of_le hdue with hlt | heq
  · exact .inl hlt
  · have hsame : e.line.due = f.line.due := by
      cases he : e.line.due
      cases hf : f.line.due
      simpa [he, hf] using heq
    have hfiltered := hef.filter (·.line.due = f.line.due)
    rw [htied, List.filter_cons_of_pos (by simpa using hsame), List.filter_cons_of_pos (by simp),
      List.filter_nil] at hfiltered
    exact .inr ⟨hsame, h (hfiltered.trans List.filter_sublist)⟩

end Scheduler

namespace Agenda

variable {a : Agenda} {now : Duration} {e : Appointment}

theorem withoutDue_of_nothing (h : a.due now = []) : a.withoutDue now = a := by
  have hall : a.entries.filter (fun e => ¬e.line.due ≤ now) = a.entries := by
    rw [List.filter_eq_self]
    intro e he
    simpa using List.filter_eq_nil_iff.1 h e he
  rw [withoutDue, hall]

theorem withoutDue_filter (he : e.line.due ≤ now) :
    withoutDue { a with entries := a.entries.filter (· ≠ e) } now = a.withoutDue now := by
  have hsame : (a.entries.filter (· ≠ e)).filter (fun f => ¬f.line.due ≤ now) =
      a.entries.filter fun f => ¬f.line.due ≤ now := by
    rw [List.filter_filter]
    apply List.filter_congr
    intro f _
    by_cases hf : f = e
    · simp [hf, he]
    · simp [hf]
  rw [withoutDue, withoutDue, hsame]

theorem due_perm (hnodup : a.entries.Nodup) (he : e ∈ a.due now) :
    (a.due now).Perm (e :: due { a with entries := a.entries.filter (· ≠ e) } now) := by
  have hdue : due { a with entries := a.entries.filter (· ≠ e) } now = (a.due now).erase e := by
    rw [due, due, List.Nodup.erase_eq_filter (hnodup.filter _), List.filter_filter,
      List.filter_filter]
    apply List.filter_congr
    intro f _
    rw [Bool.eq_iff_iff]
    simp [and_comm]
  rw [hdue]
  exact List.perm_cons_erase he

end Agenda

namespace Scheduler

variable {s s' : Scheduler} {a : Agenda} {now : Duration} {through : Nat}

namespace Records

theorem due_eq_nil (h : s.Records a) (hold : ∀ e ∈ a.entries, e.sequence ≤ through)
    (hpop : s.popNext now through = none) : a.due now = [] := by
  rw [Agenda.due, List.filter_eq_nil_iff]
  intro e he hdue
  have hready : e ∈ a.ready now through := mem_ready.2 ⟨he, of_decide_eq_true hdue, hold e he⟩
  rw [h.popNext_none hpop] at hready
  cases hready

/-- Taking one line after another takes all that is due, by time and of equal times by number. -/
theorem popMany (h : s.Records a) (hold : ∀ e ∈ a.entries, e.sequence ≤ through) {count : Nat}
    (hcount : (a.due now).length ≤ count) :
    ∃ (es : List Appointment) (s' : Scheduler),
      s.popMany now through count = (es.map (·.line), s') ∧ es.Perm (a.due now) ∧
        es.Pairwise (fun e f => e.slot.Before f.slot) ∧ s'.Records (a.withoutDue now) := by
  induction count generalizing s a with
  | zero =>
    have hdue : a.due now = [] := List.length_eq_zero_iff.1 (Nat.le_zero.1 hcount)
    exact ⟨[], s, rfl, by rw [hdue], .nil, by rwa [Agenda.withoutDue_of_nothing hdue]⟩
  | succ count ih =>
    rw [Scheduler.popMany]
    cases hpop : s.popNext now through with
    | none =>
      have hdue := h.due_eq_nil hold hpop
      exact ⟨[], s, rfl, by rw [hdue], .nil, by rwa [Agenda.withoutDue_of_nothing hdue]⟩
    | some taken =>
      obtain ⟨line, rest⟩ := taken
      obtain ⟨e, he, rfl, htakes, hleads⟩ := h.popNext_some hpop
      obtain ⟨hmem, hdue, -⟩ := mem_ready.1 he
      have hperm := Agenda.due_perm h.nodup (List.mem_filter.2 ⟨hmem, decide_eq_true hdue⟩)
      have hshorter := hperm.length_eq
      rw [List.length_cons] at hshorter
      obtain ⟨es, s', hes, hpermes, hbefore, hs'⟩ := ih (h.takes htakes)
        (fun f hf => hold f (List.mem_filter.1 hf).1) (by omega)
      rw [Agenda.withoutDue_filter hdue] at hs'
      refine ⟨e :: es, s', ?_, (hpermes.cons e).trans hperm.symm, ?_, hs'⟩
      · simp only [hes, List.map_cons]
      · refine List.pairwise_cons.2 ⟨fun f hf => ?_, hbefore⟩
        -- What is taken later was ready when the first was taken.
        obtain ⟨hother, hfdue⟩ := List.mem_filter.1 (hpermes.mem_iff.1 hf)
        obtain ⟨hfmem, hne⟩ := List.mem_filter.1 hother
        have hready := mem_ready.2 ⟨hfmem, of_decide_eq_true hfdue, hold f hfmem⟩
        rcases Appointment.leads_iff.1 hleads f hready with heq | hlater
        · exact absurd heq (of_decide_eq_true hne)
        · exact hlater

theorem popDue (h : s.Records a) (now : Duration) :
    (s.popDue now).1 = (a.popDue now).1 ∧ (s.popDue now).2.Records (a.popDue now).2 := by
  have hfew : (a.due now).length ≤ s.size := by
    rw [h.size_eq]
    exact List.length_filter_le _ _
  obtain ⟨es, s', hes, hperm, hbefore, hs'⟩ := h.popMany (fun e he => h.drawn he) hfew
  -- Both orders are by time and number, and there is only one such order.
  have hsorted : es = (a.due now).mergeSort fun e f => e.line.due ≤ f.line.due := by
    refine List.Perm.eq_of_pairwise (fun e f _ _ hef hfe => absurd hfe hef.asymm) hbefore
      (mergeSort_before (h.ordered.filter _)) (hperm.trans (List.mergeSort_perm _ _).symm)
  rw [Scheduler.popDue, hes]
  refine ⟨?_, hs'⟩
  rw [Agenda.popDue, hsorted]
  exact List.map_mergeSort fun _ _ _ _ => rfl

theorem perform (h : s.Records a) (op : Op) :
    (s.perform op).1 = (a.perform op).1 ∧ (s.perform op).2.Records (a.perform op).2 := by
  cases op with
  | schedule line =>
    exact ⟨congrArg Option.toList (h.pending_eq line.conversation), h.schedule line⟩
  | cancel id => exact ⟨congrArg Option.toList (h.pending_eq id), h.cancel id⟩
  | popNext now through =>
    rw [Scheduler.perform, Agenda.perform]
    rcases h.popNext now through with ⟨hs, ha⟩ | ⟨line, s', a', hs, ha, h'⟩
    · rw [hs, ha]
      exact ⟨rfl, h⟩
    · rw [hs, ha]
      exact ⟨rfl, h'⟩
  | popDue now => exact h.popDue now

theorem replay (h : s.Records a) (ops : List Op) :
    (replay Scheduler.perform s ops).1 = (Scheduler.replay Agenda.perform a ops).1 ∧
      (Scheduler.replay Scheduler.perform s ops).2.Records
        (Scheduler.replay Agenda.perform a ops).2 := by
  induction ops generalizing s a with
  | nil => exact ⟨rfl, h⟩
  | cons op ops ih =>
    obtain ⟨hlines, hnext⟩ := h.perform op
    obtain ⟨hlater, hlast⟩ := ih hnext
    refine ⟨?_, hlast⟩
    rw [Scheduler.replay, Scheduler.replay, hlines, hlater]

theorem nextDue_eq (h : s.Records a) : s.nextDue = a.nextDue := by
  rw [nextDue, Agenda.nextDue, Agenda.lines, List.map_map]
  cases hmin : s.queue.minKey? with
  | none =>
    have hnone : a.entries = [] := by
      have hempty : s.queue = ∅ := Std.ExtTreeMap.minKey?_eq_none_iff.1 hmin
      rw [← List.isEmpty_iff, ← h.isEmpty_eq, isEmpty, hempty]
      rfl
    rw [hnone]
    rfl
  | some slot =>
    obtain ⟨hslot, hleast⟩ := Std.ExtTreeMap.minKey?_eq_some_iff_mem_and_forall.1 hmin
    obtain ⟨line, hline⟩ := Option.isSome_iff_exists.1
      (Std.ExtTreeMap.mem_iff_isSome_getElem?.1 hslot)
    obtain ⟨e, he, rfl, -⟩ := h.mem_entries hline
    have hdue : (a.entries.map ((·.due.nanos) ∘ (·.line))).min? = some e.line.due.nanos := by
      rw [List.min?_eq_some_iff]
      refine ⟨List.mem_map_of_mem he, fun d hd => ?_⟩
      obtain ⟨f, hf, rfl⟩ := List.mem_map.1 hd
      have hmem : f.slot ∈ s.queue := Std.ExtTreeMap.mem_iff_isSome_getElem?.2
        (Option.isSome_of_eq_some ((h.listed f).1 hf))
      -- A slot that is not later has a time that is not later.
      have hnot : ¬f.slot.Before e.slot := by
        intro hbefore
        have hgt := Std.OrientedCmp.gt_of_lt (Slot.before_iff.1 hbefore)
        have hle := hleast f.slot hmem
        rw [hgt] at hle
        cases hle
      exact Nat.le_of_not_lt fun hlt => hnot (.inl hlt)
    rw [hdue]
    rfl

end Records

/-- Whatever can be asked of the scheduler is answered from the list, which has one entry for a
conversation; index and queue both describe these entries. -/
structure Agrees (s : Scheduler) (a : Agenda) : Prop where
  pending : ∀ id, s.pending id = a.pending id
  size : s.size = a.entries.length
  isEmpty : s.isEmpty = a.entries.isEmpty
  nextDue : s.nextDue = a.nextDue
  lastSequence : s.lastSequence = a.lastSequence
  ordered : a.entries.Pairwise (·.sequence < ·.sequence)
  one_each : a.entries.Pairwise (·.line.conversation ≠ ·.line.conversation)
  queue : ∀ slot line, s.queue[slot]? = some line ↔ ∃ e ∈ a.entries, e.slot = slot ∧ e.line = line
  index : ∀ id slot, s.index[id]? = some slot ↔
    ∃ e ∈ a.entries, e.slot = slot ∧ e.line.conversation = id

theorem Records.agrees (h : s.Records a) : s.Agrees a where
  pending := h.pending_eq
  size := h.size_eq
  isEmpty := h.isEmpty_eq
  nextDue := h.nextDue_eq
  lastSequence := h.lastSequence.symm
  ordered := h.ordered
  one_each := h.nodup.imp_of_mem fun he hf hne hsame => hne (h.one_each he hf hsame)
  queue slot line := by
    constructor
    · exact h.mem_entries
    · rintro ⟨e, he, rfl, rfl⟩
      exact (h.listed e).1 he
  index id slot := by
    constructor
    · intro hindex
      obtain ⟨line, hline, rfl⟩ := h.kept.indexed hindex
      obtain ⟨e, he, hslot, rfl⟩ := h.mem_entries hline
      exact ⟨e, he, hslot, rfl⟩
    · rintro ⟨e, he, rfl, rfl⟩
      exact h.kept.queued ((h.listed e).1 he)

/-- Whatever is scheduled, withdrawn and taken one after another, the scheduler hands out what
the plain list hands out, and then holds what the list holds. -/
theorem replay_agrees (ops : List Op) :
    (replay perform empty ops).1 = (replay Agenda.perform .empty ops).1 ∧
      (replay perform empty ops).2.Agrees (replay Agenda.perform .empty ops).2 := by
  obtain ⟨hlines, hrecords⟩ := records_empty.replay ops
  exact ⟨hlines, hrecords.agrees⟩

end Scheduler

end TextWorld

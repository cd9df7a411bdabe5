import TextWorld.Duration
import TextWorld.Id
import TextWorld.Table

/-!
Lines that are typed for somebody at a later time. Every conversation has at most one pending
line; lines come due in the order of their times, and equal times in the order they were
scheduled.
-/

namespace TextWorld

/-- A line to dispatch for `actor` once the clock shows `due`. -/
structure ScheduledLine where
  conversation : ConversationId
  actor : CharacterId
  line : String
  due : Duration
  deriving DecidableEq, Repr

structure Slot where
  due : Duration
  sequence : Nat
  deriving DecidableEq, Repr

namespace Slot

def order : Slot → Slot → Ordering :=
  compareLex (compareOn fun s => s.due.nanos) (compareOn fun s => s.sequence)

instance : Ord Slot := ⟨order⟩

instance : Std.TransOrd Slot :=
  inferInstanceAs (Std.TransCmp
    (compareLex (compareOn fun s : Slot => s.due.nanos) (compareOn fun s : Slot => s.sequence)))

instance : Std.LawfulEqOrd Slot where
  compare_self {a} := by
    change (compare a.due.nanos a.due.nanos).then (compare a.sequence a.sequence) = .eq
    simp [Std.ReflCmp.compare_self]
  eq_of_compare {a b} h := by
    change (compare a.due.nanos b.due.nanos).then (compare a.sequence b.sequence) = .eq at h
    rw [Ordering.then_eq_eq] at h
    have hdue := Std.LawfulEqCmp.eq_of_compare h.1
    have hsequence := Std.LawfulEqCmp.eq_of_compare h.2
    obtain ⟨⟨_⟩, _⟩ := a
    obtain ⟨⟨_⟩, _⟩ := b
    simp_all

end Slot

/-- Pending lines by slot, and the slot of each conversation's line. -/
structure Scheduler where
  queue : Table Slot ScheduledLine
  index : Table ConversationId Slot
  lastSequence : Nat

namespace Scheduler

def empty : Scheduler := ⟨.empty, .empty, 0⟩

def size (s : Scheduler) : Nat := s.queue.size

def isEmpty (s : Scheduler) : Bool := s.queue.isEmpty

def nextDue (s : Scheduler) : Option Duration := s.queue.minKey?.map (·.due)

def pending (s : Scheduler) (id : ConversationId) : Option ScheduledLine :=
  (s.index.get? id).bind s.queue.get?

def cancel (s : Scheduler) (id : ConversationId) : Scheduler :=
  match s.index.get? id with
  | none => s
  | some slot => { s with queue := s.queue.erase slot, index := s.index.erase id }

/-- Makes a line the pending one of its conversation, in place of an earlier one. -/
def schedule (s : Scheduler) (line : ScheduledLine) : Scheduler :=
  let s := s.cancel line.conversation
  let slot : Slot := ⟨line.due, s.lastSequence + 1⟩
  { queue := s.queue.insert slot line
    index := s.index.insert line.conversation slot
    lastSequence := s.lastSequence + 1 }

/-- Takes the earliest line that is due by `now` and was scheduled no later than `through`. -/
def popNext (s : Scheduler) (now : Duration) (through : Nat) :
    Option (ScheduledLine × Scheduler) :=
  let due := s.queue.toList.takeWhile fun e => e.1.due ≤ now
  (due.find? fun e => e.1.sequence ≤ through).map fun e =>
    (e.2, { s with queue := s.queue.erase e.1, index := s.index.erase e.2.conversation })

def popMany (s : Scheduler) (now : Duration) (through : Nat) :
    Nat → List ScheduledLine × Scheduler
  | 0 => ([], s)
  | count + 1 =>
    match s.popNext now through with
    | none => ([], s)
    | some (line, s) =>
      let (lines, s) := s.popMany now through count
      (line :: lines, s)

def popDue (s : Scheduler) (now : Duration) : List ScheduledLine × Scheduler :=
  s.popMany now s.lastSequence s.size

end Scheduler

end TextWorld

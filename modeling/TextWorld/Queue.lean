/-!
Queues: what came first is taken first. A queue is seen as the list of what it holds, oldest first.
-/

namespace TextWorld

structure Queue (α : Type) where
  /-- What is taken next, oldest first. -/
  front : List α
  /-- What came after that, newest first. -/
  back : List α
  deriving DecidableEq, Repr

namespace Queue

variable {α : Type}

def empty : Queue α := ⟨[], []⟩

def toList (q : Queue α) : List α := q.front ++ q.back.reverse

def isEmpty (q : Queue α) : Bool := q.front.isEmpty && q.back.isEmpty

def push (q : Queue α) (a : α) : Queue α := { q with back := a :: q.back }

/-- Drops what `p` refuses. -/
def filter (p : α → Bool) (q : Queue α) : Queue α := ⟨q.front.filter p, q.back.filter p⟩

def contains [BEq α] (q : Queue α) (a : α) : Bool := q.front.contains a || q.back.contains a

def size (q : Queue α) : Nat := q.front.length + q.back.length

/-- Takes the oldest. -/
def pop? (q : Queue α) : Option (α × Queue α) :=
  match q.front with
  | a :: front => some (a, { q with front })
  | [] =>
    match q.back.reverse with
    | [] => none
    | a :: front => some (a, ⟨front, []⟩)

@[simp] theorem toList_empty : (empty : Queue α).toList = [] := rfl

@[simp] theorem toList_push (q : Queue α) (a : α) : (q.push a).toList = q.toList ++ [a] := by
  simp [push, toList]

@[simp] theorem toList_filter (p : α → Bool) (q : Queue α) :
    (q.filter p).toList = q.toList.filter p := by
  simp [filter, toList]

@[simp] theorem contains_iff [BEq α] [LawfulBEq α] {q : Queue α} {a : α} :
    q.contains a = true ↔ a ∈ q.toList := by
  simp [contains, toList]

@[simp] theorem length_toList (q : Queue α) : q.toList.length = q.size := by
  simp [size, toList]

theorem isEmpty_iff {q : Queue α} : q.isEmpty = true ↔ q.toList = [] := by
  simp [isEmpty, toList]

theorem eq_empty_of_toList {q : Queue α} (h : q.toList = []) : q = empty := by
  obtain ⟨front, back⟩ := q
  simp only [toList, List.append_eq_nil_iff, List.reverse_eq_nil_iff] at h
  rw [h.1, h.2, empty]

/-- Taking the oldest splits the list after its first member. -/
theorem map_pop? (q : Queue α) : q.pop?.map (fun r => r.1 :: r.2.toList) = q.toList.head?.map
    fun _ => q.toList := by
  obtain ⟨front, back⟩ := q
  cases front with
  | cons a front => simp [pop?, toList]
  | nil =>
    cases h : back.reverse with
    | nil => simp [pop?, toList, h]
    | cons a front => simp [pop?, toList, h]

theorem toList_of_pop? {q r : Queue α} {a : α} (h : q.pop? = some (a, r)) :
    q.toList = a :: r.toList := by
  have hm := map_pop? q
  rw [h] at hm
  cases hq : q.toList with
  | nil => simp [hq] at hm
  | cons b bs => simpa [hq] using hm.symm

theorem pop?_eq_none_iff {q : Queue α} : q.pop? = none ↔ q.toList = [] := by
  have hm := map_pop? q
  cases hp : q.pop? with
  | none =>
    cases hq : q.toList with
    | nil => simp
    | cons b bs => simp [hp, hq] at hm
  | some r => simp [toList_of_pop? hp]

end Queue

end TextWorld

import TextWorld.Id
import TextWorld.Queue

/-! What a room, a character or an item holds: items in the order they came, each once. -/

namespace TextWorld

structure Container where
  queue : Queue ItemId
  nodup : queue.toList.Nodup
  deriving DecidableEq

namespace Container

def empty : Container := ⟨.empty, .nil⟩

def items (c : Container) : List ItemId := c.queue.toList

def holds (c : Container) (item : ItemId) : Bool := c.queue.contains item

def size (c : Container) : Nat := c.queue.size

def isEmpty (c : Container) : Bool := c.queue.isEmpty

/-- Puts an item last, unless it is held already. -/
def add (c : Container) (item : ItemId) : Container :=
  if h : c.queue.contains item = true then c
  else ⟨c.queue.push item, by
    rw [Queue.contains_iff] at h
    rw [Queue.toList_push, List.nodup_append]
    refine ⟨c.nodup, by simp, fun a ha b hb => ?_⟩
    rw [List.mem_singleton] at hb
    subst hb
    exact fun hab => h (hab ▸ ha)⟩

def remove (c : Container) (item : ItemId) : Container :=
  ⟨c.queue.filter (· != item), by
    rw [Queue.toList_filter]
    exact c.nodup.filter _⟩

theorem items_add (c : Container) (item : ItemId) :
    (c.add item).items = if item ∈ c.items then c.items else c.items ++ [item] := by
  unfold add
  split <;> rename_i h <;> rw [Queue.contains_iff] at h
  · exact (if_pos h).symm
  · exact (Queue.toList_push ..).trans (if_neg h).symm

theorem items_remove (c : Container) (item : ItemId) :
    (c.remove item).items = c.items.filter (· != item) := by
  simp [remove, items]

theorem mem_add {c : Container} {a b : ItemId} : a ∈ (c.add b).items ↔ a ∈ c.items ∨ a = b := by
  rw [items_add]
  split
  · rename_i h
    constructor
    · exact Or.inl
    · rintro (ha | rfl)
      · exact ha
      · exact h
  · simp

theorem mem_remove {c : Container} {a b : ItemId} :
    a ∈ (c.remove b).items ↔ a ≠ b ∧ a ∈ c.items := by
  simp [items_remove, and_comm]

end Container

end TextWorld

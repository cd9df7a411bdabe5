/-! The ten ways out of a room. -/

namespace TextWorld

/-- Compass and vertical directions, in the order exits are listed and matched in. -/
inductive Direction where
  | north
  | east
  | south
  | west
  | northeast
  | northwest
  | southeast
  | southwest
  | up
  | down
  deriving DecidableEq, Repr

namespace Direction

def all : List Direction :=
  [north, east, south, west, northeast, northwest, southeast, southwest, up, down]

def index : Direction → Nat
  | north => 0
  | east => 1
  | south => 2
  | west => 3
  | northeast => 4
  | northwest => 5
  | southeast => 6
  | southwest => 7
  | up => 8
  | down => 9

def name : Direction → String
  | north => "north"
  | east => "east"
  | south => "south"
  | west => "west"
  | northeast => "northeast"
  | northwest => "northwest"
  | southeast => "southeast"
  | southwest => "southwest"
  | up => "up"
  | down => "down"

def short : Direction → String
  | north => "n"
  | east => "e"
  | south => "s"
  | west => "w"
  | northeast => "ne"
  | northwest => "nw"
  | southeast => "se"
  | southwest => "sw"
  | up => "u"
  | down => "d"

def opposite : Direction → Direction
  | north => south
  | east => west
  | south => north
  | west => east
  | northeast => southwest
  | northwest => southeast
  | southeast => northwest
  | southwest => northeast
  | up => down
  | down => up

/-- Whether `word` is one of the two names, in any case of its ASCII letters. -/
def accepts (d : Direction) (word : String) : Bool :=
  let w := word.toList.map Char.toLower
  w == d.name.toList || w == d.short.toList

def parse? (word : String) : Option Direction := all.find? (·.accepts word)

theorem opposite_opposite (d : Direction) : d.opposite.opposite = d := by cases d <;> rfl

theorem mem_all (d : Direction) : d ∈ all := by cases d <;> decide

theorem index_injective {a b : Direction} (h : a.index = b.index) : a = b := by
  cases a <;> cases b <;> first | rfl | cases h

instance : Ord Direction := ⟨compareOn index⟩

instance : Std.TransOrd Direction :=
  inferInstanceAs (Std.TransCmp (compareOn index))

instance : Std.LawfulEqOrd Direction where
  compare_self {a} := by
    change compare a.index a.index = .eq
    exact Std.ReflCmp.compare_self
  eq_of_compare {a b} h := by
    change compare a.index b.index = .eq at h
    exact index_injective (Std.LawfulEqCmp.eq_of_compare h)

end Direction

end TextWorld

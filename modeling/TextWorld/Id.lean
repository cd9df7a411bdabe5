/-! Typed identifiers of the things a running world hands out. -/

namespace TextWorld

inductive IdKind where
  | zone
  | room
  | character
  | item
  | conversation
  deriving DecidableEq, Repr

def IdKind.label : IdKind → String
  | .zone => "Zone"
  | .room => "Room"
  | .character => "Character"
  | .item => "Item"
  | .conversation => "Conversation"

/-- The identifier of a thing of one kind; identifiers of different kinds never mix. -/
structure Id (kind : IdKind) where
  index : Nat
  deriving DecidableEq, Repr

abbrev ZoneId := Id .zone

abbrev RoomId := Id .room

abbrev CharacterId := Id .character

abbrev ItemId := Id .item

abbrev ConversationId := Id .conversation

namespace Id

variable {kind : IdKind}

/-- The identifier in running text, such as `Room#2`. -/
def text (id : Id kind) : String := kind.label ++ "#" ++ toString id.index

/-- The identifier in diagnostics, such as `Room(2)`. -/
def shown (id : Id kind) : String := kind.label ++ "(" ++ toString id.index ++ ")"

instance : Ord (Id kind) := ⟨compareOn Id.index⟩

instance : Std.TransOrd (Id kind) :=
  inferInstanceAs (Std.TransCmp (compareOn Id.index))

instance : Std.LawfulEqOrd (Id kind) where
  compare_self {a} := by
    change compare a.index a.index = .eq
    exact Std.ReflCmp.compare_self
  eq_of_compare {a b} h := by
    change compare a.index b.index = .eq at h
    have := Std.LawfulEqCmp.eq_of_compare h
    cases a; cases b; simp_all

end Id

end TextWorld

import TextWorld.World.Basic

/-! How things in the world are called, and how a room looks. -/

namespace TextWorld

namespace World

def characterName (w : World) (id : CharacterId) : String :=
  match w.character? id with
  | some c => c.name
  | none => "Someone"

def itemName (w : World) (id : ItemId) : String :=
  match w.item? id with
  | some i => i.name
  | none => "something"

def commaList (texts : List String) : String := ", ".intercalate texts

/-- An exit as it is listed; a closed door is mentioned. -/
def exitText (e : Exit) : String :=
  if e.isClosed then e.direction.name ++ " (closed)" else e.direction.name

/-- The exits, others and items of a room, one line each; the last two only if there are any. -/
def roomDetails (w : World) (r : Room) (viewer : CharacterId) : String :=
  let exits := (r.exitList.filter Exit.isVisible).map exitText
  let others := (r.characters.filter (· ≠ viewer)).map w.characterName
  let items := r.items.items.map w.itemName
  (if exits.isEmpty then "\nExits: none" else "\nExits: " ++ commaList exits)
    ++ (if others.isEmpty then "" else "\nAlso here: " ++ commaList others)
    ++ (if items.isEmpty then "" else "\nYou see: " ++ commaList items)

/-- A room as a character sees it. -/
def describeRoom (w : World) (room : RoomId) (viewer : CharacterId) : String :=
  match w.room? room, w.character? viewer with
  | some r, some _ => r.title ++ "\n" ++ r.description ++ w.roomDetails r viewer
  | _, _ => "You see nothing."

end World

end TextWorld

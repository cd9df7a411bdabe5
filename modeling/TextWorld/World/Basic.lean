import TextWorld.World.Item
import TextWorld.World.Place

/-! The live world: everything in it, the indexes of its keys, and its clock. -/

namespace TextWorld

structure World where
  zones : Table ZoneId Zone
  zoneIndex : Table String ZoneId
  rooms : Table RoomId Room
  roomIndex : Table ZonedKey RoomId
  characters : Table CharacterId Character
  items : Table ItemId Item
  /-- The last index handed out; all kinds of things share one counter. -/
  lastIndex : Nat
  now : Duration

namespace World

def empty : World :=
  { zones := .empty, zoneIndex := .empty, rooms := .empty, roomIndex := .empty,
    characters := .empty, items := .empty, lastIndex := 0, now := .zero }

instance : Inhabited World := ⟨empty⟩

def zone? (w : World) (id : ZoneId) : Option Zone := w.zones.get? id

def room? (w : World) (id : RoomId) : Option Room := w.rooms.get? id

def character? (w : World) (id : CharacterId) : Option Character := w.characters.get? id

def item? (w : World) (id : ItemId) : Option Item := w.items.get? id

def lookupZone (w : World) (key : String) : Option ZoneId := w.zoneIndex.get? key

/-- The room with this key; a bare key belongs to `defaultZone`. -/
def lookupRoom (w : World) (key defaultZone : String) : Option RoomId :=
  match ZonedKey.resolve key defaultZone with
  | .ok key => w.roomIndex.get? key
  | .error _ => none

def exitDestination (w : World) (room : RoomId) (d : Direction) : Option RoomId := do
  let r ← w.room? room
  let e ← r.exit? d
  w.roomIndex.get? e.destination

def characterRoom (w : World) (id : CharacterId) : Option RoomId := do
  let c ← w.character? id
  c.room

def characterZone (w : World) (id : CharacterId) : Option ZoneId := do
  let r ← w.room? (← w.characterRoom id)
  some r.zone

def balanceRemaining (w : World) (id : CharacterId) : Option Duration := do
  let c ← w.character? id
  c.balanceRemaining w.now

/-- The items a character wears, by ascending slot. -/
def equippedItems (w : World) (id : CharacterId) : List ItemId :=
  match w.character? id with
  | some c => c.equipment.values
  | none => []

def roomZoneKey (w : World) (room : RoomId) : Except Error String :=
  match w.room? room with
  | none => .error (.roomNotFound room)
  | some r =>
    match w.zone? r.zone with
    | none => .error (.unknownZone r.zone.text)
    | some z => .ok z.key

/-- The key of the zone that scopes what appears at a location; fails if there is no such
location. -/
def locationZoneKey (w : World) : ItemLocation → Except Error String
  | .room room => w.roomZoneKey room
  | .inventory owner | .equipped owner _ =>
    match w.character? owner with
    | none => .error (.characterNotFound owner)
    | some c => .ok c.key.zone
  | .inside parent =>
    match w.item? parent with
    | none => .error (.itemNotFound parent)
    | some p => .ok p.key.zone

end World

end TextWorld

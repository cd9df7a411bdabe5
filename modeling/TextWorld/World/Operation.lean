import TextWorld.World.Basic

/-!
The operations on a world. Each checks its arguments before it changes anything, so in a world that
came about by operations a refused one leaves the world as it was; only the index drawn for a new
character or item is spent even when its key is refused.
-/

namespace TextWorld

namespace World

abbrev Reply (α : Type) := Except Error α × World

def allocate (w : World) : Nat × World :=
  (w.lastIndex + 1, { w with lastIndex := w.lastIndex + 1 })

def addZone (w : World) (key name : String) : Reply ZoneId :=
  if key = "" ∨ '@' ∈ key.toList then (.error (.invalidKey key .zoneNotBare), w)
  else if w.zoneIndex.contains key then (.error (.invalidKey key .zoneTaken), w)
  else
    let (index, w) := w.allocate
    let id : ZoneId := ⟨index⟩
    let zone : Zone := { id, key, name, rooms := [], population := .empty }
    (.ok id, { w with zones := w.zones.insert id zone, zoneIndex := w.zoneIndex.insert key id })

def addRoom (w : World) (zone : ZoneId) (key title description : String) : Reply RoomId :=
  match w.zone? zone with
  | none => (.error (.unknownZone zone.text), w)
  | some z =>
    match ZonedKey.resolve key z.key with
    | .error e => (.error e, w)
    | .ok key =>
      if w.roomIndex.contains key then (.error (.invalidKey key.text .roomTaken), w)
      else
        let (index, w) := w.allocate
        let id : RoomId := ⟨index⟩
        let room : Room :=
          { id, key, zone, title, description, occupants := .empty, items := .empty,
            exits := .empty }
        (.ok id, { w with
          rooms := w.rooms.insert id room
          roomIndex := w.roomIndex.insert key id
          zones := w.zones.modify zone fun z => { z with rooms := z.rooms ++ [id] } })

def addExit (w : World) (room : RoomId) (e : Exit) : Reply Unit :=
  match w.room? room with
  | none => (.error (.roomNotFound room), w)
  | some _ =>
    (.ok (), { w with
      rooms := w.rooms.modify room fun r => { r with exits := r.exits.insert e.direction e } })

/-- Lists a character last among the occupants of a room and of its zone. -/
def place (w : World) (id : CharacterId) (room : RoomId) : World :=
  match w.room? room with
  | none => w
  | some r =>
    { w with
      rooms := w.rooms.modify room fun r => { r with occupants := r.occupants.push id }
      zones := w.zones.modify r.zone fun z => { z with population := z.population.push id }
      characters := w.characters.modify id fun c => { c with room := some room } }

/-- Strikes a character off the occupants of its room and of that room's zone. -/
def unplace (w : World) (id : CharacterId) : World :=
  match w.characterRoom id with
  | none => w
  | some room =>
    let w := { w with characters := w.characters.modify id fun c => { c with room := none } }
    match w.room? room with
    | none => w
    | some r =>
      { w with
        rooms := w.rooms.modify room fun r => { r with occupants := r.occupants.filter (· ≠ id) }
        zones := w.zones.modify r.zone fun z =>
          { z with population := z.population.filter (· ≠ id) } }

/-- Makes a character in a room; a bare key belongs to the room's zone. -/
def spawnCharacter (w : World) (room : RoomId) (t : CharacterTemplate) : Reply CharacterId :=
  match w.roomZoneKey room with
  | .error e => (.error e, w)
  | .ok zone =>
    let (index, w) := w.allocate
    let id : CharacterId := ⟨index⟩
    match t.build id zone with
    | .error e => (.error e, w)
    | .ok c => (.ok id, { w with characters := w.characters.insert id c }.place id room)

def moveCharacter (w : World) (id : CharacterId) (room : RoomId) : Reply Unit :=
  if !w.rooms.contains room then (.error (.roomNotFound room), w)
  else if !w.characters.contains id then (.error (.characterNotFound id), w)
  else (.ok (), (w.unplace id).place id room)

def locate (w : World) (id : ItemId) (location : Option ItemLocation) : World :=
  { w with items := w.items.modify id fun i => { i with location } }

/-- Strikes an item off what holds it; a slot is emptied, whatever is in it. -/
def unlist (w : World) (id : ItemId) : ItemLocation → World
  | .room room =>
    { w with rooms := w.rooms.modify room fun r => { r with items := r.items.remove id } }
  | .inventory owner =>
    { w with
      characters := w.characters.modify owner fun c =>
        { c with inventory := c.inventory.remove id } }
  | .equipped owner slot =>
    { w with
      characters := w.characters.modify owner fun c =>
        { c with equipment := c.equipment.erase slot } }
  | .inside parent =>
    { w with
      items := w.items.modify parent fun p => { p with contents := p.contents.remove id } }

def detach (w : World) (id : ItemId) : World :=
  match (w.item? id).bind (·.location) with
  | none => w
  | some location => (w.locate id none).unlist id location

/-- Lists an item with what a location names; what was worn in the slot before goes to the
wearer's inventory. -/
def enlist (w : World) (id : ItemId) : ItemLocation → Except Error World
  | .room room =>
    match w.room? room with
    | none => .error (.roomNotFound room)
    | some _ =>
      .ok { w with rooms := w.rooms.modify room fun r => { r with items := r.items.add id } }
  | .inventory owner =>
    match w.character? owner with
    | none => .error (.characterNotFound owner)
    | some _ =>
      .ok { w with
        characters := w.characters.modify owner fun c =>
          { c with inventory := c.inventory.add id } }
  | .equipped owner slot =>
    match w.character? owner with
    | none => .error (.characterNotFound owner)
    | some c =>
      match c.equipment.get? slot with
      | none =>
        .ok { w with
          characters := w.characters.modify owner fun c =>
            { c with equipment := c.equipment.insert slot id } }
      | some previous =>
        .ok { w with
          characters := w.characters.modify owner fun c =>
            { c with
              equipment := c.equipment.insert slot id
              inventory := c.inventory.add previous }
          items := w.items.modify previous fun p =>
            { p with location := some (.inventory owner) } }
  | .inside parent =>
    match w.item? parent with
    | none => .error (.itemNotFound parent)
    | some _ =>
      .ok { w with
        items := w.items.modify parent fun p => { p with contents := p.contents.add id } }

def attach (w : World) (id : ItemId) (location : ItemLocation) : Reply Unit :=
  match w.enlist id location with
  | .error e => (.error e, w)
  | .ok w => (.ok (), w.locate id (some location))

/-- Makes an item at a location; a bare key belongs to the location's zone. -/
def spawnItem (w : World) (location : ItemLocation) (t : ItemTemplate) : Reply ItemId :=
  match w.locationZoneKey location with
  | .error e => (.error e, w)
  | .ok zone =>
    let (index, w) := w.allocate
    let id : ItemId := ⟨index⟩
    match t.build id zone with
    | .error e => (.error e, w)
    | .ok i =>
      match { w with items := w.items.insert id i }.attach id location with
      | (.error e, w) => (.error e, w)
      | (.ok (), w) => (.ok id, w)

def moveItem (w : World) (id : ItemId) (target : ItemLocation) : Reply Unit :=
  if !w.items.contains id then (.error (.itemNotFound id), w)
  else if target = .inside id then (.error (.selfContainment id), w)
  else
    match w.locationZoneKey target with
    | .error e => (.error e, w)
    | .ok _ => (w.detach id).attach id target

/-- Moves items to a room, one after another, up to the first that cannot be moved. -/
def dropAll (w : World) (room : RoomId) : List ItemId → Reply Unit
  | [] => (.ok (), w)
  | item :: items =>
    match w.moveItem item (.room room) with
    | (.error e, w) => (.error e, w)
    | (.ok (), w) => w.dropAll room items

/-- Removes a character; everything it carried and wore is dropped in its room. -/
def despawnCharacter (w : World) (id : CharacterId) : Reply Unit :=
  match w.character? id with
  | none => (.error (.characterNotFound id), w)
  | some c =>
    let dropped : Reply Unit := match c.room with
      | none => (.ok (), w)
      | some room => w.dropAll room c.belongings
    match dropped with
    | (.error e, w) => (.error e, w)
    | (.ok (), w) =>
      let w := w.unplace id
      (.ok (), { w with characters := w.characters.erase id })

/-- Opens or closes the door across an exit, and with it the door across the exit that leads
back. Tells whether the door on this side changed. -/
def setDoorClosed (w : World) (room : RoomId) (d : Direction) (closed : Bool) : Reply Bool :=
  match w.room? room with
  | none => (.error (.roomNotFound room), w)
  | some here =>
    let changed := match (here.exit? d).bind (·.door) with
      | some door => door.closed != closed
      | none => false
    let near := w.rooms.modify room fun r =>
      { r with exits := r.exits.modify d (Exit.setClosed closed) }
    -- The exit back counts only if it leads here.
    let back (e : Exit) : Exit :=
      if e.destination = here.key then e.setClosed closed else e
    let rooms := match w.exitDestination room d with
      | some there => near.modify there fun r => { r with exits := r.exits.modify d.opposite back }
      | none => near
    (.ok changed, { w with rooms })

/-- Puts a character off balance from now until `duration` later; `none` if no clock can show
that time. -/
def putOffBalance (w : World) (id : CharacterId) (duration : Duration) : Option (Reply Unit) :=
  (w.now.add? duration).map fun deadline =>
    match w.character? id with
    | none => (.error (.characterNotFound id), w)
    | some _ =>
      (.ok (), { w with
        characters := w.characters.modify id fun c => { c with balanceUntil := some deadline } })

/-- Lets time pass; `none` if no clock can show the new time. -/
def advance (w : World) (delta : Duration) : Option World :=
  (w.now.add? delta).map fun now => { w with now }

inductive Op where
  | addZone (key name : String)
  | addRoom (zone : ZoneId) (key title description : String)
  | addExit (room : RoomId) (e : Exit)
  | spawnCharacter (room : RoomId) (template : CharacterTemplate)
  | moveCharacter (id : CharacterId) (room : RoomId)
  | despawnCharacter (id : CharacterId)
  | spawnItem (location : ItemLocation) (template : ItemTemplate)
  | moveItem (id : ItemId) (target : ItemLocation)
  | setDoorClosed (room : RoomId) (d : Direction) (closed : Bool)
  | putOffBalance (id : CharacterId) (duration : Duration)
  | advance (delta : Duration)

@[reducible] def Op.Result : Op → Type
  | .addZone .. => ZoneId
  | .addRoom .. => RoomId
  | .spawnCharacter .. => CharacterId
  | .spawnItem .. => ItemId
  | .setDoorClosed .. => Bool
  | _ => Unit

/-- Carries out an operation; `none` if it would lead beyond the last time a clock can show. -/
def perform (w : World) : (op : Op) → Option (Reply op.Result)
  | .addZone key name => some (w.addZone key name)
  | .addRoom zone key title description => some (w.addRoom zone key title description)
  | .addExit room e => some (w.addExit room e)
  | .spawnCharacter room template => some (w.spawnCharacter room template)
  | .moveCharacter id room => some (w.moveCharacter id room)
  | .despawnCharacter id => some (w.despawnCharacter id)
  | .spawnItem location template => some (w.spawnItem location template)
  | .moveItem id target => some (w.moveItem id target)
  | .setDoorClosed room d closed => some (w.setDoorClosed room d closed)
  | .putOffBalance id duration => w.putOffBalance id duration
  | .advance delta => (w.advance delta).map (.ok (), ·)

/-- A change to one thing in the world that leaves everything else alone, consistent or not. -/
inductive Edit where
  | putDoor (room : RoomId) (d : Direction) (door : Option Door)
  | setAdmin (id : CharacterId) (admin : Bool)
  | stow (parent item : ItemId)

/-- Makes an edit; tells whether the thing to edit is there. -/
def edit (w : World) : Edit → Bool × World
  | .putDoor room d door =>
    (((w.room? room).bind (·.exit? d)).isSome, { w with
      rooms := w.rooms.modify room fun r =>
        { r with exits := r.exits.modify d fun e => { e with door } } })
  | .setAdmin id admin =>
    ((w.character? id).isSome, { w with
      characters := w.characters.modify id fun c => { c with isAdmin := admin } })
  | .stow parent item =>
    ((w.item? parent).isSome, { w with
      items := w.items.modify parent fun p => { p with contents := p.contents.add item } })

end World

end TextWorld

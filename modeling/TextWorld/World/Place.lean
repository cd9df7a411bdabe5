import TextWorld.World.Exit

/-! Rooms, and the zones that own them. -/

namespace TextWorld

structure Room where
  id : RoomId
  key : ZonedKey
  zone : ZoneId
  title : String
  description : String
  occupants : Queue CharacterId
  items : Container
  exits : Table Direction Exit

/-- Occupants in the order they arrived. -/
def Room.characters (r : Room) : List CharacterId := r.occupants.toList

def Room.exit? (r : Room) (d : Direction) : Option Exit := r.exits.get? d

/-- Exits in the order of their directions. -/
def Room.exitList (r : Room) : List Exit := r.exits.values

structure Zone where
  id : ZoneId
  key : String
  name : String
  /-- Rooms in the order they were added. -/
  rooms : List RoomId
  population : Queue CharacterId

/-- Characters anywhere in the zone, in the order they arrived. -/
def Zone.characters (z : Zone) : List CharacterId := z.population.toList

end TextWorld

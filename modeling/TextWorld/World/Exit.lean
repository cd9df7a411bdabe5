import TextWorld.World.Character
import TextWorld.World.Direction

/-! Exits of a room, the doors across them, and what a character can do with an exit. -/

namespace TextWorld

structure Door where
  closed : Bool
  /-- Counts only while the door is closed. -/
  locked : Bool
  /-- The exit is hidden while the door is closed. -/
  secret : Bool
  noMob : Bool
  deriving DecidableEq, Repr

namespace Door

def opened : Door := ⟨false, false, false, false⟩

def shut : Door := ⟨true, false, false, false⟩

/-- Locks the door, which closes it too. -/
def lock (d : Door) : Door := { d with closed := true, locked := true }

def hide (d : Door) : Door := { d with secret := true }

def barMobs (d : Door) : Door := { d with noMob := true }

end Door

structure Exit where
  direction : Direction
  destination : ZonedKey
  door : Option Door
  deriving DecidableEq

namespace Exit

def isClosed (e : Exit) : Bool := e.door.any (·.closed)

def isVisible (e : Exit) : Bool := !e.door.any fun d => d.secret && d.closed

def isPassableBy (e : Exit) (c : Character) : Bool :=
  e.door.all fun d => !d.closed && (c.isPlayer || !d.noMob)

def isPeekable (e : Exit) : Bool := e.isVisible && !e.isClosed

def isCloseable (e : Exit) : Bool := e.door.any fun d => !d.closed

/-- Whether there is a closed door, locked or not. -/
def isOpenable (e : Exit) : Bool := e.isClosed

def setClosed (closed : Bool) (e : Exit) : Exit :=
  { e with door := e.door.map fun d => { d with closed := closed } }

end Exit

end TextWorld

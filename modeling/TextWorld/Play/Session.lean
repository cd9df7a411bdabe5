import TextWorld.Engine.Tick

/-!
A running world seen by one local player. Whatever is emitted to the player is handed back after
every line and every tick; what is emitted to anyone else has no reader.
-/

namespace TextWorld

structure Session (S : Setting) where
  rules : Rules S
  state : State S
  player : CharacterId
  /-- How the last line was dispatched. -/
  lastOutcome : DispatchOutcome

namespace Session

variable {S : Setting}

/-- A session of a character that is in the world. -/
def playing (rules : Rules S) (state : State S) (player : CharacterId) :
    Except Error (Session S) :=
  match state.world.character? player with
  | none => .error (.characterNotFound player)
  | some _ => .ok { rules, state, player, lastOutcome := .empty }

/-- Lets the session play another character. -/
def setPlayer (s : Session S) (player : CharacterId) : Except Error Unit × Session S :=
  match s.state.world.character? player with
  | none => (.error (.characterNotFound player), s)
  | some _ => (.ok (), { s with player })

/-- Fails if the player is no longer in the world. -/
def checkPlayer (s : Session S) : Except Error Unit :=
  match s.state.world.character? s.player with
  | none => .error (.playerGone s.player)
  | some _ => .ok ()

/-- The texts for the player; those for others are dropped. -/
def collect (s : Session S) : List String × Session S :=
  ((s.state.mailbox.takeFor s.player).1, { s with state.mailbox := .empty })

/-- Dispatches a line for a character and gives what the player is told. -/
def submitAs (s : Session S) (actor : CharacterId) (line : String) :
    Except Fault (List String) × Session S :=
  match (s.rules.dispatch actor line).run.run s.state with
  | (.error fault, state) => (.error fault, { s with state })
  | (.ok outcome, state) =>
    let (texts, s) := { s with state, lastOutcome := outcome }.collect
    (.ok texts, s)

/-- Dispatches a line for the player. -/
def submit (s : Session S) (line : String) : Except Fault (List String) × Session S :=
  s.submitAs s.player line

/-- Lets time pass and gives what the player is told. -/
def tick (s : Session S) (delta : Duration) : Except Fault (List String) × Session S :=
  match (s.rules.tick delta).run.run s.state with
  | (.error fault, state) => (.error fault, { s with state })
  | (.ok (), state) =>
    let (texts, s) := { s with state }.collect
    (.ok texts, s)

end Session

end TextWorld

import TextWorld.Engine.Callback

/-!
The chain that a line is offered to: the actor's innermost conversation, the registry of the
actor's room, those of the other characters in the room, and the global one. The first level that
does not leave the line to others wins.
-/

namespace TextWorld

namespace Rules

variable {S : Setting}

/-- Offers a line to a registry. A word that stands for nothing, and an admin command of somebody
else, are left to others; a command that needs balance is blocked while the actor has none. -/
def handle (rules : Rules S) (depth : Nat) (registry : Registry (Handler S))
    (actor : CharacterId) (command : Command) (origin : Origin) : Run S CommandOutcome := do
  let world ← Run.gets (·.world)
  match registry.lookup command.word, world.character? actor with
  | some d, some c =>
    if d.adminOnly && !c.isAdmin then pure .notHandled
    else
      match if d.balanceGated then c.balanceRemaining world.now else none with
      | some left =>
        Run.reach (.barred d actor left)
        Run.update fun s => s.emit actor (rules.config.cooldownMessage left)
        pure .blocked
      | none =>
        -- Parameters that do not fit are no reason to refuse: the handler says what is missing.
        let args := match d.grammar with
          | some g => g.resolve world actor command.params
          | none => some []
        let inv : Invocation := { actor, command, args, origin, data := d.data }
        Run.reach (.invoked d inv)
        rules.execute depth (d.run inv)
  | _, _ => pure .notHandled

/-- Asks a level of the chain, which answers by itself. -/
def ask (level : Responder) (answer : Run S CommandOutcome) : Run S (Option Responder) := do
  Run.reach (.offered level)
  let outcome ← answer
  Run.reach (.answered level outcome)
  pure (if outcome.isHandled then some level else none)

/-- The first answer, asking the second only if the first is none. -/
def orAsk (first second : Run S (Option Responder)) : Run S (Option Responder) := do
  match ← first with
  | some responder => pure (some responder)
  | none => second

def askCharacters (rules : Rules S) (depth : Nat) (actor : CharacterId) (command : Command) :
    List CharacterId → Run S (Option Responder)
  | [] => pure none
  | other :: others =>
    match rules.registries.characters.get? other with
    | none => rules.askCharacters depth actor command others
    | some registry =>
      orAsk (ask (.character other) (rules.handle depth registry actor command (.character other)))
        (rules.askCharacters depth actor command others)

def askConversation (rules : Rules S) (depth : Nat) (actor : CharacterId) (command : Command) :
    Run S (Option Responder) := do
  let s ← get
  match activeConversation s.world s.forest actor with
  | none => pure none
  | some id => ask (.conversation id) (rules.offer depth id actor command)

def askRoom (rules : Rules S) (depth : Nat) (room : RoomId) (actor : CharacterId)
    (command : Command) : Run S (Option Responder) :=
  match rules.registries.rooms.get? room with
  | none => pure none
  | some registry => ask (.room room) (rules.handle depth registry actor command (.room room))

/-- Offers a line to the other occupants of a room, as they are now. -/
def askOccupants (rules : Rules S) (depth : Nat) (room : RoomId) (actor : CharacterId)
    (command : Command) : Run S (Option Responder) := do
  let occupants ← Run.gets fun s => ((s.world.room? room).map (·.characters)).getD []
  rules.askCharacters depth actor command (occupants.filter (· ≠ actor))

def askGlobal (rules : Rules S) (depth : Nat) (actor : CharacterId) (command : Command) :
    Run S (Option Responder) :=
  ask .global (rules.handle depth rules.registries.global actor command .global)

def askSurroundings (rules : Rules S) (depth : Nat) (actor : CharacterId) (command : Command) :
    Run S (Option Responder) := do
  match (← get).world.characterRoom actor with
  | none => pure none
  | some room =>
    orAsk (rules.askRoom depth room actor command) (rules.askOccupants depth room actor command)

def route (rules : Rules S) (depth : Nat) (actor : CharacterId) (command : Command) :
    Run S (Option Responder) :=
  orAsk (rules.askConversation depth actor command)
    (orAsk (rules.askSurroundings depth actor command) (rules.askGlobal depth actor command))

/-- Finds out who takes a line, and tells the actor if nobody does. -/
def respond (rules : Rules S) (depth : Nat) (actor : CharacterId) (command : Command) :
    Run S DispatchOutcome := do
  if command.isBlank then pure .empty
  else
    match ← rules.route depth actor command with
    | some responder => pure (.handled responder)
    | none =>
      Run.update fun s => s.emit actor rules.config.unknownCommand
      pure .unknown

/-- Dispatches one line of the given generation, without its follow-ups. -/
def dispatchLine (rules : Rules S) (depth : Nat) (actor : CharacterId) (line : String) :
    Run S DispatchOutcome := do
  Run.reach (.task (.line ⟨actor, line, depth⟩))
  let outcome ← rules.respond depth actor (.ofLine line)
  Run.reach (.done outcome)
  pure outcome

/-- Dispatches the queued lines that are not too many generations down. -/
def dispatchQueued (rules : Rules S) : List FollowUp → Run S Unit
  | [] => pure ()
  | f :: fs => do
    if f.depth ≤ rules.config.maxFollowUpDepth then
      discard <| rules.dispatchLine f.depth f.actor f.line
    rules.dispatchQueued fs

/-- Dispatches the queued lines, then those queued meanwhile, and so on for so many
generations; what is queued beyond them is dropped. -/
def drainGenerations (rules : Rules S) : Nat → Run S Unit
  | 0 => Run.update fun s => { s with followUps := .empty }
  | generations + 1 => do
    let queued := (← get).followUps
    if queued.isEmpty then pure ()
    else
      Run.update fun s => { s with followUps := .empty }
      rules.dispatchQueued queued.toList
      rules.drainGenerations generations

def drain (rules : Rules S) : Run S Unit :=
  rules.drainGenerations rules.config.maxFollowUpDepth

/-- Dispatches one line for an actor, then every follow-up it queued. -/
def dispatch (rules : Rules S) (actor : CharacterId) (line : String) : Run S DispatchOutcome := do
  let outcome ← rules.dispatchLine 0 actor line
  rules.drain
  pure outcome

/-- Runs a program for somebody outside, then dispatches every follow-up it queued. -/
def withContext {α : Type} (rules : Rules S) (p : Program S α) : Run S α := do
  Run.reach (.task .program)
  let a ← rules.execute 0 p
  rules.drain
  pure a

end Rules

end TextWorld

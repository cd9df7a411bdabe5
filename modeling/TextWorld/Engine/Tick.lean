import TextWorld.Engine.Chain

/-!
The passing of time. A tick advances the clock, dispatches the lines that have come due, lets every
conversation and then every hook do its part, and dispatches what these queued.
-/

namespace TextWorld

namespace Rules

variable {S : Setting}

def passTime (delta : Duration) : Run S Unit := do
  Run.reach (.passing delta)
  match (← get).world.advance delta with
  | none => Run.breakOff .clockOverflow
  | some world => Run.update fun s => { s with world }

/-- Takes the next line that is due now and was scheduled no later than `through`. -/
def takeDue (through : Nat) : Run S (Option ScheduledLine) := do
  let s ← get
  match s.forest.scheduler.popNext s.world.now through with
  | none => pure none
  | some (line, scheduler) =>
    Run.reach (.due through line)
    set { s with forest.scheduler := scheduler }
    pure (some line)

/-- Dispatches the lines due now that were scheduled no later than `through`, at most `count` of
them, each with all its follow-ups before the next is taken. -/
def fireDue (rules : Rules S) (through : Nat) : (count : Nat) → Run S Unit
  | 0 => pure ()
  | count + 1 => do
    match ← takeDue through with
    | none => pure ()
    | some line =>
      discard <| rules.dispatch line.actor line.line
      rules.fireDue through count

def tickConversations (rules : Rules S) : List ConversationId → Run S Unit
  | [] => pure ()
  | id :: ids => do
    rules.tickConversation id
    rules.tickConversations ids

def runHooks (rules : Rules S) (delta : Duration) : List (TickHook S) → Run S Unit
  | [] => pure ()
  | hook :: hooks => do
    Run.reach (.task (.hook hook))
    rules.execute 0 (hook delta)
    rules.runHooks delta hooks

def tick (rules : Rules S) (delta : Duration) : Run S Unit := do
  passTime delta
  -- Lines scheduled from now on wait for a later tick, even if they are due at once.
  let scheduler ← Run.gets (·.forest.scheduler)
  rules.fireDue scheduler.lastSequence scheduler.size
  -- Conversations that end before their turn are passed over; new ones have none.
  let active ← Run.gets (·.forest.ids)
  rules.tickConversations active
  rules.runHooks delta rules.hooks
  rules.drain

end Rules

end TextWorld

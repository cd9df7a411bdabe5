import TextWorld.Engine.Mailbox
import TextWorld.Engine.Program

/-! What a running engine changes, and the rules it runs by. -/

namespace TextWorld

/-- A line queued by a program, to be dispatched after the current one. -/
structure FollowUp where
  actor : CharacterId
  line : String
  /-- How many generations it is away from the line that started it all. -/
  depth : Nat
  deriving DecidableEq, Repr

structure State (S : Setting) where
  world : World
  forest : Forest S.Talk S.Ending
  mailbox : Mailbox
  followUps : Queue FollowUp
  memory : S.Memory

namespace State

variable {S : Setting}

def initial (world : World) (memory : S.Memory) : State S :=
  { world, forest := .empty, mailbox := .empty, followUps := .empty, memory }

def emit (s : State S) (recipient : CharacterId) (text : String) : State S :=
  { s with mailbox := s.mailbox.emit recipient text }

def emitRoom (s : State S) (room : RoomId) (except : Option CharacterId) (text : String) :
    State S :=
  match s.world.room? room with
  | none => s
  | some r =>
    (r.characters.filter fun id => some id ≠ except).foldl (fun s id => s.emit id text) s

theorem emitRoom_eq (s : State S) (room : RoomId) (except : Option CharacterId) (text : String) :
    ∃ mailbox, s.emitRoom room except text = { s with mailbox } := by
  have hfold (ids : List CharacterId) (s : State S) :
      ∃ mailbox, ids.foldl (fun s id => s.emit id text) s = { s with mailbox } := by
    induction ids generalizing s with
    | nil => exact ⟨s.mailbox, rfl⟩
    | cons id ids ih => exact ih (s.emit id text)
  rw [emitRoom]
  split
  · exact ⟨s.mailbox, rfl⟩
  · exact hfold _ s

end State

/-- What stays the same while lines are dispatched and time passes. -/
structure Rules (S : Setting) where
  config : DispatchConfig
  registries : Registries (Handler S)
  hooks : List (TickHook S)
  behaviour : Behaviour S
  /-- How many deliveries of completion data may each bring about the next. -/
  maxDeliveries : Nat

/-- So many deliveries in a row there is room for. -/
def ampleDeliveries : Nat := 50000

inductive Fault where
  /-- A time beyond what a clock can show. -/
  | clockOverflow
  /-- Callbacks whose completion data bring one another about without end. -/
  | endlessDeliveries
  deriving DecidableEq, Repr

end TextWorld

import TextWorld.Command.Definition
import TextWorld.Command.Line
import TextWorld.Command.Resolution
import TextWorld.Conversation.Forest
import TextWorld.Engine.Config
import TextWorld.World.Operation

/-!
Programs of handlers, conversations and tick hooks. A program asks the engine for one thing after
another and goes on with the replies, so whatever it does to the world it does through requests.
-/

namespace TextWorld

/-- What a handler or a level of the dispatch chain did with a line. -/
inductive CommandOutcome where
  | handled
  /-- Others may still try. -/
  | notHandled
  /-- A gate kept the handler from running. -/
  | blocked
  deriving DecidableEq, Repr

def CommandOutcome.isHandled : CommandOutcome → Bool
  | .notHandled => false
  | _ => true

def CommandOutcome.ofBool (handled : Bool) : CommandOutcome :=
  if handled then .handled else .notHandled

inductive Origin where
  | global
  | room (id : RoomId)
  | character (id : CharacterId)
  deriving DecidableEq, Repr

structure Invocation where
  actor : CharacterId
  command : Command
  /-- Absent if the parameters do not fit the grammar. -/
  args : Option (List Argument)
  origin : Origin
  data : Option Value

def Invocation.arg? (inv : Invocation) (i : Nat) : Option Argument := inv.args.bind (·[i]?)

/-- The data that the programs of a world work with: what a conversation remembers, what is to be
done at its end, and what all of them share. -/
structure Setting where
  Talk : Type
  Ending : Type
  Memory : Type

/-- Something a program can ask for. -/
inductive Request (S : Setting) where
  | emit (recipient : CharacterId) (text : String)
  | emitRoom (room : RoomId) (except : Option CharacterId) (text : String)
  /-- Queues a line, to be dispatched for the actor after the current one. -/
  | send (actor : CharacterId) (line : String)
  | perform (op : World.Op)
  | edit (e : World.Edit)
  | world
  | conversations
  /-- All definitions without their handlers. -/
  | catalogue
  | config
  | start (participants : List CharacterId) (talk : S.Talk) (ending : Option S.Ending)
  | startChild (parent : ConversationId) (participants : List CharacterId) (talk : S.Talk)
  | finish (id : ConversationId) (data : Value)
  /-- Schedules a line for the actor, in place of the conversation's pending one. -/
  | schedule (id : ConversationId) (actor : CharacterId) (line : String) (delay : Duration)
  | cancel (id : ConversationId)
  | getMemory
  | setMemory (memory : S.Memory)
  /-- Adds two spans of time; there is no answer if no clock can show the sum. -/
  | add (a b : Duration)

@[reducible] def Request.Reply {S : Setting} : Request S → Type
  | .perform op => Except Error op.Result
  | .edit _ => Bool
  | .world => World
  | .conversations => Forest S.Talk S.Ending
  | .catalogue => Registries Unit
  | .config => DispatchConfig
  | .start .. => Except Error ConversationId
  | .startChild .. => Except Error ConversationId
  | .finish .. => Except Error Unit
  | .schedule .. => Except Error Unit
  | .cancel _ => Bool
  | .getMemory => S.Memory
  | .add .. => Duration
  | _ => Unit

inductive Program (S : Setting) (α : Type) where
  | done (a : α)
  | ask (r : Request S) (next : r.Reply → Program S α)

/-- The innermost conversation that receives an actor's lines. -/
def activeConversation {τ ε : Type} (w : World) (f : Forest τ ε) (actor : CharacterId) :
    Option ConversationId := do
  let c ← w.character? actor
  let outer ← c.conversation
  if f.contains outer then some (f.innermostFor outer actor) else none

namespace Program

variable {S : Setting} {α β : Type}

instance [Inhabited α] : Inhabited (Program S α) := ⟨.done default⟩

def bind (p : Program S α) (f : α → Program S β) : Program S β :=
  match p with
  | .done a => f a
  | .ask r next => .ask r fun x => (next x).bind f

instance : Monad (Program S) where
  pure := .done
  bind := bind

theorem bind_done (p : Program S α) : p.bind .done = p := by
  induction p with
  | done a => rfl
  | ask r next ih => simp [bind, ih]

theorem bind_assoc {γ : Type} (p : Program S α) (f : α → Program S β) (g : β → Program S γ) :
    (p.bind f).bind g = p.bind fun a => (f a).bind g := by
  induction p with
  | done a => rfl
  | ask r next ih => simp [bind, ih]

instance : LawfulMonad (Program S) :=
  LawfulMonad.mk' (Program S) bind_done (fun _ _ => rfl) bind_assoc

def request (r : Request S) : Program S r.Reply := .ask r .done

def emit (recipient : CharacterId) (text : String) : Program S Unit :=
  request (.emit recipient text)

def emitRoom (room : RoomId) (except : Option CharacterId) (text : String) : Program S Unit :=
  request (.emitRoom room except text)

def send (actor : CharacterId) (line : String) : Program S Unit := request (.send actor line)

def perform (op : World.Op) : Program S (Except Error op.Result) := request (.perform op)

def edit (e : World.Edit) : Program S Bool := request (.edit e)

def world : Program S World := request .world

def conversations : Program S (Forest S.Talk S.Ending) := request .conversations

def catalogue : Program S (Registries Unit) := request .catalogue

def config : Program S DispatchConfig := request .config

def start (participants : List CharacterId) (talk : S.Talk) (ending : Option S.Ending) :
    Program S (Except Error ConversationId) :=
  request (.start participants talk ending)

def startChild (parent : ConversationId) (participants : List CharacterId) (talk : S.Talk) :
    Program S (Except Error ConversationId) :=
  request (.startChild parent participants talk)

def finish (id : ConversationId) (data : Value) : Program S (Except Error Unit) :=
  request (.finish id data)

def schedule (id : ConversationId) (actor : CharacterId) (line : String) (delay : Duration) :
    Program S (Except Error Unit) :=
  request (.schedule id actor line delay)

def cancel (id : ConversationId) : Program S Bool := request (.cancel id)

def getMemory : Program S S.Memory := request .getMemory

def setMemory (memory : S.Memory) : Program S Unit := request (.setMemory memory)

def add (a b : Duration) : Program S Duration := request (.add a b)

end Program

abbrev Handler (S : Setting) := Invocation → Program S CommandOutcome

abbrev TickHook (S : Setting) := Duration → Program S Unit

/-- What conversations do: at a line of a participant, when a child hands something back, at a
tick, and at the end. The first three also say what the conversation remembers from then on. -/
structure Behaviour (S : Setting) where
  onInput : S.Talk → ConversationId → CharacterId → Command → Program S (CommandOutcome × S.Talk)
  onReturn : S.Talk → ConversationId → Value → Program S S.Talk
  onTick : S.Talk → ConversationId → Program S S.Talk
  onEnd : S.Ending → Value → Program S Unit

end TextWorld

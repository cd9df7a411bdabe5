import TextWorld.Conversation.Scheduler
import TextWorld.Queue
import TextWorld.Value

/-!
The conversations that are under way. A conversation captures the lines of its participants until
it ends; it may have one child, which receives the lines of the participants it lists instead.
-/

namespace TextWorld

/-- A conversation under way; `τ` is what its behaviour remembers and `ε` what to do at its end. -/
structure Conversation (τ ε : Type) where
  participants : List CharacterId
  parent : Option ConversationId
  child : Option ConversationId
  /-- Absent while a callback of the conversation runs. -/
  talk : Option τ
  ending : Option ε
  /-- What children handed back while a callback was running, oldest first. -/
  handedBack : Queue Value

structure Forest (τ ε : Type) where
  table : Table ConversationId (Conversation τ ε)
  scheduler : Scheduler
  lastIndex : Nat

namespace Forest

variable {τ ε : Type}

def empty : Forest τ ε := ⟨.empty, .empty, 0⟩

def get? (f : Forest τ ε) (id : ConversationId) : Option (Conversation τ ε) := f.table.get? id

def contains (f : Forest τ ε) (id : ConversationId) : Bool := f.table.contains id

def ids (f : Forest τ ε) : List ConversationId := f.table.keys

def size (f : Forest τ ε) : Nat := f.table.size

def isEmpty (f : Forest τ ε) : Bool := f.table.isEmpty

def parent? (f : Forest τ ε) (id : ConversationId) : Option ConversationId := do
  let c ← f.get? id
  c.parent

def child? (f : Forest τ ε) (id : ConversationId) : Option ConversationId := do
  let c ← f.get? id
  c.child

def lists (f : Forest τ ε) (id : ConversationId) (actor : CharacterId) : Bool :=
  match f.get? id with
  | some c => c.participants.contains actor
  | none => false

/-- At most `count` descendants of a conversation, children first. -/
def descend (f : Forest τ ε) : Nat → ConversationId → List ConversationId
  | 0, _ => []
  | count + 1, id =>
    match f.child? id with
    | none => []
    | some child => child :: f.descend count child

/-- The descendants of a conversation, children first; no chain is longer than the table. -/
def descendants (f : Forest τ ε) (id : ConversationId) : List ConversationId :=
  f.descend f.size id

/-- The deepest conversation at or below `start` that lists `actor`. A child that leaves the actor
out does not end the search, since one of its own children may list the actor again. -/
def innermostFor (f : Forest τ ε) (start : ConversationId) (actor : CharacterId) :
    ConversationId :=
  ((f.descendants start).filter (f.lists · actor)).getLastD start

/-- At most `count` conversations from `id` upwards. -/
def ascend (f : Forest τ ε) : Nat → ConversationId → List ConversationId
  | 0, _ => []
  | count + 1, id =>
    match f.get? id with
    | none => []
    | some c =>
      match c.parent with
      | none => [id]
      | some parent => id :: f.ascend count parent

/-- A conversation and all its ancestors, innermost first. -/
def lineage (f : Forest τ ε) (id : ConversationId) : List ConversationId := f.ascend f.size id

def modify (f : Forest τ ε) (id : ConversationId)
    (g : Conversation τ ε → Conversation τ ε) : Forest τ ε :=
  { f with table := f.table.modify id g }

def modifyParent (f : Forest τ ε) (id : Option ConversationId)
    (g : Conversation τ ε → Conversation τ ε) : Forest τ ε :=
  match id with
  | some id => f.modify id g
  | none => f

/-- Adds a conversation under a fresh id, as the child of its parent. -/
def insert (f : Forest τ ε) (c : Conversation τ ε) : ConversationId × Forest τ ε :=
  let id : ConversationId := ⟨f.lastIndex + 1⟩
  let f := f.modifyParent c.parent fun p => { p with child := some id }
  (id, { f with table := f.table.insert id c, lastIndex := f.lastIndex + 1 })

/-- Removes a conversation with its pending line, and unlinks it from its parent. -/
def remove (f : Forest τ ε) (id : ConversationId) : Forest τ ε :=
  match f.get? id with
  | none => f
  | some c =>
    let f := { f with table := f.table.erase id, scheduler := f.scheduler.cancel id }
    f.modifyParent c.parent fun p =>
      { p with child := if p.child = some id then none else p.child }

def isBusy (f : Forest τ ε) (id : ConversationId) : Bool :=
  match f.get? id with
  | some c => c.talk.isNone
  | none => false

/-- Takes the oldest thing that children of the conversation handed back meanwhile. -/
def takeHandedBack (f : Forest τ ε) (id : ConversationId) : Option (Value × Forest τ ε) := do
  let c ← f.get? id
  let (value, rest) ← c.handedBack.pop?
  some (value, f.modify id fun c => { c with handedBack := rest })

def shown (f : Forest τ ε) : String :=
  "ConversationTable \x7b active: [" ++ ", ".intercalate (f.ids.map Id.shown)
    ++ "], scheduled: " ++ toString f.scheduler.size ++ " \x7d"

end Forest

end TextWorld

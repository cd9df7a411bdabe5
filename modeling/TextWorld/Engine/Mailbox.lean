import TextWorld.Id
import TextWorld.Queue

/-! Texts for characters, in the order they were emitted. -/

namespace TextWorld

structure Message where
  recipient : CharacterId
  text : String
  deriving DecidableEq, Repr

structure Mailbox where
  messages : Queue Message
  deriving DecidableEq, Repr

namespace Mailbox

def empty : Mailbox := ⟨.empty⟩

def isEmpty (m : Mailbox) : Bool := m.messages.isEmpty

def emit (m : Mailbox) (recipient : CharacterId) (text : String) : Mailbox :=
  ⟨m.messages.push ⟨recipient, text⟩⟩

def toList (m : Mailbox) : List Message := m.messages.toList

def takeFor (m : Mailbox) (recipient : CharacterId) : List String × Mailbox :=
  let (mine, others) := m.toList.partition (·.recipient == recipient)
  (mine.map (·.text), ⟨⟨others, []⟩⟩)

@[simp] theorem toList_emit (m : Mailbox) (recipient : CharacterId) (text : String) :
    (m.emit recipient text).toList = m.toList ++ [⟨recipient, text⟩] := by
  simp [emit, toList]

end Mailbox

end TextWorld

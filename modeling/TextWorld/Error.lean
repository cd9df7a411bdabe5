import TextWorld.Id
import TextWorld.Duration
import TextWorld.Text.Quoted

/-!
The causes of a refusal, and their wording. Only invalid definitions and operations on things
that are not there are errors; a line nobody accepts is an ordinary outcome.
-/

namespace TextWorld

/-- Why a text is not the key of a zone or of something in one. -/
inductive KeyProblem where
  | empty
  | emptyPart
  | noSeparator
  | manySeparators
  | zoneNotBare
  | zoneTaken
  | roomTaken
  deriving DecidableEq, Repr

def KeyProblem.message : KeyProblem → String
  | .empty => "empty key"
  | .emptyPart => "empty key component"
  | .noSeparator => "missing '@'"
  | .manySeparators => "more than one '@'"
  | .zoneNotBare => "zone keys must be bare"
  | .zoneTaken => "zone already exists"
  | .roomTaken => "room already exists"

/-- Why a text is not a grammar. -/
inductive GrammarProblem where
  | malformed (token : String)
  | optionalTyped (token : String)
  | manyScopes (token : String)
  | unknownModifier (head modifier : String)
  | excludesAll (token : String)
  | noModifiers (head : String)
  | other (message : String)
  deriving DecidableEq, Repr

open Text in
def GrammarProblem.message : GrammarProblem → String
  | .malformed token => "malformed token " ++ quoted token
  | .optionalTyped token => "only literals may be optional, got " ++ quoted token
  | .manyScopes token => quoted token ++ " names more than one scope"
  | .unknownModifier head modifier => "unknown " ++ head ++ " modifier " ++ quoted modifier
  | .excludesAll token => quoted token ++ " excludes every character"
  | .noModifiers head => quoted head ++ " takes no modifiers"
  | .other message => message

/-- Why a shell command was refused. -/
inductive ShellProblem where
  | notANumber (text : String)
  | badDuration (problem : Duration.Problem)
  | unknownCommand (name : String)
  deriving DecidableEq, Repr

def ShellProblem.message : ShellProblem → String
  | .notANumber text => "not a number: " ++ text
  | .badDuration problem => problem.message
  | .unknownCommand name => "unknown shell command: /" ++ name

inductive Error where
  | invalidKey (key : String) (problem : KeyProblem)
  | invalidGrammar (source : String) (problem : GrammarProblem)
  | duplicateRegistration (name : String)
  | unknownZone (zone : String)
  | unknownRoom (room : String)
  | characterNotFound (id : CharacterId)
  | itemNotFound (id : ItemId)
  | roomNotFound (id : RoomId)
  | conversationNotFound (id : ConversationId)
  | conversationBusy (participant : CharacterId) (active : ConversationId)
  | selfContainment (item : ItemId)
  | noParticipants
  | playerGone (player : CharacterId)
  | shell (problem : ShellProblem)
  | internal (message : String)
  deriving DecidableEq, Repr

open Text in
def Error.message : Error → String
  | .invalidKey key problem => "invalid key " ++ quoted key ++ ": " ++ problem.message
  | .invalidGrammar source problem => "invalid grammar " ++ quoted source ++ ": " ++ problem.message
  | .duplicateRegistration name => "command already registered: " ++ name
  | .unknownZone zone => "unknown zone: " ++ zone
  | .unknownRoom room => "unknown room: " ++ room
  | .characterNotFound id => "character not found: " ++ id.shown
  | .itemNotFound id => "item not found: " ++ id.shown
  | .roomNotFound id => "room not found: " ++ id.shown
  | .conversationNotFound id => "conversation not found: " ++ id.shown
  | .conversationBusy participant active =>
    participant.shown ++ " is already in " ++ active.shown
  | .selfContainment item => "internal error: " ++ item.text ++ " cannot contain itself"
  | .noParticipants => "internal error: a conversation needs at least one participant"
  | .playerGone player => "internal error: player " ++ player.text ++ " is no longer in the world"
  | .shell problem => "internal error: " ++ problem.message
  | .internal message => "internal error: " ++ message

/-- Where an error arose: the source of the failing definition and the definitions around it. -/
structure ErrorContext where
  source : Option String
  frames : List String
  deriving DecidableEq, Repr

def ErrorContext.text (context : ErrorContext) : String :=
  let place := match context.source with
    | some source => "at " ++ source
    | none => ""
  let stack := context.frames.map fun frame => "  in " ++ frame ++ "\n"
  if stack.isEmpty then place else place ++ "\n" ++ String.join stack

end TextWorld

import TextWorld.Error
import TextWorld.Text.Blank

/-!
Argument grammars: a list of tokens that says how the parameters of a command are bound. A
grammar is compiled once, so a malformed one is noticed when its command is defined.
-/

namespace TextWorld

namespace Grammar

/-- Which characters a `char` token considers: those of the actor's room or of its zone. -/
inductive Scope where
  | room
  | zone
  deriving DecidableEq, Repr

structure CharacterFilter where
  scope : Scope
  noSelf : Bool
  npcOnly : Bool
  playerOnly : Bool
  deriving DecidableEq, Repr

/-- The places an `item` token searches. -/
structure ItemFilter where
  inventory : Bool
  equipment : Bool
  room : Bool
  deriving DecidableEq, Repr

/-- What an `exit` token demands of an exit. -/
structure ExitFilter where
  visible : Bool
  passable : Bool
  peekable : Bool
  closeable : Bool
  openable : Bool
  deriving DecidableEq, Repr

inductive Token where
  | character (filter : CharacterFilter)
  | item (filter : ItemFilter)
  | exit (filter : ExitFilter)
  | zone
  | word
  /-- All parameters that are left. -/
  | rest
  /-- A word that stands for itself and produces no argument. -/
  | literal (word : String)
  /-- From here on a token that cannot be bound ends the binding instead of refusing it. -/
  | bestEffort
  deriving DecidableEq, Repr

structure Element where
  token : Token
  optional : Bool
  deriving DecidableEq, Repr

/-- Whether the token yields an argument. -/
def Token.isValued : Token → Bool
  | .literal _ => false
  | .bestEffort => false
  | _ => true

/-- Splits at every point. -/
def splitDots : List Char → List (List Char)
  | [] => [[]]
  | c :: cs => if c = '.' then [] :: splitDots cs else (splitDots cs).modifyHead (c :: ·)

/-- Reads the modifiers of a `char` token; `named` tells whether a scope was given already. -/
def characterFilter (token : String) (named : Bool) (f : CharacterFilter) :
    List String → Except GrammarProblem CharacterFilter
  | [] => if f.npcOnly && f.playerOnly then .error (.excludesAll token) else .ok f
  | m :: ms =>
    if m = "room" ∨ m = "zone" then
      if named then .error (.manyScopes token)
      else characterFilter token true { f with scope := if m = "zone" then .zone else f.scope } ms
    else if m = "noself" then characterFilter token named { f with noSelf := true } ms
    else if m = "npc" then characterFilter token named { f with npcOnly := true } ms
    else if m = "player" then characterFilter token named { f with playerOnly := true } ms
    else .error (.unknownModifier "char" m)

/-- Reads the modifiers of an `item` token: each adds a place. -/
def itemFilter (f : ItemFilter) : List String → Except GrammarProblem ItemFilter
  | [] => .ok f
  | m :: ms =>
    if m = "inv" then itemFilter { f with inventory := true } ms
    else if m = "eq" then itemFilter { f with equipment := true } ms
    else if m = "room" then itemFilter { f with room := true } ms
    else .error (.unknownModifier "item" m)

/-- Reads the modifiers of an `exit` token: each adds a demand. -/
def exitFilter (f : ExitFilter) : List String → Except GrammarProblem ExitFilter
  | [] => .ok f
  | m :: ms =>
    if m = "visible" then exitFilter { f with visible := true } ms
    else if m = "passable" then exitFilter { f with passable := true } ms
    else if m = "peekable" then exitFilter { f with peekable := true } ms
    else if m = "closeable" then exitFilter { f with closeable := true } ms
    else if m = "openable" then exitFilter { f with openable := true } ms
    else .error (.unknownModifier "exit" m)

/-- Compiles a token without brackets. -/
def compileToken (text : String) : Except GrammarProblem Token :=
  match (splitDots text.toList).map String.ofList with
  | [] => .ok (.literal text)
  | head :: modifiers =>
    if head = "char" then
      (characterFilter text false ⟨.room, false, false, false⟩ modifiers).map .character
    else if head = "item" then
      if modifiers = [] then .ok (.item ⟨true, true, true⟩)
      else (itemFilter ⟨false, false, false⟩ modifiers).map .item
    else if head = "exit" then
      (exitFilter ⟨false, false, false, false, false⟩ modifiers).map .exit
    else if head = "zone" ∨ head = "word" ∨ head = "string" then
      if modifiers ≠ [] then .error (.noModifiers head)
      else if head = "zone" then .ok .zone
      else if head = "word" then .ok .word
      else .ok .rest
    else .ok (.literal text)

/-- The text between the brackets of an optional token, or the whole of a token without
brackets. -/
def unbracket (cs : List Char) : Except GrammarProblem (List Char × Bool) :=
  if cs.head? = some '[' ∧ cs.getLast? = some ']' ∧ 2 < cs.length then
    .ok (cs.tail.dropLast, true)
  else if cs.head? ≠ some '[' ∧ cs.getLast? ≠ some ']' then .ok (cs, false)
  else .error (.malformed (String.ofList cs))

/-- Compiles a word of a grammar after its leading bar was taken off. -/
def compileElement (cs : List Char) : Except GrammarProblem Element := do
  let (inner, optional) ← unbracket cs
  if inner.any fun c => c == '[' || c == ']' || c == '|' then
    throw (.malformed (String.ofList cs))
  let token ← compileToken (String.ofList inner)
  -- Only a literal may be left out: a typed token has to yield its argument.
  match optional, token with
  | true, .literal _ => pure ⟨token, true⟩
  | true, _ => throw (.optionalTyped (String.ofList cs))
  | false, _ => pure ⟨token, false⟩

/-- Compiles one word of a grammar; a leading bar is an element of its own. -/
def compileWord (cs : List Char) : Except GrammarProblem (List Element) :=
  match cs with
  | ['|'] => .ok [⟨.bestEffort, false⟩]
  | '|' :: rest => (compileElement rest).map fun e => [⟨.bestEffort, false⟩, e]
  | _ => (compileElement cs).map fun e => [e]

def compileWords : List (List Char) → Except GrammarProblem (List Element)
  | [] => .ok []
  | w :: ws => do
    let es ← compileWord w
    let fs ← compileWords ws
    pure (es ++ fs)

end Grammar

/-- A compiled grammar and its source. -/
structure Grammar where
  source : String
  elements : List Grammar.Element
  deriving DecidableEq, Repr

namespace Grammar

def compile (source : String) : Except Error Grammar :=
  match compileWords (Text.splitWords source.toList) with
  | .ok elements => .ok ⟨source, elements⟩
  | .error problem => .error (.invalidGrammar source problem)

/-- The number of arguments of a full match. -/
def arity (g : Grammar) : Nat := g.elements.countP (·.token.isValued)

end Grammar

end TextWorld

import TextWorld.Id
import TextWorld.Table
import TextWorld.Text.Quoted
import TextWorld.Decimal.Shortest

/-!
Small dynamic values: the data attached to a command, and what a conversation hands back when it
ends.
-/

namespace TextWorld

inductive Value where
  | nil
  | bool (b : Bool)
  | int (n : Int)
  | float (x : Decimal.Binary64)
  | text (s : String)
  | character (id : CharacterId)
  | item (id : ItemId)
  | list (values : List Value)
  | map (entries : List (String × Value))
  deriving Inhabited

namespace Value

/-- A map of the given entries, by ascending key; of entries with one key the last counts. -/
def ofEntries (entries : List (String × Value)) : Value :=
  .map (Table.ofList entries).toList

def isNil : Value → Bool
  | .nil => true
  | _ => false

/-- Everything but `nil` and `false` counts as true. -/
def isTruthy : Value → Bool
  | .nil => false
  | .bool b => b
  | _ => true

def bool? : Value → Option Bool
  | .bool b => some b
  | _ => none

def int? : Value → Option Int
  | .int n => some n
  | _ => none

def text? : Value → Option String
  | .text s => some s
  | _ => none

def character? : Value → Option CharacterId
  | .character id => some id
  | _ => none

/-- The value at a key of a map. -/
def get? (v : Value) (key : String) : Option Value :=
  match v with
  | .map entries => entries.lookup key
  | _ => none

mutual

/-- Equality of values; floats are equal as numbers are. -/
def eq : Value → Value → Bool
  | .nil, .nil => true
  | .bool a, .bool b => a == b
  | .int a, .int b => a == b
  | .float a, .float b => a.eq b
  | .text a, .text b => a == b
  | .character a, .character b => a == b
  | .item a, .item b => a == b
  | .list as, .list bs => eqList as bs
  | .map as, .map bs => eqEntries as bs
  | _, _ => false

def eqList : List Value → List Value → Bool
  | [], [] => true
  | a :: as, b :: bs => eq a b && eqList as bs
  | _, _ => false

def eqEntries : List (String × Value) → List (String × Value) → Bool
  | [], [] => true
  | (k, a) :: as, (l, b) :: bs => k == l && eq a b && eqEntries as bs
  | _, _ => false

end

mutual

/-- Equality of a value and a copy of it. A map and its copy are one and not compared entry by
entry, so here alone a map may hold what differs from itself. -/
def eqCopy : Value → Bool
  | .float x => x.eq x
  | .list vs => eqCopies vs
  | _ => true

def eqCopies : List Value → Bool
  | [] => true
  | v :: vs => eqCopy v && eqCopies vs

end

mutual

/-- The text of a value: lists in brackets, maps in braces, strings quoted. -/
def shown : Value → String
  | .nil => "nil"
  | .bool b => if b then "true" else "false"
  | .int n => toString n
  | .float x => x.text
  | .text s => Text.quoted s
  | .character id => id.text
  | .item id => id.text
  | .list values => "[" ++ " ".intercalate (shownList values) ++ "]"
  | .map entries => "\x7b" ++ ", ".intercalate (shownEntries entries) ++ "\x7d"

def shownList : List Value → List String
  | [] => []
  | v :: vs => shown v :: shownList vs

def shownEntries : List (String × Value) → List String
  | [] => []
  | (k, v) :: es => (k ++ " " ++ shown v) :: shownEntries es

end

end Value

end TextWorld

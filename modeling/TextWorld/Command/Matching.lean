import TextWorld.Decimal.Reading
import TextWorld.Text.Lowercase
import TextWorld.World.Character
import TextWorld.World.Item

/-!
Finding the things that a word of input names. Four tiers are tried in order, each only if those
before it found nothing; within a tier the hits keep the order of the candidates.
-/

namespace TextWorld

/-- What a thing can be called by. -/
structure Labels where
  /-- The key without its zone. -/
  key : String
  keywords : List String
  name : String
  deriving DecidableEq, Repr

def Character.labels (c : Character) : Labels := ⟨c.key.basic, c.keywords, c.name⟩

def Item.labels (i : Item) : Labels := ⟨i.key.basic, i.keywords, i.name⟩

namespace Matching

/-- How a word names a thing. -/
inductive Tier where
  | exactKey
  | keyword
  | keyPrefix
  | namePrefix
  deriving DecidableEq, Repr

def Tier.all : List Tier := [.exactKey, .keyword, .keyPrefix, .namePrefix]

/-- Whether the lower-cased text begins with `needle`. -/
def begins (text needle : String) : Bool :=
  needle.toList.isPrefixOf (Text.lowercase text).toList

/-- Whether the lower-case word `needle` names a thing in this way. -/
def Tier.accepts (labels : Labels) (needle : String) : Tier → Bool
  | .exactKey => Text.lowercase labels.key == needle
  | .keyword => labels.keywords.any fun k => Text.lowercase k == needle
  | .keyPrefix => begins labels.key needle
  | .namePrefix => begins labels.name needle

variable {α : Type}

/-- The first of the tiers with a hit, and its hits. -/
def firstHits (labels : α → Labels) (candidates : List α) (needle : String) :
    List Tier → Option (Tier × List α)
  | [] => none
  | tier :: tiers =>
    match candidates.filter fun c => tier.accepts (labels c) needle with
    | [] => firstHits labels candidates needle tiers
    | hits => some (tier, hits)

/-- The tier that decides, and its hits; the empty word names nothing. -/
def rank (labels : α → Labels) (candidates : List α) (word : String) : Option (Tier × List α) :=
  if word = "" then none
  else firstHits labels candidates (Text.lowercase word) Tier.all

def find (labels : α → Labels) (candidates : List α) (word : String) : List α :=
  match rank labels candidates word with
  | some (_, hits) => hits
  | none => []

/-- The greatest ordinal that a word can carry. -/
def maxOrdinal : Nat := Nat.pow 2 64 - 1

/-- Cuts a parameter `name.N` at its last point; a parameter of another form asks for the
first. -/
def splitOrdinal (param : String) : String × Nat :=
  let suffix := (param.toList.reverse.takeWhile (· ≠ '.')).reverse
  match (param.toList.reverse.dropWhile (· ≠ '.')).reverse.dropLast with
  | [] => (param, 1)
  | name =>
    match Decimal.natural? suffix with
    | some n => if n ≤ maxOrdinal then (String.ofList name, n) else (param, 1)
    | none => (param, 1)

/-- The thing that a parameter names: the first hit of `name`, or the `N`-th of `name.N`. -/
def select (labels : α → Labels) (candidates : List α) (param : String) : Option α :=
  match splitOrdinal param with
  | (_, 0) => none
  | (name, n + 1) => (find labels candidates name)[n]?

end Matching

end TextWorld

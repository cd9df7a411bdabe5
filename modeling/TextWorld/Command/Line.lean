import TextWorld.Text.Blank
import TextWorld.Text.Lowercase

/-! One line of input, cut into a command word and its parameters. -/

namespace TextWorld

structure Command where
  /-- The line as it was typed. -/
  raw : String
  /-- The first word, lower-cased; empty for a blank line. -/
  word : String
  /-- The other words, verbatim. -/
  params : List String
  deriving DecidableEq, Repr

namespace Command

/-- The parameters with one space between neighbours. -/
def rest (c : Command) : String := Text.unwords c.params

def isBlank (c : Command) : Bool := c.word == ""

def ofLine (line : String) : Command :=
  match Text.words line with
  | [] => ⟨line, "", []⟩
  | word :: params => ⟨line, Text.lowercase word, params⟩

end Command

end TextWorld

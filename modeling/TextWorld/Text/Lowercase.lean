import TextWorld.Text.CaseRanges

/-!
Lower-casing of whole texts: every character by its full mapping, except that a capital sigma
becomes the final form at the end of a word.
-/

namespace TextWorld.Text

def isCased (c : Char) : Bool := casedRanges.covers c

def isCaseIgnorable (c : Char) : Bool := caseIgnorableRanges.covers c

def CaseRun.covers (run : CaseRun) (code : Nat) : Bool :=
  run.first ≤ code && code ≤ run.last && (code - run.first) % run.stride == 0

/-- The lower-case form of a character outside every context. -/
def lowerChar (c : Char) : List Char :=
  if c.toNat < 0x80 then [c.toLower]
  else if c = '\u0130' then ['i', '\u0307']
  else
    match caseRuns.find? (·.covers c.toNat) with
    | some run => [Char.ofNat (c.toNat + run.shift).toNat]
    | none => [c]

/-- Whether a letter with case comes first, once the ignorable characters are skipped. -/
def startsCased (cs : List Char) : Bool :=
  match cs.dropWhile isCaseIgnorable with
  | [] => false
  | c :: _ => isCased c

/-- Lower-cases `cs`, where `before` holds the characters to the left, nearest first. -/
def lowerAfter : List Char → List Char → List Char
  | _, [] => []
  | before, c :: cs =>
    -- Final means: a cased letter to the left and none to the right, ignorable ones aside.
    if c = 'Σ' then
      (if startsCased before && !startsCased cs then 'ς' else 'σ') :: lowerAfter (c :: before) cs
    else lowerChar c ++ lowerAfter (c :: before) cs

def lowercase (text : String) : String := String.ofList (lowerAfter [] text.toList)

example : lowercase "LOOK" = "look" := by decide
example : lowercase "ΟΔΟΣ" = "οδος" := by decide +kernel
example : lowercase "İ" = "i\u0307" := by decide +kernel

end TextWorld.Text

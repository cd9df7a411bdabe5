import TextWorld.Text.CodeRanges

/-!
White space, and lines cut into words at it. The words of a line hold no white space and none
is empty.
-/

namespace TextWorld.Text

/-- The code points of white space. -/
def blankRanges : CodeRanges :=
  [(0x9, 0xd), (0x20, 0x20), (0x85, 0x85), (0xa0, 0xa0), (0x1680, 0x1680), (0x2000, 0x200a),
   (0x2028, 0x2029), (0x202f, 0x202f), (0x205f, 0x205f), (0x3000, 0x3000)]

def isBlank (c : Char) : Bool := blankRanges.covers c

/-- The maximal runs of characters that are not white space. -/
def splitWords : List Char → List (List Char)
  | [] => []
  | c :: cs =>
    if isBlank c then splitWords cs
    else
      match cs with
      | [] => [[c]]
      | d :: _ =>
        if isBlank d then [c] :: splitWords cs
        else (splitWords cs).modifyHead (c :: ·)

/-- The words of a line, verbatim. -/
def words (line : String) : List String :=
  (splitWords line.toList).map String.ofList

/-- The text without the white space at its two ends. -/
def trim (text : String) : String :=
  String.ofList (((text.toList.dropWhile isBlank).reverse.dropWhile isBlank).reverse)

/-- The lines of a text, each with the line feed that ends it; the last line needs none. -/
def splitLines : List Char → List (List Char)
  | [] => []
  | c :: cs =>
    if c = '\n' then [c] :: splitLines cs
    else
      match splitLines cs with
      | [] => [[c]]
      | l :: ls => (c :: l) :: ls

def lines (text : String) : List String :=
  (splitLines text.toList).map String.ofList

/-- The texts joined with one space between neighbours. -/
def unwords (texts : List String) : String := " ".intercalate texts

theorem isBlank_space : isBlank ' ' = true := by decide

@[simp] theorem splitWords_nil : splitWords [] = [] := rfl

theorem splitWords_cons_blank {c : Char} (h : isBlank c = true) (cs : List Char) :
    splitWords (c :: cs) = splitWords cs := by
  simp [splitWords, h]

theorem not_isBlank_of_mem_splitWords {cs w : List Char} (hw : w ∈ splitWords cs) :
    w ≠ [] ∧ ∀ c ∈ w, isBlank c = false := by
  induction cs generalizing w with
  | nil => simp at hw
  | cons c cs ih =>
    by_cases hc : isBlank c = true
    · rw [splitWords_cons_blank hc] at hw
      exact ih hw
    · cases cs with
      | nil =>
        simp only [splitWords, hc] at hw
        simp_all
      | cons d ds =>
        by_cases hd : isBlank d = true
        · rw [splitWords] at hw
          simp only [hc, hd, if_true, Bool.false_eq_true, if_false, List.mem_cons] at hw
          rcases hw with rfl | hw
          · simp_all
          · exact ih hw
        · rw [splitWords] at hw
          simp only [hc, hd, Bool.false_eq_true, if_false] at hw
          cases hs : splitWords (d :: ds) with
          | nil => simp [hs] at hw
          | cons v vs =>
            rw [hs] at hw ih
            simp only [List.modifyHead_cons, List.mem_cons] at hw
            rcases hw with rfl | hw
            · have := ih (w := v) (by simp)
              simp_all
            · exact ih (by simp [hw])

end TextWorld.Text

import TextWorld.Text.Blank

/-!
Words put together and taken apart. Words with one space between neighbours are the words of the
text that they make up.
-/

namespace TextWorld.Text

/-- Characters that make up one word: some, and none of them white space. -/
structure IsWord (w : List Char) : Prop where
  ne_nil : w ≠ []
  solid : ∀ c ∈ w, isBlank c = false

theorem isWord_of_mem_splitWords {cs w : List Char} (hw : w ∈ splitWords cs) : IsWord w :=
  ⟨(not_isBlank_of_mem_splitWords hw).1, (not_isBlank_of_mem_splitWords hw).2⟩

theorem splitWords_cons_solid {c d : Char} (hc : isBlank c = false) (hd : isBlank d = false)
    (cs : List Char) : splitWords (c :: d :: cs) = (splitWords (d :: cs)).modifyHead (c :: ·) := by
  rw [splitWords]
  simp only [hc, hd, Bool.false_eq_true, if_false]

theorem splitWords_cons_end {c : Char} (hc : isBlank c = false) {rest : List Char}
    (hrest : ∀ b ∈ rest.head?, isBlank b = true) :
    splitWords (c :: rest) = [c] :: splitWords rest := by
  cases rest with
  | nil => simp only [splitWords, hc, Bool.false_eq_true, if_false]
  | cons b rest =>
    have hb : isBlank b = true := hrest b rfl
    rw [splitWords]
    simp only [hc, hb, Bool.false_eq_true, if_false, if_true]

/-- A word goes as far as the next white space. -/
theorem splitWords_append {w rest : List Char} (hw : IsWord w)
    (hrest : ∀ b ∈ rest.head?, isBlank b = true) :
    splitWords (w ++ rest) = w :: splitWords rest := by
  obtain ⟨hne, hsolid⟩ := hw
  induction w with
  | nil => exact absurd rfl hne
  | cons c w ih =>
    have hc := hsolid c List.mem_cons_self
    have hlater : ∀ x ∈ w, isBlank x = false := fun x hx => hsolid x (List.mem_cons_of_mem c hx)
    cases w with
    | nil => exact splitWords_cons_end hc hrest
    | cons d w =>
      calc splitWords (c :: d :: (w ++ rest))
          = (splitWords (d :: w ++ rest)).modifyHead (c :: ·) :=
            splitWords_cons_solid hc (hlater d List.mem_cons_self) _
        _ = ((d :: w) :: splitWords rest).modifyHead (c :: ·) := by
            rw [ih (List.cons_ne_nil d w) hlater]
        _ = (c :: d :: w) :: splitWords rest := rfl

/-- Joining words with spaces and splitting the text gives the words back. -/
theorem splitWords_intercalate {ws : List (List Char)} (hws : ∀ w ∈ ws, IsWord w) :
    splitWords ([' '].intercalate ws) = ws := by
  induction ws with
  | nil => rfl
  | cons w ws ih =>
    have hw := hws w List.mem_cons_self
    cases ws with
    | nil =>
      have hsplit : splitWords (w ++ []) = w :: splitWords [] := splitWords_append hw nofun
      rw [List.append_nil, splitWords_nil] at hsplit
      rwa [List.intercalate_singleton]
    | cons v ws =>
      have hrest := ih fun x hx => hws x (List.mem_cons_of_mem w hx)
      have hspace : ∀ b ∈ (' ' :: [' '].intercalate (v :: ws)).head?, isBlank b = true := by
        rintro b ⟨⟩
        exact isBlank_space
      rw [List.intercalate_cons_cons, List.append_assoc, List.singleton_append,
        splitWords_append hw hspace, splitWords_cons_blank isBlank_space, hrest]

end TextWorld.Text

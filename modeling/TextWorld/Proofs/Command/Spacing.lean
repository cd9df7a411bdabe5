import Mathlib.Data.List.TakeWhile
import TextWorld.Command.Line
import TextWorld.Proofs.Text.Casing
import TextWorld.Proofs.Text.Words

/-!
Lines and the white space in them. Each line is a list of words with white space around them, and
what it means as a command depends on the words alone; written out again it means the same.
-/

namespace TextWorld

namespace Text

variable {gap lead word rest text : String} {words' : List String}

/-- White space, or nothing at all. -/
def IsGap (gap : String) : Prop := ∀ c ∈ gap.toList, isBlank c = true

instance (gap : String) : Decidable (IsGap gap) :=
  decidable_of_iff (gap.toList.all isBlank = true) List.all_eq_true

instance (cs : List Char) : Decidable (IsWord cs) :=
  decidable_of_iff (cs ≠ [] ∧ cs.all (!isBlank ·) = true)
    ⟨fun h => ⟨h.1, by simpa using h.2⟩, fun h => ⟨h.ne_nil, by simpa using h.solid⟩⟩

/-- The text consists of these words, with some white space between neighbours, and perhaps more of
it around them. -/
inductive Spaced : List String → String → Prop
  | blank {gap : String} (hgap : IsGap gap) : Spaced [] gap
  | last {lead word trail : String} (hlead : IsGap lead) (hword : IsWord word.toList)
      (htrail : IsGap trail) : Spaced [word] (lead ++ word ++ trail)
  | next {lead word gap text next : String} {words : List String} (hlead : IsGap lead)
      (hword : IsWord word.toList) (hgap : IsGap gap) (hne : gap ≠ "")
      (hrest : Spaced (next :: words) text) : Spaced (word :: next :: words)
        (lead ++ word ++ (gap ++ text))

/-! The words of a text. -/

theorem splitWords_gap {gap : List Char} (hgap : ∀ c ∈ gap, isBlank c = true) (cs : List Char) :
    splitWords (gap ++ cs) = splitWords cs := by
  induction gap with
  | nil => rfl
  | cons c gap ih =>
    rw [List.cons_append, splitWords_cons_blank (hgap c List.mem_cons_self)]
    exact ih fun d hd => hgap d (List.mem_cons_of_mem c hd)

theorem words_gap_append (hgap : IsGap gap) (text : String) : words (gap ++ text) = words text := by
  rw [words, String.toList_append, splitWords_gap hgap]
  rfl

theorem words_gap (hgap : IsGap gap) : words gap = [] := by
  have hnone := words_gap_append hgap ""
  rwa [String.append_empty] at hnone

/-- A word that ends where white space begins is the first one. -/
theorem words_word_append (hlead : IsGap lead) (hword : IsWord word.toList)
    (hrest : ∀ b ∈ rest.toList.head?, isBlank b = true) :
    words (lead ++ word ++ rest) = word :: words rest := by
  rw [String.append_assoc, words_gap_append hlead, words, String.toList_append,
    splitWords_append hword hrest, List.map_cons, String.ofList_toList]
  rfl

theorem isWord_of_mem_words {w : String} (hw : w ∈ words text) : IsWord w.toList := by
  obtain ⟨cs, hcs, rfl⟩ := List.mem_map.1 hw
  rw [String.toList_ofList]
  exact isWord_of_mem_splitWords hcs

/-- Every text begins with some characters that have a property, up to one that does not. -/
theorem exists_front (p : Char → Bool) (text : String) : ∃ front rest : String,
    text = front ++ rest ∧ (∀ c ∈ front.toList, p c = true) ∧
      ∀ c ∈ rest.toList.head?, p c = false := by
  refine ⟨.ofList (text.toList.takeWhile p), .ofList (text.toList.dropWhile p), ?_, ?_, ?_⟩
  · rw [← String.ofList_append, List.takeWhile_append_dropWhile, String.ofList_toList]
  · rw [String.toList_ofList]
    exact fun c => List.mem_takeWhile_imp
  · rw [String.toList_ofList]
    intro c hc
    have hstop := List.head?_dropWhile_not p text.toList
    rw [hc] at hstop
    simpa using hstop

/-- Nothing begins both with white space and with something else. -/
theorem eq_empty_of_head? (hblank : ∀ c ∈ text.toList.head?, isBlank c = true)
    (hsolid : ∀ c ∈ text.toList.head?, isBlank c = false) : text = "" := by
  rw [← String.toList_eq_nil_iff, ← List.head?_eq_none_iff, Option.eq_none_iff_forall_ne_some]
  intro c hc
  have hboth := hblank c hc
  rw [hsolid c hc] at hboth
  cases hboth

/-- A text is white space only, or it has a first word. -/
theorem isGap_or_word (text : String) : IsGap text ∨ ∃ lead word rest : String,
    text = lead ++ word ++ rest ∧ IsGap lead ∧ IsWord word.toList ∧
      ∀ b ∈ rest.toList.head?, isBlank b = true := by
  obtain ⟨lead, behind, rfl, hlead, hbehind⟩ := exists_front isBlank text
  obtain ⟨word, rest, rfl, hword, hrest⟩ := exists_front (fun c => !isBlank c) behind
  have hbreak : ∀ b ∈ rest.toList.head?, isBlank b = true := by simpa using hrest
  by_cases hempty : word = ""
  · -- What follows the white space would begin a word, so nothing follows it.
    left
    subst hempty
    rw [String.empty_append] at hbehind ⊢
    rwa [eq_empty_of_head? hbreak hbehind, String.append_empty]
  · right
    refine ⟨lead, word, rest, String.append_assoc.symm, hlead, ⟨?_, ?_⟩, hbreak⟩
    · rwa [ne_eq, String.toList_eq_nil_iff]
    · simpa using hword

theorem words_eq_nil_iff : words text = [] ↔ IsGap text := by
  refine ⟨fun h => ?_, words_gap⟩
  rcases isGap_or_word text with hgap | ⟨lead, word, rest, rfl, hlead, hword, hrest⟩
  · exact hgap
  · rw [words_word_append hlead hword hrest] at h
    cases h

/-- A text consists of its words. -/
theorem spaced_words (text : String) : Spaced (words text) text := by
  -- What is left behind a word is shorter.
  induction hlength : text.length using Nat.strong_induction_on generalizing text with
  | _ length ih =>
    rcases isGap_or_word text with hgap | ⟨lead, word, rest, rfl, hlead, hword, hrest⟩
    · rw [words_gap hgap]
      exact .blank hgap
    · rw [words_word_append hlead hword hrest]
      cases hwords : words rest with
      | nil => exact .last hlead hword (words_eq_nil_iff.1 hwords)
      | cons next ws =>
        obtain ⟨gap, behind, rfl, hgap, hbehind⟩ := exists_front isBlank rest
        rw [words_gap_append hgap] at hwords
        have hne : gap ≠ "" := by
          rintro rfl
          rw [String.empty_append] at hrest
          rw [eq_empty_of_head? hrest hbehind] at hwords
          cases hwords
        have hshorter : behind.length < length := by
          have hlong : 0 < word.length := by
            rw [← String.length_toList]
            exact List.length_pos_iff.2 hword.ne_nil
          simp only [String.length_append] at hlength
          omega
        have hbehind := ih _ hshorter behind rfl
        rw [hwords] at hbehind
        exact .next hlead hword hgap hne hbehind

/-- No other words make up the text. -/
theorem Spaced.eq_words {ws : List String} (h : Spaced ws text) : ws = words text := by
  induction h with
  | blank hgap => exact (words_gap hgap).symm
  | last hlead hword htrail =>
    rw [words_word_append hlead hword fun b hb => htrail b (List.mem_of_mem_head? hb),
      words_gap htrail]
  | next hlead hword hgap hne hrest ih =>
    rename_i lead word gap text next ws
    -- The word ends, since there is some white space behind it.
    have hbreak : ∀ b ∈ (gap ++ text).toList.head?, isBlank b = true := by
      obtain ⟨c, cs, hgap'⟩ := List.exists_cons_of_ne_nil (mt String.toList_eq_nil_iff.1 hne)
      rw [String.toList_append, hgap']
      rintro _ ⟨⟩
      exact hgap c (hgap' ▸ List.mem_cons_self)
    rw [words_word_append hlead hword hbreak, words_gap_append hgap, ← ih]

/-- Words with one space between neighbours are the words of the text. -/
theorem words_unwords {ws : List String} (hws : ∀ w ∈ ws, IsWord w.toList) :
    words (unwords ws) = ws := by
  have hparts : ∀ cs ∈ ws.map String.toList, IsWord cs := by
    intro cs hcs
    obtain ⟨w, hw, rfl⟩ := List.mem_map.1 hcs
    exact hws w hw
  have hspaces : (unwords ws).toList = [' '].intercalate (ws.map String.toList) := by
    rw [unwords, String.toList_intercalate]
    rfl
  rw [words, hspaces, splitWords_intercalate hparts, List.map_map]
  exact List.map_id'' (fun w => String.ofList_toList) ws

/-! Words in lower case. -/

theorem isBlank_eq_true_iff {c : Char} :
    isBlank c = true ↔ ∃ r ∈ blankRanges, r.1 ≤ c.toNat ∧ c.toNat ≤ r.2 := by
  simp [isBlank, CodeRanges.covers]

/-- No lower-case form of a letter of a run is white space. -/
theorem isBlank_lowForm {run : CaseRun} (hrun : run ∈ caseRuns) {c : Char}
    (hcovers : run.covers c.toNat = true) :
    isBlank (Char.ofNat (c.toNat + run.shift).toNat) = false := by
  have hapart : ∀ run ∈ caseRuns, ∀ r ∈ blankRanges, run.lowLast < r.1 ∨ r.2 < run.lowFirst := by
    decide +kernel
  have hplain := isPlain_of_mem run hrun
  obtain ⟨hfirst, hlast, -⟩ := CaseRun.lowForm_bounds hcovers hplain
  rw [Bool.eq_false_iff, ne_eq, isBlank_eq_true_iff, CaseRun.toNat_lowForm hcovers hplain]
  rintro ⟨r, hr, hfrom, hto⟩
  rcases hapart run hrun r hr with hbefore | hafter
  · omega
  · omega

/-- What is not white space does not become any in lower case. -/
theorem isBlank_of_mem_lowerChar {c d : Char} (hc : isBlank c = false) (hd : d ∈ lowerChar c) :
    isBlank d = false := by
  rcases mem_lowerChar hd with ⟨hascii, rfl⟩ | ⟨-, hd⟩ | ⟨run, hrun, hcovers, rfl⟩ | ⟨-, -, -, rfl⟩
  · have hlower : ∀ n < 0x80, isBlank (Char.ofNat n) = false →
        isBlank (Char.ofNat n).toLower = false := by
      decide +kernel
    have hblank := hlower c.toNat hascii
    rw [Char.ofNat_toNat] at hblank
    exact hblank hc
  · rcases hd with rfl | rfl
    · decide
    · decide
  · exact isBlank_lowForm hrun hcovers
  · exact hc

theorem isBlank_of_mem_lowerAfter {before cs : List Char} (hcs : ∀ c ∈ cs, isBlank c = false)
    {d : Char} (hd : d ∈ lowerAfter before cs) : isBlank d = false := by
  induction cs generalizing before with
  | nil => cases hd
  | cons c cs ih =>
    have hlater : d ∈ lowerAfter (c :: before) cs → isBlank d = false :=
      ih fun x hx => hcs x (List.mem_cons_of_mem c hx)
    rw [lowerAfter] at hd
    split at hd
    · rcases List.mem_cons.1 hd with rfl | hd
      · split
        · decide
        · decide
      · exact hlater hd
    · rcases List.mem_append.1 hd with hd | hd
      · exact isBlank_of_mem_lowerChar (hcs c List.mem_cons_self) hd
      · exact hlater hd

theorem lowerChar_ne_nil (c : Char) : lowerChar c ≠ [] := by
  unfold lowerChar
  repeat' split
  all_goals exact List.cons_ne_nil _ _

theorem lowerAfter_ne_nil {before cs : List Char} (h : cs ≠ []) : lowerAfter before cs ≠ [] := by
  cases cs with
  | nil => exact absurd rfl h
  | cons c cs =>
    rw [lowerAfter]
    split
    · exact List.cons_ne_nil _ _
    · exact List.append_ne_nil_of_left_ne_nil (lowerChar_ne_nil c) _

/-- A word in lower case is a word. -/
theorem isWord_lowercase {w : String} (hw : IsWord w.toList) : IsWord (lowercase w).toList := by
  rw [lowercase, String.toList_ofList]
  exact ⟨lowerAfter_ne_nil hw.ne_nil, fun _ => isBlank_of_mem_lowerAfter hw.solid⟩

end Text

namespace Command

open Text

variable {line word : String} {params : List String}

/-- The command as a line: the word, and what follows it behind a space. -/
def written (c : Command) : String := if c.rest = "" then c.word else c.word ++ " " ++ c.rest

theorem ofLine_of_words (h : words line = word :: params) :
    ofLine line = ⟨line, lowercase word, params⟩ := by
  rw [ofLine, h]

theorem ofLine_of_no_words (h : words line = []) : ofLine line = ⟨line, "", []⟩ := by
  rw [ofLine, h]

/-- A line is blank if it has no words: what the first word becomes in lower case is not empty. -/
theorem isBlank_ofLine : (ofLine line).isBlank = true ↔ words line = [] := by
  rw [isBlank, beq_iff_eq]
  cases hwords : words line with
  | nil => simp [ofLine_of_no_words hwords]
  | cons word params =>
    have hword : IsWord word.toList := isWord_of_mem_words (hwords ▸ List.mem_cons_self)
    have hne := (isWord_lowercase hword).ne_nil
    rw [ne_eq, String.toList_eq_nil_iff] at hne
    simp [ofLine_of_words hwords, hne]

/-- A command is written as the text of its word and its parameters. -/
theorem written_eq (hparams : ∀ p ∈ params, IsWord p.toList) (raw : String) :
    written ⟨raw, word, params⟩ = unwords (word :: params) := by
  rw [written, rest]
  dsimp only
  cases params with
  | nil =>
    rw [unwords, unwords, String.intercalate_nil, String.intercalate_singleton]
    exact if_pos rfl
  | cons p ps =>
    have hne : unwords (p :: ps) ≠ "" := by
      intro hempty
      have hwords := words_unwords hparams
      rw [hempty] at hwords
      cases hwords
    rw [if_neg hne, unwords, unwords, String.intercalate_cons_cons]

theorem words_written (hword : IsWord word.toList) (hparams : ∀ p ∈ params, IsWord p.toList)
    (raw : String) : words (written ⟨raw, word, params⟩) = word :: params := by
  rw [written_eq hparams]
  refine words_unwords fun w hw => ?_
  rcases List.mem_cons.1 hw with rfl | hw
  · exact hword
  · exact hparams w hw

/-- A line is a list of words in one way only, whatever white space it has; the first of them in
lower case is the word of the command, and the others are its parameters. Written out again, the
command means the same. -/
theorem line_tokenized (line : String) :
    (∀ words, Spaced words line → (ofLine line).word = lowercase (words.headD "") ∧
      (ofLine line).params = words.tail ∧ (ofLine line).rest = " ".intercalate words.tail) ∧
    (∃ words, Spaced words line ∧ ∀ others, Spaced others line → others = words) ∧
    ((ofLine line).isBlank = true ↔ IsGap line) ∧
    (¬IsGap line → (ofLine (ofLine line).written).word = (ofLine line).word ∧
      (ofLine (ofLine line).written).params = (ofLine line).params ∧
        (ofLine (ofLine line).written).rest = (ofLine line).rest) := by
  refine ⟨fun ws hws => ?_, ⟨_, spaced_words line, fun others => Spaced.eq_words⟩,
    isBlank_ofLine.trans words_eq_nil_iff, fun hgap => ?_⟩
  · rw [hws.eq_words]
    cases hwords : words line with
    | nil =>
      have hempty : lowercase "" = "" := by decide
      rw [ofLine_of_no_words hwords]
      exact ⟨hempty.symm, rfl, rfl⟩
    | cons word params =>
      rw [ofLine_of_words hwords]
      exact ⟨rfl, rfl, rfl⟩
  · cases hwords : words line with
    | nil => exact absurd (words_eq_nil_iff.1 hwords) hgap
    | cons word params =>
      have hall : ∀ w ∈ word :: params, IsWord w.toList :=
        fun w hw => isWord_of_mem_words (hwords ▸ hw)
      have hagain := words_written (isWord_lowercase (hall word List.mem_cons_self))
        (fun p hp => hall p (List.mem_cons_of_mem word hp)) line
      rw [ofLine_of_words hwords, ofLine_of_words hagain]
      exact ⟨lowercase_lowercase word, rfl, rfl⟩

/-- White space of three kinds goes, and the last letter of the first word has the form that it has
at the end of a word. -/
theorem line_tokenized_shouted : Spaced ["ΟΔΟΣ", "Hello"] " ΟΔΟΣ\t\u3000Hello\n" ∧
    (ofLine " ΟΔΟΣ\t\u3000Hello\n").word = "οδος" ∧
    (ofLine " ΟΔΟΣ\t\u3000Hello\n").params = ["Hello"] ∧
    (ofLine " ΟΔΟΣ\t\u3000Hello\n").rest = "Hello" ∧
    (ofLine "οδος Hello").word = "οδος" ∧ (ofLine "οδος Hello").params = ["Hello"] := by
  obtain ⟨htokens, -, -, hagain⟩ := line_tokenized " ΟΔΟΣ\t\u3000Hello\n"
  have hlast : Spaced ["Hello"] ("" ++ "Hello" ++ "\n") :=
    .last (by decide) (by decide) (by decide)
  have hspaced : Spaced ["ΟΔΟΣ", "Hello"] (" " ++ "ΟΔΟΣ" ++ ("\t\u3000" ++ _)) :=
    .next (by decide) (by decide) (by decide) (by decide) hlast
  have hlower : lowercase "ΟΔΟΣ" = "οδος" := by decide +kernel
  obtain ⟨hword, hparams, hrest⟩ := htokens _ hspaced
  have hwritten : written (ofLine " ΟΔΟΣ\t\u3000Hello\n") = "οδος Hello" := by
    rw [written, hword, hrest]
    exact congrArg (· ++ " " ++ "Hello") hlower
  obtain ⟨hword', hparams', -⟩ := hagain (by decide)
  rw [hwritten] at hword' hparams'
  have hshouted := hword.trans hlower
  exact ⟨hspaced, hshouted, hparams, hrest, hword'.trans hshouted, hparams'.trans hparams⟩

end Command

end TextWorld

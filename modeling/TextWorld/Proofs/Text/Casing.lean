import TextWorld.Text.Lowercase

/-!
Lower-casing twice. The lower-case form of a character is its own lower-case form, so a text that
has been lower-cased stays as it is when it is lower-cased again.
-/

namespace TextWorld.Text

namespace CaseRun

/-- The first of the lower-case forms of a run. -/
def lowFirst (run : CaseRun) : Nat := (run.first + run.shift).toNat

def lowLast (run : CaseRun) : Nat := (run.last + run.shift).toNat

/-- The lower-case forms of a run are characters, no ASCII capitals, and neither of the two letters
that are not lower-cased by a run. -/
def isPlain (run : CaseRun) : Bool :=
  0 ≤ run.first + run.shift && 0x5a < run.lowFirst &&
    (run.lowLast < 0xd800 || 0xdfff < run.lowFirst) && run.lowLast < 0x110000 &&
    (run.lowLast < 0x130 || 0x130 < run.lowFirst) && (run.lowLast < 0x3a3 || 0x3a3 < run.lowFirst)

/-- No lower-case form of the run is a letter of the other: they lie apart, or alternate. -/
def misses (run other : CaseRun) : Bool :=
  Nat.blt run.lowLast other.first || Nat.blt other.last run.lowFirst ||
    (run.stride == 2 || run.first == run.last) && other.stride == 2 &&
      (run.lowFirst + other.first) % 2 == 1

/-- Where the lower-case form of a letter of a run lies. -/
theorem lowForm_bounds {run : CaseRun} {code : Nat} (hcovers : run.covers code = true)
    (hplain : run.isPlain = true) :
    run.lowFirst ≤ (code + run.shift).toNat ∧ (code + run.shift).toNat ≤ run.lowLast ∧
      (run.stride = 2 ∨ run.first = run.last →
        (code + run.shift).toNat % 2 = run.lowFirst % 2) := by
  simp only [covers, isPlain, lowFirst, lowLast, Bool.and_eq_true, decide_eq_true_eq,
    beq_iff_eq] at hcovers hplain ⊢
  obtain ⟨⟨hfirst, hlast⟩, hstride⟩ := hcovers
  refine ⟨by omega, by omega, ?_⟩
  rintro (htwo | hone)
  · rw [htwo] at hstride
    omega
  · omega

/-- The lower-case form of a letter of a run is a character. -/
theorem toNat_lowForm {run : CaseRun} {code : Nat} (hcovers : run.covers code = true)
    (hplain : run.isPlain = true) :
    (Char.ofNat (code + run.shift).toNat).toNat = (code + run.shift).toNat := by
  obtain ⟨hfirst, hlast, -⟩ := lowForm_bounds hcovers hplain
  simp only [isPlain, Bool.and_eq_true, Bool.or_eq_true, decide_eq_true_eq] at hplain
  have hvalid : (code + run.shift).toNat.isValidChar := by
    rw [Nat.isValidChar]
    omega
  rw [Char.ofNat, dif_pos hvalid]
  rfl

theorem not_covers_lowForm {run other : CaseRun} {code : Nat} (hcovers : run.covers code = true)
    (hplain : run.isPlain = true) (hmisses : run.misses other = true) :
    other.covers (code + run.shift).toNat = false := by
  obtain ⟨hfirst, hlast, hparity⟩ := lowForm_bounds hcovers hplain
  rw [Bool.eq_false_iff]
  intro hother
  simp only [covers, misses, Bool.and_eq_true, Bool.or_eq_true, decide_eq_true_eq,
    beq_iff_eq, Nat.blt_eq] at hother hmisses
  obtain ⟨⟨hfrom, hto⟩, hstride⟩ := hother
  rcases hmisses with (hbefore | hafter) | ⟨⟨hstep, htwo⟩, hodd⟩
  · omega
  · omega
  · have hsame := hparity hstep
    rw [htwo] at hstride
    omega

end CaseRun

theorem isPlain_of_mem : ∀ run ∈ caseRuns, run.isPlain = true := by
  decide +kernel

theorem misses_of_mem {run other : CaseRun} (hrun : run ∈ caseRuns) (hother : other ∈ caseRuns) :
    run.misses other = true := by
  have hall : (caseRuns.all fun other => caseRuns.all fun run => run.misses other) = true := by
    decide +kernel
  exact List.all_eq_true.1 (List.all_eq_true.1 hall other hother) run hrun

/-- No lower-case form of a character changes in lower case. -/
structure IsLow (c : Char) : Prop where
  ascii : ¬(0x41 ≤ c.toNat ∧ c.toNat ≤ 0x5a)
  dotted : c.toNat ≠ 0x130
  sigma : c.toNat ≠ 0x3a3
  uncovered : ∀ run ∈ caseRuns, run.covers c.toNat = false

theorem toLower_eq {c : Char} (h : ¬(0x41 ≤ c.toNat ∧ c.toNat ≤ 0x5a)) : c.toLower = c := by
  unfold Char.toLower
  rw [dif_neg]
  exact h

theorem IsLow.lowerChar_eq {c : Char} (h : IsLow c) : lowerChar c = [c] := by
  have hdotted : c ≠ '\u0130' := fun heq => h.dotted (congrArg Char.toNat heq)
  have hnone : caseRuns.find? (·.covers c.toNat) = none :=
    List.find?_eq_none.2 fun run hrun => by simp [h.uncovered run hrun]
  simp only [lowerChar, hdotted, if_false, hnone, toLower_eq h.ascii, ite_self]

/-- ASCII has no letters beyond its own. -/
theorem isLow_ascii {c : Char} (hascii : c.toNat < 0x80)
    (hcapital : ¬(0x41 ≤ c.toNat ∧ c.toNat ≤ 0x5a)) : IsLow c := by
  have hfirst : ∀ run ∈ caseRuns, 0x80 ≤ run.first := by decide +kernel
  refine ⟨hcapital, by omega, by omega, fun run hrun => ?_⟩
  have hlow := hfirst run hrun
  simp only [CaseRun.covers, Bool.and_eq_false_iff, decide_eq_false_iff_not]
  omega

theorem isLow_lowForm {run : CaseRun} (hrun : run ∈ caseRuns) {c : Char}
    (hcovers : run.covers c.toNat = true) : IsLow (Char.ofNat (c.toNat + run.shift).toNat) := by
  have hplain := isPlain_of_mem run hrun
  obtain ⟨hfirst, hlast, -⟩ := CaseRun.lowForm_bounds hcovers hplain
  have hmisses (other : CaseRun) (hother : other ∈ caseRuns) :=
    CaseRun.not_covers_lowForm hcovers hplain (misses_of_mem hrun hother)
  have hcode := CaseRun.toNat_lowForm hcovers hplain
  simp only [CaseRun.isPlain, Bool.and_eq_true, Bool.or_eq_true, decide_eq_true_eq] at hplain
  generalize (c.toNat + run.shift).toNat = code at hfirst hlast hmisses hcode
  constructor
  · omega
  · omega
  · omega
  · rwa [hcode]

/-- What becomes of a character in lower case. -/
theorem mem_lowerChar {c d : Char} (hd : d ∈ lowerChar c) :
    (c.toNat < 0x80 ∧ d = c.toLower) ∨ (c = '\u0130' ∧ (d = 'i' ∨ d = '\u0307')) ∨
      (∃ run ∈ caseRuns, run.covers c.toNat = true ∧
        d = Char.ofNat (c.toNat + run.shift).toNat) ∨
      (0x80 ≤ c.toNat ∧ c ≠ '\u0130' ∧ (∀ run ∈ caseRuns, run.covers c.toNat = false) ∧ d = c) := by
  unfold lowerChar at hd
  split at hd
  · rename_i hascii
    exact .inl ⟨hascii, List.mem_singleton.1 hd⟩
  · rename_i hascii
    split at hd
    · rename_i hdotted
      exact .inr (.inl ⟨hdotted, by simpa using hd⟩)
    · rename_i hdotted
      split at hd
      · rename_i run hfind
        have hcovers := List.find?_some hfind
        exact .inr (.inr (.inl ⟨run, List.mem_of_find?_eq_some hfind, hcovers,
          List.mem_singleton.1 hd⟩))
      · rename_i hfind
        have huncovered : ∀ run ∈ caseRuns, run.covers c.toNat = false := by
          simpa using List.find?_eq_none.1 hfind
        exact .inr (.inr (.inr ⟨Nat.le_of_not_lt hascii, hdotted, huncovered,
          List.mem_singleton.1 hd⟩))

theorem isLow_of_mem_lowerChar {c d : Char} (hsigma : c ≠ 'Σ') (hd : d ∈ lowerChar c) :
    IsLow d := by
  rcases mem_lowerChar hd with ⟨hascii, rfl⟩ | ⟨-, hd⟩ | ⟨run, hrun, hcovers, rfl⟩ |
    ⟨hascii, hdotted, huncovered, rfl⟩
  · -- The 128 characters of ASCII are checked one by one.
    have hlower : ∀ n < 0x80, (Char.ofNat n).toLower.toNat < 0x80 ∧
        ¬(0x41 ≤ (Char.ofNat n).toLower.toNat ∧ (Char.ofNat n).toLower.toNat ≤ 0x5a) := by
      decide +kernel
    have hc := hlower c.toNat hascii
    rw [Char.ofNat_toNat] at hc
    exact isLow_ascii hc.1 hc.2
  · -- The capital I with a dot becomes an i and a dot above it.
    rcases hd with rfl | rfl
    · exact isLow_ascii (by decide) (by decide)
    · exact ⟨by decide, by decide, by decide, by decide +kernel⟩
  · exact isLow_lowForm hrun hcovers
  · exact ⟨by omega, fun h => hdotted (Char.toNat_inj.1 h), fun h => hsigma (Char.toNat_inj.1 h),
      huncovered⟩

theorem isLow_of_mem_lowerAfter {before cs : List Char} {d : Char} (hd : d ∈ lowerAfter before cs) :
    IsLow d := by
  induction cs generalizing before with
  | nil => cases hd
  | cons c cs ih =>
    rw [lowerAfter] at hd
    split at hd
    · rcases List.mem_cons.1 hd with rfl | hd
      · -- A sigma has two forms, one of them at the end of a word.
        split
        · exact ⟨by decide, by decide, by decide, by decide +kernel⟩
        · exact ⟨by decide, by decide, by decide, by decide +kernel⟩
      · exact ih hd
    · rename_i hsigma
      rcases List.mem_append.1 hd with hd | hd
      · exact isLow_of_mem_lowerChar hsigma hd
      · exact ih hd

theorem lowerAfter_eq {before cs : List Char} (h : ∀ c ∈ cs, IsLow c) :
    lowerAfter before cs = cs := by
  induction cs generalizing before with
  | nil => rfl
  | cons c cs ih =>
    have hc := h c List.mem_cons_self
    have hsigma : c ≠ 'Σ' := fun heq => hc.sigma (congrArg Char.toNat heq)
    rw [lowerAfter, if_neg hsigma, hc.lowerChar_eq, ih fun d hd => h d (List.mem_cons_of_mem c hd)]
    rfl

/-- A text in lower case is left as it is. -/
theorem lowercase_lowercase (text : String) : lowercase (lowercase text) = lowercase text := by
  rw [lowercase, lowercase, String.toList_ofList]
  exact congrArg String.ofList (lowerAfter_eq fun c => isLow_of_mem_lowerAfter)

end TextWorld.Text

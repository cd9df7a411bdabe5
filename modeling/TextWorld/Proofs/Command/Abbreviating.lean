import TextWorld.Proofs.Command.Naming
import Mathlib.Data.List.TakeWhile

/-!
Naming things by the beginning of their key or name. What is typed and what it is compared with are
lower-cased apart from each other, and a capital sigma at the end of what is typed may be taken for
the end of a word when it is not. This is the only way in which a beginning can go unrecognised.
-/

namespace TextWorld

namespace Text

variable {before front rest : List Char}

/-- Whether a sigma of `front` that looks like the last letter of its word is none, because `rest`
goes on with that word; `before` holds the characters to the left of `front`, nearest first. -/
def MistakesSigma (before front rest : List Char) : Prop :=
  ∃ u v, front = u ++ 'Σ' :: v ∧ startsCased (u.reverse ++ before) = true ∧
    v.all isCaseIgnorable = true ∧ startsCased rest = true

/-- Whether a text that goes on with `rest` breaks off right behind a capital sigma, within a word.
Signs that may stand inside a word do not count. -/
def CutsWord (front rest : String) : Prop := MistakesSigma [] front.toList rest.toList

/-- The first character that is not ignorable decides, wherever it comes. -/
theorem startsCased_append :
    startsCased (front ++ rest) =
      if front.all isCaseIgnorable then startsCased rest else startsCased front := by
  split
  · rename_i hall
    rw [startsCased, List.dropWhile_append_of_pos (List.all_eq_true.1 hall)]
    rfl
  · rename_i hsome
    have hdrop : front.dropWhile isCaseIgnorable ≠ [] := by
      rwa [Ne, List.dropWhile_eq_nil_iff, ← List.all_eq_true]
    rw [startsCased, startsCased, List.dropWhile_append, if_neg (by simpa using hdrop)]
    cases hfirst : front.dropWhile isCaseIgnorable with
    | nil => exact absurd hfirst hdrop
    | cons c cs => rfl

theorem startsCased_of_all (h : front.all isCaseIgnorable = true) : startsCased front = false := by
  have hnone : startsCased (front ++ []) = startsCased [] := by rw [startsCased_append, if_pos h]
  rwa [List.append_nil] at hnone

theorem not_mistakesSigma_nil : ¬MistakesSigma before [] rest := by
  rintro ⟨u, v, hsplit, -⟩
  simp at hsplit

theorem mistakesSigma_cons {c : Char} :
    MistakesSigma before (c :: front) rest ↔
      (c = 'Σ' ∧ startsCased before = true ∧ front.all isCaseIgnorable = true ∧
        startsCased rest = true) ∨ MistakesSigma (c :: before) front rest := by
  constructor
  · rintro ⟨u, v, hsplit, hbefore, hignorable, hrest⟩
    cases u with
    | nil =>
      obtain ⟨rfl, rfl⟩ := List.cons.inj hsplit
      exact .inl ⟨rfl, hbefore, hignorable, hrest⟩
    | cons x u =>
      obtain ⟨rfl, rfl⟩ := List.cons.inj hsplit
      rw [List.reverse_cons, List.append_assoc, List.singleton_append] at hbefore
      exact .inr ⟨u, v, rfl, hbefore, hignorable, hrest⟩
  · rintro (⟨rfl, hbefore, hignorable, hrest⟩ | ⟨u, v, rfl, hbefore, hignorable, hrest⟩)
    · exact ⟨[], front, rfl, hbefore, hignorable, hrest⟩
    · refine ⟨c :: u, v, rfl, ?_, hignorable, hrest⟩
      rwa [List.reverse_cons, List.append_assoc, List.singleton_append]

/-- A sigma becomes the same letter in the whole text as in its beginning, unless its word goes on
where the beginning ends. -/
theorem lowerSigma_eq_iff :
    ((if startsCased before && !startsCased front then 'ς' else 'σ') =
      if startsCased before && !startsCased (front ++ rest) then 'ς' else 'σ') ↔
      ¬(startsCased before = true ∧ front.all isCaseIgnorable = true ∧
        startsCased rest = true) := by
  rw [startsCased_append]
  cases hall : front.all isCaseIgnorable with
  | true =>
    rw [startsCased_of_all hall]
    cases startsCased before <;> cases startsCased rest <;> decide
  | false => simp

/-- Lower-casing the beginning of a text gives the beginning of the lower-cased text, unless a sigma
is mistaken for a final one. -/
theorem lowerAfter_prefix_iff :
    lowerAfter before front <+: lowerAfter before (front ++ rest) ↔
      ¬MistakesSigma before front rest := by
  induction front generalizing before with
  | nil => exact iff_of_true (List.nil_prefix) not_mistakesSigma_nil
  | cons c front ih =>
    rw [List.cons_append, lowerAfter, lowerAfter, mistakesSigma_cons, not_or]
    by_cases hsigma : c = 'Σ'
    · rw [if_pos hsigma, if_pos hsigma, List.cons_prefix_cons, ih, lowerSigma_eq_iff]
      simp only [hsigma, true_and]
    · rw [if_neg hsigma, if_neg hsigma, List.prefix_append_right_inj, ih]
      simp only [hsigma, false_and, not_false_eq_true, true_and]

end Text

namespace Matching

variable {α : Type} {labels : α → Labels} {candidates : List α}

/-- Of a key or a name the beginning is recognised unless it cuts a word behind a sigma. -/
theorem begins_iff (front rest : String) :
    begins (front ++ rest) (Text.lowercase front) = true ↔ ¬Text.CutsWord front rest := by
  rw [begins, List.isPrefixOf_iff_prefix, Text.lowercase, Text.lowercase, String.toList_ofList,
    String.toList_ofList, String.toList_append]
  exact Text.lowerAfter_prefix_iff

/-- Tiers have hits if and only if one of them accepts something. -/
theorem firstHits_ne_nil_iff {needle : String} {tiers : List Tier} :
    ((firstHits labels candidates needle tiers).map (·.2)).getD [] ≠ [] ↔
      ∃ c ∈ candidates, ∃ tier ∈ tiers, tier.accepts (labels c) needle = true := by
  induction tiers with
  | nil => simp [firstHits]
  | cons tier tiers ih =>
    rw [firstHits]
    split
    · -- A tier without hits accepts nothing, so that the next ones decide.
      rename_i hnone
      rw [ih]
      have hrefused : ∀ c ∈ candidates, ¬tier.accepts (labels c) needle = true := by
        simpa using hnone
      refine exists_congr fun c => and_congr_right fun hc => ?_
      simp [hrefused c hc]
    · rename_i hits hsome
      obtain ⟨c, hc⟩ := List.exists_mem_of_ne_nil _ hsome
      obtain ⟨hmem, haccepts⟩ := List.mem_filter.1 hc
      exact iff_of_true hsome ⟨c, hmem, tier, List.mem_cons_self, haccepts⟩

theorem find_eq_nil_iff {word : String} (hword : word ≠ "") :
    find labels candidates word = [] ↔
      ∀ c ∈ candidates, ∀ tier, Tier.accepts (labels c) (Text.lowercase word) tier = false := by
  have hall (tier : Tier) : tier ∈ Tier.all := by cases tier <;> decide
  have hhits : find labels candidates word =
      ((firstHits labels candidates (Text.lowercase word) Tier.all).map (·.2)).getD [] := by
    rw [find, rank, if_neg hword]
    cases firstHits labels candidates (Text.lowercase word) Tier.all <;> rfl
  rw [hhits, ← not_iff_not, ← Ne, firstHits_ne_nil_iff]
  simp [hall]

/-- Nothing is found by a beginning of the key or the name of a candidate exactly if it breaks off
behind a capital sigma within a word, so that in lower case it is no beginning any more, and names
no candidate in any other way. -/
theorem find_beginning_eq_nil_iff (labels : α → Labels) {c : α} (hc : c ∈ candidates)
    {front rest : String} (hfront : front ≠ "")
    (htext : (labels c).key = front ++ rest ∨ (labels c).name = front ++ rest) :
    (begins (front ++ rest) (Text.lowercase front) = true ↔ ¬Text.CutsWord front rest) ∧
      (find labels candidates front = [] ↔ Text.CutsWord front rest ∧
        ∀ d ∈ candidates, ∀ tier, Tier.accepts (labels d) (Text.lowercase front) tier = false) := by
  refine ⟨begins_iff front rest, ?_⟩
  rw [find_eq_nil_iff hfront]
  refine (and_iff_right_of_imp fun hnone => ?_).symm
  by_contra hwhole
  have hbegins : begins (front ++ rest) (Text.lowercase front) = true :=
    (begins_iff front rest).2 hwhole
  rcases htext with hkey | hname
  · have hrefused : begins (labels c).key (Text.lowercase front) = false :=
      hnone c hc .keyPrefix
    rw [hkey, hbegins] at hrefused
    cases hrefused
  · have hrefused : begins (labels c).name (Text.lowercase front) = false :=
      hnone c hc .namePrefix
    rw [hname, hbegins] at hrefused
    cases hrefused

/-- A statue whose key is written in capitals. -/
def statue : Labels := ⟨"ΟΔΥΣΣΕΥΣ", [], "a statue"⟩

/-- One letter further the key is recognised, and the sigma before it is none at the end. -/
theorem find_beginning_statue :
    (statue ∈ [statue] ∧ "ΟΔΥΣΣΕ" ≠ "" ∧ statue.key = "ΟΔΥΣΣΕ" ++ "ΥΣ") ∧
      find id [statue] "ΟΔΥΣΣΕ" = [statue] ∧ ¬Text.CutsWord "ΟΔΥΣΣΕ" "ΥΣ" := by
  have hfound : find id [statue] "ΟΔΥΣΣΕ" = [statue] := by decide +kernel
  have hkey : statue.key = "ΟΔΥΣΣΕ" ++ "ΥΣ" := by decide
  have hmem : statue ∈ [statue] := List.mem_cons_self
  have hne : "ΟΔΥΣΣΕ" ≠ "" := by decide
  obtain ⟨hbegins, -⟩ := find_beginning_eq_nil_iff id hmem hne (.inl hkey)
  exact ⟨⟨hmem, hne, hkey⟩, hfound, hbegins.1 (by decide +kernel)⟩

/-- The first four letters of the key find nothing. -/
theorem statue_not_found :
    statue.key = "ΟΔΥΣ" ++ "ΣΕΥΣ" ∧ "ΟΔΥΣ" ≠ "" ∧ find id [statue] "ΟΔΥΣ" = [] := by
  decide +kernel

end Matching

end TextWorld

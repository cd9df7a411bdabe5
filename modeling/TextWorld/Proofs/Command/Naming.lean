import TextWorld.Proofs.Command.Binding

/-!
Naming things by number. A parameter of the form `name.N` asks for the `N`-th hit of the name, and
in this way every candidate can be named by its key, whatever else has the key as well.
-/

namespace TextWorld

/-- Whether the keys of two things differ at most in the case of their letters. -/
def Labels.sameKey (a b : Labels) : Bool := Text.lowercase a.key == Text.lowercase b.key

namespace Matching

variable {α : Type} {labels : α → Labels} {candidates : List α} {name : String} {n : Nat}

/-- The parameter that asks for the `n`-th thing of that name. -/
def numbered (name : String) (n : Nat) : String := name ++ "." ++ toString n

theorem toList_numbered (name : String) (n : Nat) :
    (numbered name n).toList = name.toList ++ '.' :: Nat.toDigits 10 n := by
  simp [numbered, String.toList_append]

/-- The number is cut off at the last point, however many points and digits the name has. -/
theorem splitOrdinal_numbered (hname : name ≠ "") (hn : n ≤ maxOrdinal) :
    splitOrdinal (numbered name n) = (name, n) := by
  -- From the back the digits come first, and none of them is a point.
  have hreverse : (numbered name n).toList.reverse =
      (Nat.toDigits 10 n).reverse ++ '.' :: name.toList.reverse := by
    rw [toList_numbered, List.reverse_append, List.reverse_cons, List.append_assoc,
      List.singleton_append]
  have hdigit : ∀ c ∈ (Nat.toDigits 10 n).reverse, decide (c ≠ '.') = true := by
    intro c hc
    have hc := Nat.isDigit_of_mem_toDigits (by decide) (by decide) (List.mem_reverse.1 hc)
    refine decide_eq_true ?_
    rintro rfl
    exact absurd hc (by decide)
  have hsuffix : ((numbered name n).toList.reverse.takeWhile (· ≠ '.')).reverse =
      Nat.toDigits 10 n := by
    rw [hreverse, List.takeWhile_append_of_pos hdigit]
    simp
  have hfront : ((numbered name n).toList.reverse.dropWhile (· ≠ '.')).reverse.dropLast =
      name.toList := by
    rw [hreverse, List.dropWhile_append_of_pos hdigit]
    simp
  unfold splitOrdinal
  simp only [hsuffix, hfront, Decimal.natural?_toDigits]
  cases hletters : name.toList with
  | nil => exact absurd (String.toList_eq_nil_iff.1 hletters) hname
  | cons c cs =>
    have hwhole : String.ofList (c :: cs) = name := by rw [← hletters, String.ofList_toList]
    change (if n ≤ maxOrdinal then (String.ofList (c :: cs), n) else _) = _
    rw [if_pos hn, hwhole]

/-- What is selected by number: the hits of the name count from one. -/
theorem select_numbered (labels : α → Labels) (candidates : List α) (hname : name ≠ "")
    (hn : n < Nat.pow 2 64) :
    select labels candidates (numbered name n) =
      if n = 0 then none else (find labels candidates name)[n - 1]? := by
  have hle : n ≤ maxOrdinal := Nat.le_sub_one_of_lt hn
  unfold select
  rw [splitOrdinal_numbered hname hle]
  cases n <;> rfl

/-- The first tier decides as soon as it has a hit. -/
theorem firstHits_of_accepts {needle : String} {tier : Tier} {tiers : List Tier} {c : α}
    (hc : c ∈ candidates) (haccepts : tier.accepts (labels c) needle = true) :
    firstHits labels candidates needle (tier :: tiers) =
      some (tier, candidates.filter fun d => tier.accepts (labels d) needle) := by
  have hhit : c ∈ candidates.filter fun d => tier.accepts (labels d) needle :=
    List.mem_filter.2 ⟨hc, haccepts⟩
  rw [firstHits]
  cases hhits : candidates.filter fun d => tier.accepts (labels d) needle with
  | nil =>
    rw [hhits] at hhit
    cases hhit
  | cons d ds => rfl

/-- The hits of a key are the things with that key: no keyword and no beginning counts then. -/
theorem find_key {c : α} (hc : c ∈ candidates) (hkey : (labels c).key ≠ "") :
    find labels candidates (labels c).key =
      candidates.filter fun d => (labels d).sameKey (labels c) := by
  have hself : Tier.exactKey.accepts (labels c) (Text.lowercase (labels c).key) = true :=
    beq_self_eq_true _
  rw [find, rank, if_neg hkey, Tier.all, firstHits_of_accepts hc hself]
  rfl

/-- Of the things that pass a filter one comes behind those that stand in front of it and pass. -/
theorem getElem?_filter_rank {p : α → Bool} {xs : List α} {i : Nat} {a : α}
    (hi : xs[i]? = some a) (ha : p a = true) :
    (xs.filter p)[(xs.take i).countP p]? = some a := by
  obtain ⟨hlt, hget⟩ := List.getElem?_eq_some_iff.1 hi
  have hsplit : xs.take i ++ a :: xs.drop (i + 1) = xs := by
    rw [← hget, ← List.drop_eq_getElem_cons hlt, List.take_append_drop]
  have hfilter : xs.filter p = (xs.take i).filter p ++ a :: (xs.drop (i + 1)).filter p := by
    calc xs.filter p = (xs.take i ++ a :: xs.drop (i + 1)).filter p := by rw [hsplit]
      _ = (xs.take i).filter p ++ a :: (xs.drop (i + 1)).filter p := by
        rw [List.filter_append, List.filter_cons, if_pos ha]
  -- Those in front of it fill the list up to just this place.
  rw [hfilter, List.countP_eq_length_filter, List.getElem?_append_right (Nat.le_refl _),
    Nat.sub_self, List.getElem?_cons_zero]

/-- Every candidate is selected by its key and its number among those with the same key. -/
theorem select_key (labels : α → Labels) (hlength : candidates.length < Nat.pow 2 64) {i : Nat}
    {c : α} (hi : candidates[i]? = some c) (hkey : (labels c).key ≠ "") :
    select labels candidates (numbered (labels c).key
      ((candidates.take i).countP (fun d => (labels d).sameKey (labels c)) + 1)) = some c := by
  have hlt : i < candidates.length := (List.getElem?_eq_some_iff.1 hi).1
  have hrank : (candidates.take i).countP (fun d => (labels d).sameKey (labels c)) ≤ i :=
    calc (candidates.take i).countP (fun d => (labels d).sameKey (labels c))
        ≤ (candidates.take i).length := List.countP_le_length
      _ ≤ i := List.length_take_le i candidates
  have hsame : (labels c).sameKey (labels c) = true := beq_self_eq_true _
  rw [select_numbered labels candidates hkey (by omega), if_neg (Nat.succ_ne_zero _),
    Nat.add_sub_cancel, find_key (List.mem_of_getElem? hi) hkey]
  exact getElem?_filter_rank hi hsame

/-- The numbers from one on select the hits of a name, one after another. -/
theorem map_select_numbered (labels : α → Labels) (hlength : candidates.length < Nat.pow 2 64)
    (hname : name ≠ "") :
    (List.range (find labels candidates name).length).map
        (fun k => select labels candidates (numbered name (k + 1))) =
      (find labels candidates name).map some := by
  have hhits : (find labels candidates name).length ≤ candidates.length :=
    (find_sublist labels candidates name).length_le
  apply List.ext_getElem?
  intro k
  by_cases hk : k < (find labels candidates name).length
  · have hselect : select labels candidates (numbered name (k + 1)) =
        (find labels candidates name)[k]? := by
      rw [select_numbered labels candidates hname (by omega), if_neg (Nat.succ_ne_zero k),
        Nat.add_sub_cancel]
    simp [hk, hselect]
  · simp [hk]

/-- No other number selects anything. -/
theorem select_numbered_eq_none (labels : α → Labels) (candidates : List α) (hname : name ≠ "")
    (hn : n < Nat.pow 2 64) (hbeyond : n = 0 ∨ (find labels candidates name).length < n) :
    select labels candidates (numbered name n) = none := by
  rw [select_numbered labels candidates hname hn]
  split
  · rfl
  · exact List.getElem?_eq_none (by omega)

/-- Every candidate can be named: its key and a number select it and nothing else, where the number
counts the candidates with that key up to it. And the numbers behind any name go through its hits
in the order of the candidates, from the first to the last. The candidates may be of any type, for
instance things along with their positions, so this holds as well where things look alike. -/
theorem every_candidate_named (labels : α → Labels) (hlength : candidates.length < Nat.pow 2 64)
    (hkeys : ∀ c ∈ candidates, (labels c).key ≠ "") :
    (∀ i c, candidates[i]? = some c →
      select labels candidates (numbered (labels c).key
        ((candidates.take i).countP (fun d => (labels d).sameKey (labels c)) + 1)) = some c) ∧
    ∀ name, name ≠ "" →
      (find labels candidates name).Sublist candidates ∧
      (List.range (find labels candidates name).length).map
          (fun k => select labels candidates (numbered name (k + 1))) =
        (find labels candidates name).map some ∧
      ∀ n < Nat.pow 2 64, n = 0 ∨ (find labels candidates name).length < n →
        select labels candidates (numbered name n) = none := by
  refine ⟨fun i c hi => ?_, fun name hname => ⟨find_sublist labels candidates name, ?_, ?_⟩⟩
  · exact select_key labels hlength hi (hkeys c (List.mem_of_getElem? hi))
  · exact map_select_numbered labels hlength hname
  · intro n hn hbeyond
    exact select_numbered_eq_none labels candidates hname hn hbeyond

/-- Two lamps with one key, and between them a torch that has this key as a keyword. -/
def twoLamps : List Labels :=
  [⟨"mk", [], "an old lamp"⟩, ⟨"Mk.2", [], "a lamp"⟩, ⟨"torch", ["mk.2"], "a torch"⟩,
    ⟨"mk.2", [], "a better lamp"⟩]

/-- The number in the key is not taken for the ordinal, nor the keyword for a key. -/
theorem every_candidate_named_betterLamp :
    twoLamps.length < Nat.pow 2 64 ∧ (∀ c ∈ twoLamps, c.key ≠ "") ∧
      select id twoLamps (numbered "mk.2" 2) = some ⟨"mk.2", [], "a better lamp"⟩ ∧
      select id twoLamps (numbered "mk.2" 3) = none := by
  have hlength : twoLamps.length < Nat.pow 2 64 := by decide
  have hkeys : ∀ c ∈ twoLamps, c.key ≠ "" := by decide
  obtain ⟨hnamed, hnumbered⟩ := every_candidate_named id hlength hkeys
  have hrank : (twoLamps.take 3).countP
      (fun d => (id d).sameKey (id ⟨"mk.2", [], "a better lamp"⟩)) = 1 := by decide
  have hsecond := hnamed 3 ⟨"mk.2", [], "a better lamp"⟩ rfl
  rw [hrank] at hsecond
  have hhits : (find id twoLamps "mk.2").length = 2 := by decide
  obtain ⟨-, -, hbeyond⟩ := hnumbered "mk.2" (by decide)
  exact ⟨hlength, hkeys, hsecond, hbeyond 3 (by decide) (.inr (by omega))⟩

end Matching

end TextWorld

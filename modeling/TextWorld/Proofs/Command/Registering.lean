import TextWorld.Command.Definition
import TextWorld.Proofs.Text.Casing

/-!
Registries as they come about by registering and unregistering. Whatever a word stands for is found
under its own name too, so a definition can be taken out again with all its words.
-/

namespace TextWorld

namespace Table

variable {κ ν : Type} [Ord κ] [Std.TransOrd κ] [Std.LawfulEqOrd κ]

theorem getElem?_filter (t : Table κ ν) (p : κ → ν → Bool) (k : κ) :
    (t.filter p)[k]? = t[k]?.filter (p k) := by
  rw [Std.ExtTreeMap.getElem?_filter, ← Option.pfilter_eq_filter]
  congr 1
  funext v hv
  rw [Std.ExtTreeMap.getKey_eq]

end Table

/-- The name of a definition is in lower case, however it was given. -/
def Definition.IsMade {ρ : Type} (d : Definition ρ) : Prop := ∃ name, d.name = Text.lowercase name

/-- Whether a word is the name of a definition or one of its aliases. -/
def Definition.answers {ρ : Type} (d : Definition ρ) (word : String) : Bool :=
  word == d.name || d.aliases.contains word

namespace Registry

variable {ρ : Type} {r : Registry ρ} {d e : Definition ρ} {name word : String}

/-- What comes of an empty registry by registering and unregistering. -/
inductive Built : Registry ρ → Prop where
  | empty : Built empty
  | register {r v : Registry ρ} {d : Definition ρ} (h : Built r) (hmade : d.IsMade)
      (hv : r.register d = .ok v) : Built v
  | unregister {r v : Registry ρ} {d : Definition ρ} {name : String} (h : Built r)
      (hv : r.unregister name = some (d, v)) : Built v

/-- Whatever a word stands for can be found and taken out by its name. -/
structure Canonical (r : Registry ρ) : Prop where
  own_name : ∀ {word : String} {d : Definition ρ},
    r.words[word]? = some d → r.words[d.name]? = some d
  lower : ∀ {word : String} {d : Definition ρ},
    r.words[word]? = some d → Text.lowercase d.name = d.name

theorem getElem?_bindWord (d : Definition ρ) (words : Table String (Definition ρ))
    (word other : String) :
    (bindWord d words word)[other]? = words[other]?.or (if other = word then some d else none) := by
  unfold bindWord
  split
  · rename_i htaken
    by_cases hother : other = word
    · subst hother
      rw [Std.ExtTreeMap.contains_eq_isSome_getElem?] at htaken
      rw [Option.or_of_isSome htaken]
    · rw [if_neg hother, Option.or_none]
  · rename_i hfree
    rw [Table.getElem?_insert]
    by_cases hother : other = word
    · subst hother
      rw [Std.ExtTreeMap.contains_eq_isSome_getElem?, Option.not_isSome_iff_eq_none] at hfree
      rw [if_pos rfl, if_pos rfl, hfree, Option.none_or]
    · rw [if_neg (Ne.symm hother), if_neg hother, Option.or_none]

/-- The words of a list that were free stand for the definition now. -/
theorem getElem?_bindWords (d : Definition ρ) (aliases : List String)
    (words : Table String (Definition ρ)) (other : String) :
    (aliases.foldl (bindWord d) words)[other]? =
      words[other]?.or (if other ∈ aliases then some d else none) := by
  induction aliases generalizing words with
  | nil => simp
  | cons first aliases ih =>
    rw [List.foldl_cons, ih, getElem?_bindWord, Option.or_assoc]
    congr 1
    by_cases hfirst : other = first
    · simp [hfirst]
    · simp [hfirst]

/-- Registering leaves every word that stood for something alone. -/
theorem getElem?_register {v : Registry ρ} (hv : r.register d = .ok v) (other : String) :
    v.words[other]? =
      r.words[other]?.or (if other = d.name ∨ other ∈ d.aliases then some d else none) := by
  unfold register at hv
  split at hv
  · cases hv
  · rename_i hfree
    cases hv
    rw [Std.ExtTreeMap.contains_eq_isSome_getElem?, Option.not_isSome_iff_eq_none] at hfree
    rw [getElem?_bindWords, Table.getElem?_insert]
    by_cases hname : d.name = other
    · subst hname
      simp [hfree]
    · simp [hname, Ne.symm hname]

/-- Of definitions whose names are free a word stands for the first that answers to it. -/
theorem getElem?_foldl_add {ds : List (Definition ρ)}
    (hfree : ∀ d ∈ ds, r.words[d.name]? = none)
    (hnames : ds.Pairwise fun d e => d.answers e.name = false) (word : String) :
    (ds.foldl add r).words[word]? = r.words[word]?.or (ds.find? (·.answers word)) := by
  induction ds generalizing r with
  | nil => rw [List.foldl_nil, List.find?_nil, Option.or_none]
  | cons d ds ih =>
    obtain ⟨hfirst, hnames⟩ := List.pairwise_cons.1 hnames
    have hname : r.words[d.name]? = none := hfree d List.mem_cons_self
    have hadd (other : String) : (r.add d).words[other]? =
        r.words[other]?.or (if d.answers other then some d else none) := by
      have hregister : r.register d = .ok (r.add d) := by
        have hcontains : ¬r.words.contains d.name = true := by
          rw [Std.ExtTreeMap.contains_eq_isSome_getElem?, hname]
          exact Bool.false_ne_true
        rw [add, register, if_neg hcontains]
      rw [getElem?_register hregister]
      simp [Definition.answers]
    rw [List.foldl_cons, ih, hadd, Option.or_assoc, List.find?_cons]
    · congr 1
      cases d.answers word <;> rfl
    · intro e he
      rw [hadd, hfree e (List.mem_cons_of_mem d he), hfirst e he]
      rfl
    · exact hnames

theorem own_name_register {v : Registry ρ} (hv : r.register d = .ok v) :
    v.words[d.name]? = some d := by
  rw [getElem?_register hv, if_pos (.inl rfl)]
  unfold register at hv
  split at hv
  · cases hv
  · rename_i hfree
    rw [Std.ExtTreeMap.contains_eq_isSome_getElem?, Option.not_isSome_iff_eq_none] at hfree
    rw [hfree, Option.none_or]

/-- A word stands for what it stood for before, or for the definition just registered. -/
theorem mem_register {v : Registry ρ} (hv : r.register d = .ok v) (he : v.words[word]? = some e) :
    r.words[word]? = some e ∨ e = d := by
  rw [getElem?_register hv, Option.or_eq_some_iff] at he
  rcases he with hold | ⟨-, hnew⟩
  · exact .inl hold
  · split at hnew
    · exact .inr (Option.some.inj hnew).symm
    · cases hnew

theorem mem_add (h : (r.add d).words[word]? = some e) : r.words[word]? = some e ∨ e = d := by
  unfold add at h
  split at h
  · rename_i hregistered
    exact mem_register hregistered h
  · exact .inl h

theorem mem_foldl_add {ds : List (Definition ρ)} (h : (ds.foldl add r).words[word]? = some e) :
    r.words[word]? = some e ∨ e ∈ ds := by
  induction ds generalizing r with
  | nil => exact .inl h
  | cons d ds ih =>
    rcases ih h with hfirst | hlater
    · rcases mem_add hfirst with hold | rfl
      · exact .inl hold
      · exact .inr List.mem_cons_self
    · exact .inr (List.mem_cons_of_mem d hlater)

theorem Built.add (h : r.Built) (hmade : d.IsMade) : (r.add d).Built := by
  unfold Registry.add
  split
  · rename_i hregistered
    exact h.register hmade hregistered
  · exact h

theorem mem_of_named (h : r.named? name = some d) : r.words[name]? = some d ∧ d.name = name := by
  obtain ⟨hmem, hname⟩ := Option.filter_eq_some_iff.1 h
  exact ⟨hmem, eq_of_beq hname⟩

/-- Unregistering takes out all words that stand for the definition of that name, if there is
one. -/
theorem Canonical.getElem?_unregister (h : r.Canonical) (hlower : Text.lowercase name = name)
    (other : String) :
    (((r.unregister name).map (·.2)).getD r).words[other]? =
      r.words[other]?.filter (·.name != name) := by
  unfold unregister
  rw [hlower]
  cases hnamed : r.named? name with
  | none =>
    rw [Option.map_none, Option.map_none, Option.getD_none]
    cases he : r.words[other]? with
    | none => rfl
    | some e =>
      rw [Option.filter_some_pos]
      rw [bne_iff_ne]
      rintro rfl
      -- It would have been found.
      rw [named?, Std.ExtTreeMap.get?_eq_getElem?, h.own_name he] at hnamed
      simp at hnamed
  | some d =>
    obtain ⟨-, rfl⟩ := mem_of_named hnamed
    exact Table.getElem?_filter r.words _ other

/-- What is left of the words stays found by its name. -/
theorem Canonical.of_filter {v : Registry ρ} (h : r.Canonical) {p : Definition ρ → Bool}
    (hv : ∀ word : String, v.words[word]? = r.words[word]?.filter p) : v.Canonical := by
  have hfilter {word : String} {d : Definition ρ} (hd : v.words[word]? = some d) :
      r.words[word]? = some d ∧ p d = true := by
    rw [hv] at hd
    exact Option.filter_eq_some_iff.1 hd
  refine ⟨fun {word d} hd => ?_, fun {word d} hd => h.lower (hfilter hd).1⟩
  rw [hv, h.own_name (hfilter hd).1]
  exact Option.filter_eq_some_iff.2 ⟨rfl, (hfilter hd).2⟩

theorem Built.canonical (h : r.Built) : r.Canonical := by
  induction h with
  | empty =>
    exact ⟨fun hd => by simp [Registry.empty] at hd, fun hd => by simp [Registry.empty] at hd⟩
  | @register r v d hr hmade hv ih =>
    constructor
    · intro word e he
      rcases mem_register hv he with hold | rfl
      · rw [getElem?_register hv, ih.own_name hold, Option.some_or]
      · exact own_name_register hv
    · intro word e he
      rcases mem_register hv he with hold | rfl
      · exact ih.lower hold
      · obtain ⟨name, hname⟩ := hmade
        rw [hname, Text.lowercase_lowercase]
  | @unregister r v d name hr hv ih =>
    have hstep := ih.getElem?_unregister (Text.lowercase_lowercase name)
    unfold Registry.unregister at hstep hv
    rw [Text.lowercase_lowercase, hv] at hstep
    exact ih.of_filter hstep

theorem mem_definitions : d ∈ r.definitions ↔ r.words[d.name]? = some d := by
  simp only [definitions, List.mem_map, List.mem_filter, beq_iff_eq, Prod.exists]
  constructor
  · rintro ⟨word, e, ⟨hmem, rfl⟩, rfl⟩
    exact Std.ExtTreeMap.mem_toList_iff_getElem?_eq_some.1 hmem
  · intro hd
    exact ⟨d.name, d, ⟨Std.ExtTreeMap.mem_toList_iff_getElem?_eq_some.2 hd, rfl⟩, rfl⟩

/-- Unregisters some definitions, one after another. -/
def unregisterAll (r : Registry ρ) (ds : List (Definition ρ)) : Registry ρ :=
  ds.foldl (fun r d => ((r.unregister d.name).map (·.2)).getD r) r

/-- Unregisters every definition that only admins may use. -/
def withoutAdminOnly (r : Registry ρ) : Registry ρ :=
  r.unregisterAll (r.definitions.filter (·.adminOnly))

theorem Canonical.getElem?_unregisterAll (h : r.Canonical) {ds : List (Definition ρ)}
    (hds : ∀ d ∈ ds, Text.lowercase d.name = d.name) (other : String) :
    (r.unregisterAll ds).words[other]? =
      r.words[other]?.filter fun e => ds.all fun d => e.name != d.name := by
  induction ds generalizing r with
  | nil =>
    change r.words[other]? = r.words[other]?.filter fun _ => true
    cases r.words[other]? <;> rfl
  | cons d ds ih =>
    have hfirst := h.getElem?_unregister (hds d List.mem_cons_self)
    have hrest := ih (h.of_filter hfirst) fun e he => hds e (List.mem_cons_of_mem d he)
    rw [unregisterAll, List.foldl_cons]
    rw [unregisterAll] at hrest
    rw [hrest, hfirst, Option.filter_filter]
    rfl

/-- Without the definitions for admins, words stand for all the others and for nothing else. -/
theorem Built.lookup_withoutAdminOnly (h : r.Built) (word : String) :
    r.withoutAdminOnly.lookup word = (r.lookup word).filter fun d => !d.adminOnly := by
  have hcanonical := h.canonical
  have hlower : ∀ d ∈ r.definitions.filter (·.adminOnly), Text.lowercase d.name = d.name :=
    fun d hd => hcanonical.lower (mem_definitions.1 (List.mem_filter.1 hd).1)
  change r.withoutAdminOnly.words[Text.lowercase word]? =
    r.words[Text.lowercase word]?.filter fun d => !d.adminOnly
  rw [withoutAdminOnly, hcanonical.getElem?_unregisterAll hlower, ← Option.pfilter_eq_filter,
    ← Option.pfilter_eq_filter]
  refine Option.pfilter_congr rfl fun e he => ?_
  rw [Bool.eq_iff_iff, List.all_eq_true, Bool.not_eq_true', Bool.eq_false_iff]
  constructor
  · intro hall hadmin
    have hmem : e ∈ r.definitions.filter (·.adminOnly) :=
      List.mem_filter.2 ⟨mem_definitions.2 (hcanonical.own_name he), hadmin⟩
    simpa using hall e hmem
  · intro hadmin d hd
    obtain ⟨hmem, honly⟩ := List.mem_filter.1 hd
    rw [bne_iff_ne]
    intro hname
    -- Nothing else has the name of a definition for admins.
    have hsame := mem_definitions.1 hmem
    rw [← hname, hcanonical.own_name he] at hsame
    cases hsame
    exact hadmin honly

end Registry

end TextWorld

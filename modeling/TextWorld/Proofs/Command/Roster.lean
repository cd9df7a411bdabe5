import TextWorld.Proofs.Command.Registering

/-!
What a registry is after any number of registrations and removals, be they accepted or not. A word
stands for nothing but what answers to it, and all that is stood for is found by its name, so the
list of definitions misses none.
-/

namespace TextWorld

namespace Definition

variable {ρ : Type} {d : Definition ρ}

/-- What comes of a bare definition by the changes that there are for definitions. -/
inductive IsComposed : Definition ρ → Prop
  | named (name : String) (run : ρ) : IsComposed (named name run)
  | withAliases {d : Definition ρ} (h : IsComposed d) (aliases : List String) :
      IsComposed (d.withAliases aliases)
  | withGrammar {d e : Definition ρ} {source : String} (h : IsComposed d)
      (he : d.withGrammar source = .ok e) : IsComposed e
  | withData {d : Definition ρ} (h : IsComposed d) (data : Value) : IsComposed (d.withData data)
  | forAdmins {d : Definition ρ} (h : IsComposed d) : IsComposed d.forAdmins
  | needingBalance {d : Definition ρ} (h : IsComposed d) : IsComposed d.needingBalance

theorem answers_iff {word : String} :
    d.answers word = true ↔ word = d.name ∨ word ∈ d.aliases := by
  simp [answers]

/-- A definition answers to words in lower case only. -/
def IsLower (d : Definition ρ) : Prop := ∀ word, d.answers word = true → Text.lowercase word = word

theorem IsLower.withAliases (h : d.IsLower) (aliases : List String) :
    (d.withAliases aliases).IsLower := by
  intro word hword
  obtain hname | halias := answers_iff.1 hword
  · exact h word (answers_iff.2 (.inl hname))
  · obtain hold | hnew := List.mem_append.1 halias
    · exact h word (answers_iff.2 (.inr hold))
    · obtain ⟨given, -, rfl⟩ := List.mem_map.1 hnew
      exact Text.lowercase_lowercase given

/-- Definitions that answer alike are in lower case alike. -/
theorem IsLower.congr {e : Definition ρ} (h : d.IsLower) (hname : e.name = d.name)
    (haliases : e.aliases = d.aliases) : e.IsLower := by
  intro word hword
  apply h
  rwa [answers_iff, ← hname, ← haliases, ← answers_iff]

theorem IsComposed.isLower (h : d.IsComposed) : d.IsLower := by
  induction h with
  | named name run =>
    intro word hword
    obtain rfl | hnone := answers_iff.1 hword
    · exact Text.lowercase_lowercase name
    · cases hnone
  | withAliases _ aliases ih => exact ih.withAliases aliases
  | @withGrammar d e source _ he ih =>
    rw [Definition.withGrammar] at he
    cases hgrammar : Grammar.compile source with
    | error problem => simp [hgrammar, Except.map] at he
    | ok grammar =>
      obtain rfl := Except.ok.inj (hgrammar ▸ he)
      exact ih.congr rfl rfl
  | withData _ data ih => exact ih.congr rfl rfl
  | forAdmins _ ih => exact ih.congr rfl rfl
  | needingBalance _ ih => exact ih.congr rfl rfl

theorem IsComposed.isMade (h : d.IsComposed) : d.IsMade :=
  ⟨d.name, (h.isLower d.name (answers_iff.2 (.inl rfl))).symm⟩

end Definition

namespace Registry

variable {ρ : Type} {r v : Registry ρ} {d e : Definition ρ} {name word : String}

inductive Op (ρ : Type) where
  | register (d : Definition ρ) (composed : d.IsComposed)
  | tryRegister (d : Definition ρ) (composed : d.IsComposed)
  | unregister (name : String)

/-- The registry after an operation; one that fails leaves it as it is. -/
def perform (r : Registry ρ) : Op ρ → Registry ρ
  | .register d _ => r.add d
  | .tryRegister d _ =>
    match r.register d with
    | .ok v => v
    | .error _ => r
  | .unregister name =>
    match r.unregister name with
    | some (_, v) => v
    | none => r

/-- The registry that some operations, one after another, make of an empty one. -/
def run (ops : List (Op ρ)) : Registry ρ := ops.foldl perform empty

/-- A word stands for nothing but what answers to it. -/
structure Answering (r : Registry ρ) : Prop where
  built : r.Built
  answers : ∀ {word : String} {d : Definition ρ},
    r.words[word]? = some d → d.answers word = true ∧ d.IsLower

theorem Answering.register (h : r.Answering) (hd : d.IsComposed) (hv : r.register d = .ok v) :
    v.Answering := by
  refine ⟨h.built.register hd.isMade hv, fun {word e} he => ?_⟩
  rw [getElem?_register hv, Option.or_eq_some_iff] at he
  obtain hold | ⟨-, hnew⟩ := he
  · exact h.answers hold
  · split at hnew
    · next hword =>
      cases hnew
      exact ⟨Definition.answers_iff.2 hword, hd.isLower⟩
    · cases hnew

theorem unregister_eq_some (h : r.unregister name = some (d, v)) :
    r.words[Text.lowercase name]? = some d ∧ d.name = Text.lowercase name ∧
      ∀ word : String, v.words[word]? = r.words[word]?.filter (·.name != d.name) := by
  obtain ⟨e, he, hev⟩ := Option.map_eq_some_iff.1 h
  cases hev
  obtain ⟨hmem, hname⟩ := mem_of_named he
  exact ⟨hmem, hname, fun word => Table.getElem?_filter r.words _ word⟩

theorem Answering.unregister (h : r.Answering) (hv : r.unregister name = some (d, v)) :
    v.Answering := by
  refine ⟨h.built.unregister hv, fun {word e} he => ?_⟩
  obtain ⟨-, -, hwords⟩ := unregister_eq_some hv
  rw [hwords] at he
  exact h.answers (Option.filter_eq_some_iff.1 he).1

theorem add_of_ok (hv : r.register d = .ok v) : r.add d = v := by
  rw [add, hv]

theorem add_of_error {p : Error} (hp : r.register d = .error p) : r.add d = r := by
  rw [add, hp]

theorem Answering.add (h : r.Answering) (hd : d.IsComposed) : (r.add d).Answering := by
  cases hv : r.register d with
  | ok v =>
    rw [add_of_ok hv]
    exact h.register hd hv
  | error p =>
    rw [add_of_error hv]
    exact h

theorem Answering.perform (h : r.Answering) (op : Op ρ) : (r.perform op).Answering := by
  cases op with
  | register d composed => exact h.add composed
  | tryRegister d composed => exact h.add composed
  | unregister name =>
    cases hv : r.unregister name with
    | none =>
      rw [Registry.perform, hv]
      exact h
    | some p =>
      rw [Registry.perform, hv]
      exact h.unregister hv

theorem answering_run (ops : List (Op ρ)) : (run ops).Answering := by
  have hkept {r : Registry ρ} (h : r.Answering) : (ops.foldl Registry.perform r).Answering := by
    induction ops generalizing r with
    | nil => exact h
    | cons op ops ih => exact ih (h.perform op)
  exact hkept ⟨.empty, fun hd => by simp [empty] at hd⟩

/-- The words and the list of definitions fit together. -/
structure Consistent (r : Registry ρ) : Prop where
  answers : ∀ {word : String} {d : Definition ρ}, r.words[word]? = some d → d.answers word = true
  own_name : ∀ {word : String} {d : Definition ρ},
    r.words[word]? = some d → r.words[d.name]? = some d
  lookup : ∀ {word : String} {d : Definition ρ},
    r.words[word]? = some d → r.lookup word = some d
  listed : ∀ d : Definition ρ, d ∈ r.definitions ↔ ∃ word : String, r.words[word]? = some d
  ascending : r.definitions.Pairwise (·.name < ·.name)
  size : r.size = r.definitions.length
  isEmpty : r.isEmpty = true ↔ r.size = 0

/-- The registry `v` is `r` with `d` under its name and under those of its aliases that were
free. -/
structure Gains (r : Registry ρ) (d : Definition ρ) (v : Registry ρ) : Prop where
  kept : ∀ {word : String} {e : Definition ρ},
    r.words[word]? = some e → v.words[word]? = some e
  named : v.words[d.name]? = some d
  free : ∀ word : String, r.words[word]? = none →
    v.words[word]? = if d.answers word then some d else none

/-- The registry `v` is `r` without the words that stand for `d`. -/
structure Loses (r : Registry ρ) (d : Definition ρ) (v : Registry ρ) : Prop where
  gone : ∀ {word : String}, r.words[word]? = some d → v.words[word]? = none
  kept : ∀ {word : String}, r.words[word]? ≠ some d → v.words[word]? = r.words[word]?

theorem ascending_definitions (r : Registry ρ) : r.definitions.Pairwise (·.name < ·.name) := by
  have hsorted := Std.ExtTreeMap.ordered_keys_toList (t := r.words)
  rw [definitions, List.pairwise_map, List.pairwise_filter]
  refine hsorted.imp fun {a b} hab ha hb => ?_
  -- Only entries whose key is the name of the definition are listed.
  rw [← eq_of_beq ha, ← eq_of_beq hb]
  exact compareOfLessAndEq_eq_lt.1 hab

theorem Canonical.isEmpty_iff (h : r.Canonical) : r.isEmpty = true ↔ r.size = 0 := by
  rw [isEmpty, ← Std.ExtTreeMap.isEmpty_toList, List.isEmpty_iff, size_eq,
    List.length_eq_zero_iff]
  constructor
  · intro hnone
    rw [definitions, hnone]
    rfl
  · intro hnone
    rw [List.eq_nil_iff_forall_not_mem]
    rintro ⟨word, d⟩ hmem
    have hd := Std.ExtTreeMap.mem_toList_iff_getElem?_eq_some.1 hmem
    have hlisted := mem_definitions.2 (h.own_name hd)
    rw [hnone] at hlisted
    cases hlisted

theorem Answering.consistent (h : r.Answering) : r.Consistent := by
  have hcanonical := h.built.canonical
  constructor
  · exact fun hd => (h.answers hd).1
  · exact hcanonical.own_name
  · intro word d hd
    obtain ⟨hanswers, hlower⟩ := h.answers hd
    rw [Registry.lookup, hlower word hanswers]
    exact hd
  · intro d
    rw [Registry.mem_definitions]
    exact ⟨fun hd => ⟨d.name, hd⟩, fun ⟨word, hd⟩ => hcanonical.own_name hd⟩
  · exact ascending_definitions r
  · exact size_eq r
  · exact hcanonical.isEmpty_iff

theorem register_of_free (h : r.words[d.name]? = none) : ∃ v, r.register d = .ok v := by
  have hfree : ¬r.words.contains d.name = true := by
    rw [Std.ExtTreeMap.contains_eq_isSome_getElem?, h]
    exact Bool.false_ne_true
  exact ⟨_, by rw [register, if_neg hfree]⟩

theorem register_of_taken (h : r.words[d.name]? = some e) :
    r.register d = .error (.duplicateRegistration d.name) := by
  have htaken : r.words.contains d.name = true := by
    rw [Std.ExtTreeMap.contains_eq_isSome_getElem?, h]
    rfl
  rw [register, if_pos htaken]

theorem gains_of_register (hv : r.register d = .ok v) : r.Gains d v where
  kept := fun he => by rw [getElem?_register hv, he, Option.some_or]
  named := own_name_register hv
  free := fun word hword => by
    rw [getElem?_register hv, hword, Option.none_or]
    simp only [← Definition.answers_iff]

theorem unregister_of_named (hd : r.words[Text.lowercase name]? = some d)
    (hname : d.name = Text.lowercase name) : ∃ v, r.unregister name = some (d, v) := by
  have hnamed : r.named? (Text.lowercase name) = some d :=
    Option.filter_eq_some_iff.2 ⟨hd, beq_iff_eq.2 hname⟩
  exact ⟨_, by rw [unregister, hnamed, Option.map_some]⟩

theorem unregister_of_unnamed (h : ∀ d : Definition ρ,
    r.words[Text.lowercase name]? = some d → d.name ≠ Text.lowercase name) :
    r.unregister name = none := by
  rw [unregister, Option.map_eq_none_iff, named?, Option.filter_eq_none_iff]
  intro d hd
  simpa using h d hd

theorem Canonical.loses_of_unregister (h : r.Canonical)
    (hv : r.unregister name = some (d, v)) : r.Loses d v := by
  obtain ⟨hd, hname, hwords⟩ := unregister_eq_some hv
  rw [← hname] at hd
  constructor
  · intro word hword
    rw [hwords, hword]
    simp
  · intro word hword
    rw [hwords]
    cases he : r.words[word]? with
    | none => rfl
    | some e =>
      -- No other definition has the name of the one that is taken out.
      have hne : e.name ≠ d.name := by
        intro hsame
        have hown := h.own_name he
        rw [hsame, hd] at hown
        exact hword (he.trans hown.symm)
      exact Option.filter_some_pos (bne_iff_ne.2 hne)

/-- After any operations the words and the list of definitions fit together. The next definition
is accepted just if its name is free, and takes no word away; a removal finds just the names of
definitions, and takes away the words of that one definition. What is refused changes nothing.
Two registrations that are alike in all else can be told apart by what they run. -/
theorem run_consistent (ops : List (Op ρ)) :
    (run ops).Consistent ∧
    (∀ d composed, (run ops).words[d.name]? = none →
      ∃ v, (run ops).register d = .ok v ∧ (run ops).Gains d v ∧
        run (ops ++ [.tryRegister d composed]) = v ∧ run (ops ++ [.register d composed]) = v) ∧
    (∀ d composed, (run ops).words[d.name]? ≠ none →
      (run ops).register d = .error (.duplicateRegistration d.name) ∧
        run (ops ++ [.tryRegister d composed]) = run ops ∧
        run (ops ++ [.register d composed]) = run ops) ∧
    (∀ name d, (run ops).words[Text.lowercase name]? = some d → d.name = Text.lowercase name →
      ∃ v, (run ops).unregister name = some (d, v) ∧ (run ops).Loses d v ∧
        run (ops ++ [.unregister name]) = v) ∧
    (∀ name, (∀ d, (run ops).words[Text.lowercase name]? = some d → d.name ≠ Text.lowercase name) →
      (run ops).unregister name = none ∧ run (ops ++ [.unregister name]) = run ops) := by
  have hkept := answering_run ops
  have hnext (op : Op ρ) : run (ops ++ [op]) = (run ops).perform op := by
    rw [run, List.foldl_append]
    rfl
  refine ⟨hkept.consistent, ?_, ?_, ?_, ?_⟩
  · intro d composed hfree
    obtain ⟨v, hv⟩ := register_of_free hfree
    refine ⟨v, hv, gains_of_register hv, ?_, ?_⟩
    · rw [hnext]
      exact add_of_ok hv
    · rw [hnext]
      exact add_of_ok hv
  · intro d composed htaken
    obtain ⟨e, he⟩ := Option.ne_none_iff_exists'.1 htaken
    have hrefused := register_of_taken he
    refine ⟨hrefused, ?_, ?_⟩
    · rw [hnext]
      exact add_of_error hrefused
    · rw [hnext]
      exact add_of_error hrefused
  · intro name d hd hname
    obtain ⟨v, hv⟩ := unregister_of_named hd hname
    refine ⟨v, hv, hkept.built.canonical.loses_of_unregister hv, ?_⟩
    rw [hnext, perform, hv]
  · intro name hother
    have hnone := unregister_of_unnamed hother
    refine ⟨hnone, ?_⟩
    rw [hnext, perform, hnone]

/-- Two commands that both go by the letter `l`. -/
def lookCommand : Definition Nat := (Definition.named "Look" 1).withAliases ["l"]

@[inherit_doc lookCommand]
def listCommand : Definition Nat := (Definition.named "List" 2).withAliases ["L"]

theorem isComposed_lookCommand : lookCommand.IsComposed := .withAliases (.named "Look" 1) ["l"]

theorem isComposed_listCommand : listCommand.IsComposed := .withAliases (.named "List" 2) ["L"]

def lookAndList : List (Op Nat) :=
  [.register lookCommand isComposed_lookCommand, .tryRegister listCommand isComposed_listCommand]

/-- The second command comes too late for the letter, and does not get it when the first goes. -/
theorem run_consistent_lookAndList :
    (run lookAndList).lookup "l" = some lookCommand ∧
    (run lookAndList).lookup "list" = some listCommand ∧
    (run lookAndList).register lookCommand = .error (.duplicateRegistration "look") ∧
    ∃ v, (run lookAndList).unregister "LOOK" = some (lookCommand, v) ∧
      v.words["l"]? = none ∧ v.words["list"]? = some listCommand := by
  have hempty (word : String) : (run ([] : List (Op Nat))).words[word]? = none := by
    simp [run, empty]
  have hlookName : lookCommand.name = "look" := by decide +kernel
  have hlistName : listCommand.name = "list" := by decide +kernel
  have hlower : Text.lowercase "LOOK" = "look" := by decide +kernel
  obtain ⟨-, hregister, -⟩ := run_consistent ([] : List (Op Nat))
  obtain ⟨one, -, hone, -, hrun⟩ :=
    hregister lookCommand isComposed_lookCommand (hempty lookCommand.name)
  have hletter : one.words["l"]? = some lookCommand := by
    rw [hone.free "l" (hempty "l"), if_pos (by decide +kernel)]
  have hfree : one.words[listCommand.name]? = none := by
    rw [hone.free _ (hempty _), if_neg (by decide +kernel)]
  rw [← hrun] at hfree
  obtain ⟨-, hregister, -⟩ := run_consistent [Op.register lookCommand isComposed_lookCommand]
  obtain ⟨both, -, hboth, hrun', -⟩ := hregister listCommand isComposed_listCommand hfree
  obtain ⟨hconsistent, -, hrefuse, hremove, -⟩ := run_consistent lookAndList
  have hkept {word : String} (h : one.words[word]? = some lookCommand) :
      (run lookAndList).words[word]? = some lookCommand := by
    rw [← hrun] at h
    exact hrun' ▸ hboth.kept h
  have hl : (run lookAndList).words["l"]? = some lookCommand := hkept hletter
  have hlook : (run lookAndList).words["look"]? = some lookCommand :=
    hkept (hlookName ▸ hone.named)
  have hlist : (run lookAndList).words["list"]? = some listCommand := by
    rw [← hlistName]
    exact hrun' ▸ hboth.named
  have htaken : (run lookAndList).words[lookCommand.name]? ≠ none := by
    rw [hlookName, hlook]
    exact Option.some_ne_none _
  have hremove := hremove "LOOK" lookCommand
  rw [hlower, hlookName] at hremove
  obtain ⟨v, hv, hloses, -⟩ := hremove hlook rfl
  refine ⟨hconsistent.lookup hl, hconsistent.lookup hlist, ?_, v, hv, hloses.gone hl, ?_⟩
  · rw [← hlookName]
    exact (hrefuse lookCommand isComposed_lookCommand htaken).1
  · have hother : (run lookAndList).words["list"]? ≠ some lookCommand := by
      rw [hlist]
      exact fun h => absurd (congrArg Definition.run (Option.some.inj h)) (by decide)
    rw [hloses.kept hother, hlist]

end Registry

end TextWorld

import TextWorld.Proofs.Command.Roster

/-!
Registrations taken back. A removal undoes the registration of a definition whose name was free,
whichever of its aliases were taken then; and registrations that have no word in common can change
places.
-/

namespace TextWorld

/-- No word is both for the one and for the other. -/
def Definition.Apart {ρ : Type} (d e : Definition ρ) : Prop :=
  ∀ word, d.answers word = true → e.answers word = false

theorem Definition.Apart.symm {ρ : Type} {d e : Definition ρ} (h : d.Apart e) : e.Apart d := by
  intro word he
  rw [Bool.eq_false_iff]
  intro hd
  rw [h word hd] at he
  cases he

namespace Registry

variable {ρ : Type} {r v : Registry ρ} {d e : Definition ρ} {name : String}

/-- Registries are the same if words stand for the same in them. -/
theorem ext_words (h : ∀ word : String, v.words[word]? = r.words[word]?) : v = r := by
  obtain ⟨vwords⟩ := v
  obtain ⟨rwords⟩ := r
  exact congrArg Registry.mk (Std.ExtTreeMap.ext_getElem? fun {word} => h word)

/-- What a word stands for once a definition is registered, be it accepted or not. -/
theorem getElem?_add (r : Registry ρ) (d : Definition ρ) (word : String) :
    (r.add d).words[word]? = r.words[word]?.or
      (if r.words[d.name]? = none ∧ d.answers word = true then some d else none) := by
  cases hfree : r.words[d.name]? with
  | none =>
    obtain ⟨v, hv⟩ := register_of_free hfree
    rw [add_of_ok hv, getElem?_register hv]
    simp only [Definition.answers_iff, true_and]
  | some e =>
    rw [add_of_error (register_of_taken hfree)]
    simp

/-- Whatever else stands in the registry has another name, so the words that the removal takes out
are those that the registration has put in. -/
theorem Canonical.unregister_register (h : r.Canonical) (hfree : r.words[d.name]? = none)
    (hv : r.register d = .ok v) (hname : Text.lowercase name = d.name) :
    v.unregister name = some (d, r) := by
  have hown : v.words[Text.lowercase name]? = some d := by
    rw [hname]
    exact own_name_register hv
  obtain ⟨u, hu⟩ := unregister_of_named hown hname.symm
  obtain ⟨-, -, hleft⟩ := unregister_eq_some hu
  have hundone : u = r := by
    refine ext_words fun word => ?_
    rw [hleft, getElem?_register hv]
    cases hword : r.words[word]? with
    | none =>
      rw [Option.none_or]
      split
      · simp
      · rfl
    | some e =>
      have hother : e.name ≠ d.name := by
        intro hsame
        have hown := h.own_name hword
        rw [hsame, hfree] at hown
        cases hown
      rw [Option.some_or]
      exact Option.filter_some_pos (bne_iff_ne.2 hother)
  rw [hu, hundone]

/-- A name stays free while a definition is registered that does not answer to it. -/
theorem free_add_iff (h : d.Apart e) :
    (r.add d).words[e.name]? = none ↔ r.words[e.name]? = none := by
  have hname : d.answers e.name = false := h.symm e.name (Definition.answers_iff.2 (.inl rfl))
  rw [getElem?_add, hname]
  simp

/-- Whether the second of two definitions is accepted does not depend on the first. -/
theorem getElem?_add_add (r : Registry ρ) (h : d.Apart e) (word : String) :
    ((r.add d).add e).words[word]? = r.words[word]?.or
      ((if r.words[d.name]? = none ∧ d.answers word = true then some d else none).or
        (if r.words[e.name]? = none ∧ e.answers word = true then some e else none)) := by
  simp only [getElem?_add (r.add d) e, free_add_iff h]
  rw [getElem?_add r d, Option.or_assoc]

theorem add_comm (r : Registry ρ) (h : d.Apart e) : (r.add d).add e = (r.add e).add d := by
  refine ext_words fun word => ?_
  rw [getElem?_add_add r h, getElem?_add_add r h.symm]
  congr 1
  -- At most one of the two comes into question.
  cases hd : d.answers word with
  | false => simp
  | true => simp [h word hd]

theorem perform_of_register {op : Op ρ} (composed : d.IsComposed)
    (hop : op ∈ [Op.register d composed, .tryRegister d composed]) : r.perform op = r.add d := by
  obtain rfl | rfl : op = _ ∨ op = _ := by simpa using hop
  · rfl
  · rfl

/-- After any operations: a definition whose name stands for nothing is accepted, and its removal,
by its name in any case, gives it back and the registry as it was. Of two definitions without a
common word each may be registered first, in either way, and the same registry comes of it. -/
theorem run_undone (ops : List (Op ρ)) :
    (∀ d : Definition ρ, d.IsComposed → (run ops).lookup d.name = none →
      ∃ v, (run ops).register d = .ok v ∧
        ∀ name, Text.lowercase name = d.name → v.unregister name = some (d, run ops)) ∧
    ∀ (d e : Definition ρ) (hd : d.IsComposed) (he : e.IsComposed), d.Apart e →
      ∀ a ∈ [Op.register d hd, .tryRegister d hd], ∀ b ∈ [Op.register e he, .tryRegister e he],
        run (ops ++ [a, b]) = run (ops ++ [b, a]) := by
  constructor
  · intro d hd hlookup
    have hlower : Text.lowercase d.name = d.name :=
      hd.isLower _ (Definition.answers_iff.2 (.inl rfl))
    have hfree : (run ops).words[d.name]? = none := by
      rw [lookup, hlower] at hlookup
      exact hlookup
    obtain ⟨v, hv⟩ := register_of_free hfree
    refine ⟨v, hv, fun name hname => ?_⟩
    exact (answering_run ops).built.canonical.unregister_register hfree hv hname
  · intro d e hd he hapart a ha b hb
    have hrun (a b : Op ρ) : run (ops ++ [a, b]) = ((run ops).perform a).perform b := by
      rw [run, List.foldl_append]
      rfl
    simp only [hrun, perform_of_register hd ha, perform_of_register he hb]
    exact add_comm (run ops) hapart

/-- A third command that would go by the letter `l`. -/
def leaveCommand : Definition Nat := (Definition.named "Leave" 3).withAliases ["l", "exit"]

def quitCommand : Definition Nat := (Definition.named "Quit" 4).withAliases ["q"]

theorem isComposed_leaveCommand : leaveCommand.IsComposed :=
  .withAliases (.named "Leave" 3) ["l", "exit"]

theorem isComposed_quitCommand : quitCommand.IsComposed := .withAliases (.named "Quit" 4) ["q"]

theorem apart_leaveCommand : leaveCommand.Apart quitCommand := by
  have hwords : (leaveCommand.name :: leaveCommand.aliases).all
      (fun word => !quitCommand.answers word) = true := by
    decide +kernel
  intro word hword
  have hmem : word ∈ leaveCommand.name :: leaveCommand.aliases :=
    List.mem_cons.2 (Definition.answers_iff.1 hword)
  simpa using List.all_eq_true.1 hwords word hmem

/-- The third command does not get the letter, and its removal leaves it to the first. -/
theorem run_undone_leave :
    (run lookAndList).lookup leaveCommand.name = none ∧
    (∃ v, (run lookAndList).register leaveCommand = .ok v ∧ v.words["exit"]? = some leaveCommand ∧
      v.unregister "LEAVE" = some (leaveCommand, run lookAndList)) ∧
    run (lookAndList ++ [.register leaveCommand isComposed_leaveCommand,
        .tryRegister quitCommand isComposed_quitCommand]) =
      run (lookAndList ++ [.tryRegister quitCommand isComposed_quitCommand,
        .register leaveCommand isComposed_leaveCommand]) := by
  obtain ⟨hundone, hcommute⟩ := run_undone lookAndList
  have hfree : (run lookAndList).lookup leaveCommand.name = none :=
    Option.isNone_iff_eq_none.1 (by decide +kernel)
  have hexit : (run lookAndList).words["exit"]? = none :=
    Option.isNone_iff_eq_none.1 (by decide +kernel)
  obtain ⟨v, hv, hremove⟩ := hundone leaveCommand isComposed_leaveCommand hfree
  refine ⟨hfree, ⟨v, hv, ?_, hremove "LEAVE" (by decide +kernel)⟩, ?_⟩
  · rw [(gains_of_register hv).free "exit" hexit, if_pos (by decide +kernel)]
  · exact hcommute leaveCommand quitCommand isComposed_leaveCommand isComposed_quitCommand
      apart_leaveCommand _ (by simp) _ (by simp)

end Registry

end TextWorld

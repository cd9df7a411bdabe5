import Std.Data.ExtTreeMap

/-!
Finite maps that list their entries by ascending key. Two maps that look up alike are equal.
-/

namespace TextWorld

abbrev Table (κ ν : Type) [Ord κ] := Std.ExtTreeMap κ ν compare

namespace Table

variable {κ ν : Type} [Ord κ]

/-- The map without entries. -/
abbrev empty : Table κ ν := ∅

/-- The map of a list of entries; of entries with one key the last counts. -/
abbrev ofList (entries : List (κ × ν)) : Table κ ν := Std.ExtTreeMap.ofList entries compare

theorem values_eq [Std.TransOrd κ] (t : Table κ ν) : t.values = t.toList.map (·.2) := by
  rcases t with ⟨⟨t⟩⟩
  induction t using Quotient.ind with
  | _ m =>
    change m.inner.values = (Std.DTreeMap.Internal.Impl.Const.toList m.inner).map (·.2)
    rw [Std.DTreeMap.Internal.Impl.values_eq_map_snd,
      Std.DTreeMap.Internal.Impl.Const.toList_eq_toListModel_map, List.map_map]
    rfl

theorem mem_values [Std.TransOrd κ] [Std.LawfulEqOrd κ] {t : Table κ ν} {v : ν} :
    v ∈ t.values ↔ ∃ k : κ, t[k]? = some v := by
  rw [values_eq, List.mem_map]
  constructor
  · rintro ⟨e, he, rfl⟩
    exact ⟨e.1, Std.ExtTreeMap.mem_toList_iff_getElem?_eq_some.1 he⟩
  · rintro ⟨k, hk⟩
    exact ⟨(k, v), Std.ExtTreeMap.mem_toList_iff_getElem?_eq_some.2 hk, rfl⟩

theorem exists_size [Std.TransOrd κ] {t : Table κ ν} {k : κ} {v : ν} (h : t[k]? = some v) :
    ∃ n, t.size = n + 1 := by
  have hmem : k ∈ t := by
    rw [Std.ExtTreeMap.mem_iff_isSome_getElem?, h]
    rfl
  have hne := mt Std.ExtTreeMap.eq_empty_iff_size_eq_zero.2 (Std.ExtTreeMap.ne_empty_of_mem hmem)
  exact Nat.exists_eq_succ_of_ne_zero hne

section Lawful

variable [Std.TransOrd κ] [Std.LawfulEqOrd κ] [DecidableEq κ]

theorem getElem?_insert (t : Table κ ν) (k l : κ) (v : ν) :
    (t.insert k v)[l]? = if k = l then some v else t[l]? := by
  rw [Std.ExtTreeMap.getElem?_insert]
  simp only [Std.LawfulEqCmp.compare_eq_iff_eq]

theorem getElem?_erase (t : Table κ ν) (k l : κ) :
    (t.erase k)[l]? = if k = l then none else t[l]? := by
  rw [Std.ExtTreeMap.getElem?_erase]
  simp only [Std.LawfulEqCmp.compare_eq_iff_eq]

theorem getElem?_modify (t : Table κ ν) (k l : κ) (f : ν → ν) :
    (t.modify k f)[l]? = if k = l then t[l]?.map f else t[l]? := by
  rw [Std.ExtTreeMap.getElem?_modify]
  simp only [Std.LawfulEqCmp.compare_eq_iff_eq]
  split
  · rename_i h
    rw [h]
  · rfl

/-- What holds of a new entry and of all old ones holds of all entries afterwards. -/
theorem forall_insert {t : Table κ ν} {P : κ → ν → Prop}
    (h : ∀ {k : κ} {v : ν}, t[k]? = some v → P k v) {l : κ} {u : ν} (hu : P l u) {k : κ} {v : ν}
    (hv : (t.insert l u)[k]? = some v) : P k v := by
  rw [getElem?_insert] at hv
  split at hv
  · rename_i hl
    cases hv
    exact hl ▸ hu
  · exact h hv

theorem forall_modify {t : Table κ ν} {P : κ → ν → Prop}
    (h : ∀ {k : κ} {v : ν}, t[k]? = some v → P k v) {l : κ} {f : ν → ν}
    (hf : ∀ {v : ν}, t[l]? = some v → P l v → P l (f v)) {k : κ} {v : ν}
    (hv : (t.modify l f)[k]? = some v) : P k v := by
  rw [getElem?_modify] at hv
  split at hv
  · rename_i hl
    obtain ⟨u, hu, rfl⟩ := Option.map_eq_some_iff.1 hv
    subst hl
    exact hf hu (h hu)
  · exact h hv

theorem forall_erase {t : Table κ ν} {P : κ → ν → Prop}
    (h : ∀ {k : κ} {v : ν}, t[k]? = some v → P k v) {l k : κ} {v : ν}
    (hv : (t.erase l)[k]? = some v) : P k v := by
  rw [getElem?_erase] at hv
  split at hv
  · cases hv
  · exact h hv

theorem forall_mem_values_insert {t : Table κ ν} {p : ν → Prop} {l : κ} {u : ν} (hu : p u)
    (h : ∀ v ∈ t.values, p v) : ∀ v ∈ (t.insert l u).values, p v := by
  intro v hv
  obtain ⟨k, hk⟩ := mem_values.1 hv
  exact forall_insert (P := fun _ v => p v) (fun hv => h _ (mem_values.2 ⟨_, hv⟩)) hu hk

theorem forall_mem_values_erase {t : Table κ ν} {p : ν → Prop} {l : κ}
    (h : ∀ v ∈ t.values, p v) : ∀ v ∈ (t.erase l).values, p v := by
  intro v hv
  obtain ⟨k, hk⟩ := mem_values.1 hv
  exact forall_erase (P := fun _ v => p v) (fun hv => h _ (mem_values.2 ⟨_, hv⟩)) hk

theorem modify_modify (t : Table κ ν) (k : κ) (f g : ν → ν) :
    (t.modify k f).modify k g = t.modify k fun v => g (f v) := by
  apply Std.ExtTreeMap.ext_getElem?
  intro l
  rw [getElem?_modify, getElem?_modify, getElem?_modify]
  split
  · simp [Function.comp_def]
  · rfl

/-- A change that is made no different by making it twice reaches every key of the list. -/
theorem getElem?_foldl_modify (t : Table κ ν) (ks : List κ) (l : κ) (f : ν → ν)
    (hf : ∀ v, f (f v) = f v) :
    (ks.foldl (fun t k => t.modify k f) t)[l]? = if l ∈ ks then t[l]?.map f else t[l]? := by
  induction ks generalizing t with
  | nil => simp
  | cons k ks ih =>
    rw [List.foldl_cons, ih, getElem?_modify]
    by_cases hk : k = l
    · subst hk
      simp [Function.comp_def, hf]
    · simp [hk, Ne.symm hk]

theorem modify_comm (t : Table κ ν) (k l : κ) {f g : ν → ν} (h : ∀ v, f (g v) = g (f v)) :
    (t.modify k f).modify l g = (t.modify l g).modify k f := by
  apply Std.ExtTreeMap.ext_getElem?
  intro x
  simp only [getElem?_modify]
  split <;> split
  · rw [Option.map_map, Option.map_map]
    exact congrArg (Option.map · _) (funext fun v => (h v).symm)
  all_goals rfl

theorem modify_erase (t : Table κ ν) (k l : κ) (f : ν → ν) :
    (t.erase l).modify k f = (t.modify k f).erase l := by
  apply Std.ExtTreeMap.ext_getElem?
  intro x
  simp only [getElem?_modify, getElem?_erase]
  split <;> split <;> rfl

/-- What is filtered out anyway can as well be missing. -/
theorem filter_values_erase (t : Table κ ν) {k : κ} {p : ν → Bool}
    (h : ∀ v, t[k]? = some v → p v = false) :
    (t.erase k).values.filter p = t.values.filter p := by
  have hsame : (t.erase k).filter (fun _ v => p v) = t.filter fun _ v => p v := by
    apply Std.ExtTreeMap.ext_getElem?
    intro l
    simp only [Std.ExtTreeMap.getElem?_filter', getElem?_erase]
    split
    · rename_i hl
      subst hl
      cases hk : t[k]? with
      | none => rfl
      | some v =>
        rw [Option.filter_some, h v hk]
        rfl
    · rfl
  have hlist := congrArg Std.ExtTreeMap.toList hsame
  simp only [Std.ExtTreeMap.toList_filter] at hlist
  rw [values_eq, values_eq, List.filter_map, List.filter_map]
  exact congrArg (List.map (·.2)) hlist

theorem insert_erase (t : Table κ ν) (k : κ) (v : ν) : (t.erase k).insert k v = t.insert k v := by
  apply Std.ExtTreeMap.ext_getElem?
  intro l
  rw [getElem?_insert, getElem?_insert, getElem?_erase]
  split <;> rfl

end Lawful

end Table

end TextWorld

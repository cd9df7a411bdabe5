import Mathlib.Data.List.DropRight
import TextWorld.Text.Blank

/-!
Lines put together and taken apart. Trimming a text twice is trimming it once, and lines that have
been trimmed are the lines of the text that they make up.
-/

namespace TextWorld.Text

variable {text : String}

/-- The characters of a text without the white space at its two ends. -/
def trimmed (cs : List Char) : List Char := (cs.dropWhile isBlank).rdropWhile isBlank

theorem toList_trim (text : String) : (trim text).toList = trimmed text.toList :=
  String.toList_ofList

/-- What is dropped at the end leaves the beginning alone. -/
theorem mem_head?_of_trimmed {cs : List Char} {c : Char} (h : c ∈ (trimmed cs).head?) :
    c ∈ (cs.dropWhile isBlank).head? := by
  obtain ⟨behind, hbehind⟩ := List.rdropWhile_prefix isBlank (cs.dropWhile isBlank)
  rw [← hbehind, List.head?_append, ← trimmed, Option.mem_def.1 h]
  rfl

theorem trimmed_trimmed (cs : List Char) : trimmed (trimmed cs) = trimmed cs := by
  have hfront : (trimmed cs).dropWhile isBlank = trimmed cs := by
    cases htrimmed : trimmed cs with
    | nil => rfl
    | cons c rest =>
      have hhead : c ∈ (cs.dropWhile isBlank).head? :=
        mem_head?_of_trimmed (by rw [htrimmed]; rfl)
      have hsolid := List.head?_dropWhile_not isBlank cs
      rw [Option.mem_def.1 hhead] at hsolid
      exact List.dropWhile_cons_of_neg (Bool.eq_false_iff.1 hsolid)
  rw [trimmed, hfront, trimmed, List.rdropWhile_idempotent]

theorem trim_trim (text : String) : trim (trim text) = trim text := by
  rw [← String.toList_inj, toList_trim, toList_trim, trimmed_trimmed]

theorem trimmed_subset (cs : List Char) : trimmed cs ⊆ cs :=
  List.Subset.trans (List.rdropWhile_prefix _ _).subset (List.dropWhile_suffix _).subset

/-- White space at the end is trimmed off. -/
theorem trimmed_concat {b : Char} (hb : isBlank b = true) (cs : List Char) :
    trimmed (cs ++ [b]) = trimmed cs := by
  rw [trimmed, trimmed, List.dropWhile_append]
  split
  · rename_i hnone
    rw [List.isEmpty_iff.1 hnone, List.dropWhile_cons_of_pos hb, List.dropWhile_nil]
  · exact List.rdropWhile_concat_pos _ _ _ hb

/-! The lines of a text. -/

theorem isBlank_newline : isBlank '\n' = true := by decide

/-- A line has no line feed, but for the one that ends it. -/
theorem newline_of_mem_splitLines {cs l : List Char} (hl : l ∈ splitLines cs) :
    ∃ body, '\n' ∉ body ∧ (l = body ∨ l = body ++ ['\n']) := by
  induction cs generalizing l with
  | nil => cases hl
  | cons c cs ih =>
    rw [splitLines] at hl
    split at hl
    · rename_i hc
      rcases List.mem_cons.1 hl with rfl | hl
      · exact ⟨[], List.not_mem_nil, .inr (by rw [hc]; rfl)⟩
      · exact ih hl
    · rename_i hc
      split at hl
      · obtain rfl := List.mem_singleton.1 hl
        exact ⟨[c], by simpa using Ne.symm hc, .inl rfl⟩
      · rename_i first others hothers
        rcases List.mem_cons.1 hl with rfl | hl
        · -- The character belongs to the line behind it.
          obtain ⟨body, hbody, hfirst⟩ := ih (hothers ▸ List.mem_cons_self)
          refine ⟨c :: body, by simp [Ne.symm hc, hbody], ?_⟩
          rcases hfirst with rfl | rfl
          · exact .inl rfl
          · exact .inr rfl
        · exact ih (hothers ▸ List.mem_cons_of_mem first hl)

/-- A line that has been trimmed has no line feed in it. -/
theorem newline_not_mem_trim {text l : String} (hl : l ∈ lines text) : '\n' ∉ (trim l).toList := by
  obtain ⟨cs, hcs, rfl⟩ := List.mem_map.1 hl
  obtain ⟨body, hbody, hline⟩ := newline_of_mem_splitLines hcs
  rw [toList_trim, String.toList_ofList]
  rcases hline with rfl | rfl
  · exact fun h => hbody (trimmed_subset _ h)
  · rw [trimmed_concat isBlank_newline]
    exact fun h => hbody (trimmed_subset _ h)

theorem splitLines_last {cs : List Char} (hcs : '\n' ∉ cs) (hne : cs ≠ []) :
    splitLines cs = [cs] := by
  induction cs with
  | nil => exact absurd rfl hne
  | cons c cs ih =>
    rw [List.mem_cons, not_or] at hcs
    rw [splitLines, if_neg (Ne.symm hcs.1)]
    cases cs with
    | nil => rfl
    | cons d cs => rw [ih hcs.2 (List.cons_ne_nil d cs)]

/-- A line goes as far as the next line feed. -/
theorem splitLines_append {cs : List Char} (hcs : '\n' ∉ cs) (rest : List Char) :
    splitLines (cs ++ '\n' :: rest) = (cs ++ ['\n']) :: splitLines rest := by
  induction cs with
  | nil => rw [List.nil_append, splitLines, if_pos rfl, List.nil_append]
  | cons c cs ih =>
    rw [List.mem_cons, not_or] at hcs
    rw [List.cons_append, splitLines, if_neg (Ne.symm hcs.1), ih hcs.2]
    rfl

/-- Some lines that have been trimmed, each on a line of its own, are the lines of the text. -/
theorem map_trim_lines {ls : List String} (hne : ∀ l ∈ ls, l ≠ "")
    (hnewline : ∀ l ∈ ls, '\n' ∉ l.toList) (htrim : ∀ l ∈ ls, trim l = l) :
    (lines ("\n".intercalate ls)).map trim = ls := by
  induction ls with
  | nil => rfl
  | cons l ls ih =>
    have hbare := hnewline l List.mem_cons_self
    have hself := htrim l List.mem_cons_self
    cases ls with
    | nil =>
      have hsome : l.toList ≠ [] := mt String.toList_eq_nil_iff.1 (hne l List.mem_cons_self)
      rw [String.intercalate_singleton, lines, splitLines_last hbare hsome]
      simp [hself]
    | cons l' ls =>
      have hrest := ih (fun x hx => hne x (List.mem_cons_of_mem l hx))
        (fun x hx => hnewline x (List.mem_cons_of_mem l hx))
        fun x hx => htrim x (List.mem_cons_of_mem l hx)
      have hended : trim (.ofList (l.toList ++ ['\n'])) = l := by
        rw [← String.toList_inj, toList_trim, String.toList_ofList, trimmed_concat isBlank_newline,
          ← toList_trim, hself]
      have hsplit : lines ("\n".intercalate (l :: l' :: ls)) =
          .ofList (l.toList ++ ['\n']) :: lines ("\n".intercalate (l' :: ls)) := by
        rw [lines, String.intercalate_cons_cons, String.toList_append, String.toList_append,
          List.append_assoc]
        exact congrArg (List.map String.ofList) (splitLines_append hbare _)
      rw [hsplit, List.map_cons, hended, hrest]

end TextWorld.Text

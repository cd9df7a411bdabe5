import TextWorld.Command.Grammar
import TextWorld.Proofs.Text.Words

/-!
How the tokens of a grammar are written. A relation says which words stand for a token: a name
with known modifiers, or any word that begins with no name. Compiling a word finds the token that
it stands for, and no other word compiles.
-/

namespace TextWorld.Grammar

open Text

/-- The parts of a token with points between them. -/
def dotted (parts : List String) : List Char := ['.'].intercalate (parts.map String.toList)

/-- The parts of a token between its points. -/
def dotParts (cs : List Char) : List String := (splitDots cs).map String.ofList

theorem splitDots_eq_cons (cs : List Char) :
    ∃ rest, splitDots cs = cs.takeWhile (· ≠ '.') :: rest := by
  induction cs with
  | nil => exact ⟨[], rfl⟩
  | cons c cs ih =>
    obtain ⟨rest, hrest⟩ := ih
    by_cases hc : c = '.'
    · exact ⟨splitDots cs, by simp [splitDots, hc]⟩
    · exact ⟨rest, by simp [splitDots, hc, hrest]⟩

theorem intercalate_splitDots (cs : List Char) : ['.'].intercalate (splitDots cs) = cs := by
  induction cs with
  | nil => rfl
  | cons c cs ih =>
    obtain ⟨rest, hrest⟩ := splitDots_eq_cons cs
    by_cases hc : c = '.'
    · rw [splitDots, if_pos hc, hrest, List.intercalate_cons_cons, ← hrest, ih, hc]
      rfl
    · rw [splitDots, if_neg hc, hrest, List.modifyHead_cons]
      rw [hrest] at ih
      cases rest with
      | nil =>
        rw [List.intercalate_singleton] at ih ⊢
        rw [ih]
      | cons part rest =>
        rw [List.intercalate_cons_cons] at ih ⊢
        rw [List.cons_append, List.cons_append, ih]

theorem splitDots_of_dotless {part : List Char} (h : '.' ∉ part) : splitDots part = [part] := by
  induction part with
  | nil => rfl
  | cons c cs ih =>
    have hc : c ≠ '.' := fun hc => h (hc ▸ List.mem_cons_self)
    have hcs : '.' ∉ cs := fun hcs => h (List.mem_cons_of_mem c hcs)
    rw [splitDots, if_neg hc, ih hcs, List.modifyHead_cons]

theorem splitDots_append {part : List Char} (h : '.' ∉ part) (cs : List Char) :
    splitDots (part ++ '.' :: cs) = part :: splitDots cs := by
  induction part with
  | nil => simp [splitDots]
  | cons c part ih =>
    have hc : c ≠ '.' := fun hc => h (hc ▸ List.mem_cons_self)
    have hpart : '.' ∉ part := fun hcs => h (List.mem_cons_of_mem c hcs)
    rw [List.cons_append, splitDots, if_neg hc, ih hpart, List.modifyHead_cons]

theorem dotted_dotParts (cs : List Char) : dotted (dotParts cs) = cs := by
  have hchars : (dotParts cs).map String.toList = splitDots cs := by
    simp [dotParts, Function.comp_def]
  rw [dotted, hchars, intercalate_splitDots]

theorem dotParts_dotted {part : String} {parts : List String}
    (h : ∀ p ∈ part :: parts, '.' ∉ p.toList) :
    dotParts (dotted (part :: parts)) = part :: parts := by
  induction parts generalizing part with
  | nil =>
    have hpart := h part List.mem_cons_self
    simp [dotted, dotParts, splitDots_of_dotless hpart]
  | cons next parts ih =>
    have hpart := h part List.mem_cons_self
    have hrest := ih fun p hp => h p (List.mem_cons_of_mem part hp)
    have hsplit : dotted (part :: next :: parts) =
        part.toList ++ '.' :: dotted (next :: parts) := by
      simp [dotted, List.intercalate_cons_cons]
    rw [hsplit, dotParts, splitDots_append hpart, List.map_cons, String.ofList_toList]
    exact congrArg (part :: ·) hrest

def characterModifiers : List String := ["room", "zone", "noself", "npc", "player"]

def itemModifiers : List String := ["inv", "eq", "room"]

def exitModifiers : List String := ["visible", "passable", "peekable", "closeable", "openable"]

/-- Whether a modifier of a `char` token names a scope. -/
def isScope (m : String) : Bool := m = "room" ∨ m = "zone"

/-- The filter with what some modifiers add to it. -/
def CharacterFilter.adding (f : CharacterFilter) (ms : List String) : CharacterFilter where
  scope := if "zone" ∈ ms then .zone else f.scope
  noSelf := f.noSelf || "noself" ∈ ms
  npcOnly := f.npcOnly || "npc" ∈ ms
  playerOnly := f.playerOnly || "player" ∈ ms

@[inherit_doc CharacterFilter.adding]
def ItemFilter.adding (f : ItemFilter) (ms : List String) : ItemFilter where
  inventory := f.inventory || "inv" ∈ ms
  equipment := f.equipment || "eq" ∈ ms
  room := f.room || "room" ∈ ms

@[inherit_doc CharacterFilter.adding]
def ExitFilter.adding (f : ExitFilter) (ms : List String) : ExitFilter where
  visible := f.visible || "visible" ∈ ms
  passable := f.passable || "passable" ∈ ms
  peekable := f.peekable || "peekable" ∈ ms
  closeable := f.closeable || "closeable" ∈ ms
  openable := f.openable || "openable" ∈ ms

theorem CharacterFilter.adding_adding (f : CharacterFilter) (m : String) (ms : List String) :
    (f.adding [m]).adding ms = f.adding (m :: ms) := by
  simp only [adding, List.mem_cons, List.not_mem_nil, or_false, Bool.decide_or, Bool.or_assoc]
  congr 1
  by_cases hzone : "zone" ∈ ms <;> simp [hzone]

theorem ItemFilter.adding_adding (f : ItemFilter) (m : String) (ms : List String) :
    (f.adding [m]).adding ms = f.adding (m :: ms) := by
  simp only [adding, List.mem_cons, List.not_mem_nil, or_false, Bool.decide_or, Bool.or_assoc]

theorem ExitFilter.adding_adding (f : ExitFilter) (m : String) (ms : List String) :
    (f.adding [m]).adding ms = f.adding (m :: ms) := by
  simp only [adding, List.mem_cons, List.not_mem_nil, or_false, Bool.decide_or, Bool.or_assoc]

theorem characterFilter_cons {token : String} {named : Bool} {m : String}
    (hm : m ∈ characterModifiers) (hscope : ¬(isScope m = true ∧ named = true))
    (f : CharacterFilter) (ms : List String) :
    characterFilter token named f (m :: ms) =
      characterFilter token (named || isScope m) (f.adding [m]) ms := by
  simp only [characterModifiers, List.mem_cons, List.not_mem_nil, or_false] at hm
  rcases hm with rfl | rfl | rfl | rfl | rfl <;>
    simp_all [characterFilter, isScope, CharacterFilter.adding]

theorem itemFilter_cons {m : String} (hm : m ∈ itemModifiers) (f : ItemFilter) (ms : List String) :
    itemFilter f (m :: ms) = itemFilter (f.adding [m]) ms := by
  simp only [itemModifiers, List.mem_cons, List.not_mem_nil, or_false] at hm
  rcases hm with rfl | rfl | rfl <;> simp [itemFilter, ItemFilter.adding]

theorem exitFilter_cons {m : String} (hm : m ∈ exitModifiers) (f : ExitFilter) (ms : List String) :
    exitFilter f (m :: ms) = exitFilter (f.adding [m]) ms := by
  simp only [exitModifiers, List.mem_cons, List.not_mem_nil, or_false] at hm
  rcases hm with rfl | rfl | rfl | rfl | rfl <;> simp [exitFilter, ExitFilter.adding]

theorem characterFilter_eq_ok {token : String} {named : Bool} {f g : CharacterFilter}
    {ms : List String} : characterFilter token named f ms = .ok g ↔
      (∀ m ∈ ms, m ∈ characterModifiers) ∧ named.toNat + ms.countP isScope ≤ 1 ∧
        ¬(g.npcOnly = true ∧ g.playerOnly = true) ∧ g = f.adding ms := by
  induction ms generalizing named f with
  | nil =>
    have hf : f.adding [] = f := by simp [CharacterFilter.adding]
    have hnamed : named.toNat ≤ 1 := Bool.toNat_le named
    by_cases hboth : f.npcOnly = true ∧ f.playerOnly = true
    · have hnone : ¬(¬(g.npcOnly = true ∧ g.playerOnly = true) ∧ g = f) := by
        rintro ⟨hg, rfl⟩
        exact hg hboth
      simpa [characterFilter, hboth, hf, hnamed] using hnone
    · have hone : .ok f = (.ok g : Except GrammarProblem _) ↔
          ¬(g.npcOnly = true ∧ g.playerOnly = true) ∧ g = f := by
        constructor
        · rintro ⟨⟩
          exact ⟨hboth, rfl⟩
        · rintro ⟨-, rfl⟩
          rfl
      simpa [characterFilter, hboth, hf, hnamed] using hone
  | cons m ms ih =>
    rw [List.forall_mem_cons, List.countP_cons]
    by_cases hm : m ∈ characterModifiers
    · by_cases hscope : isScope m = true ∧ named = true
      · have hrefused : characterFilter token named f (m :: ms) = .error (.manyScopes token) := by
          have hname : m = "room" ∨ m = "zone" := by simpa [isScope] using hscope.1
          simp [characterFilter, hname, hscope.2]
        have hmany :
            ¬named.toNat + (ms.countP isScope + if isScope m = true then 1 else 0) ≤ 1 := by
          simp [hscope.1, hscope.2]
        simp only [hrefused, hmany, false_and, and_false, reduceCtorEq]
      · have hcount : (named || isScope m).toNat = named.toNat + if isScope m then 1 else 0 := by
          revert hscope
          cases named <;> cases isScope m <;> simp
        rw [characterFilter_cons hm hscope, ih, hcount, f.adding_adding, Nat.add_right_comm,
          Nat.add_assoc]
        simp only [hm, true_and]
    · have hrefused : characterFilter token named f (m :: ms) =
          .error (.unknownModifier "char" m) := by
        simp only [characterModifiers, List.mem_cons, List.not_mem_nil, or_false, not_or] at hm
        simp [characterFilter, hm]
      simp [hrefused, hm]

theorem itemFilter_eq_ok {f g : ItemFilter} {ms : List String} : itemFilter f ms = .ok g ↔
    (∀ m ∈ ms, m ∈ itemModifiers) ∧ g = f.adding ms := by
  induction ms generalizing f with
  | nil => simp [itemFilter, ItemFilter.adding, eq_comm]
  | cons m ms ih =>
    rw [List.forall_mem_cons]
    by_cases hm : m ∈ itemModifiers
    · rw [itemFilter_cons hm, ih, f.adding_adding]
      simp only [hm, true_and]
    · have hrefused : itemFilter f (m :: ms) = .error (.unknownModifier "item" m) := by
        simp only [itemModifiers, List.mem_cons, List.not_mem_nil, or_false, not_or] at hm
        simp [itemFilter, hm]
      simp [hrefused, hm]

theorem exitFilter_eq_ok {f g : ExitFilter} {ms : List String} : exitFilter f ms = .ok g ↔
    (∀ m ∈ ms, m ∈ exitModifiers) ∧ g = f.adding ms := by
  induction ms generalizing f with
  | nil => simp [exitFilter, ExitFilter.adding, eq_comm]
  | cons m ms ih =>
    rw [List.forall_mem_cons]
    by_cases hm : m ∈ exitModifiers
    · rw [exitFilter_cons hm, ih, f.adding_adding]
      simp only [hm, true_and]
    · have hrefused : exitFilter f (m :: ms) = .error (.unknownModifier "exit" m) := by
        simp only [exitModifiers, List.mem_cons, List.not_mem_nil, or_false, not_or] at hm
        simp [exitFilter, hm]
      simp [hrefused, hm]

/-- A character that a word of a grammar may hold next to a bar or inside brackets. -/
def IsPlain (c : Char) : Prop := isBlank c = false ∧ c ≠ '[' ∧ c ≠ ']' ∧ c ≠ '|'

instance : DecidablePred IsPlain := fun c =>
  inferInstanceAs (Decidable (isBlank c = false ∧ c ≠ '[' ∧ c ≠ ']' ∧ c ≠ '|'))

/-- The names of the typed tokens. -/
def heads : List String := ["char", "item", "exit", "zone", "word", "string"]

/-- A word that stands for itself. -/
structure IsLiteral (cs : List Char) : Prop where
  ne_nil : cs ≠ []
  plain : ∀ c ∈ cs, IsPlain c
  untyped : String.ofList (cs.takeWhile (· ≠ '.')) ∉ heads

/-- `Writes cs t`: the word `cs` is a way to write the token `t`. -/
inductive Writes : List Char → Token → Prop
  | character {ms : List String} (known : ∀ m ∈ ms, m ∈ characterModifiers)
      (oneScope : ms.countP isScope ≤ 1) (some : ¬("npc" ∈ ms ∧ "player" ∈ ms)) :
      Writes (dotted ("char" :: ms))
        (.character (CharacterFilter.adding ⟨.room, false, false, false⟩ ms))
  | anyItem : Writes (dotted ["item"]) (.item ⟨true, true, true⟩)
  | item {ms : List String} (some : ms ≠ []) (known : ∀ m ∈ ms, m ∈ itemModifiers) :
      Writes (dotted ("item" :: ms)) (.item (ItemFilter.adding ⟨false, false, false⟩ ms))
  | exit {ms : List String} (known : ∀ m ∈ ms, m ∈ exitModifiers) :
      Writes (dotted ("exit" :: ms))
        (.exit (ExitFilter.adding ⟨false, false, false, false, false⟩ ms))
  | zone : Writes (dotted ["zone"]) .zone
  | word : Writes (dotted ["word"]) .word
  | rest : Writes (dotted ["string"]) .rest
  | literal {cs : List Char} (h : IsLiteral cs) : Writes cs (.literal (String.ofList cs))

/-- The names and modifiers of typed tokens. -/
def vocabulary : List String := heads ++ characterModifiers ++ itemModifiers ++ exitModifiers

theorem plain_of_mem_vocabulary :
    ∀ n ∈ vocabulary, ∀ c ∈ n.toList, IsPlain c ∧ c ≠ '.' := by
  have hall : (vocabulary.all fun n => n.toList.all fun c => IsPlain c ∧ c ≠ '.') = true := by
    decide
  simpa only [List.all_eq_true, decide_eq_true_eq] using hall

theorem head_mem_vocabulary : ∀ m ∈ heads, m ∈ vocabulary := by decide

theorem characterModifier_mem_vocabulary : ∀ m ∈ characterModifiers, m ∈ vocabulary := by decide

theorem itemModifier_mem_vocabulary : ∀ m ∈ itemModifiers, m ∈ vocabulary := by decide

theorem exitModifier_mem_vocabulary : ∀ m ∈ exitModifiers, m ∈ vocabulary := by decide

theorem dotless_of_vocabulary {parts : List String} (h : ∀ p ∈ parts, p ∈ vocabulary) :
    ∀ p ∈ parts, '.' ∉ p.toList :=
  fun p hp hdot => (plain_of_mem_vocabulary p (h p hp) '.' hdot).2 rfl

theorem mem_intercalate {α : Type} {sep : List α} {parts : List (List α)} {a : α}
    (h : a ∈ sep.intercalate parts) : a ∈ sep ∨ ∃ p ∈ parts, a ∈ p := by
  induction parts with
  | nil => cases h
  | cons p parts ih =>
    cases parts with
    | nil =>
      rw [List.intercalate_singleton] at h
      exact .inr ⟨p, List.mem_cons_self, h⟩
    | cons q parts =>
      rw [List.intercalate_cons_cons, List.mem_append, List.mem_append] at h
      obtain (h | h) | h := h
      · exact .inr ⟨p, List.mem_cons_self, h⟩
      · exact .inl h
      · obtain h | ⟨r, hr, ha⟩ := ih h
        · exact .inl h
        · exact .inr ⟨r, List.mem_cons_of_mem p hr, ha⟩

theorem plain_dotted {parts : List String} (h : ∀ p ∈ parts, p ∈ vocabulary) :
    ∀ c ∈ dotted parts, IsPlain c := by
  intro c hc
  obtain hc | ⟨cs, hcs, hc⟩ := mem_intercalate hc
  · rw [List.mem_singleton.1 hc]
    decide
  · obtain ⟨p, hp, rfl⟩ := List.mem_map.1 hcs
    exact (plain_of_mem_vocabulary p (h p hp) c hc).1

theorem map_eq_ok {ε α β : Type} {f : α → β} {r : Except ε α} {b : β} :
    r.map f = .ok b ↔ ∃ a, r = .ok a ∧ f a = b := by
  cases r <;> simp [Except.map]

theorem bind_eq_ok {ε α β : Type} {r : Except ε α} {f : α → Except ε β} {b : β} :
    (r >>= f) = .ok b ↔ ∃ a, r = .ok a ∧ f a = .ok b := by
  cases r <;> simp [bind, Except.bind]

theorem compileToken_sound {cs : List Char} {t : Token} (hne : cs ≠ [])
    (hplain : ∀ c ∈ cs, IsPlain c) (h : compileToken (String.ofList cs) = .ok t) :
    Writes cs t := by
  obtain ⟨rest, hrest⟩ := splitDots_eq_cons cs
  let head := String.ofList (cs.takeWhile (· ≠ '.'))
  let ms := rest.map String.ofList
  have hparts : (splitDots cs).map String.ofList = head :: ms := by rw [hrest, List.map_cons]
  have hcs : cs = dotted (head :: ms) := by rw [← hparts, ← dotParts, dotted_dotParts]
  rw [compileToken, String.toList_ofList, hparts] at h
  dsimp only at h
  -- What stands before the first point decides; the modifiers behind it are read by kind.
  split at h
  · next hchar =>
    obtain ⟨g, hg, rfl⟩ := map_eq_ok.1 h
    obtain ⟨hknown, hscope, hsome, rfl⟩ := characterFilter_eq_ok.1 hg
    rw [hcs, hchar]
    exact .character hknown (by simpa using hscope) (by simpa [CharacterFilter.adding] using hsome)
  split at h
  · next hitem =>
    rw [hcs, hitem]
    split at h
    · next hms =>
      cases h
      rw [hms]
      exact .anyItem
    · next hms =>
      obtain ⟨g, hg, rfl⟩ := map_eq_ok.1 h
      obtain ⟨hknown, rfl⟩ := itemFilter_eq_ok.1 hg
      exact .item hms hknown
  split at h
  · next hexit =>
    obtain ⟨g, hg, rfl⟩ := map_eq_ok.1 h
    obtain ⟨hknown, rfl⟩ := exitFilter_eq_ok.1 hg
    rw [hcs, hexit]
    exact .exit hknown
  split at h
  · next hbare =>
    split at h
    · cases h
    · next hms =>
      rw [hcs, Decidable.not_not.1 hms]
      obtain hhead | hhead | hhead := hbare <;> rw [hhead] at h ⊢ <;> cases h
      · exact .zone
      · exact .word
      · exact .rest
  · next hchar hitem hexit hbare =>
    cases h
    have huntyped : head ∉ heads := by
      simp only [heads, List.mem_cons, List.not_mem_nil, or_false, not_or] at hbare ⊢
      exact ⟨hchar, hitem, hexit, hbare⟩
    exact .literal ⟨hne, hplain, huntyped⟩

theorem compileToken_complete {cs : List Char} {t : Token} (h : Writes cs t) :
    compileToken (String.ofList cs) = .ok t := by
  have hparts {head : String} {ms : List String} (hhead : head ∈ heads)
      (hms : ∀ m ∈ ms, m ∈ vocabulary) :
      (splitDots (String.ofList (dotted (head :: ms))).toList).map String.ofList = head :: ms := by
    rw [String.toList_ofList]
    exact dotParts_dotted (dotless_of_vocabulary
      (List.forall_mem_cons.2 ⟨head_mem_vocabulary _ hhead, hms⟩))
  cases h with
  | @character ms known oneScope some =>
    have hfilter (token : String) : characterFilter token false ⟨.room, false, false, false⟩ ms =
        .ok (CharacterFilter.adding ⟨.room, false, false, false⟩ ms) :=
      characterFilter_eq_ok.2 ⟨known, by simpa using oneScope,
        by simpa [CharacterFilter.adding] using some, rfl⟩
    rw [compileToken,
      hparts (by decide) fun m hm => characterModifier_mem_vocabulary m (known m hm)]
    simp only [if_true, hfilter, Except.map]
  | anyItem =>
    rw [compileToken, hparts (by decide) (by simp)]
    rfl
  | item some known =>
    have hfilter := itemFilter_eq_ok (f := ⟨false, false, false⟩) |>.2 ⟨known, rfl⟩
    rw [compileToken, hparts (by decide) fun m hm => itemModifier_mem_vocabulary m (known m hm)]
    simp [some, hfilter, Except.map]
  | exit known =>
    have hfilter := exitFilter_eq_ok (f := ⟨false, false, false, false, false⟩) |>.2 ⟨known, rfl⟩
    rw [compileToken, hparts (by decide) fun m hm => exitModifier_mem_vocabulary m (known m hm)]
    simp [hfilter, Except.map]
  | zone | word | rest =>
    rw [compileToken, hparts (by decide) (by simp)]
    rfl
  | literal hliteral =>
    obtain ⟨rest, hrest⟩ := splitDots_eq_cons cs
    have huntyped := hliteral.untyped
    simp only [heads, List.mem_cons, List.not_mem_nil, or_false, not_or] at huntyped
    obtain ⟨hchar, hitem, hexit, hbare⟩ := huntyped
    rw [compileToken, String.toList_ofList, hrest, List.map_cons]
    simp only [hchar, hitem, hexit, hbare, or_self, if_false]

theorem Writes.ne_nil {cs : List Char} {t : Token} (h : Writes cs t) : cs ≠ [] := by
  intro hnil
  have hok : (.ok t : Except GrammarProblem Token) = .ok (.literal "") := by
    rw [← compileToken_complete h, hnil]
    rfl
  have ht := Except.ok.inj hok
  cases h with
  | literal h => exact h.ne_nil hnil
  | _ => cases ht

theorem Writes.plain {cs : List Char} {t : Token} (h : Writes cs t) : ∀ c ∈ cs, IsPlain c := by
  have htyped {head : String} {ms : List String} (hhead : head ∈ heads)
      (hms : ∀ m ∈ ms, m ∈ vocabulary) : ∀ c ∈ dotted (head :: ms), IsPlain c :=
    plain_dotted (List.forall_mem_cons.2 ⟨head_mem_vocabulary _ hhead, hms⟩)
  cases h with
  | character known _ _ =>
    exact htyped (by decide) fun m hm => characterModifier_mem_vocabulary m (known m hm)
  | item _ known =>
    exact htyped (by decide) fun m hm => itemModifier_mem_vocabulary m (known m hm)
  | exit known =>
    exact htyped (by decide) fun m hm => exitModifier_mem_vocabulary m (known m hm)
  | anyItem | zone | word | rest => exact htyped (by decide) (by simp)
  | literal h => exact h.plain

end TextWorld.Grammar

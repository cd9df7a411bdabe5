import TextWorld.Proofs.Command.Writing

/-!
The language of grammars. A source is a grammar exactly when its words are written as words of a
grammar are, and then its elements are the ones that are written; every list of elements that can
be written at all comes from some source.
-/

namespace TextWorld.Grammar

open Text

/-- `Phrase cs e`: the word `cs`, which has no leading bar, is a way to write the element `e`. -/
inductive Phrase : List Char → Element → Prop
  | required {cs : List Char} {t : Token} (h : Writes cs t) : Phrase cs ⟨t, false⟩
  | optional {cs : List Char} (h : IsLiteral cs) :
      Phrase ('[' :: cs ++ [']']) ⟨.literal (String.ofList cs), true⟩

theorem unbracket_eq_ok {cs inner : List Char} {optional : Bool} :
    unbracket cs = .ok (inner, optional) ↔
      optional = true ∧ inner ≠ [] ∧ cs = '[' :: inner ++ [']'] ∨
        optional = false ∧ inner = cs ∧ cs.head? ≠ some '[' ∧ cs.getLast? ≠ some ']' := by
  constructor
  · intro h
    unfold unbracket at h
    split at h
    · next hcs =>
      obtain ⟨hhead, hlast, hlength⟩ := hcs
      obtain ⟨front, rfl⟩ := List.getLast?_eq_some_iff.1 hlast
      cases front with
      | nil => cases hhead
      | cons c front =>
        obtain rfl : c = '[' := Option.some.inj hhead
        have hinner : ('[' :: front ++ [']']).tail.dropLast = front := List.dropLast_concat
        rw [hinner] at h
        cases h
        refine .inl ⟨rfl, ?_, rfl⟩
        rintro rfl
        exact absurd hlength (by decide)
    · split at h
      · next hplain =>
        cases h
        exact .inr ⟨rfl, rfl, hplain⟩
      · cases h
  · rintro (⟨rfl, hne, rfl⟩ | ⟨rfl, rfl, hplain⟩)
    · have hlast : ('[' :: inner ++ [']']).getLast? = some ']' := List.getLast?_concat
      have hlength : 2 < ('[' :: inner ++ [']']).length := by
        have := List.length_pos_iff.2 hne
        simp only [List.cons_append, List.length_cons, List.length_append, List.length_nil]
        omega
      have hinner : ('[' :: inner ++ [']']).tail.dropLast = inner := List.dropLast_concat
      rw [unbracket, if_pos ⟨rfl, hlast, hlength⟩, hinner]
    · rw [unbracket, if_neg (fun h => hplain.1 h.1), if_pos hplain]

theorem any_mark_eq_false {cs : List Char} :
    (cs.any fun c => c == '[' || c == ']' || c == '|') = false ↔
      ∀ c ∈ cs, c ≠ '[' ∧ c ≠ ']' ∧ c ≠ '|' := by
  simp [List.any_eq_false, and_assoc]

theorem Writes.literal_inv {cs : List Char} {s : String} (h : Writes cs (.literal s)) :
    IsLiteral cs ∧ s = String.ofList cs := by
  cases h with
  | literal h => exact ⟨h, rfl⟩

theorem compileElement_eq_ok {cs : List Char} {e : Element} (hne : cs ≠ [])
    (hsolid : ∀ c ∈ cs, isBlank c = false) : compileElement cs = .ok e ↔ Phrase cs e := by
  constructor
  · intro h
    obtain ⟨⟨inner, optional⟩, hinner, h⟩ := bind_eq_ok.1 h
    dsimp only at h
    split at h
    · cases h
    · next hmarks =>
      obtain ⟨t, ht, h⟩ := bind_eq_ok.1 h
      have hunmarked := any_mark_eq_false.1 (Bool.eq_false_iff.2 hmarks)
      obtain ⟨rfl, hnonempty, rfl⟩ | ⟨rfl, rfl, -⟩ := unbracket_eq_ok.1 hinner
      · have hplain : ∀ c ∈ inner, IsPlain c := fun c hc =>
          ⟨hsolid c (List.mem_append_left _ (List.mem_cons_of_mem _ hc)), hunmarked c hc⟩
        have hwrites := compileToken_sound hnonempty hplain ht
        -- A typed token in brackets is refused.
        cases t with
        | literal s =>
          obtain ⟨hliteral, rfl⟩ := hwrites.literal_inv
          cases h
          exact .optional hliteral
        | _ => cases h
      · have hplain : ∀ c ∈ inner, IsPlain c := fun c hc => ⟨hsolid c hc, hunmarked c hc⟩
        cases h
        exact .required (compileToken_sound hne hplain ht)
  · rintro (h | h)
    · -- A token has no brackets that could be taken off.
      have hplain := h.plain
      have hbracket : unbracket cs = .ok (cs, false) := by
        refine unbracket_eq_ok.2 (.inr ⟨rfl, rfl, ?_, ?_⟩)
        · exact fun hhead => (hplain _ (List.mem_of_head? hhead)).2.1 rfl
        · exact fun hlast => (hplain _ (List.mem_of_getLast? hlast)).2.2.1 rfl
      have hmarks := any_mark_eq_false.2 fun c hc => (hplain c hc).2
      refine bind_eq_ok.2 ⟨(cs, false), hbracket, ?_⟩
      dsimp only
      rw [if_neg (Bool.eq_false_iff.1 hmarks)]
      exact bind_eq_ok.2 ⟨_, compileToken_complete h, rfl⟩
    · have hbracket := unbracket_eq_ok.2 (.inl ⟨rfl, h.ne_nil, rfl⟩)
      have hmarks := any_mark_eq_false.2 fun c hc => (h.plain c hc).2
      refine bind_eq_ok.2 ⟨_, hbracket, ?_⟩
      dsimp only
      rw [if_neg (Bool.eq_false_iff.1 hmarks)]
      exact bind_eq_ok.2 ⟨_, compileToken_complete (.literal h), rfl⟩

/-- `Spells w es`: the word `w` of a source is a way to write the elements `es`. A leading bar is
an element of its own, with or without a phrase behind it. -/
inductive Spells : List Char → List Element → Prop
  | bar : Spells ['|'] [⟨.bestEffort, false⟩]
  | phrase {cs : List Char} {e : Element} (h : Phrase cs e) : Spells cs [e]
  | barred {cs : List Char} {e : Element} (h : Phrase cs e) :
      Spells ('|' :: cs) [⟨.bestEffort, false⟩, e]

/-- `Sentence ws es`: the words `ws` one after another are a way to write the elements `es`. -/
inductive Sentence : List (List Char) → List Element → Prop
  | nil : Sentence [] []
  | cons {w : List Char} {ws : List (List Char)} {es fs : List Element} (h : Spells w es)
      (hs : Sentence ws fs) : Sentence (w :: ws) (es ++ fs)

theorem Phrase.no_bar {cs : List Char} {e : Element} (h : Phrase cs e) :
    cs.head? ≠ some '|' := by
  intro hhead
  cases h with
  | required h => exact (h.plain _ (List.mem_of_head? hhead)).2.2.2 rfl
  | optional h => cases hhead

theorem Phrase.isWord {cs : List Char} {e : Element} (h : Phrase cs e) : IsWord cs := by
  cases h with
  | required h => exact ⟨h.ne_nil, fun c hc => (h.plain c hc).1⟩
  | optional h =>
    refine ⟨List.cons_ne_nil _ _, fun c hc => ?_⟩
    rw [List.cons_append, List.mem_cons, List.mem_append, List.mem_singleton] at hc
    obtain rfl | hc | rfl := hc
    · decide
    · exact (h.plain c hc).1
    · decide

theorem Spells.isWord {w : List Char} {es : List Element} (h : Spells w es) : IsWord w := by
  cases h with
  | bar => exact ⟨List.cons_ne_nil _ _, List.forall_mem_singleton.2 (by decide)⟩
  | phrase h => exact h.isWord
  | barred h =>
    exact ⟨List.cons_ne_nil _ _, List.forall_mem_cons.2 ⟨by decide, h.isWord.solid⟩⟩

theorem compileWord_barred {cs : List Char} (h : cs ≠ []) : compileWord ('|' :: cs) =
    (compileElement cs).map fun e => [⟨.bestEffort, false⟩, e] := by
  unfold compileWord
  split
  · next heq => exact absurd (List.cons.inj heq).2 h
  · next heq => rw [(List.cons.inj heq).2]
  · next hbar => exact absurd rfl (hbar cs)

theorem compileWord_unbarred {cs : List Char} (h : cs.head? ≠ some '|') :
    compileWord cs = (compileElement cs).map fun e => [e] := by
  unfold compileWord
  split
  · exact absurd rfl h
  · exact absurd rfl h
  · rfl

theorem compileWord_eq_ok {w : List Char} {es : List Element} (hw : IsWord w) :
    compileWord w = .ok es ↔ Spells w es := by
  constructor
  · intro h
    by_cases hbar : w.head? = some '|'
    · obtain ⟨cs, rfl⟩ := List.head?_eq_some_iff.1 hbar
      by_cases hcs : cs = []
      · rw [hcs] at h ⊢
        cases h
        exact .bar
      · rw [compileWord_barred hcs] at h
        obtain ⟨e, he, rfl⟩ := map_eq_ok.1 h
        have hsolid : ∀ c ∈ cs, isBlank c = false := fun c hc =>
          hw.solid c (List.mem_cons_of_mem _ hc)
        exact .barred ((compileElement_eq_ok hcs hsolid).1 he)
    · rw [compileWord_unbarred hbar] at h
      obtain ⟨e, he, rfl⟩ := map_eq_ok.1 h
      exact .phrase ((compileElement_eq_ok hw.ne_nil hw.solid).1 he)
  · intro h
    cases h with
    | bar => rfl
    | phrase h =>
      have he := (compileElement_eq_ok hw.ne_nil hw.solid).2 h
      rw [compileWord_unbarred h.no_bar, he]
      rfl
    | barred h =>
      have he := (compileElement_eq_ok h.isWord.ne_nil h.isWord.solid).2 h
      rw [compileWord_barred h.isWord.ne_nil, he]
      rfl

theorem compileWords_eq_ok {ws : List (List Char)} {es : List Element}
    (hws : ∀ w ∈ ws, IsWord w) : compileWords ws = .ok es ↔ Sentence ws es := by
  induction ws generalizing es with
  | nil =>
    constructor
    · rintro ⟨⟩
      exact .nil
    · rintro ⟨⟩
      rfl
  | cons w ws ih =>
    have hw := hws w List.mem_cons_self
    have hrest {fs : List Element} : compileWords ws = .ok fs ↔ Sentence ws fs :=
      ih fun v hv => hws v (List.mem_cons_of_mem w hv)
    constructor
    · intro h
      obtain ⟨es, he, h⟩ := bind_eq_ok.1 h
      obtain ⟨fs, hf, h⟩ := bind_eq_ok.1 h
      cases h
      exact .cons ((compileWord_eq_ok hw).1 he) (hrest.1 hf)
    · rintro (_ | @⟨_, _, es, fs, h, hs⟩)
      exact bind_eq_ok.2 ⟨es, (compileWord_eq_ok hw).2 h, bind_eq_ok.2 ⟨fs, hrest.2 hs, rfl⟩⟩

theorem compile_eq_ok {source : String} {g : Grammar} : compile source = .ok g ↔
    g.source = source ∧ Sentence (splitWords source.toList) g.elements := by
  have hwords : ∀ w ∈ splitWords source.toList, IsWord w := fun w => isWord_of_mem_splitWords
  rw [← compileWords_eq_ok hwords]
  unfold compile
  constructor
  · intro h
    split at h
    · next elements helements =>
      cases h
      exact ⟨rfl, helements⟩
    · cases h
  · rintro ⟨rfl, h⟩
    rw [h]

/-- What is behind a leading bar, or the whole of a word without one. -/
def unbarred (w : List Char) : List Char := if w.head? = some '|' then w.tail else w

theorem exists_spells_iff {w : List Char} (hw : w ≠ []) :
    (∃ es, Spells w es) ↔ unbarred w = [] ∨ ∃ e, Phrase (unbarred w) e := by
  constructor
  · rintro ⟨es, h⟩
    cases h with
    | bar => exact .inl rfl
    | @phrase _ e h =>
      rw [unbarred, if_neg h.no_bar]
      exact .inr ⟨e, h⟩
    | @barred cs e h => exact .inr ⟨e, h⟩
  · intro h
    by_cases hbar : w.head? = some '|'
    · obtain ⟨cs, rfl⟩ := List.head?_eq_some_iff.1 hbar
      obtain hcs | ⟨e, he⟩ := h
      · obtain rfl : cs = [] := hcs
        exact ⟨_, .bar⟩
      · exact ⟨_, .barred he⟩
    · rw [unbarred, if_neg hbar] at h
      obtain ⟨e, he⟩ := h.resolve_left hw
      exact ⟨_, .phrase he⟩

theorem exists_sentence_iff {ws : List (List Char)} :
    (∃ es, Sentence ws es) ↔ ∀ w ∈ ws, ∃ es, Spells w es := by
  induction ws with
  | nil => exact ⟨fun _ => nofun, fun _ => ⟨[], .nil⟩⟩
  | cons w ws ih =>
    rw [List.forall_mem_cons, ← ih]
    constructor
    · rintro ⟨_, _ | ⟨h, hs⟩⟩
      exact ⟨⟨_, h⟩, ⟨_, hs⟩⟩
    · rintro ⟨⟨es, h⟩, ⟨fs, hs⟩⟩
      exact ⟨es ++ fs, .cons h hs⟩

theorem exists_compile_iff {source : String} : (∃ g, compile source = .ok g) ↔
    ∀ w ∈ splitWords source.toList, unbarred w = [] ∨ ∃ e, Phrase (unbarred w) e := by
  have hwords : (∃ g, compile source = .ok g) ↔
      ∃ es, Sentence (splitWords source.toList) es := by
    constructor
    · rintro ⟨g, hg⟩
      exact ⟨g.elements, (compile_eq_ok.1 hg).2⟩
    · rintro ⟨es, hes⟩
      exact ⟨⟨source, es⟩, compile_eq_ok.2 ⟨rfl, hes⟩⟩
  rw [hwords, exists_sentence_iff]
  exact forall₂_congr fun w hw => exists_spells_iff (isWord_of_mem_splitWords hw).ne_nil

/-- Two sources say the same when both are refused for one reason or both have the same
elements. -/
structure Alike (s s' : String) : Prop where
  elements : ∀ es, compile s = .ok ⟨s, es⟩ ↔ compile s' = .ok ⟨s', es⟩
  problem : ∀ p, compile s = .error (.invalidGrammar s p) ↔
    compile s' = .error (.invalidGrammar s' p)

theorem alike_of_compileWords {s s' : String} (h : compileWords (splitWords s.toList) =
    compileWords (splitWords s'.toList)) : Alike s s' := by
  constructor <;> intro x <;> unfold compile <;> rw [h] <;> split <;> simp

theorem compileWords_append (us vs : List (List Char)) : compileWords (us ++ vs) =
    compileWords us >>= fun es => compileWords vs >>= fun fs => pure (es ++ fs) := by
  induction us with
  | nil =>
    show compileWords vs = compileWords vs >>= fun fs => pure fs
    rw [bind_pure]
  | cons u us ih =>
    rw [List.cons_append, compileWords, compileWords, ih]
    simp only [bind_assoc, pure_bind, List.append_assoc]

/-- A bar may be written apart from the word behind it, if that has no bar of its own. -/
theorem compileWords_bar {cs : List Char} (hne : cs ≠ []) (hbar : cs.head? ≠ some '|')
    (us vs : List (List Char)) :
    compileWords (us ++ ('|' :: cs) :: vs) = compileWords (us ++ ['|'] :: cs :: vs) := by
  have hwords : compileWords (('|' :: cs) :: vs) = compileWords (['|'] :: cs :: vs) := by
    have hapart : compileWord ['|'] = .ok [⟨.bestEffort, false⟩] := rfl
    simp only [compileWords, compileWord_barred hne, compileWord_unbarred hbar, hapart]
    cases compileElement cs with
    | error problem => rfl
    | ok e => cases compileWords vs <;> rfl
  rw [compileWords_append, hwords, ← compileWords_append]

/-- An element that some word stands for. -/
def Element.IsWritable (e : Element) : Prop :=
  match e.token with
  | .literal s => IsLiteral s.toList
  | .character f => e.optional = false ∧ ¬(f.npcOnly = true ∧ f.playerOnly = true)
  | .item f => e.optional = false ∧ (f.inventory = true ∨ f.equipment = true ∨ f.room = true)
  | .exit _ | .zone | .word | .rest | .bestEffort => e.optional = false

theorem Phrase.isWritable {cs : List Char} {e : Element} (h : Phrase cs e) : e.IsWritable := by
  cases h with
  | optional h => simpa [Element.IsWritable] using h
  | required h =>
    cases h with
    | literal h => simpa [Element.IsWritable] using h
    | character _ _ some => exact ⟨rfl, by simpa [CharacterFilter.adding] using some⟩
    | item some known =>
      obtain ⟨m, ms, rfl⟩ := List.exists_cons_of_ne_nil some
      have hm := known m List.mem_cons_self
      simp only [itemModifiers, List.mem_cons, List.not_mem_nil, or_false] at hm
      refine ⟨rfl, ?_⟩
      obtain rfl | rfl | rfl := hm <;> simp [ItemFilter.adding]
    | anyItem => exact ⟨rfl, .inl rfl⟩
    | exit | zone | word | rest => exact rfl

theorem Sentence.isWritable {ws : List (List Char)} {es : List Element} (h : Sentence ws es) :
    ∀ e ∈ es, e.IsWritable := by
  induction h with
  | nil => nofun
  | cons h _ ih =>
    intro e he
    obtain he | he := List.mem_append.1 he
    · cases h with
      | bar =>
        rw [List.mem_singleton.1 he]
        exact rfl
      | phrase h => exact List.mem_singleton.1 he ▸ h.isWritable
      | barred h =>
        obtain rfl | he := List.mem_cons.1 he
        · exact rfl
        · exact List.mem_singleton.1 he ▸ h.isWritable
    · exact ih e he

/-- The names of the choices that are made. -/
def chosen (choices : List (String × Bool)) : List String := (choices.filter (·.2)).map (·.1)

def CharacterFilter.modifiers (f : CharacterFilter) : List String :=
  chosen [("zone", f.scope = .zone), ("noself", f.noSelf), ("npc", f.npcOnly),
    ("player", f.playerOnly)]

def ItemFilter.modifiers (f : ItemFilter) : List String :=
  chosen [("inv", f.inventory), ("eq", f.equipment), ("room", f.room)]

def ExitFilter.modifiers (f : ExitFilter) : List String :=
  chosen [("visible", f.visible), ("passable", f.passable), ("peekable", f.peekable),
    ("closeable", f.closeable), ("openable", f.openable)]

theorem mem_chosen {choices : List (String × Bool)} {m : String} (h : m ∈ chosen choices) :
    m ∈ choices.map (·.1) := by
  obtain ⟨choice, hchoice, rfl⟩ := List.mem_map.1 h
  exact List.mem_map_of_mem (List.mem_filter.1 hchoice).1

theorem CharacterFilter.adding_modifiers (f : CharacterFilter) :
    CharacterFilter.adding ⟨.room, false, false, false⟩ f.modifiers = f := by
  obtain ⟨_ | _, _ | _, _ | _, _ | _⟩ := f <;> decide

theorem ItemFilter.adding_modifiers (f : ItemFilter) :
    ItemFilter.adding ⟨false, false, false⟩ f.modifiers = f := by
  obtain ⟨_ | _, _ | _, _ | _⟩ := f <;> decide

theorem ExitFilter.adding_modifiers (f : ExitFilter) :
    ExitFilter.adding ⟨false, false, false, false, false⟩ f.modifiers = f := by
  obtain ⟨_ | _, _ | _, _ | _, _ | _, _ | _⟩ := f <;> decide

theorem CharacterFilter.countP_modifiers (f : CharacterFilter) :
    f.modifiers.countP isScope ≤ 1 := by
  obtain ⟨_ | _, _ | _, _ | _, _ | _⟩ := f <;> decide

theorem exists_writes_character {f : CharacterFilter}
    (h : ¬(f.npcOnly = true ∧ f.playerOnly = true)) : ∃ cs, Writes cs (.character f) := by
  have hknown : ∀ m ∈ f.modifiers, m ∈ characterModifiers := fun m hm =>
    List.mem_cons_of_mem "room" (mem_chosen hm)
  have hsome : ¬("npc" ∈ f.modifiers ∧ "player" ∈ f.modifiers) := by
    rw [← f.adding_modifiers] at h
    simpa [CharacterFilter.adding] using h
  have hwrites := Writes.character hknown f.countP_modifiers hsome
  rw [f.adding_modifiers] at hwrites
  exact ⟨_, hwrites⟩

theorem exists_writes_item {f : ItemFilter}
    (h : f.inventory = true ∨ f.equipment = true ∨ f.room = true) :
    ∃ cs, Writes cs (.item f) := by
  have hsome : f.modifiers ≠ [] := by
    intro hnil
    rw [← f.adding_modifiers, hnil] at h
    simp [ItemFilter.adding] at h
  have hwrites := Writes.item hsome fun m hm => mem_chosen hm
  rw [f.adding_modifiers] at hwrites
  exact ⟨_, hwrites⟩

theorem exists_writes_exit (f : ExitFilter) : ∃ cs, Writes cs (.exit f) := by
  have hwrites := Writes.exit fun m (hm : m ∈ f.modifiers) => mem_chosen hm
  rw [f.adding_modifiers] at hwrites
  exact ⟨_, hwrites⟩

theorem Element.IsWritable.exists_spells {e : Element} (h : e.IsWritable) :
    ∃ w, Spells w [e] := by
  have hrequired {t : Token} (hwrites : ∃ cs, Writes cs t) : ∃ w, Spells w [⟨t, false⟩] :=
    hwrites.imp fun cs hcs => .phrase (.required hcs)
  obtain ⟨t, optional⟩ := e
  cases t with
  | literal s =>
    have hliteral : IsLiteral s.toList := h
    rw [← String.ofList_toList (s := s)]
    cases optional with
    | false => exact hrequired ⟨_, .literal hliteral⟩
    | true => exact ⟨_, .phrase (.optional hliteral)⟩
  | character f =>
    obtain ⟨rfl, hsome⟩ := h
    exact hrequired (exists_writes_character hsome)
  | item f =>
    obtain ⟨rfl, hsome⟩ := h
    exact hrequired (exists_writes_item hsome)
  | exit f =>
    obtain rfl : optional = false := h
    exact hrequired (exists_writes_exit f)
  | zone =>
    obtain rfl : optional = false := h
    exact hrequired ⟨_, .zone⟩
  | word =>
    obtain rfl : optional = false := h
    exact hrequired ⟨_, .word⟩
  | rest =>
    obtain rfl : optional = false := h
    exact hrequired ⟨_, .rest⟩
  | bestEffort =>
    obtain rfl : optional = false := h
    exact ⟨_, .bar⟩

theorem exists_sentence {es : List Element} (h : ∀ e ∈ es, e.IsWritable) :
    ∃ ws, Sentence ws es ∧ ∀ w ∈ ws, IsWord w := by
  induction es with
  | nil => exact ⟨[], .nil, nofun⟩
  | cons e es ih =>
    obtain ⟨w, hw⟩ := (h e List.mem_cons_self).exists_spells
    obtain ⟨ws, hws, hwords⟩ := ih fun f hf => h f (List.mem_cons_of_mem e hf)
    exact ⟨w :: ws, .cons hw hws, List.forall_mem_cons.2 ⟨hw.isWord, hwords⟩⟩

theorem exists_compile_elements_iff {es : List Element} :
    (∃ source g, compile source = .ok g ∧ g.elements = es) ↔ ∀ e ∈ es, e.IsWritable := by
  constructor
  · rintro ⟨source, g, hg, rfl⟩
    exact (compile_eq_ok.1 hg).2.isWritable
  · intro h
    obtain ⟨ws, hsentence, hwords⟩ := exists_sentence h
    let source := String.ofList ([' '].intercalate ws)
    have hsplit : splitWords source.toList = ws := by
      rw [String.toList_ofList]
      exact splitWords_intercalate hwords
    exact ⟨source, ⟨source, es⟩, compile_eq_ok.2 ⟨rfl, hsplit ▸ hsentence⟩, rfl⟩

/-- A source is a grammar exactly when each of its words is, behind at most one bar, empty or a
phrase, and its elements are then the ones that its words spell. Nothing but the words counts,
and a bar may stand apart from what is behind it; two bars in a row begin no word of a grammar.
Exactly the lists of writable elements come from a source. -/
theorem compile_language :
    (∀ source, (∃ g, compile source = .ok g) ↔
      ∀ w ∈ splitWords source.toList, unbarred w = [] ∨ ∃ e, Phrase (unbarred w) e) ∧
    (∀ source g, compile source = .ok g ↔
      g.source = source ∧ Sentence (splitWords source.toList) g.elements) ∧
    (∀ s s', splitWords s.toList = splitWords s'.toList → Alike s s') ∧
    (∀ s s' us cs vs, splitWords s.toList = us ++ ('|' :: cs) :: vs →
      (splitWords s'.toList = us ++ ['|'] :: cs :: vs → cs.head? ≠ some '|' → Alike s s') ∧
      (cs.head? = some '|' → ¬∃ g, compile s = .ok g)) ∧
    ∀ es, (∃ source g, compile source = .ok g ∧ g.elements = es) ↔ ∀ e ∈ es, e.IsWritable := by
  refine ⟨fun source => exists_compile_iff, fun source g => compile_eq_ok,
    fun s s' h => alike_of_compileWords (congrArg compileWords h), ?_,
    fun es => exists_compile_elements_iff⟩
  intro s s' us cs vs hs
  constructor
  · intro hs' hbar
    have hmem : cs ∈ splitWords s'.toList := by simp [hs']
    have hcs : IsWord cs := isWord_of_mem_splitWords hmem
    apply alike_of_compileWords
    rw [hs, hs', compileWords_bar hcs.ne_nil hbar]
  · intro hbar hsome
    have hmem : '|' :: cs ∈ splitWords s.toList := by simp [hs]
    obtain hnil | ⟨e, he⟩ := exists_compile_iff.1 hsome _ hmem
    · have hcs : cs = [] := hnil
      rw [hcs] at hbar
      cases hbar
    · exact he.no_bar hbar

/-- A bar may stand apart from an optional word, and two bars begin no word. -/
theorem compile_language_giveTo :
    Alike "give |[to] char.npc" "give | [to] char.npc" ∧ ¬∃ g, compile "give ||to" = .ok g := by
  obtain ⟨-, -, -, hbar, -⟩ := compile_language
  have hone : splitWords "give |[to] char.npc".toList =
      ["give".toList] ++ ('|' :: "[to]".toList) :: ["char.npc".toList] := by decide
  have hapart : splitWords "give | [to] char.npc".toList =
      ["give".toList] ++ ['|'] :: "[to]".toList :: ["char.npc".toList] := by decide
  have htwo : splitWords "give ||to".toList =
      ["give".toList] ++ ('|' :: "|to".toList) :: [] := by decide
  exact ⟨(hbar _ _ _ _ _ hone).1 hapart (by decide), (hbar _ "" _ _ _ htwo).2 (by decide)⟩

example : compile "give |[to] char.npc" = .ok ⟨"give |[to] char.npc",
    [⟨.literal "give", false⟩, ⟨.bestEffort, false⟩, ⟨.literal "to", true⟩,
      ⟨.character ⟨.room, false, true, false⟩, false⟩]⟩ := by rfl

end TextWorld.Grammar

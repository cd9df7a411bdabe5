import Mathlib.Data.List.TakeWhile
import TextWorld.Command.Resolution

/-!
How the arguments of a command line up with its grammar and with its parameters. The arguments come
from the tokens one by one, each from a parameter further on, and a parameter that is passed over in
between is a literal of the grammar.
-/

namespace TextWorld

/-- What sort of thing an argument is. -/
inductive Argument.Kind where
  | character
  | item
  | exit
  | zone
  | word
  | text
  deriving DecidableEq, Repr

def Argument.kind : Argument → Argument.Kind
  | .character _ => .character
  | .item _ => .item
  | .exit _ => .exit
  | .zone _ => .zone
  | .word _ => .word
  | .text _ => .text

namespace Grammar

/-- The kind of the arguments that a token yields. -/
def Token.kind? : Token → Option Argument.Kind
  | .character _ => some .character
  | .item _ => some .item
  | .exit _ => some .exit
  | .zone => some .zone
  | .word => some .word
  | .rest => some .text
  | .literal _ | .bestEffort => none

/-- The tokens that yield arguments, in the order of the elements. -/
def valuedTokens (es : List Element) : List Token := (es.map (·.token)).filter (·.isValued)

theorem length_valuedTokens (es : List Element) :
    (valuedTokens es).length = es.countP (·.token.isValued) := by
  rw [valuedTokens, ← List.countP_eq_length_filter, List.countP_map]
  rfl

/-- The elements in front of the first bar. -/
def beforeBar (es : List Element) : List Element := es.takeWhile (·.token ≠ .bestEffort)

section

variable {e : Element} (h : e.token.isValued = true) (es : List Element)
include h

theorem valuedTokens_cons : valuedTokens (e :: es) = e.token :: valuedTokens es := by
  simp only [valuedTokens, List.map_cons, List.filter_cons, h, if_true]

theorem beforeBar_cons : beforeBar (e :: es) = e :: beforeBar es := by
  have hbar : e.token ≠ .bestEffort := by
    intro htoken
    rw [htoken] at h
    cases h
  simp [beforeBar, hbar]

end

end Grammar

namespace Resolution

open Grammar

variable {w : World} {actor : CharacterId} {params : List String}

/-- An argument with the token that it comes from and the position of its parameter. -/
structure Binding where
  token : Token
  position : Nat
  argument : Argument

/-- The argument is what the token makes of the parameter, or for a `string` token the parameter
and all later ones. -/
inductive Binding.Sound (w : World) (actor : CharacterId) (params : List String) : Binding → Prop
  | one {token : Token} {i : Nat} {param : String} {a : Argument} (hparam : params[i]? = some param)
      (ha : bindOne w actor param token = some a) : Sound w actor params ⟨token, i, a⟩
  | rest {i : Nat} (hi : i < params.length) :
      Sound w actor params ⟨.rest, i, .text (Text.unwords (params.drop i))⟩

/-- The elements can go along the parameters, from the position `cursor` on, so that they give
these bindings; once a bar was passed they may stop anywhere. -/
inductive Reads (w : World) (actor : CharacterId) (params : List String) :
    (lenient : Bool) → (cursor : Nat) → List Element → List Binding → Prop
  | done {lenient : Bool} {cursor : Nat} : Reads w actor params lenient cursor [] []
  | stop {cursor : Nat} {es : List Element} : Reads w actor params true cursor es []
  | bar {lenient optional : Bool} {cursor : Nat} {es : List Element} {bs : List Binding}
      (h : Reads w actor params true cursor es bs) :
      Reads w actor params lenient cursor (⟨.bestEffort, optional⟩ :: es) bs
  | literal {lenient optional : Bool} {cursor : Nat} {word : String} {es : List Element}
      {bs : List Binding} (hword : params[cursor]? = some word)
      (h : Reads w actor params lenient (cursor + 1) es bs) :
      Reads w actor params lenient cursor (⟨.literal word, optional⟩ :: es) bs
  | omitted {lenient : Bool} {cursor : Nat} {word : String} {es : List Element}
      {bs : List Binding} (h : Reads w actor params lenient cursor es bs) :
      Reads w actor params lenient cursor (⟨.literal word, true⟩ :: es) bs
  | one {lenient optional : Bool} {cursor : Nat} {token : Token} {param : String} {a : Argument}
      {es : List Element} {bs : List Binding} (hparam : params[cursor]? = some param)
      (ha : bindOne w actor param token = some a)
      (h : Reads w actor params lenient (cursor + 1) es bs) :
      Reads w actor params lenient cursor (⟨token, optional⟩ :: es) (⟨token, cursor, a⟩ :: bs)
  | rest {lenient optional : Bool} {cursor : Nat} {es : List Element} {bs : List Binding}
      (hcursor : cursor < params.length) (h : Reads w actor params lenient params.length es bs) :
      Reads w actor params lenient cursor (⟨.rest, optional⟩ :: es)
        (⟨.rest, cursor, .text (Text.unwords (params.drop cursor))⟩ :: bs)

/-- A token that is bound to one parameter yields an argument of its kind. -/
theorem kind_of_bindOne {token : Token} {param : String} {a : Argument}
    (h : bindOne w actor param token = some a) : token.kind? = some a.kind := by
  cases token with
  | character f =>
    obtain ⟨_, -, h⟩ := Option.bind_eq_some_iff.1 h
    obtain ⟨_, -, h⟩ := Option.bind_eq_some_iff.1 h
    cases h
    rfl
  | item f =>
    obtain ⟨_, -, h⟩ := Option.bind_eq_some_iff.1 h
    obtain ⟨_, -, h⟩ := Option.bind_eq_some_iff.1 h
    cases h
    rfl
  | exit f =>
    obtain ⟨_, -, rfl⟩ := Option.map_eq_some_iff.1 h
    rfl
  | zone =>
    obtain ⟨_, -, rfl⟩ := Option.map_eq_some_iff.1 h
    rfl
  | word =>
    cases h
    rfl
  | rest | literal _ | bestEffort => cases h

theorem isValued_of_kind? {token : Token} {k : Argument.Kind} (h : token.kind? = some k) :
    token.isValued = true := by
  cases token with
  | literal _ | bestEffort => cases h
  | _ => rfl

namespace Binding.Sound

variable {b : Binding}

theorem kind (h : b.Sound w actor params) : b.token.kind? = some b.argument.kind := by
  cases h with
  | one _ ha => exact kind_of_bindOne ha
  | rest _ => rfl

theorem lt_length (h : b.Sound w actor params) : b.position < params.length := by
  cases h with
  | one hparam _ => exact (List.getElem?_eq_some_iff.1 hparam).1
  | rest hi => exact hi

/-- A word is the parameter verbatim. -/
theorem word (h : b.Sound w actor params) {s : String} (hs : b.argument = .word s) :
    params[b.position]? = some s := by
  have hkind := h.kind
  rw [hs] at hkind
  cases h with
  | @one token i param a hparam ha =>
    cases token with
    | word =>
      cases ha
      cases hs
      exact hparam
    | _ => cases hkind
  | rest _ => cases hs

/-- A text is the parameter and all later ones. -/
theorem text (h : b.Sound w actor params) {s : String} (hs : b.argument = .text s) :
    s = " ".intercalate (params.drop b.position) := by
  have hkind := h.kind
  rw [hs] at hkind
  cases h with
  | @one token i param a _ ha =>
    cases token with
    -- A `string` token is not bound to one parameter only.
    | rest => cases ha
    | _ => cases hkind
  | rest _ =>
    cases hs
    rfl

end Binding.Sound

namespace Reads

variable {lenient : Bool} {cursor i : Nat} {es : List Element} {b : Binding} {bs : List Binding}

theorem sound (h : Reads w actor params lenient cursor es bs) :
    ∀ b ∈ bs, b.Sound w actor params := by
  induction h with
  | done | stop => exact List.forall_mem_nil _
  | bar _ ih | literal _ _ ih | omitted _ ih => exact ih
  | one hparam ha _ ih => exact List.forall_mem_cons.2 ⟨.one hparam ha, ih⟩
  | rest hcursor _ ih => exact List.forall_mem_cons.2 ⟨.rest hcursor, ih⟩

/-- No token that yields arguments is passed over. -/
theorem tokens (h : Reads w actor params lenient cursor es bs) :
    bs.map (·.token) <+: valuedTokens es := by
  induction h with
  | done | stop => exact List.nil_prefix
  | bar _ ih | literal _ _ ih | omitted _ ih => exact ih
  | one _ ha _ ih =>
    have hvalued := isValued_of_kind? (kind_of_bindOne ha)
    rw [valuedTokens_cons hvalued, List.map_cons]
    exact (List.prefix_cons_inj _).2 ih
  | rest _ _ ih =>
    rw [valuedTokens_cons rfl, List.map_cons]
    exact (List.prefix_cons_inj _).2 ih

theorem cursor_le (h : Reads w actor params lenient cursor es bs) :
    ∀ b ∈ bs, cursor ≤ b.position := by
  induction h with
  | done | stop => exact List.forall_mem_nil _
  | bar _ ih | omitted _ ih => exact ih
  | literal _ _ ih =>
    intro b hb
    have hlater := ih b hb
    omega
  | one _ _ _ ih =>
    refine List.forall_mem_cons.2 ⟨Nat.le_refl _, fun b hb => ?_⟩
    have hlater := ih b hb
    omega
  | rest hcursor _ ih =>
    refine List.forall_mem_cons.2 ⟨Nat.le_refl _, fun b hb => ?_⟩
    have hlater := ih b hb
    omega

theorem ascending (h : Reads w actor params lenient cursor es bs) :
    bs.Pairwise (·.position < ·.position) := by
  induction h with
  | done | stop => exact .nil
  | bar _ ih | literal _ _ ih | omitted _ ih => exact ih
  | one _ _ h ih =>
    refine List.pairwise_cons.2 ⟨fun b hb => ?_, ih⟩
    have hlater := h.cursor_le b hb
    exact hlater
  | rest hcursor h ih =>
    refine List.pairwise_cons.2 ⟨fun b hb => ?_, ih⟩
    have hlater := h.cursor_le b hb
    exact Nat.lt_of_lt_of_le hcursor hlater

/-- A parameter in front of a bound one is bound itself, or is there for a literal. -/
theorem passed_over (h : Reads w actor params lenient cursor es bs) (hb : b ∈ bs)
    (hi : cursor ≤ i) (hib : i < b.position) :
    (∃ c ∈ bs, c.position = i) ∨
      ∃ word, params[i]? = some word ∧ ∃ e ∈ es, e.token = .literal word := by
  induction h with
  | done | stop => cases hb
  | bar _ ih | omitted _ ih =>
    refine (ih hb hi).imp_right ?_
    rintro ⟨word, hword, e, he, htoken⟩
    exact ⟨word, hword, e, List.mem_cons_of_mem _ he, htoken⟩
  | @literal _ _ cursor word es _ hword _ ih =>
    by_cases heq : cursor = i
    · subst heq
      exact .inr ⟨word, hword, _, List.mem_cons_self, rfl⟩
    · refine (ih hb (by omega)).imp_right ?_
      rintro ⟨word, hword, e, he, htoken⟩
      exact ⟨word, hword, e, List.mem_cons_of_mem _ he, htoken⟩
  | @one _ _ cursor token _ a es bs _ _ _ ih =>
    by_cases heq : cursor = i
    · subst heq
      exact .inl ⟨_, List.mem_cons_self, rfl⟩
    · rcases List.mem_cons.1 hb with rfl | hb
      · change i < cursor at hib
        omega
      · rcases ih hb (by omega) with ⟨c, hc, hci⟩ | ⟨word, hword, e, he, htoken⟩
        · exact .inl ⟨c, List.mem_cons_of_mem _ hc, hci⟩
        · exact .inr ⟨word, hword, e, List.mem_cons_of_mem _ he, htoken⟩
  | @rest _ _ cursor es bs _ h _ =>
    rcases List.mem_cons.1 hb with rfl | hb
    · change i < cursor at hib
      omega
    · -- Nothing is left to be bound when a `string` token has taken all there is.
      have hfirst := h.cursor_le b hb
      have hlast := (h.sound b hb).lt_length
      omega

/-- Where no bar was passed the elements in front of the next one are bound to the last. -/
theorem before_bar (h : Reads w actor params lenient cursor es bs) (hstrict : lenient = false) :
    (valuedTokens (beforeBar es)).length ≤ bs.length := by
  induction h with
  | done => exact Nat.zero_le _
  | stop => cases hstrict
  | bar _ _ => exact Nat.zero_le _
  | literal _ _ ih | omitted _ ih => exact ih hstrict
  | one _ ha _ ih =>
    have hvalued := isValued_of_kind? (kind_of_bindOne ha)
    rw [beforeBar_cons hvalued, valuedTokens_cons hvalued]
    exact Nat.succ_le_succ (ih hstrict)
  | rest _ _ ih =>
    rw [beforeBar_cons rfl, valuedTokens_cons rfl]
    exact Nat.succ_le_succ (ih hstrict)

end Reads

/-- Where binding stops, it does so leniently and with no further argument. -/
theorem eq_of_stop {lenient : Bool} {args : List Argument}
    (h : (if lenient then some [] else none) = some args) : lenient = true ∧ args = [] := by
  cases lenient with
  | false => cases h
  | true =>
    cases h
    exact ⟨rfl, rfl⟩

/-- Whatever arguments come out, they are those of such a reading. -/
theorem reads_of_bindAll {lenient : Bool} {cursor : Nat} {es : List Element} {args : List Argument}
    (h : bindAll w actor lenient es (params.drop cursor) = some args) :
    ∃ bs, Reads w actor params lenient cursor es bs ∧ bs.map (·.argument) = args := by
  induction es generalizing lenient cursor args with
  | nil =>
    cases h
    exact ⟨[], .done, rfl⟩
  | cons e es ih =>
    obtain ⟨token, optional⟩ := e
    have hstop (h : (if lenient then some [] else none) = some args) :
        ∃ bs, Reads w actor params lenient cursor (⟨token, optional⟩ :: es) bs ∧
          bs.map (·.argument) = args := by
      obtain ⟨rfl, rfl⟩ := eq_of_stop h
      exact ⟨[], .stop, rfl⟩
    cases hdrop : params.drop cursor with
    | nil =>
      rw [hdrop] at h
      cases token with
      | bestEffort =>
        obtain ⟨bs, hbs, hargs⟩ := ih (hdrop ▸ h)
        exact ⟨bs, .bar hbs, hargs⟩
      | literal word =>
        simp only [bindAll] at h
        split at h
        · rename_i hoptional
          obtain ⟨bs, hbs, hargs⟩ := ih (hdrop ▸ h)
          subst hoptional
          exact ⟨bs, .omitted hbs, hargs⟩
        · exact hstop h
      | _ => exact hstop h
    | cons p ps =>
      have hp : params[cursor]? = some p := by
        rw [← List.head?_drop, hdrop]
        rfl
      have hps : params.drop (cursor + 1) = ps := by
        rw [← List.tail_drop, hdrop]
        rfl
      rw [hdrop] at h
      cases token with
      | bestEffort =>
        obtain ⟨bs, hbs, hargs⟩ := ih (hdrop ▸ h)
        exact ⟨bs, .bar hbs, hargs⟩
      | literal word =>
        simp only [bindAll] at h
        split at h
        · rename_i hword
          obtain ⟨bs, hbs, hargs⟩ := ih (hps ▸ h)
          exact ⟨bs, .literal (hword ▸ hp) hbs, hargs⟩
        · split at h
          · rename_i hoptional
            obtain ⟨bs, hbs, hargs⟩ := ih (hdrop ▸ h)
            subst hoptional
            exact ⟨bs, .omitted hbs, hargs⟩
          · exact hstop h
      | rest =>
        simp only [bindAll] at h
        obtain ⟨rest, hrest, rfl⟩ := Option.map_eq_some_iff.1 h
        rw [← List.drop_length (l := params)] at hrest
        obtain ⟨bs, hbs, rfl⟩ := ih hrest
        refine ⟨_, .rest (List.getElem?_eq_some_iff.1 hp).1 hbs, ?_⟩
        rw [List.map_cons, hdrop]
      | _ =>
        simp only [bindAll] at h
        split at h
        · rename_i a ha
          obtain ⟨rest, hrest, rfl⟩ := Option.map_eq_some_iff.1 h
          obtain ⟨bs, hbs, rfl⟩ := ih (hps ▸ hrest)
          exact ⟨⟨_, cursor, a⟩ :: bs, .one hp ha hbs, rfl⟩
        · exact hstop h

end Resolution

namespace Grammar

open Resolution

/-- The arguments line up with the elements of the grammar and with the parameters. -/
structure Aligned (g : Grammar) (w : World) (actor : CharacterId) (params : List String)
    (args : List Argument) : Prop where
  kinds : args.map (some ·.kind) = ((valuedTokens g.elements).take args.length).map (·.kind?)
  length_le : args.length ≤ g.arity
  full : (∀ e ∈ g.elements, e.token ≠ .bestEffort) → args.length = g.arity
  before_bar : (valuedTokens (beforeBar g.elements)).length ≤ args.length
  bindings : ∃ bs : List Binding, bs.map (·.argument) = args ∧
    bs.map (·.token) = (valuedTokens g.elements).take args.length ∧
    bs.Pairwise (·.position < ·.position) ∧
    (∀ b ∈ bs, b.Sound w actor params) ∧
    (∀ b ∈ bs, ∀ s, b.argument = .word s → params[b.position]? = some s) ∧
    (∀ b ∈ bs, ∀ s, b.argument = .text s → s = " ".intercalate (params.drop b.position)) ∧
    ∀ b ∈ bs, ∀ i < b.position, (∃ c ∈ bs, c.position = i) ∨
      ∃ word, params[i]? = some word ∧ ∃ e ∈ g.elements, e.token = .literal word

/-- Arguments that are resolved line up with the grammar and the parameters. -/
theorem resolve_aligned {g : Grammar} {w : World} {actor : CharacterId} {params : List String}
    {args : List Argument} (h : g.resolve w actor params = some args) :
    g.Aligned w actor params args := by
  have hbind : bindAll w actor false g.elements (params.drop 0) = some args := h
  obtain ⟨bs, hbs, rfl⟩ := reads_of_bindAll hbind
  have hprefix := hbs.tokens
  have htokens : bs.map (·.token) = (valuedTokens g.elements).take bs.length := by
    have htake := List.prefix_iff_eq_take.1 hprefix
    rwa [List.length_map] at htake
  have hle : bs.length ≤ g.arity := by
    have hlength := hprefix.length_le
    rwa [List.length_map, length_valuedTokens] at hlength
  have hbefore := hbs.before_bar rfl
  constructor
  · rw [List.length_map, ← htokens, List.map_map, List.map_map]
    exact List.map_congr_left fun b hb => ((hbs.sound b hb).kind).symm
  · rw [List.length_map]
    exact hle
  · intro hbar
    have hall : beforeBar g.elements = g.elements := by
      apply List.takeWhile_eq_self_iff.2
      intro e he
      exact decide_eq_true (hbar e he)
    rw [hall, length_valuedTokens] at hbefore
    rw [List.length_map]
    exact Nat.le_antisymm hle hbefore
  · rw [List.length_map]
    exact hbefore
  · rw [List.length_map]
    exact ⟨bs, rfl, htokens, hbs.ascending, hbs.sound, fun b hb _ => (hbs.sound b hb).word,
      fun b hb _ => (hbs.sound b hb).text,
      fun b hb i hi => hbs.passed_over hb (Nat.zero_le i) hi⟩

/-- The optional literal is there and is passed over, and the string after the bar is missing. -/
theorem resolve_aligned_coinInBox :
    ∃ g, compile "word [in] word | string" = .ok g ∧ g.arity = 3 ∧
      g.resolve .empty ⟨1⟩ ["coin", "in", "box"] = some [.word "coin", .word "box"] ∧
      g.Aligned .empty ⟨1⟩ ["coin", "in", "box"] [.word "coin", .word "box"] := by
  let g : Grammar := ⟨"word [in] word | string",
    [⟨.word, false⟩, ⟨.literal "in", true⟩, ⟨.word, false⟩, ⟨.bestEffort, false⟩, ⟨.rest, false⟩]⟩
  have hcompile : compile "word [in] word | string" = .ok g := by rfl
  have hresolve : g.resolve .empty ⟨1⟩ ["coin", "in", "box"] =
      some [.word "coin", .word "box"] := by decide
  exact ⟨g, hcompile, by decide, hresolve, resolve_aligned hresolve⟩

end Grammar

end TextWorld

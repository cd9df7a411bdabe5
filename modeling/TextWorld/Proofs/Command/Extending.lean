import TextWorld.Proofs.Command.Alignment

/-!
What changes when a grammar gets one bar more, or a command more parameters. The elements are taken
one at a time. An element that is bound hands on the parameters that it leaves; at one that is not
bound everything ends, and the arguments so far count only if a bar was passed.
-/

namespace TextWorld

namespace Grammar

def Token.isBar : Token → Bool
  | .bestEffort => true
  | _ => false

/-- The grammar with a bar put in at the position `i`. -/
def withBar (g : Grammar) (i : Nat) (optional : Bool) : Grammar :=
  { g with elements := g.elements.insertIdx i ⟨.bestEffort, optional⟩ }

/-- The grammar that ends after `n` elements. -/
def upTo (g : Grammar) (n : Nat) : Grammar := { g with elements := g.elements.take n }

end Grammar

namespace Resolution

open Grammar

variable {w : World} {actor : CharacterId} {lenient : Bool} {e : Element} {es : List Element}
  {params left : List String} {args : List Argument}

/-- The arguments that one element gives, and the parameters that it leaves to those behind it. -/
def bindElement (w : World) (actor : CharacterId) (e : Element) (params : List String) :
    Option (List Argument × List String) :=
  match e.token, params with
  | .bestEffort, _ => some ([], params)
  | .literal _, [] => if e.optional then some ([], []) else none
  | .literal word, p :: ps =>
    if p = word then some ([], ps)
    else if e.optional then some ([], params)
    else none
  | .rest, _ :: _ => some ([.text (Text.unwords params)], [])
  | _, [] => none
  | token, p :: ps => (bindOne w actor p token).map fun a => ([a], ps)

/-- Binding takes the elements one at a time. -/
theorem bindAll_cons (w : World) (actor : CharacterId) (lenient : Bool) (e : Element)
    (es : List Element) (params : List String) :
    bindAll w actor lenient (e :: es) params =
      match bindElement w actor e params with
      | some (args, left) => (bindAll w actor (lenient || e.token.isBar) es left).map (args ++ ·)
      | none => if lenient then some [] else none := by
  obtain ⟨token, optional⟩ := e
  cases token with
  | bestEffort => simp [bindAll, bindElement, Token.isBar]
  | literal word =>
    cases params with
    | nil => cases optional <;> simp [bindAll, bindElement, Token.isBar]
    | cons p ps =>
      by_cases hword : p = word
      · simp [bindAll, bindElement, Token.isBar, hword]
      · cases optional <;> simp [bindAll, bindElement, Token.isBar, hword]
  | rest => cases params <;> simp [bindAll, bindElement, Token.isBar]
  | _ =>
    cases params with
    | nil => rfl
    | cons p ps =>
      simp only [bindAll, bindElement, Token.isBar]
      cases bindOne w actor p _ <;> simp

/-- How binding goes on behind an element that is bound. -/
theorem bindAll_of_bound (h : bindElement w actor e params = some (args, left)) :
    bindAll w actor lenient (e :: es) params =
      (bindAll w actor (lenient || e.token.isBar) es left).map (args ++ ·) := by
  rw [bindAll_cons, h]

theorem bindAll_of_unbound (h : bindElement w actor e params = none) :
    bindAll w actor lenient (e :: es) params = if lenient then some [] else none := by
  rw [bindAll_cons, h]

/-- A bar takes no parameters and makes everything behind it lenient. -/
theorem bindAll_bar (optional : Bool) :
    bindAll w actor lenient (⟨.bestEffort, optional⟩ :: es) params =
      bindAll w actor true es params := rfl

/-- Behind a bar there is always a result. -/
theorem exists_bindAll_lenient (w : World) (actor : CharacterId) (es : List Element)
    (params : List String) : ∃ args, bindAll w actor true es params = some args := by
  induction es generalizing params with
  | nil => exact ⟨[], rfl⟩
  | cons e es ih =>
    cases hbound : bindElement w actor e params with
    | none => exact ⟨[], bindAll_of_unbound hbound⟩
    | some result =>
      obtain ⟨args, left⟩ := result
      obtain ⟨more, hmore⟩ := ih left
      refine ⟨args ++ more, ?_⟩
      rw [bindAll_of_bound hbound, Bool.true_or, hmore, Option.map_some]

/-- What is bound without a bar is bound in the same way behind one. -/
theorem bindAll_lenient (h : bindAll w actor lenient es params = some args) :
    bindAll w actor true es params = some args := by
  induction es generalizing lenient params args with
  | nil => exact h
  | cons e es ih =>
    cases hbound : bindElement w actor e params with
    | none =>
      rw [bindAll_of_unbound hbound] at h ⊢
      cases lenient with
      | false => cases h
      | true => exact h
    | some result =>
      obtain ⟨first, left⟩ := result
      rw [bindAll_of_bound hbound] at h ⊢
      obtain ⟨more, hmore, rfl⟩ := Option.map_eq_some_iff.1 h
      rw [Bool.true_or, ih hmore, Option.map_some]

/-- One bar more leaves arguments that are bound as they are. -/
theorem bindAll_insertBar (h : bindAll w actor lenient es params = some args) (i : Nat)
    (optional : Bool) :
    bindAll w actor lenient (es.insertIdx i ⟨.bestEffort, optional⟩) params = some args := by
  induction es generalizing lenient params args i with
  | nil =>
    cases i with
    | zero => exact h
    | succ i => exact h
  | cons e es ih =>
    cases i with
    | zero =>
      rw [List.insertIdx_zero, bindAll_bar]
      exact bindAll_lenient h
    | succ i =>
      rw [List.insertIdx_succ_cons]
      cases hbound : bindElement w actor e params with
      | none =>
        rw [bindAll_of_unbound hbound] at h ⊢
        exact h
      | some result =>
        obtain ⟨first, left⟩ := result
        rw [bindAll_of_bound hbound] at h ⊢
        obtain ⟨more, hmore, rfl⟩ := Option.map_eq_some_iff.1 h
        rw [ih hmore, Option.map_some]

/-- Where binding fails there is a first element to blame. A bar in front of it or farther to the
left saves what was bound before it, and a bar behind it saves nothing. -/
theorem exists_culprit (h : bindAll w actor false es params = none) :
    ∃ j args, j < es.length ∧ bindAll w actor false (es.take j) params = some args ∧
      (∀ k, bindAll w actor false (es.take k) params = none ↔ j < k) ∧
      ∀ i optional, bindAll w actor false (es.insertIdx i ⟨.bestEffort, optional⟩) params =
        if i ≤ j then some args else none := by
  induction es generalizing params with
  | nil => cases h
  | cons e es ih =>
    cases hbound : bindElement w actor e params with
    | none =>
      -- This element itself is the first that fails, and only a bar in front of it helps.
      refine ⟨0, [], Nat.zero_lt_succ _, rfl, fun k => ?_, fun i optional => ?_⟩
      · cases k with
        | zero => simp [bindAll]
        | succ k =>
          rw [List.take_succ_cons, bindAll_of_unbound hbound]
          simp
      · cases i with
        | zero =>
          rw [List.insertIdx_zero, bindAll_bar, bindAll_of_unbound hbound]
          rfl
        | succ i =>
          rw [List.insertIdx_succ_cons, bindAll_of_unbound hbound]
          rfl
    | some result =>
      obtain ⟨first, left⟩ := result
      rw [bindAll_of_bound hbound, Bool.false_or, Option.map_eq_none_iff] at h
      -- A bar would have let the rest go through, so this element is none.
      have hbar : e.token.isBar = false := by
        cases hbar : e.token.isBar with
        | false => rfl
        | true =>
          obtain ⟨more, hmore⟩ := exists_bindAll_lenient w actor es left
          rw [hbar, hmore] at h
          cases h
      rw [hbar] at h
      obtain ⟨j, args, hj, hbefore, hfirst, hinsert⟩ := ih h
      have hstep (fs : List Element) : bindAll w actor false (e :: fs) params =
          (bindAll w actor false fs left).map (first ++ ·) := by
        rw [bindAll_of_bound hbound, hbar, Bool.or_false]
      refine ⟨j + 1, first ++ args, Nat.succ_lt_succ hj, ?_, fun k => ?_, fun i optional => ?_⟩
      · rw [List.take_succ_cons, hstep, hbefore, Option.map_some]
      · cases k with
        | zero => simp [bindAll]
        | succ k => rw [List.take_succ_cons, hstep, Option.map_eq_none_iff, hfirst,
            Nat.succ_lt_succ_iff]
      · cases i with
        | zero =>
          -- In front of this element the bar does what it does right behind it.
          have hsaved := hinsert 0 optional
          rw [List.insertIdx_zero, bindAll_bar, if_pos (Nat.zero_le j)] at hsaved
          rw [List.insertIdx_zero, bindAll_bar, bindAll_of_bound hbound, Bool.true_or, hsaved,
            if_pos (Nat.zero_le _), Option.map_some]
        | succ i =>
          rw [List.insertIdx_succ_cons, hstep, hinsert]
          by_cases hi : i ≤ j
          · rw [if_pos hi, if_pos (Nat.succ_le_succ hi), Option.map_some]
          · rw [if_neg hi, if_neg (mt Nat.le_of_succ_le_succ hi), Option.map_none]

/-- What an element that is bound takes off the parameters, and the arguments that it gives. -/
inductive Takes (w : World) (actor : CharacterId) :
    Element → List String → List Argument → List String → Prop
  | bar {optional : Bool} {ps : List String} : Takes w actor ⟨.bestEffort, optional⟩ ps [] ps
  | literal {word : String} {optional : Bool} {ps : List String} :
      Takes w actor ⟨.literal word, optional⟩ (word :: ps) [] ps
  | omitted {word : String} {ps : List String} (h : ps.head? ≠ some word) :
      Takes w actor ⟨.literal word, true⟩ ps [] ps
  | rest {optional : Bool} {p : String} {ps : List String} :
      Takes w actor ⟨.rest, optional⟩ (p :: ps) [.text (Text.unwords (p :: ps))] []
  | one {token : Token} {optional : Bool} {p : String} {ps : List String} {a : Argument}
      (h : bindOne w actor p token = some a) : Takes w actor ⟨token, optional⟩ (p :: ps) [a] ps

theorem takes_of_bindElement (h : bindElement w actor e params = some (args, left)) :
    Takes w actor e params args left := by
  obtain ⟨token, optional⟩ := e
  cases token with
  | bestEffort =>
    cases h
    exact .bar
  | literal word =>
    cases params with
    | nil =>
      cases optional with
      | false => cases h
      | true =>
        cases h
        exact .omitted nofun
    | cons p ps =>
      simp only [bindElement] at h
      by_cases hword : p = word
      · rw [if_pos hword] at h
        cases h
        exact hword ▸ .literal
      · rw [if_neg hword] at h
        cases optional with
        | false => cases h
        | true =>
          cases h
          exact .omitted fun hhead => hword (Option.some.inj hhead)
  | rest =>
    cases params with
    | nil => cases h
    | cons p ps =>
      cases h
      exact .rest
  | _ =>
    cases params with
    | nil => cases h
    | cons p ps =>
      simp only [bindElement, Option.map_eq_some_iff] at h
      obtain ⟨a, ha, hresult⟩ := h
      cases hresult
      exact .one ha

theorem Takes.bindElement_eq (h : Takes w actor e params args left) :
    bindElement w actor e params = some (args, left) := by
  cases h with
  | bar | rest => rfl
  | literal => simp [bindElement]
  | @omitted word _ hhead =>
    cases params with
    | nil => rfl
    | cons p ps =>
      have hword : p ≠ word := fun hword => hhead (congrArg some hword)
      simp [bindElement, hword]
  | @one token _ _ _ _ ha =>
    cases token with
    | rest | literal _ | bestEffort => cases ha
    | _ => simp only [bindElement, ha, Option.map_some]

theorem Takes.length_eq (h : Takes w actor e params args left) :
    args.length = if e.token.isValued then 1 else 0 := by
  cases h with
  | bar | literal | omitted | rest => rfl
  | one ha => rw [if_pos (isValued_of_kind? (kind_of_bindOne ha)), List.length_singleton]

/-- An element that is bound is bound alike when more parameters follow. Of those it takes at most
the first, as a literal that was left out before. -/
theorem Takes.append (h : Takes w actor e params args left) (he : e.token ≠ .rest)
    (more : List String) : ∃ later, Takes w actor e (params ++ more) args (left ++ later) := by
  cases h with
  | bar => exact ⟨more, .bar⟩
  | literal => exact ⟨more, .literal⟩
  | @omitted word _ hhead =>
    cases params with
    | cons p ps => exact ⟨more, .omitted hhead⟩
    | nil =>
      cases more with
      | nil => exact ⟨[], .omitted hhead⟩
      | cons q qs =>
        -- Nothing was left to be the literal before; now it may be there.
        by_cases hword : q = word
        · exact ⟨qs, hword ▸ .literal⟩
        · exact ⟨q :: qs, .omitted fun hhead => hword (Option.some.inj hhead)⟩
  | rest => exact absurd rfl he
  | one ha => exact ⟨more, .one ha⟩

/-- There are never more arguments than elements that ask for one. -/
theorem length_bindAll_le (h : bindAll w actor lenient es params = some args) :
    args.length ≤ es.countP (·.token.isValued) := by
  induction es generalizing lenient params args with
  | nil =>
    cases h
    exact Nat.le_refl 0
  | cons e es ih =>
    cases hbound : bindElement w actor e params with
    | none =>
      rw [bindAll_of_unbound hbound] at h
      cases lenient with
      | false => cases h
      | true =>
        cases h
        exact Nat.zero_le _
    | some result =>
      obtain ⟨first, left⟩ := result
      rw [bindAll_of_bound hbound] at h
      obtain ⟨more, hmore, rfl⟩ := Option.map_eq_some_iff.1 h
      have hlater := ih hmore
      have hfirst := (takes_of_bindElement hbound).length_eq
      rw [List.length_append, List.countP_cons, hfirst]
      omega

/-- Behind a bar elements that ask for no argument are bound to none, whatever is typed. -/
theorem bindAll_valueless (hes : es.countP (·.token.isValued) = 0) (params : List String) :
    bindAll w actor true es params = some [] := by
  obtain ⟨args, hargs⟩ := exists_bindAll_lenient w actor es params
  have hnone : args.length ≤ 0 := hes ▸ length_bindAll_le hargs
  rw [hargs, List.eq_nil_of_length_eq_zero (Nat.le_zero.1 hnone)]

/-- A full list of arguments stays as it is when more parameters follow. -/
theorem bindAll_append (hrest : ∀ e ∈ es, e.token ≠ .rest)
    (h : bindAll w actor lenient es params = some args)
    (hfull : args.length = es.countP (·.token.isValued)) (more : List String) :
    bindAll w actor lenient es (params ++ more) = some args := by
  induction es generalizing lenient params args more with
  | nil => exact h
  | cons e es ih =>
    obtain ⟨he, hes⟩ := List.forall_mem_cons.1 hrest
    cases hbound : bindElement w actor e params with
    | none =>
      -- It ended here behind a bar, so no element from here on asks for an argument.
      rw [bindAll_of_unbound hbound] at h
      cases lenient with
      | false => cases h
      | true =>
        cases h
        exact bindAll_valueless hfull.symm (params ++ more)
    | some result =>
      obtain ⟨first, left⟩ := result
      rw [bindAll_of_bound hbound] at h
      obtain ⟨second, hsecond, rfl⟩ := Option.map_eq_some_iff.1 h
      have htakes := takes_of_bindElement hbound
      have hall : second.length = es.countP (·.token.isValued) := by
        rw [List.length_append, List.countP_cons, htakes.length_eq] at hfull
        omega
      obtain ⟨later, hlater⟩ := htakes.append he more
      rw [bindAll_of_bound hlater.bindElement_eq, ih hes hsecond hall later, Option.map_some]

end Resolution

namespace Grammar

open Resolution

variable {g : Grammar} {w : World} {actor : CharacterId} {params : List String}
  {args : List Argument}

/-- The element at the position `j` is the first that cannot be bound; those in front of it give
`args`. -/
structure FailsAt (g : Grammar) (w : World) (actor : CharacterId) (params : List String) (j : Nat)
    (args : List Argument) : Prop where
  lt_length : j < g.elements.length
  before : (g.upTo j).resolve w actor params = some args
  first : ∀ k, (g.upTo k).resolve w actor params = none ↔ j < k

/-- One bar more changes no arguments that there are. Where there are none, it makes those count
that are bound in front of the first element that fails, unless it stands behind that. -/
theorem resolve_withBar (g : Grammar) (w : World) (actor : CharacterId) (params : List String) :
    (∀ args, g.resolve w actor params = some args → ∀ i optional,
      (g.withBar i optional).resolve w actor params = some args) ∧
    (g.resolve w actor params = none → ∃ j args, g.FailsAt w actor params j args ∧
      ∀ i optional, (g.withBar i optional).resolve w actor params =
        if i ≤ j then some args else none) := by
  refine ⟨fun args h i optional => bindAll_insertBar h i optional, fun h => ?_⟩
  obtain ⟨j, args, hj, hbefore, hfirst, hinsert⟩ := exists_culprit h
  exact ⟨j, args, ⟨hj, hbefore, hfirst⟩, hinsert⟩

/-- The second word is missing, which a bar behind it does not excuse. -/
theorem resolve_withBar_coinOnly :
    ∃ g, compile "word in word" = .ok g ∧ g.FailsAt .empty ⟨1⟩ ["coin", "in"] 2 [.word "coin"] ∧
      (g.withBar 2 false).resolve .empty ⟨1⟩ ["coin", "in"] = some [.word "coin"] ∧
      (g.withBar 3 false).resolve .empty ⟨1⟩ ["coin", "in"] = none ∧
      (g.withBar 3 false).resolve .empty ⟨1⟩ ["coin", "in", "box"] =
        some [.word "coin", .word "box"] := by
  let g : Grammar := ⟨"word in word",
    [⟨.word, false⟩, ⟨.literal "in", false⟩, ⟨.word, false⟩]⟩
  have hcompile : compile "word in word" = .ok g := by rfl
  have hnone : g.resolve .empty ⟨1⟩ ["coin", "in"] = none := by decide
  have hsome : g.resolve .empty ⟨1⟩ ["coin", "in", "box"] =
      some [.word "coin", .word "box"] := by decide
  obtain ⟨j, args, hfails, hbar⟩ := (resolve_withBar g .empty ⟨1⟩ ["coin", "in"]).2 hnone
  -- Two elements can be bound and three cannot, which leaves one place for the failure.
  have htwo : (g.upTo 2).resolve .empty ⟨1⟩ ["coin", "in"] = some [.word "coin"] := by decide
  have hge : 2 ≤ j := by
    by_contra hlt
    have hnot := (hfails.first 2).2 (Nat.lt_of_not_le hlt)
    rw [htwo] at hnot
    cases hnot
  have hlt : j < 3 := hfails.lt_length
  obtain rfl : j = 2 := by omega
  obtain rfl : args = [.word "coin"] := Option.some.inj (hfails.before.symm.trans htwo)
  exact ⟨g, hcompile, hfails, hbar 2 false, hbar 3 false,
    (resolve_withBar g .empty ⟨1⟩ ["coin", "in", "box"]).1 _ hsome 3 false⟩

/-- Parameters behind those that were enough change nothing, unless a `string` token takes them. -/
theorem resolve_append (hrest : ∀ e ∈ g.elements, e.token ≠ .rest)
    (h : g.resolve w actor params = some args) (hfull : args.length = g.arity)
    (more : List String) : g.resolve w actor (params ++ more) = some args :=
  bindAll_append hrest h hfull more

/-- The literals behind the last argument are missing at first and found then. -/
theorem resolve_append_coinHere :
    ∃ g, compile "word [to] | there [now]" = .ok g ∧
      (∀ e ∈ g.elements, e.token ≠ .rest) ∧ g.arity = 1 ∧
      g.resolve .empty ⟨1⟩ ["coin"] = some [.word "coin"] ∧
      g.resolve .empty ⟨1⟩ ["coin", "to", "there", "box"] = some [.word "coin"] := by
  let g : Grammar := ⟨"word [to] | there [now]",
    [⟨.word, false⟩, ⟨.literal "to", true⟩, ⟨.bestEffort, false⟩, ⟨.literal "there", false⟩,
      ⟨.literal "now", true⟩]⟩
  have hcompile : compile "word [to] | there [now]" = .ok g := by rfl
  have hrest : ∀ e ∈ g.elements, e.token ≠ .rest := by decide
  have hresolve : g.resolve .empty ⟨1⟩ ["coin"] = some [.word "coin"] := by decide
  exact ⟨g, hcompile, hrest, by decide, hresolve,
    resolve_append hrest hresolve (by decide) ["to", "there", "box"]⟩

end Grammar

end TextWorld

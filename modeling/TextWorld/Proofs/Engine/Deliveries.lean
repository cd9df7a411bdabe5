import TextWorld.Proofs.Engine.Ledger

/-!
What becomes of completion data. Each end of a conversation is asked for, takes the conversation
away for good, and brings its data to one receiver once: the next in line for a busy parent, at
once otherwise. Only what is below goes without a word.
-/

namespace TextWorld

variable {S : Setting}

namespace Event

/-- The conversations that are taken away. -/
def closed : Event S → List ConversationId
  | .ended id _ below _ => id :: below
  | _ => []

/-- Whose callback begins. -/
def called : Event S → Option ConversationId
  | .began id _ => some id
  | _ => none

/-- Whose completion data comes up. -/
def completed : Event S → Option ConversationId
  | .ended id _ _ _ => some id
  | .concluding id _ _ => some id
  | _ => none

end Event

/-- Of the conversations there have been up to the first state, those that are there no more in the
second are the ones taken away. -/
structure Loses (s s' : State S) (closed : List ConversationId) : Prop where
  lastIndex : s.forest.lastIndex ≤ s'.forest.lastIndex
  isSome_iff : ∀ {x}, x.index ≤ s.forest.lastIndex →
    ((s'.forest.get? x).isSome ↔ (s.forest.get? x).isSome ∧ x ∉ closed)

namespace Loses

theorem refl (s : State S) : Loses s s [] :=
  ⟨Nat.le_refl _, fun _ => by simp⟩

theorem trans {s s' s'' : State S} {l l' : List ConversationId} (h : Loses s s' l)
    (h' : Loses s' s'' l') : Loses s s'' (l ++ l') := by
  refine ⟨Nat.le_trans h.lastIndex h'.lastIndex, fun {x} hx => ?_⟩
  have hx' : x.index ≤ s'.forest.lastIndex := Nat.le_trans hx h.lastIndex
  rw [h'.isSome_iff hx', h.isSome_iff hx, List.mem_append, not_or, and_assoc]

theorem modify (s : State S) (id : ConversationId)
    (g : Conversation S.Talk S.Ending → Conversation S.Talk S.Ending) :
    Loses s { s with forest := s.forest.modify id g } [] := by
  refine ⟨Nat.le_refl _, fun {x} _ => ?_⟩
  dsimp only
  rw [Forest.isSome_modify]
  simp

end Loses

theorem Carries.loses {s s' : State S} (h : Carries s s') : Loses s s' [] := by
  refine ⟨h.lastIndex, fun {x} hx => ?_⟩
  rcases h.conversations x with hsame | ⟨hnew, -⟩
  · have hsome := congrArg Option.isSome hsame
    rw [Option.isSome_map, Option.isSome_map] at hsome
    simp [hsome]
  · omega

theorem State.Without.loses {s s' : State S} {gone : List ConversationId}
    (h : s.Without s' gone) : Loses s s' gone := by
  refine ⟨Nat.le_of_eq h.lastIndex.symm, fun {x} _ => ?_⟩
  have hsome := congrArg Option.isSome (h.rest x)
  rw [Option.isSome_map] at hsome
  rw [hsome]
  by_cases hx : x ∈ gone
  · simp [hx]
  · simp [hx]

variable {c d : Config S} {e : Event S}

theorem Silent.loses (hm : Silent c d) : Loses c.state d.state [] := by
  cases hm with
  | change hchange => exact hchange.carries.loses
  | refuse hgone => exact .refl _
  | defer hbusy => exact .modify _ _ _
  | drop hgone => exact .refl _
  | next htake =>
    obtain ⟨_, rest, -, -, rfl⟩ := Forest.takeHandedBack_eq htake
    exact .modify _ _ _
  | drained hnone => exact .refl _

theorem Visible.loses (hm : Visible c e d) (hc : c.state.Coherent) :
    Loses c.state d.state e.closed := by
  cases hm with
  | asked s running r => exact .refl _
  | ended data hget => exact (State.without_closeAll hc hget).loses
  | began hmode htalk => exact .modify _ _ _
  | stopped s running id talk => exact .modify _ _ _
  | concluding s running id ending data => exact .refl _
  | reached s running stage => exact .refl _

/-- What is taken away was there. -/
theorem Visible.isSome_of_mem_closed (hm : Visible c e d) (hc : c.state.Coherent)
    {x : ConversationId} (hx : x ∈ e.closed) : (c.state.forest.get? x).isSome := by
  cases hm with
  | @ended s running id top data hget =>
    rcases List.mem_cons.1 hx with rfl | hx
    · exact Option.isSome_of_eq_some hget
    · have hbelow := Forest.below_descendants hc.linked id
      exact (hbelow.of_mem hc.linked hx).2
  | _ => cases hx

theorem Visible.isSome_of_called (hm : Visible c e d) {x : ConversationId}
    (hx : e.called = some x) : (c.state.forest.get? x).isSome := by
  cases hm with
  | began hmode htalk =>
    cases hx
    obtain ⟨_, hget, -⟩ := Option.bind_eq_some_iff.1 htalk
    exact Option.isSome_of_eq_some hget
  | _ => cases hx

theorem History.loses {seen : List (Sight S)} (hh : History c seen d) (hc : c.state.Coherent) :
    Loses c.state d.state (seen.flatMap (·.event.closed)) := by
  induction hh with
  | refl => exact .refl _
  | silent _ hm ih =>
    have hboth := ih.trans hm.loses
    rwa [List.append_nil] at hboth
  | @visible seen d d' e hh hm ih =>
    have hboth := ih.trans (hm.loses (hh.coherent hc).1)
    rw [List.flatMap_append, List.flatMap_singleton]
    exact hboth

/-- What has been taken away does not come back, for ids are not used again. -/
theorem History.past {seen : List (Sight S)} (hh : History c seen d) (hc : c.state.Coherent)
    {sight : Sight S} (hsight : sight ∈ seen) {x : ConversationId} (hx : x ∈ sight.event.closed) :
    ¬(d.state.forest.get? x).isSome := by
  obtain ⟨before, after, rfl⟩ := List.append_of_mem hsight
  obtain ⟨d₁, d₂, hbefore, hmove, -, hafter⟩ := hh.split
  have hd₁ := (hbefore.coherent hc).1
  have hd₂ := hmove.coherent hd₁
  have hboth := (hmove.loses hd₁).trans (hafter.loses hd₂)
  have hdrawn := hd₁.linked.drawn (hmove.isSome_of_mem_closed hd₁ hx)
  intro hsome
  obtain ⟨-, hnot⟩ := (hboth.isSome_iff hdrawn).1 hsome
  exact hnot (List.mem_append_left _ hx)

/-- A conversation to be ended has just been asked to be. -/
theorem History.asked_of_closing {seen : List (Sight S)} (hh : History c seen d)
    (hc : c.mode = .settled) {id : ConversationId} {data : Value}
    (hmode : d.mode = .closing id data) :
    ∃ earlier, seen = earlier ++ [⟨.asked (.finish id data), d.state⟩] := by
  cases hh with
  | refl =>
    rw [hc] at hmode
    cases hmode
  | silent _ hm => cases hm <;> cases hmode
  | @visible earlier _ _ _ _ hm =>
    cases hm with
    | asked s running r =>
      have hr := Mode.afterAsk_eq_closing hmode
      rw [hr]
      exact ⟨earlier, rfl⟩
    | ended data' hget => exact absurd hmode Mode.afterEnd_ne_closing
    | _ => cases hmode

/-- What is to be done at the end of a conversation comes right after the end. -/
theorem History.ended_of_concluding {seen : List (Sight S)} (hh : History c seen d)
    (hc : c.mode = .settled) {id : ConversationId} {ending : S.Ending} {data : Value}
    (hmode : d.mode = .concluding id ending data) :
    ∃ earlier top below, seen = earlier ++ [⟨.ended id top below data, d.state⟩] ∧
      top.parent = none ∧ top.ending = some ending := by
  cases hh with
  | refl =>
    rw [hc] at hmode
    cases hmode
  | silent _ hm => cases hm <;> cases hmode
  | @visible earlier _ _ _ _ hm =>
    cases hm with
    | asked s running r => cases r <;> cases hmode
    | ended data' hget =>
      obtain ⟨rfl, hparent, hending, rfl⟩ := Mode.afterEnd_eq_concluding_iff.1 hmode
      exact ⟨earlier, _, _, rfl, hparent, hending⟩
    | _ => cases hmode

/-- What holds of all there is to see, also when a run breaks off. -/
structure DeliveryLaw (seen : List (Sight S)) : Prop where
  /-- An end is what was asked for just before. It takes away the conversation, its child, the
  child of that and so on, and nothing else. -/
  requested : ∀ {before after id top below data s},
    seen = before ++ ⟨.ended id top below data, s⟩ :: after →
      ∃ earlier s₀, before = earlier ++ [⟨.asked (.finish id data), s₀⟩] ∧
        s₀.forest.get? id = some top ∧ s₀.forest.Below id below ∧
        ∀ x, (s.forest.get? x).isSome ↔ (s₀.forest.get? x).isSome ∧ x ∉ id :: below
  /-- No conversation is taken away twice, and none is called after that. -/
  apart : seen.Pairwise fun earlier later => ∀ x ∈ earlier.event.closed,
    x ∉ later.event.closed ∧ later.event.called ≠ some x
  implicit : ∀ {id top below data s}, ⟨.ended id top below data, s⟩ ∈ seen → ∀ x ∈ below,
    ∀ sight ∈ seen, sight.event.completed ≠ some x
  /-- The data given to a parent is that of its children in the order of their ends, each once. -/
  in_order : ∀ {before}, before <+: seen → ∀ p, returned p before <+: handed p before
  concluding_own : ∀ {before after id ending data s},
    seen = before ++ ⟨.concluding id ending data, s⟩ :: after →
      ∃ earlier top below, before = earlier ++ [⟨.ended id top below data, s⟩] ∧
        top.parent = none ∧ top.ending = some ending
  one_at_a_time : ∀ {before after id occasion s},
    seen = before ++ ⟨.began id occasion, s⟩ :: after → id ∉ running before

/-- What holds moreover when a run comes to its end. -/
structure DeliveriesDone (seen : List (Sight S)) (s : State S) : Prop where
  granted : ∀ {before after id top data s₀},
    seen = before ++ ⟨.asked (.finish id data), s₀⟩ :: after → s₀.forest.get? id = some top →
      ∃ below s₁ later, after = ⟨.ended id top below data, s₁⟩ :: later
  /-- The data of a child comes to the parent in its turn, unless the parent was busy and is taken
  away later on. -/
  delivered : ∀ {before after id top below data s₁ p},
    seen = before ++ ⟨.ended id top below data, s₁⟩ :: after → top.parent = some p →
      (returned p seen)[(handed p before).length]? = some data ∨
        p ∈ running before ∧ ∃ sight ∈ after, p ∈ sight.event.closed
  delivered_at_once : ∀ {before after id top below data s₁ p},
    seen = before ++ ⟨.ended id top below data, s₁⟩ :: after → top.parent = some p →
      p ∉ running before → ∃ s₂ later, after = ⟨.began p (.returned data), s₂⟩ :: later
  concluded : ∀ {before after id top below data s₁ ending},
    seen = before ++ ⟨.ended id top below data, s₁⟩ :: after → top.parent = none →
      top.ending = some ending →
      ∃ s₂ later, after = ⟨.concluding id ending data, s₂⟩ :: later
  quiet : running seen = []
  idle : ∀ {id c}, s.forest.get? id = some c → c.talk.isSome ∧ c.handedBack.toList = []

namespace History

section

variable {before after seen : List (Sight S)} {id : ConversationId} {data : Value}
variable {top : Conversation S.Talk S.Ending} {below : List ConversationId} {s : State S}

theorem requested (hh : History c (before ++ ⟨.ended id top below data, s⟩ :: after) d)
    (hc : Ledger [] c) (hmode : c.mode = .settled) :
    ∃ earlier s₀, before = earlier ++ [⟨.asked (.finish id data), s₀⟩] ∧
      s₀.forest.get? id = some top ∧ s₀.forest.Below id below ∧
      ∀ x, (s.forest.get? x).isSome ↔ (s₀.forest.get? x).isSome ∧ x ∉ id :: below := by
  obtain ⟨d₁, d₂, hbefore, hmove, hstate, -⟩ := hh.split
  have hcoherent := (hbefore.coherent hc.coherent).1
  dsimp only at hmove hstate
  cases hmove with
  | @ended s₀ running _ _ _ hget =>
    obtain ⟨earlier, hearlier⟩ := hbefore.asked_of_closing hmode rfl
    have hbelow := Forest.below_descendants hcoherent.linked id
    refine ⟨earlier, s₀, hearlier, hget, hbelow, fun x => ?_⟩
    have hrest := congrArg Option.isSome ((State.without_closeAll hcoherent hget).rest x)
    rw [Option.isSome_map] at hrest
    rw [hstate, hrest]
    by_cases hx : x ∈ id :: s₀.forest.descendants id
    · simp [hx]
    · simp [hx]

theorem apart (hh : History c seen d) (hc : c.state.Coherent) :
    seen.Pairwise fun earlier later => ∀ x ∈ earlier.event.closed,
      x ∉ later.event.closed ∧ later.event.called ≠ some x := by
  induction hh with
  | refl => exact .nil
  | silent _ _ ih => exact ih
  | @visible seen d d' e hh hm ih =>
    rw [List.pairwise_append]
    refine ⟨ih, List.pairwise_singleton _ _, ?_⟩
    intro earlier hearlier later hlater x hx
    rw [List.mem_singleton] at hlater
    subst hlater
    -- Both would have to be there still.
    have hgone := hh.past hc hearlier hx
    have hcoherent := (hh.coherent hc).1
    constructor
    · intro hclosed
      exact hgone (hm.isSome_of_mem_closed hcoherent hclosed)
    · intro hcalled
      exact hgone (hm.isSome_of_called hcalled)

theorem concluding_own {ending : S.Ending}
    (hh : History c (before ++ ⟨.concluding id ending data, s⟩ :: after) d)
    (hmode : c.mode = .settled) :
    ∃ earlier top below, before = earlier ++ [⟨.ended id top below data, s⟩] ∧
      top.parent = none ∧ top.ending = some ending := by
  obtain ⟨d₁, d₂, hbefore, hmove, hstate, -⟩ := hh.split
  dsimp only at hmove hstate
  cases hmove with
  | concluding s₀ running id ending data =>
    rw [hstate]
    exact hbefore.ended_of_concluding hmode rfl

theorem not_mem_below (hh : History c (before ++ ⟨.ended id top below data, s⟩ :: after) d)
    (hc : c.state.Coherent) : id ∉ below := by
  obtain ⟨d₁, d₂, hbefore, hmove, -⟩ := hh.split
  have hlinked := (hbefore.coherent hc).1.linked
  dsimp only at hmove
  cases hmove with
  | ended _ hget =>
    intro hmem
    have hlt := ((Forest.below_descendants hlinked id).of_mem hlinked hmem).1
    omega

/-- Whatever completion data comes up is that of a conversation that was ended by itself. -/
theorem exists_ended (hh : History c seen d) (hmode : c.mode = .settled) {sight : Sight S}
    (hsight : sight ∈ seen) (hid : sight.event.completed = some id) :
    ∃ top below data s, ⟨.ended id top below data, s⟩ ∈ seen := by
  obtain ⟨e, s⟩ := sight
  cases e with
  | ended id' top below data =>
    cases hid
    exact ⟨top, below, data, s, hsight⟩
  | concluding id' ending data =>
    cases hid
    obtain ⟨before, after, rfl⟩ := List.append_of_mem hsight
    obtain ⟨earlier, top, below, rfl, -⟩ := hh.concluding_own hmode
    exact ⟨top, below, data, s, by simp⟩
  | _ => cases hid

theorem implicit (hh : History c seen d) (hc : Ledger [] c) (hmode : c.mode = .settled)
    (hended : ⟨.ended id top below data, s⟩ ∈ seen) {x : ConversationId} (hx : x ∈ below)
    {sight : Sight S} (hsight : sight ∈ seen) : sight.event.completed ≠ some x := by
  intro hcompleted
  obtain ⟨top', below', data', s', hended'⟩ := hh.exists_ended hmode hsight hcompleted
  obtain ⟨before, after, rfl⟩ := List.append_of_mem hended
  have hclosed : x ∈ (Event.ended id top below data : Event S).closed := List.mem_cons_of_mem _ hx
  have hclosed' : x ∈ (Event.ended x top' below' data' : Event S).closed := List.mem_cons_self
  have hapart := List.pairwise_append.1 (hh.apart hc.coherent)
  -- It was taken away before, after or with the one above it.
  rcases List.mem_append.1 hended' with hearlier | hlater
  · have hnot := hapart.2.2 _ hearlier _ List.mem_cons_self x hclosed'
    exact hnot.1 hclosed
  · rcases List.mem_cons.1 hlater with hsame | hlater
    · cases hsame
      exact hh.not_mem_below hc.coherent hx
    · have hnot := (List.pairwise_cons.1 hapart.2.1).1 _ hlater x hclosed
      exact hnot.1 hclosed'

theorem in_order (hh : History c seen d) (hc : Ledger [] c) (hbefore : before <+: seen)
    (p : ConversationId) : returned p before <+: handed p before := by
  obtain ⟨after, rfl⟩ := hbefore
  obtain ⟨d', hd'⟩ := hh.earlier
  exact (hc.history hd').in_order p

theorem one_at_a_time {occasion : Occasion}
    (hh : History c (before ++ ⟨.began id occasion, s⟩ :: after) d) (hc : Ledger [] c) :
    id ∉ running before := by
  obtain ⟨d₁, d₂, hbefore, hmove, -⟩ := hh.split
  have hledger := hc.history hbefore
  dsimp only at hmove
  cases hmove with
  | began hmode htalk =>
    obtain ⟨conversation, hget, htalk⟩ := Option.bind_eq_some_iff.1 htalk
    have hbusy := (hledger.books hget).busy
    rw [hledger.running_eq, ← hbusy, htalk]
    exact Option.some_ne_none _

theorem deliveryLaw (hh : History c seen d) (hc : Ledger [] c) (hmode : c.mode = .settled) :
    DeliveryLaw seen where
  requested hseen := by
    subst hseen
    exact hh.requested hc hmode
  apart := hh.apart hc.coherent
  implicit hended _ hx _ hsight := hh.implicit hc hmode hended hx hsight
  in_order hbefore p := hh.in_order hc hbefore p
  concluding_own hseen := by
    subst hseen
    exact hh.concluding_own hmode
  one_at_a_time hseen := by
    subst hseen
    exact hh.one_at_a_time hc

theorem granted {s₀ : State S}
    (hh : History c (before ++ ⟨.asked (.finish id data), s₀⟩ :: after) d)
    (hmode : d.mode = .settled) (hget : s₀.forest.get? id = some top) :
    ∃ below s₁ later, after = ⟨.ended id top below data, s₁⟩ :: later := by
  obtain ⟨d₁, d₂, -, hmove, hstate, hafter⟩ := hh.split
  dsimp only at hmove hstate
  cases hmove with
  | asked s running =>
    subst hstate
    -- There is a conversation to be ended, so nothing comes before that.
    have hstill (d' : Config S) : ¬Silent ⟨s₀, .closing id data, running⟩ d' := by
      intro hm
      cases hm with
      | refuse hnone =>
        rw [hget] at hnone
        cases hnone
    have hne : d.mode ≠ .closing id data := by
      rw [hmode]
      simp
    obtain ⟨e, c', later, rfl, hnext, -⟩ := hafter.next hstill hne
    cases hnext with
    | ended _ hget' =>
      rw [hget] at hget'
      cases hget'
      exact ⟨_, _, _, rfl⟩
    | @began _ _ _ _ occasion _ hadmits => cases occasion <;> cases hadmits

theorem concluded {ending : S.Ending}
    (hh : History c (before ++ ⟨.ended id top below data, s⟩ :: after) d)
    (hmode : d.mode = .settled) (hparent : top.parent = none) (hending : top.ending = some ending) :
    ∃ s₂ later, after = ⟨.concluding id ending data, s₂⟩ :: later := by
  obtain ⟨d₁, d₂, -, hmove, -, hafter⟩ := hh.split
  dsimp only at hmove
  cases hmove with
  | @ended s₀ running _ _ _ hget =>
    have hafterEnd : (Mode.afterEnd id top data : Mode S) = .concluding id ending data :=
      Mode.afterEnd_eq_concluding_iff.2 ⟨rfl, hparent, hending, rfl⟩
    rw [hafterEnd] at hafter
    have hstill (d' : Config S) :
        ¬Silent ⟨s₀.closeAll id, .concluding id ending data, running⟩ d' := by
      intro hm
      cases hm
    have hne : d.mode ≠ .concluding id ending data := by
      rw [hmode]
      simp
    obtain ⟨e, c', later, rfl, hnext, -⟩ := hafter.next hstill hne
    cases hnext with
    | concluding => exact ⟨_, _, rfl⟩
    | @began _ _ _ _ occasion _ hadmits => cases occasion <;> cases hadmits

theorem delivered_at_once (hh : History c (before ++ ⟨.ended id top below data, s⟩ :: after) d)
    (hc : Ledger [] c) (hmode : d.mode = .settled) {p : ConversationId}
    (hparent : top.parent = some p) (hp : p ∉ running before) :
    ∃ s₂ later, after = ⟨.began p (.returned data), s₂⟩ :: later := by
  obtain ⟨d₁, d₂, hbefore, hmove, -, hafter⟩ := hh.split
  have hledger := hc.history hbefore
  dsimp only at hmove
  have hledger₂ := hledger.visible hmove
  cases hmove with
  | @ended s₀ ids _ _ _ hget =>
    have hafterEnd : (Mode.afterEnd id top data : Mode S) = .handing p data :=
      Mode.afterEnd_eq_handing_iff.2 ⟨hparent, rfl⟩
    rw [hafterEnd] at hafter hledger₂
    -- The parent is there, and ready to get the data.
    obtain ⟨q, hq⟩ := Option.isSome_iff_exists.1 (hledger₂.handing_there rfl)
    have hready : q.talk ≠ none := by
      intro hnone
      have hmem := (hledger₂.books hq).busy.1 hnone
      rw [hledger.running_eq] at hp
      exact hp hmem
    have hstill (d' : Config S) : ¬Silent ⟨s₀.closeAll id, .handing p data, ids⟩ d' := by
      intro hm
      dsimp only at hq
      cases hm with
      | defer hbusy =>
        rw [Forest.isBusy, hq] at hbusy
        exact hready (Option.isNone_iff_eq_none.1 hbusy)
      | drop hgone =>
        rw [hq] at hgone
        cases hgone
    have hne : d.mode ≠ .handing p data := by
      rw [hmode]
      simp
    obtain ⟨e, c', later, rfl, hnext, -⟩ := hafter.next hstill hne
    cases hnext with
    | @began _ _ _ x occasion _ hadmits =>
      cases occasion with
      | returned data' =>
        cases hadmits
        exact ⟨_, _, rfl⟩
      | input actor command => cases hadmits
      | tick => cases hadmits

end

end History

/-- A conversation that is ready and that nothing is on its way to has been given all there was. -/
theorem Ledger.paid {seen : List (Sight S)} (h : Ledger seen d) (hfree : d.mode.Free)
    {p : ConversationId} {q : Conversation S.Talk S.Ending} (hq : d.state.forest.get? p = some q)
    (hp : p ∉ d.running) : q.handedBack.toList = [] ∧ handed p seen = returned p seen := by
  have hbooks := h.books hq
  have hnil : q.handedBack.toList = [] := by
    apply Classical.byContradiction
    intro hne
    rcases hbooks.waiting hne with hmem | hserved
    · exact hp hmem
    · exact hfree.not_serves hserved
  have haccount := hbooks.account
  rw [hfree.owed, hnil, List.append_nil] at haccount
  exact ⟨hnil, haccount⟩

namespace History

variable {before after seen : List (Sight S)} {id : ConversationId} {data : Value}
variable {top : Conversation S.Talk S.Ending} {below : List ConversationId} {s : State S}

theorem delivered (hh : History c (before ++ ⟨.ended id top below data, s⟩ :: after) d)
    (hc : Ledger [] c) (hmode : d.mode = .settled) (hrunning : d.running = [])
    {p : ConversationId} (hparent : top.parent = some p) :
    (returned p (before ++ ⟨.ended id top below data, s⟩ :: after))[(handed p before).length]? =
        some data ∨
      p ∈ running before ∧ ∃ sight ∈ after, p ∈ sight.event.closed := by
  obtain ⟨d₁, d₂, hbefore, hmove, hstate, hafter⟩ := hh.split
  have hledger := hc.history hbefore
  dsimp only at hmove
  have hledger₂ := hledger.visible hmove
  have hmode₂ : d₂.mode = .handing p data := by
    cases hmove with
    | ended _ hget => exact Mode.afterEnd_eq_handing_iff.2 ⟨hparent, rfl⟩
  have hthere₂ := hledger₂.handing_there hmode₂
  by_cases hp : p ∈ running before
  · by_cases hclosed : ∃ sight ∈ after, p ∈ sight.event.closed
    · exact .inr ⟨hp, hclosed⟩
    · -- The parent is there to the end, and by then it has been given everything.
      have hloses := hafter.loses hledger₂.coherent
      have hdrawn := hledger₂.coherent.linked.drawn hthere₂
      have hthere : (d.state.forest.get? p).isSome := by
        rw [hloses.isSome_iff hdrawn]
        refine ⟨hthere₂, fun hmem => hclosed ?_⟩
        exact List.mem_flatMap.1 hmem
      obtain ⟨q, hq⟩ := Option.isSome_iff_exists.1 hthere
      have hfree : d.mode.Free := by
        rw [hmode]
        trivial
      have hnot : p ∉ d.running := by
        rw [hrunning]
        exact List.not_mem_nil
      have hpaid := ((hc.history hh).paid hfree hq hnot).2
      left
      rw [← hpaid, handed_append, List.getElem?_append_right (Nat.le_refl _), Nat.sub_self]
      simp [handed, hparent]
  · -- Everything earlier has been given to the parent, and this is given to it at once.
    obtain ⟨s₂, later, rfl⟩ := hh.delivered_at_once hc hmode hparent hp
    have hpaid : handed p before = returned p before := by
      cases hmove with
      | @ended s₀ ids _ _ _ hget =>
        have hthere := (State.parent_there_closeAll hledger.coherent hget hparent).1
        obtain ⟨q, hq⟩ := Option.isSome_iff_exists.1 hthere
        rw [hledger.running_eq] at hp
        exact (hledger.paid trivial hq hp).2
    left
    rw [hpaid, returned_append, List.getElem?_append_right (Nat.le_refl _), Nat.sub_self]
    simp [returned]

theorem deliveriesDone (hh : History c seen d) (hc : Ledger [] c) (hmode : d.mode = .settled)
    (hrunning : d.running = []) : DeliveriesDone seen d.state where
  granted hseen hget := by
    subst hseen
    exact hh.granted hmode hget
  delivered hseen hparent := by
    subst hseen
    exact hh.delivered hc hmode hrunning hparent
  delivered_at_once hseen hparent hp := by
    subst hseen
    exact hh.delivered_at_once hc hmode hparent hp
  concluded hseen hparent hending := by
    subst hseen
    exact hh.concluded hmode hparent hending
  quiet := (hc.history hh).running_eq.trans hrunning
  idle {id c} hget := by
    have hledger := hc.history hh
    have hfree : d.mode.Free := by
      rw [hmode]
      trivial
    have hnot : id ∉ d.running := by
      rw [hrunning]
      exact List.not_mem_nil
    have htalk : c.talk ≠ none := fun hnone => hnot ((hledger.books hget).busy.1 hnone)
    exact ⟨Option.isSome_iff_ne_none.2 htalk, (hledger.paid hfree hget hnot).1⟩

end History

/-- From a world that has come about by operations, whatever is called and whatever the programs
do: the data of each end goes to its receiver and nowhere else, once and in order, and when the
calls are over every conversation is ready and nothing waits. -/
theorem exactly_once {w : World} (hw : w.Reachable) (memory : S.Memory)
    (calls : List (Rules S × Call S)) :
    DeliveryLaw (Call.runAll calls (.initial w memory)).sights ∧
      ((Call.runAll calls (.initial w memory)).result = .ok () →
        DeliveriesDone (Call.runAll calls (.initial w memory)).sights
          (Call.runAll calls (.initial w memory)).state) := by
  obtain ⟨d, hhistory, hstate, hover⟩ := Call.runAll_settles calls (.initial w memory) []
  have hledger : Ledger [] (⟨.initial w memory, .settled, []⟩ : Config S) := .initial hw memory
  refine ⟨hhistory.deliveryLaw hledger rfl, fun hok => ?_⟩
  obtain ⟨hmode, hrunning⟩ := hover () hok
  have hdone := hhistory.deliveriesDone hledger hmode hrunning
  rw [hstate] at hdone
  exact hdone

/-- The guest talks, with a child that ends during the callback, and then the talk is ended. -/
def chatWithGuest : List (Rules plainSetting × Call plainSetting) :=
  [(chatter, .withContext do
      let _ ← Program.start [⟨3⟩] () (some ())),
    (chatter, .dispatch ⟨3⟩ "hello"),
    (chatter, .withContext do
      let _ ← Program.finish ⟨1⟩ (.int 2))]

theorem exactly_once_chatWithGuest :
    ∃ w, World.empty.run innWithGuest = some w ∧
      (Call.runAll chatWithGuest (.initial w ())).result = .ok () ∧
      returned ⟨1⟩ (Call.runAll chatWithGuest (.initial w ())).sights = [.int 1] ∧
      DeliveryLaw (Call.runAll chatWithGuest (.initial w ())).sights ∧
      DeliveriesDone (Call.runAll chatWithGuest (.initial w ())).sights
        (Call.runAll chatWithGuest (.initial w ())).state := by
  have hrun : (World.empty.run innWithGuest).isSome := by decide
  obtain ⟨w, hw⟩ := Option.isSome_iff_exists.1 hrun
  have hok : (World.empty.run innWithGuest).map (fun w =>
      (Call.runAll chatWithGuest (.initial w ())).result) = some (.ok ()) := by rfl
  have hreturned : (World.empty.run innWithGuest).map (fun w =>
      returned ⟨1⟩ (Call.runAll chatWithGuest (.initial w ())).sights) = some [.int 1] := by rfl
  rw [hw] at hok hreturned
  have hresult := Option.some.inj hok
  obtain ⟨hlaw, hdone⟩ := exactly_once (S := plainSetting) ⟨innWithGuest, hw⟩ ()
    chatWithGuest
  exact ⟨w, hw, hresult, Option.some.inj hreturned, hlaw, hdone hresult⟩

end TextWorld

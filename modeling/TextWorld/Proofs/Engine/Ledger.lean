import TextWorld.Proofs.Engine.Structure

/-!
The books of a history. At every moment the data that children of a conversation have handed back
is what the conversation has been given, then what is on its way, then what waits with it; and a
conversation is without its talk exactly while a callback of it is running.
-/

namespace TextWorld

variable {S : Setting}

/-- The completion data of the children of a conversation that were ended, in that order. -/
def handed (p : ConversationId) (seen : List (Sight S)) : List Value :=
  seen.filterMap fun sight =>
    match sight.event with
    | .ended _ c _ data => if c.parent = some p then some data else none
    | _ => none

/-- The completion data that callbacks of a conversation were run for, in that order. -/
def returned (p : ConversationId) (seen : List (Sight S)) : List Value :=
  seen.filterMap fun sight =>
    match sight.event with
    | .began id (.returned data) => if id = p then some data else none
    | _ => none

/-- Whose callbacks are running, the innermost first. -/
def running (seen : List (Sight S)) : List ConversationId :=
  seen.foldl (fun ids sight =>
    match sight.event with
    | .began id _ => id :: ids
    | .stopped id => ids.erase id
    | _ => ids) []

/-- The data that a conversation is still to get. What is on its way to one that is busy goes
behind what waits there; one that is ready gets it at once. -/
def Mode.owed (p : ConversationId) (c : Conversation S.Talk S.Ending) : Mode S → List Value
  | .handing parent data =>
    if parent = p then
      if c.talk.isNone then c.handedBack.toList ++ [data] else data :: c.handedBack.toList
    else c.handedBack.toList
  | _ => c.handedBack.toList

/-- Whether the engine is about to give a conversation what waits with it. -/
def Mode.Serves (id : ConversationId) : Mode S → Prop
  | .draining id' => id' = id
  | .handing id' _ => id' = id
  | _ => False

/-- Whether the engine is not in the middle of giving something to a conversation. -/
def Mode.Free : Mode S → Prop
  | .handing _ _ | .draining _ => False
  | _ => True

/-- The books of one conversation. -/
structure Books (seen : List (Sight S)) (d : Config S) (id : ConversationId)
    (c : Conversation S.Talk S.Ending) : Prop where
  busy : c.talk = none ↔ id ∈ d.running
  waiting : c.handedBack.toList ≠ [] → id ∈ d.running ∨ d.mode.Serves id
  account : handed id seen = returned id seen ++ d.mode.owed id c

/-- The books of a history that has led to a configuration. -/
structure Ledger (seen : List (Sight S)) (d : Config S) : Prop where
  coherent : d.state.Coherent
  running_eq : running seen = d.running
  running_nodup : d.running.Nodup
  running_drawn : ∀ {id}, id ∈ d.running → id.index ≤ d.state.forest.lastIndex
  books : ∀ {id c}, d.state.forest.get? id = some c → Books seen d id c
  in_order : ∀ p, returned p seen <+: handed p seen
  unborn : ∀ {p}, d.state.forest.lastIndex < p.index → handed p seen = [] ∧ returned p seen = []
  handing_there : ∀ {p data}, d.mode = .handing p data → (d.state.forest.get? p).isSome
  draining_ready : ∀ {id}, d.mode = .draining id → id ∉ d.running

variable {seen : List (Sight S)} {d d' : Config S}

theorem handed_append (p : ConversationId) (seen more : List (Sight S)) :
    handed p (seen ++ more) = handed p seen ++ handed p more :=
  List.filterMap_append

theorem returned_append (p : ConversationId) (seen more : List (Sight S)) :
    returned p (seen ++ more) = returned p seen ++ returned p more :=
  List.filterMap_append

theorem handed_ended (p id : ConversationId) (seen : List (Sight S))
    (c : Conversation S.Talk S.Ending) (below : List ConversationId) (data : Value)
    (s : State S) : handed p (seen ++ [⟨.ended id c below data, s⟩]) =
      handed p seen ++ if c.parent = some p then [data] else [] := by
  rw [handed_append]
  by_cases hp : c.parent = some p
  · simp [handed, hp]
  · simp [handed, hp]

theorem returned_ended (p id : ConversationId) (seen : List (Sight S))
    (c : Conversation S.Talk S.Ending) (below : List ConversationId) (data : Value)
    (s : State S) : returned p (seen ++ [⟨.ended id c below data, s⟩]) = returned p seen := by
  rw [returned_append]
  exact List.append_nil _

theorem returned_began (p id : ConversationId) (seen : List (Sight S)) (data : Value)
    (s : State S) : returned p (seen ++ [⟨.began id (.returned data), s⟩]) =
      returned p seen ++ if id = p then [data] else [] := by
  rw [returned_append]
  by_cases hp : id = p
  · simp [returned, hp]
  · simp [returned, hp]

theorem running_append (seen : List (Sight S)) (sight : Sight S) :
    running (seen ++ [sight]) =
      match sight.event with
      | .began id _ => id :: running seen
      | .stopped id => (running seen).erase id
      | _ => running seen := by
  rw [running, List.foldl_append]
  rfl

/-- The books depend on the talk of a conversation and on what waits with it. -/
theorem Books.congr {id : ConversationId} {c c' : Conversation S.Talk S.Ending}
    (h : Books seen d id c) (hc : c'.unlinked = c.unlinked) (hrunning : d'.running = d.running)
    (hmode : d'.mode = d.mode) : Books seen d' id c' := by
  have htalk : c'.talk = c.talk := (congrArg Conversation.talk hc :)
  have hback : c'.handedBack = c.handedBack := (congrArg Conversation.handedBack hc :)
  refine ⟨?_, ?_, ?_⟩
  · rw [htalk, hrunning]
    exact h.busy
  · rw [hback, hrunning, hmode]
    exact h.waiting
  · have howed : d'.mode.owed id c' = d.mode.owed id c := by
      rw [hmode]
      cases d.mode with
      | handing parent data => simp only [Mode.owed, htalk, hback]
      | _ => exact congrArg Queue.toList hback
    rw [howed]
    exact h.account

/-- A move that does nothing about a conversation leaves its books right. -/
theorem Books.transport {seen' : List (Sight S)} {x : ConversationId}
    {c : Conversation S.Talk S.Ending} (h : Books seen d x c)
    (hhanded : handed x seen' = handed x seen) (hreturned : returned x seen' = returned x seen)
    (hrunning : x ∈ d'.running ↔ x ∈ d.running) (howed : d'.mode.owed x c = d.mode.owed x c)
    (hserves : d.mode.Serves x → d'.mode.Serves x) : Books seen' d' x c := by
  refine ⟨h.busy.trans hrunning.symm, ?_, ?_⟩
  · intro hne
    rcases h.waiting hne with hmem | hserved
    · exact .inl (hrunning.2 hmem)
    · exact .inr (hserves hserved)
  · rw [hhanded, hreturned, howed]
    exact h.account

theorem Mode.Free.owed {mode : Mode S} (h : mode.Free) (p : ConversationId)
    (c : Conversation S.Talk S.Ending) : mode.owed p c = c.handedBack.toList := by
  cases mode with
  | handing parent data => cases h
  | _ => rfl

theorem Mode.Free.not_serves {mode : Mode S} (h : mode.Free) {p : ConversationId} :
    ¬mode.Serves p := by
  cases mode with
  | handing parent data => cases h
  | draining id => cases h
  | _ => exact fun hserved => hserved

theorem Mode.owed_other {p parent : ConversationId} (hne : parent ≠ p)
    (c : Conversation S.Talk S.Ending) (data : Value) :
    (Mode.handing parent data : Mode S).owed p c = c.handedBack.toList :=
  if_neg hne

/-- The end of a child is what a parent that is ready, and has nothing waiting, gets next. -/
theorem Mode.owed_afterEnd {p id : ConversationId} {q c : Conversation S.Talk S.Ending}
    (hready : q.talk ≠ none → q.handedBack.toList = []) (data : Value) :
    (Mode.afterEnd id c data).owed p q =
      q.handedBack.toList ++ if c.parent = some p then [data] else [] := by
  by_cases hp : c.parent = some p
  · have hmode : (Mode.afterEnd id c data : Mode S) = .handing p data :=
      Mode.afterEnd_eq_handing_iff.2 ⟨hp, rfl⟩
    rw [hmode, if_pos hp]
    by_cases htalk : q.talk = none
    · simp [Mode.owed, htalk]
    · simp [Mode.owed, htalk, hready htalk]
  · rw [if_neg hp, List.append_nil, Mode.afterEnd]
    cases hparent : c.parent with
    | some other =>
      have hne : other ≠ p := by
        rintro rfl
        exact hp hparent
      exact Mode.owed_other hne q data
    | none => cases c.ending <;> rfl

theorem Books.ended {s : State S} {ids : List ConversationId} {x id : ConversationId}
    {q c : Conversation S.Talk S.Ending} {data : Value}
    (h : Books seen ⟨s, .closing id data, ids⟩ x q) (below : List ConversationId)
    (s' s'' : State S) :
    Books (seen ++ [⟨.ended id c below data, s'⟩]) ⟨s'', .afterEnd id c data, ids⟩ x q := by
  have hwaiting (hne : q.handedBack.toList ≠ []) : x ∈ ids := by
    rcases h.waiting hne with hmem | hserved
    · exact hmem
    · cases hserved
  have hready (htalk : q.talk ≠ none) : q.handedBack.toList = [] := by
    apply Classical.byContradiction
    intro hne
    exact htalk (h.busy.2 (hwaiting hne))
  refine ⟨h.busy, fun hne => .inl (hwaiting hne), ?_⟩
  calc
    handed x (seen ++ [⟨.ended id c below data, s'⟩]) =
        handed x seen ++ if c.parent = some x then [data] else [] := handed_ended ..
    _ = returned x seen ++ (q.handedBack.toList ++ if c.parent = some x then [data] else []) := by
      rw [h.account, List.append_assoc]
      rfl
    _ = returned x (seen ++ [⟨.ended id c below data, s'⟩]) ++
          (Mode.afterEnd id c data).owed x q := by
      rw [returned_ended, Mode.owed_afterEnd hready]

/-- The conversations of the first state are there in the second with the same talk, and what is
new is ready and waits for nothing. -/
structure Carries (s s' : State S) : Prop where
  lastIndex : s.forest.lastIndex ≤ s'.forest.lastIndex
  conversations : ∀ x,
    (s'.forest.get? x).map Conversation.unlinked = (s.forest.get? x).map Conversation.unlinked ∨
      s.forest.lastIndex < x.index ∧
        ∃ c, s'.forest.get? x = some c ∧ c.talk ≠ none ∧ c.handedBack.toList = []

theorem Carries.of_table {s s' : State S} (htable : s'.forest.table = s.forest.table)
    (hlast : s'.forest.lastIndex = s.forest.lastIndex) : Carries s s' := by
  refine ⟨Nat.le_of_eq hlast.symm, fun x => .inl ?_⟩
  rw [Forest.get?_eq, Forest.get?_eq, htable]

theorem carries_add (s : State S) {c : Conversation S.Talk S.Ending} (htalk : c.talk ≠ none)
    (hback : c.handedBack.toList = []) : Carries s (s.addConversation c).2 := by
  have hforest : (s.addConversation c).2.forest = (s.forest.insert c).2 := rfl
  refine ⟨?_, fun x => ?_⟩
  · rw [hforest, Forest.lastIndex_insert]
    exact Nat.le_succ _
  · rw [hforest, Forest.unlinked_insert]
    by_cases hx : (s.forest.insert c).1 = x
    · refine .inr ⟨?_, c, ?_, htalk, hback⟩
      · rw [← hx]
        exact Nat.lt_succ_self _
      · rw [Forest.get?_insert, if_pos hx]
    · rw [if_neg hx]
      exact .inl rfl

theorem Change.carries {s s' : State S} (hm : Change s s') : Carries s s' := by
  cases hm with
  | aside hw hf => exact .of_table (congrArg Forest.table hf) (congrArg Forest.lastIndex hf)
  | perform hr => exact .of_table rfl rfl
  | edit e => exact .of_table rfl rfl
  | start participants talk ending =>
    rw [State.start]
    split
    · exact .of_table rfl rfl
    · split
      · exact .of_table rfl rfl
      · exact carries_add s (by simp) rfl
  | startChild parent participants talk =>
    rw [State.startChild]
    split
    · exact .of_table rfl rfl
    · split
      · exact .of_table rfl rfl
      · split
        · exact .of_table rfl rfl
        · exact carries_add s (by simp) rfl
  | schedule hr =>
    rw [State.schedule] at hr
    split at hr
    · cases hr
      exact .of_table rfl rfl
    · obtain ⟨due, -, rfl⟩ := Option.map_eq_some_iff.1 hr
      exact .of_table rfl rfl
  | cancel id => exact .of_table rfl rfl
  | fire hpop => exact .of_table rfl rfl

namespace Ledger

/-- Nothing has been seen yet, and no conversation is under way. -/
theorem initial {w : World} (hw : w.Reachable) (memory : S.Memory) :
    Ledger [] (⟨.initial w memory, .settled, []⟩ : Config S) := by
  have hget (id : ConversationId) : (State.initial w memory : State S).forest.get? id = none :=
    Std.ExtTreeMap.getElem?_empty
  refine ⟨State.coherent_initial hw memory, rfl, .nil, ?_, ?_, ?_, ?_, ?_, ?_⟩
  · intro id hid
    cases hid
  · intro id c hc
    rw [hget] at hc
    cases hc
  · intro p
    exact List.prefix_refl _
  · intro p _
    exact ⟨rfl, rfl⟩
  · intro p data hmode
    cases hmode
  · intro id hmode
    cases hmode

theorem change {s s' : State S} {ids : List ConversationId}
    (h : Ledger seen ⟨s, .settled, ids⟩) (hm : Change s s') : Ledger seen ⟨s', .settled, ids⟩ := by
  obtain ⟨hlast, hcarries⟩ := hm.carries
  have hcoherent : s'.Coherent := hm.coherent h.coherent
  refine ⟨hcoherent, h.running_eq, h.running_nodup, ?_, ?_, h.in_order, ?_, ?_, ?_⟩
  · intro id hid
    exact Nat.le_trans (h.running_drawn hid) hlast
  · intro id c hc
    dsimp only at hc
    rcases hcarries id with hsame | ⟨hnew, c', hc', htalk, hback⟩
    · rw [hc, Option.map_some, eq_comm] at hsame
      obtain ⟨c₀, hc₀, hunlinked⟩ := Option.map_eq_some_iff.1 hsame
      exact (h.books hc₀).congr hunlinked.symm rfl rfl
    · -- Nothing has been done with a conversation that is new.
      rw [hc] at hc'
      cases hc'
      have hnot : id ∉ ids := by
        intro hmem
        have hdrawn := h.running_drawn hmem
        dsimp only at hdrawn
        omega
      obtain ⟨hhanded, hreturned⟩ := h.unborn hnew
      refine ⟨?_, fun hne => absurd hback hne, ?_⟩
      · simp [htalk, hnot]
      · rw [hhanded, hreturned]
        exact hback.symm
  · intro p hp
    dsimp only at hp
    exact h.unborn (Nat.lt_of_le_of_lt hlast hp)
  · intro p data hmode
    cases hmode
  · intro id hmode
    cases hmode

/-- Nothing is owed that does not wait with a parent. -/
theorem remode {s : State S} {ids : List ConversationId} {mode mode' : Mode S}
    (h : Ledger seen ⟨s, mode, ids⟩) (hm : mode.Free) (hm' : mode'.Free) :
    Ledger seen ⟨s, mode', ids⟩ := by
  refine ⟨h.coherent, h.running_eq, h.running_nodup, h.running_drawn, ?_, h.in_order, h.unborn, ?_,
    ?_⟩
  · intro x c hc
    refine (h.books hc).transport rfl rfl Iff.rfl ?_ ?_
    · rw [hm.owed, hm'.owed]
    · intro hserved
      exact absurd hserved hm.not_serves
  · intro p data hmode
    dsimp only at hmode
    rw [hmode] at hm'
    cases hm'
  · intro id hmode
    dsimp only at hmode
    rw [hmode] at hm'
    cases hm'

theorem defer {s : State S} {ids : List ConversationId} {parent : ConversationId} {data : Value}
    (h : Ledger seen ⟨s, .handing parent data, ids⟩) (hbusy : s.forest.isBusy parent = true) :
    Ledger seen ⟨s.handBack parent data, .settled, ids⟩ := by
  refine ⟨h.coherent.handBack parent data, h.running_eq, h.running_nodup, h.running_drawn, ?_,
    h.in_order, h.unborn, ?_, ?_⟩
  · intro x c hc
    rw [State.handBack, Forest.get?_modify] at hc
    by_cases hx : parent = x
    · subst hx
      rw [if_pos rfl] at hc
      obtain ⟨c₀, hc₀, rfl⟩ := Option.map_eq_some_iff.1 hc
      have hbooks := h.books hc₀
      have htalk : c₀.talk = none := by
        rw [Forest.isBusy, hc₀] at hbusy
        exact Option.isNone_iff_eq_none.1 hbusy
      -- What was on its way is now the last that waits.
      refine ⟨hbooks.busy, fun _ => .inl (hbooks.busy.1 htalk), ?_⟩
      rw [hbooks.account]
      simp [Mode.owed, htalk]
    · rw [if_neg hx] at hc
      refine (h.books hc).transport rfl rfl Iff.rfl ?_ ?_
      · exact (Mode.owed_other hx c data).symm
      · intro hserved
        exact absurd hserved hx
  · intro p data hmode
    cases hmode
  · intro id hmode
    cases hmode

/-- What waits with a conversation whose callback is over is on its way, the oldest first. -/
theorem next {s : State S} {ids : List ConversationId} {id : ConversationId} {data : Value}
    {forest : Forest S.Talk S.Ending} (h : Ledger seen ⟨s, .draining id, ids⟩)
    (htake : s.forest.takeHandedBack id = some (data, forest)) :
    Ledger seen ⟨{ s with forest }, .handing id data, ids⟩ := by
  have hcoherent := h.coherent.takeHandedBack htake
  obtain ⟨c₀, rest, hc₀, hback, rfl⟩ := Forest.takeHandedBack_eq htake
  refine ⟨hcoherent, h.running_eq, h.running_nodup, h.running_drawn, ?_, h.in_order, h.unborn, ?_,
    ?_⟩
  · intro x c hc
    dsimp only at hc
    rw [Forest.get?_modify] at hc
    by_cases hx : id = x
    · subst hx
      rw [if_pos rfl, hc₀] at hc
      cases hc
      have hbooks := h.books hc₀
      have htalk : c₀.talk ≠ none := fun hnone => h.draining_ready rfl (hbooks.busy.1 hnone)
      -- What was the first that waits is now on its way.
      refine ⟨hbooks.busy, fun _ => .inr rfl, ?_⟩
      rw [hbooks.account]
      simp [Mode.owed, htalk, hback]
    · rw [if_neg hx] at hc
      refine (h.books hc).transport rfl rfl Iff.rfl ?_ fun hserved => absurd hserved hx
      exact Mode.owed_other hx c data
  · intro p data' hmode
    cases hmode
    rw [Forest.isSome_modify, hc₀]
    rfl
  · intro x hmode
    cases hmode

theorem drained {s : State S} {ids : List ConversationId} {id : ConversationId}
    (h : Ledger seen ⟨s, .draining id, ids⟩) (htake : s.forest.takeHandedBack id = none) :
    Ledger seen ⟨s, .settled, ids⟩ := by
  refine ⟨h.coherent, h.running_eq, h.running_nodup, h.running_drawn, ?_, h.in_order, h.unborn,
    fun hmode => (by cases hmode), fun hmode => (by cases hmode)⟩
  intro x c hc
  have hbooks := h.books hc
  refine ⟨hbooks.busy, fun hne => ?_, hbooks.account⟩
  rcases hbooks.waiting hne with hmem | rfl
  · exact .inl hmem
  · -- Nothing is left to be taken, so nothing waits.
    dsimp only at hc
    rw [Forest.takeHandedBack, hc] at htake
    cases hpop : c.handedBack.pop? with
    | none => exact absurd (Queue.pop?_eq_none_iff.1 hpop) hne
    | some taken => simp [hpop] at htake

theorem silent (h : Ledger seen d) (hm : Silent d d') : Ledger seen d' := by
  cases hm with
  | change hchange => exact h.change hchange
  | refuse hgone => exact h.remode trivial trivial
  | defer hbusy => exact h.defer hbusy
  | drop hgone =>
    have hthere := h.handing_there rfl
    rw [hgone] at hthere
    cases hthere
  | next htake => exact h.next htake
  | drained htake => exact h.drained htake

/-- What is neither an end nor a callback leaves the books alone. -/
theorem glimpse {sight : Sight S} (h : Ledger seen d) (hhanded : ∀ p, handed p [sight] = [])
    (hreturned : ∀ p, returned p [sight] = [])
    (hrunning : running (seen ++ [sight]) = running seen) : Ledger (seen ++ [sight]) d := by
  have hhanded' (p : ConversationId) : handed p (seen ++ [sight]) = handed p seen := by
    rw [handed_append, hhanded, List.append_nil]
  have hreturned' (p : ConversationId) : returned p (seen ++ [sight]) = returned p seen := by
    rw [returned_append, hreturned, List.append_nil]
  refine ⟨h.coherent, hrunning.trans h.running_eq, h.running_nodup, h.running_drawn, ?_, ?_, ?_,
    h.handing_there, h.draining_ready⟩
  · intro x c hc
    exact (h.books hc).transport (hhanded' x) (hreturned' x) Iff.rfl rfl fun hserved => hserved
  · intro p
    rw [hhanded', hreturned']
    exact h.in_order p
  · intro p hp
    rw [hhanded', hreturned']
    exact h.unborn hp

theorem asked {s : State S} {ids : List ConversationId} (h : Ledger seen ⟨s, .settled, ids⟩)
    (r : Request S) : Ledger (seen ++ [⟨.asked r, s⟩]) ⟨s, .afterAsk r, ids⟩ := by
  have hglimpse : Ledger (seen ++ [⟨.asked r, s⟩]) ⟨s, .settled, ids⟩ := by
    apply h.glimpse (fun _ => rfl) (fun _ => rfl)
    rw [running_append]
  apply hglimpse.remode trivial
  cases r <;> trivial

theorem concluding {s : State S} {ids : List ConversationId} {id : ConversationId}
    {ending : S.Ending} {data : Value} (h : Ledger seen ⟨s, .concluding id ending data, ids⟩) :
    Ledger (seen ++ [⟨.concluding id ending data, s⟩]) ⟨s, .settled, ids⟩ := by
  have hglimpse : Ledger (seen ++ [⟨.concluding id ending data, s⟩])
      ⟨s, .concluding id ending data, ids⟩ := by
    apply h.glimpse (fun _ => rfl) (fun _ => rfl)
    rw [running_append]
  exact hglimpse.remode trivial trivial

/-- A conversation is ended with all below it; its data waits for the parent or is on its way. -/
theorem ended {s : State S} {ids : List ConversationId} {id : ConversationId}
    {c : Conversation S.Talk S.Ending} {data : Value}
    (h : Ledger seen ⟨s, .closing id data, ids⟩) (hc : s.forest.get? id = some c) :
    Ledger (seen ++ [⟨.ended id c (s.forest.descendants id) data, s.closeAll id⟩])
      ⟨s.closeAll id, .afterEnd id c data, ids⟩ := by
  obtain ⟨hcoherent, hrest, hlast⟩ := State.without_closeAll h.coherent hc
  have hhanded (p : ConversationId) := handed_ended p id seen c (s.forest.descendants id) data
    (s.closeAll id)
  have hreturned (p : ConversationId) := returned_ended p id seen c (s.forest.descendants id) data
    (s.closeAll id)
  refine ⟨hcoherent, ?_, h.running_nodup, ?_, ?_, ?_, ?_, ?_, ?_⟩
  · rw [running_append]
    exact h.running_eq
  · intro x hx
    rw [hlast]
    exact h.running_drawn hx
  · intro x e he
    dsimp only at he
    have hx := hrest x
    rw [he] at hx
    split at hx
    · cases hx
    · -- What has not been taken away has lost at most its child.
      rw [Option.map_some, eq_comm] at hx
      obtain ⟨e₀, he₀, hunlinked⟩ := Option.map_eq_some_iff.1 hx
      have hbooks : Books seen ⟨s, .closing id data, ids⟩ x e :=
        (h.books he₀).congr hunlinked.symm rfl rfl
      exact hbooks.ended _ _ _
  · intro p
    rw [hhanded, hreturned]
    exact (h.in_order p).trans (List.prefix_append _ _)
  · intro p hp
    dsimp only at hp
    rw [hlast] at hp
    rw [hhanded, hreturned, if_neg]
    · rw [List.append_nil]
      exact h.unborn hp
    · intro hparent
      have hthere := (State.parent_there_closeAll h.coherent hc hparent).1
      have hdrawn : p.index ≤ s.forest.lastIndex := h.coherent.linked.drawn hthere
      have hnew : s.forest.lastIndex < p.index := hp
      omega
  · intro p data' hmode
    have hparent : c.parent = some p := (Mode.afterEnd_eq_handing_iff.1 hmode).1
    exact (State.parent_there_closeAll h.coherent hc hparent).2
  · intro x hmode
    exact absurd hmode Mode.afterEnd_ne_draining

/-- A callback begins; what it is run for, if anything, is what the conversation was to get next. -/
theorem begins {s : State S} {ids : List ConversationId} {mode : Mode S} {id : ConversationId}
    {occasion : Occasion} {talk : S.Talk} (h : Ledger seen ⟨s, mode, ids⟩) (gain : List Value)
    (htalk : (s.forest.get? id).bind (·.talk) = some talk)
    (hreturned : ∀ p, returned p (seen ++ [⟨.began id occasion, s.setTalk id none⟩]) =
      returned p seen ++ if id = p then gain else [])
    (howed : ∀ c : Conversation S.Talk S.Ending, c.talk ≠ none →
      mode.owed id c = gain ++ c.handedBack.toList)
    (hother : ∀ {p}, id ≠ p → ¬mode.Serves p ∧
      ∀ c : Conversation S.Talk S.Ending, mode.owed p c = c.handedBack.toList) :
    Ledger (seen ++ [⟨.began id occasion, s.setTalk id none⟩])
      ⟨s.setTalk id none, .settled, id :: ids⟩ := by
  obtain ⟨c₀, hc₀, htalk₀⟩ := Option.bind_eq_some_iff.1 htalk
  have hbooks₀ := h.books hc₀
  have hready : c₀.talk ≠ none := by
    rw [htalk₀]
    exact Option.some_ne_none talk
  have hnot : id ∉ ids := fun hmem => hready (hbooks₀.busy.2 hmem)
  have hhanded (p : ConversationId) :
      handed p (seen ++ [⟨.began id occasion, s.setTalk id none⟩]) = handed p seen := by
    rw [handed_append]
    exact List.append_nil _
  refine ⟨h.coherent.setTalk id none, ?_, ?_, ?_, ?_, ?_, ?_, ?_, ?_⟩
  · rw [running_append]
    exact congrArg (id :: ·) h.running_eq
  · exact List.nodup_cons.2 ⟨hnot, h.running_nodup⟩
  · intro x hx
    rcases List.mem_cons.1 hx with rfl | hx
    · exact h.coherent.linked.drawn (Option.isSome_of_eq_some hc₀)
    · exact h.running_drawn hx
  · intro x c hc
    rw [State.setTalk, Forest.get?_modify] at hc
    by_cases hx : id = x
    · subst hx
      rw [if_pos rfl, hc₀] at hc
      cases hc
      -- What the callback is run for was the first of what was owed.
      refine ⟨by simp, fun _ => .inl List.mem_cons_self, ?_⟩
      rw [hhanded, hreturned, if_pos rfl, hbooks₀.account, List.append_assoc]
      exact congrArg _ (howed c₀ hready)
    · rw [if_neg hx] at hc
      obtain ⟨hserves, howed'⟩ := hother hx
      refine (h.books hc).transport (hhanded x) ?_ ?_ (howed' c).symm ?_
      · rw [hreturned, if_neg hx, List.append_nil]
      · simp [Ne.symm hx]
      · intro hserved
        exact absurd hserved hserves
  · intro p
    rw [hhanded, hreturned]
    by_cases hp : id = p
    · subst hp
      rw [if_pos rfl, hbooks₀.account, howed c₀ hready, ← List.append_assoc]
      exact List.prefix_append _ _
    · rw [if_neg hp, List.append_nil]
      exact h.in_order p
  · intro p hp
    have hne : id ≠ p := by
      rintro rfl
      have hdrawn : id.index ≤ s.forest.lastIndex :=
        h.coherent.linked.drawn (Option.isSome_of_eq_some hc₀)
      have hnew : s.forest.lastIndex < id.index := hp
      omega
    rw [hhanded, hreturned, if_neg hne, List.append_nil]
    exact h.unborn hp
  · intro p data hmode
    cases hmode
  · intro x hmode
    cases hmode

theorem began {s : State S} {ids : List ConversationId} {mode : Mode S} {id : ConversationId}
    {occasion : Occasion} {talk : S.Talk} (h : Ledger seen ⟨s, mode, ids⟩)
    (hmode : mode.Admits id occasion) (htalk : (s.forest.get? id).bind (·.talk) = some talk) :
    Ledger (seen ++ [⟨.began id occasion, s.setTalk id none⟩])
      ⟨s.setTalk id none, .settled, id :: ids⟩ := by
  cases occasion with
  | returned data =>
    have hhanding : mode = .handing id data := hmode
    subst hhanding
    apply h.begins [data] htalk
    · intro p
      rw [returned_began]
    · intro c hc
      simp [Mode.owed, hc]
    · intro p hne
      exact ⟨hne, fun c => Mode.owed_other hne c data⟩
  | input actor command =>
    have hsettled : mode = .settled := hmode
    subst hsettled
    apply h.begins [] htalk
    · intro p
      rw [returned_append, ite_self]
      rfl
    · exact fun c _ => rfl
    · exact fun _ => ⟨fun hserved => hserved, fun c => rfl⟩
  | tick =>
    have hsettled : mode = .settled := hmode
    subst hsettled
    apply h.begins [] htalk
    · intro p
      rw [returned_append, ite_self]
      rfl
    · exact fun c _ => rfl
    · exact fun _ => ⟨fun hserved => hserved, fun c => rfl⟩

theorem stopped {s : State S} {ids : List ConversationId} {id : ConversationId} (talk : S.Talk)
    (h : Ledger seen ⟨s, .settled, id :: ids⟩) :
    Ledger (seen ++ [⟨.stopped id, s.setTalk id (some talk)⟩])
      ⟨s.setTalk id (some talk), .draining id, ids⟩ := by
  have hnodup := List.nodup_cons.1 h.running_nodup
  have hhanded (p : ConversationId) :
      handed p (seen ++ [⟨.stopped id, s.setTalk id (some talk)⟩]) = handed p seen := by
    rw [handed_append]
    exact List.append_nil _
  have hreturned (p : ConversationId) :
      returned p (seen ++ [⟨.stopped id, s.setTalk id (some talk)⟩]) = returned p seen := by
    rw [returned_append]
    exact List.append_nil _
  refine ⟨h.coherent.setTalk id (some talk), ?_, hnodup.2, ?_, ?_, ?_, ?_, ?_, ?_⟩
  · rw [running_append]
    dsimp only
    rw [h.running_eq]
    exact List.erase_cons_head _ _
  · intro x hx
    exact h.running_drawn (List.mem_cons_of_mem _ hx)
  · intro x c hc
    rw [State.setTalk, Forest.get?_modify] at hc
    by_cases hx : id = x
    · subst hx
      rw [if_pos rfl] at hc
      obtain ⟨c₀, hc₀, rfl⟩ := Option.map_eq_some_iff.1 hc
      refine ⟨by simp [hnodup.1], fun _ => .inr rfl, ?_⟩
      rw [hhanded, hreturned]
      exact (h.books hc₀).account
    · rw [if_neg hx] at hc
      refine (h.books hc).transport (hhanded x) (hreturned x) ?_ rfl fun hserved => by cases hserved
      simp [Ne.symm hx]
  · intro p
    rw [hhanded, hreturned]
    exact h.in_order p
  · intro p hp
    rw [hhanded, hreturned]
    exact h.unborn hp
  · intro p data hmode
    cases hmode
  · intro x hmode
    cases hmode
    exact hnodup.1

theorem visible {e : Event S} (h : Ledger seen d) (hm : Visible d e d') :
    Ledger (seen ++ [⟨e, d'.state⟩]) d' := by
  cases hm with
  | asked s ids r => exact h.asked r
  | ended data hc => exact h.ended hc
  | began hmode htalk => exact h.began hmode htalk
  | stopped s ids id talk => exact h.stopped talk
  | concluding s ids id ending data => exact h.concluding
  | reached s ids stage =>
    apply h.glimpse (fun _ => rfl) (fun _ => rfl)
    rw [running_append]

/-- The books stay right through every history. -/
theorem history {c : Config S} (hc : Ledger [] c) (hh : History c seen d) : Ledger seen d := by
  induction hh with
  | refl => exact hc
  | silent _ hm ih => exact ih.silent hm
  | visible _ hm ih => exact ih.visible hm

end Ledger

end TextWorld

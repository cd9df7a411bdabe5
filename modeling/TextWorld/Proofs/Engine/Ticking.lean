import TextWorld.Proofs.Engine.Firing

/-!
A tick, part by part. Lines that have come due are fired, then every conversation has its turn, then
every hook, and then comes what these have queued.
-/

namespace TextWorld

variable {S : Setting} {ι α β : Type}

/-- The state has come about from a beginning, and nothing is going on in it. -/
def State.AtRest (s : State S) : Prop :=
  ∃ (w : World) (memory : S.Memory) (seen : List (Sight S)), w.Reachable ∧
    History ⟨.initial w memory, .settled, []⟩ seen ⟨s, .settled, []⟩

namespace State.AtRest

variable {s s' : State S} {seen : List (Sight S)}

theorem coherent (h : s.AtRest) : s.Coherent := by
  obtain ⟨w, memory, seen, hw, hhistory⟩ := h
  exact (hhistory.coherent (coherent_initial hw memory)).1

/-- Whoever has a turn is ready for it. -/
theorem ready (h : s.AtRest) {id : ConversationId} {c : Conversation S.Talk S.Ending}
    (hc : s.forest.get? id = some c) : c.talk.isSome := by
  obtain ⟨w, memory, seen, hw, hhistory⟩ := h
  exact ((hhistory.deliveriesDone (.initial hw memory) rfl rfl).idle hc).1

theorem after (h : s.AtRest) {m : Run S α} (hm : m.Settles) {a : α}
    (hcourse : m s = ⟨seen, .ok a, s'⟩) : s'.AtRest := by
  obtain ⟨w, memory, earlier, hw, hhistory⟩ := h
  obtain ⟨⟨s'', mode, running⟩, hmore, hstate, hover⟩ := hm s []
  dsimp only at hmore hstate hover
  rw [hcourse] at hmore hstate hover
  obtain ⟨rfl, rfl⟩ := hover a rfl
  cases hstate
  exact ⟨w, memory, _, hw, hhistory.append hmore⟩

end State.AtRest

namespace Stage

def line? : Stage S → Option ScheduledLine
  | .due _ line => some line
  | _ => none

def hook? : Stage S → Option (TickHook S)
  | .task (.hook hook) => some hook
  | _ => none

end Stage

def Event.ticked? : Event S → Option ConversationId
  | .began id .tick => some id
  | _ => none

/-- What is picked from the stages that were reached, in that order. -/
def reached (pick : Stage S → Option β) (seen : List (Sight S)) : List β :=
  seen.filterMap fun sight =>
    match sight.event with
    | .reached stage => pick stage
    | _ => none

/-- The lines that were fired, in that order. -/
def fired (seen : List (Sight S)) : List ScheduledLine := reached Stage.line? seen

/-- The hooks that were run, in that order. -/
def hooksRun (seen : List (Sight S)) : List (TickHook S) := reached Stage.hook? seen

/-- The conversations that a callback for a tick was run of, in that order. -/
def ticked (seen : List (Sight S)) : List ConversationId := seen.filterMap (·.event.ticked?)

theorem reached_append (pick : Stage S → Option β) (seen more : List (Sight S)) :
    reached pick (seen ++ more) = reached pick seen ++ reached pick more :=
  List.filterMap_append

theorem ticked_append (seen more : List (Sight S)) :
    ticked (seen ++ more) = ticked seen ++ ticked more :=
  List.filterMap_append

section

variable {allowed : Stage S → Prop} {generation : Option Nat} {s s' : State S}
variable {seen : List (Sight S)}

theorem Walk.reached_nil {pick : Stage S → Option β} (h : Walk allowed generation s seen s')
    (hallowed : ∀ stage, allowed stage → pick stage = none) : reached pick seen = [] := by
  apply List.filterMap_eq_nil_iff.2
  rintro ⟨event, state⟩ hmem
  cases event with
  | reached stage => exact hallowed stage (h.reached_allowed hmem rfl)
  | _ => rfl

theorem Legs.reached_eq {does : ι → State S → List (Sight S) → State S → Prop}
    {legs : List (Leg S ι)} {pick : Stage S → Option β} {k : ι → β}
    (hdoes : ∀ {i s seen s'}, does i s seen s' → reached pick seen = [k i])
    (h : Legs does s legs s') : reached pick (Leg.seen legs) = legs.map fun leg => k leg.task := by
  induction h with
  | nil s => rfl
  | cons hleg _ ih =>
    rw [Leg.seen_cons, reached_append, ih, hdoes hleg]
    rfl

theorem Walk.unticked (h : Walk allowed generation s seen s')
    (hallowed : ∀ id, ¬allowed (.task (.turn id))) : ticked seen = [] := by
  apply List.filterMap_eq_nil_iff.2
  rintro ⟨event, state⟩ hmem
  cases event with
  | began id occasion =>
    cases occasion with
    | tick => exact absurd (h.turn_allowed hmem rfl) (hallowed id)
    | _ => rfl
  | _ => rfl

end

theorem Stage.OfDispatch.line?_eq {stage : Stage S} (h : stage.OfDispatch) :
    stage.line? = none := by
  cases stage with
  | due through line => cases h
  | _ => rfl

theorem Stage.OfFiring.hook?_eq {through : Nat} {stage : Stage S} (h : stage.OfFiring through) :
    stage.hook? = none := by
  cases stage with
  | task t =>
    cases t with
    | hook hook => cases h
    | _ => rfl
  | _ => rfl

theorem ticked_bind {m : Run S α} {f : α → Run S β} {s : State S}
    {ids : List ConversationId} (hm : ticked (m s).sights = ids)
    (hf : ∀ a s, ticked (f a s).sights = []) : ticked ((m >>= f) s).sights = ids := by
  rcases hcourse : m s with ⟨seen, fault | a, s'⟩
  · rw [Run.bind_of_error hcourse]
    rwa [hcourse] at hm
  · rw [Run.bind_of_ok hcourse, ticked_append, hf, List.append_nil]
    rwa [hcourse] at hm

/-- What is done for one after another, if nothing breaks off. -/
def Runs (run : ι → Run S Unit) (i : ι) (s : State S) (seen : List (Sight S)) (s' : State S) :
    Prop :=
  run i s = ⟨seen, .ok (), s'⟩

theorem legs_of_each {run : ι → Run S Unit} {each : List ι → Run S Unit}
    (hnil : each [] = pure ()) (hcons : ∀ i is, each (i :: is) = run i >>= fun _ => each is)
    (is : List ι) {s : State S} (hok : (each is s).result = .ok ()) :
    ∃ legs s', Legs (Runs run) s legs s' ∧ legs.map (·.task) = is ∧
      each is s = ⟨Leg.seen legs, .ok (), s'⟩ := by
  induction is generalizing s with
  | nil =>
    rw [hnil]
    exact ⟨[], s, .nil s, rfl, rfl⟩
  | cons i is ih =>
    rw [hcons] at hok ⊢
    obtain ⟨seen, _, s', hrun, hrest, hall⟩ := Run.ok_of_bind hok
    obtain ⟨legs, s'', hlegs, rfl, hseen⟩ := ih hrest
    refine ⟨_, s'', .first hrun hlegs, rfl, ?_⟩
    rw [hall, hseen, Leg.seen_cons]

namespace Rules

variable {rules : Rules S} {s s' : State S} {seen : List (Sight S)}

theorem callback_ticked (rules : Rules S) {deliver : Delivery S → Run S Unit} {bound : Nat}
    (hd : ∀ d s, Acts 0 bound s (deliver d)) {id : ConversationId}
    (hready : ∀ c, s.forest.get? id = some c → c.talk.isSome)
    (body : S.Talk → Program S (α × S.Talk)) :
    ticked (rules.callback 0 deliver id .tick body s).sights =
      if s.forest.contains id then [id] else [] := by
  rw [callback, Run.get_bind]
  -- A conversation that is there is not in the middle of a callback, so its talk is there too.
  cases hc : s.forest.get? id with
  | none =>
    rw [if_neg (by rw [Forest.contains_iff, hc]; exact Bool.false_ne_true)]
    rfl
  | some c =>
    obtain ⟨talk, htalk⟩ := Option.isSome_iff_exists.1 (hready c hc)
    rw [if_pos (by rw [Forest.contains_iff, hc]; rfl), Option.bind_some, htalk]
    have hrest := (body_acts rules hd id (body talk) (s.setTalk id none)).walk.unticked
      fun _ hstage => hstage
    exact congrArg (id :: ·) hrest

/-- A conversation that is there has one callback in its turn, and one that is gone has none. -/
theorem tickConversation_ticked (rules : Rules S) (id : ConversationId)
    (hready : ∀ c, s.forest.get? id = some c → c.talk.isSome) :
    ticked (rules.tickConversation id s).sights = if s.forest.contains id then [id] else [] := by
  have hd := deliver_acts rules 0 rules.maxDeliveries
  unfold tickConversation
  rw [Run.bind_of_ok (m := Run.reach (.task (.turn id))) rfl, Run.discard_eq, ticked_append]
  apply ticked_bind (callback_ticked rules hd hready _)
  intro result t
  have hrest : Acts 0 rules.maxDeliveries t (do
      if result.isSome then handOn (rules.deliver 0 rules.maxDeliveries) id
      pure result) := by
    split
    · exact Run.goes_bind (handOn_acts hd id _) fun _ _ => Run.goes_pure _
    · exact Run.goes_pure _
  exact hrest.walk.unticked fun _ hstage => hstage

theorem tickConversation_ran {id : ConversationId}
    (h : Runs rules.tickConversation id s seen s') :
    Walk (fun stage => ∃ id, stage = .task (.turn id)) (some 0) s seen s' := by
  have hgoes : (rules.tickConversation id).Goes (fun stage => ∃ id, stage = .task (.turn id))
      (some 0) rules.maxDeliveries s := tickConversation_goes rules ⟨id, rfl⟩ s
  have hwalk := hgoes.walk
  rwa [h] at hwalk

/-- A hook in its turn. -/
def runHook (rules : Rules S) (delta : Duration) (hook : TickHook S) : Run S Unit := do
  Run.reach (.task (.hook hook))
  rules.execute 0 (hook delta)

theorem runHook_goes (rules : Rules S) (delta : Duration) (hook : TickHook S) (s : State S) :
    (rules.runHook delta hook).Goes (fun stage => ∃ hook, stage = .task (.hook hook)) (some 0)
      rules.maxDeliveries s :=
  Run.goes_bind_of_ok rfl (.reached s ⟨hook, rfl⟩ trivial) (execute_acts rules 0 _ s).within

theorem runHook_ran {delta : Duration} {hook : TickHook S}
    (h : Runs (rules.runHook delta) hook s seen s') :
    Walk (fun stage => ∃ hook, stage = .task (.hook hook)) (some 0) s seen s' := by
  have hwalk := (rules.runHook_goes delta hook s).walk
  rwa [h] at hwalk

theorem drain_walk (h : rules.drain s = ⟨seen, .ok (), s'⟩) :
    Walk Stage.OfDispatch none s seen s' := by
  have hwalk := ((dispatches_parts rules).drain s).walk
  rwa [h] at hwalk

theorem Fires.atRest {through : Nat} {entry : Slot × ScheduledLine}
    (h : rules.Fires through entry s seen s') (hs : s.AtRest) : s'.AtRest := by
  cases h with
  | taken hpop htakes hdispatch =>
    have htaken := hs.after (takeDue_settles through) (takeDue_of_some hpop)
    exact htaken.after ((settles_callParts rules).dispatch _ _) hdispatch

theorem Fires.reached_line {through : Nat} {entry : Slot × ScheduledLine}
    (h : rules.Fires through entry s seen s') : reached Stage.line? seen = [entry.2] := by
  cases h with
  | taken hpop htakes hdispatch =>
    have hrest := (dispatch_walk hdispatch).reached_nil fun _ hstage => hstage.line?_eq
    exact congrArg (_ :: ·) hrest

theorem runHook_reached {delta : Duration} {hook : TickHook S}
    (h : Runs (rules.runHook delta) hook s seen s') : reached Stage.hook? seen = [hook] := by
  have hseen : seen =
      ⟨.reached (.task (.hook hook)), s⟩ :: (rules.execute 0 (hook delta) s).sights :=
    (congrArg Course.sights h).symm
  have hrest : reached Stage.hook? (rules.execute 0 (hook delta) s).sights = [] :=
    (execute_acts rules 0 (hook delta) s).walk.reached_nil fun _ hstage => absurd hstage id
  rw [hseen]
  exact congrArg (hook :: ·) hrest

theorem turns_ticked {turns : List (Leg S ConversationId)}
    (h : Legs (Runs rules.tickConversation) s turns s') (hs : s.AtRest) :
    ticked (Leg.seen turns) =
      (turns.filter fun t => t.before.forest.contains t.task).map (·.task) := by
  induction h with
  | nil s => rfl
  | @cons t turns s' hran _ ih =>
    have hrest := ih (hs.after (tickConversation_settles rules t.task) hran)
    have hturn := tickConversation_ticked rules t.task fun c hc => hs.ready hc
    rw [hran] at hturn
    dsimp only at hturn
    rw [Leg.seen_cons, ticked_append, hturn, hrest, List.filter_cons]
    split <;> rfl

end Rules

/-- How things are between two calls. -/
structure State.Quiet (s : State S) : Prop where
  atRest : s.AtRest
  dated : s.forest.scheduler.Dated
  emptied : s.followUps.toList = []

theorem Call.runAll_quiet {w : World} (hw : w.Reachable) (memory : S.Memory)
    {calls : List (Rules S × Call S)} {seen : List (Sight S)} {s : State S}
    (h : runAll calls (.initial w memory) = ⟨seen, .ok (), s⟩) : s.Quiet := by
  have hstart : (State.initial w memory : State S).AtRest := ⟨w, memory, [], hw, .refl⟩
  refine ⟨hstart.after (runAll_settles calls) h, ?_, ?_⟩
  · have hwalk := (runAll_works calls (.initial w memory)).walk
    rw [h] at hwalk
    exact Scheduler.dated_empty.later (hwalk.sheds Scheduler.kept_empty).later
  · have hstarted : (State.initial w memory : State S).followUps.toList = [] := rfl
    have hemptied := runAll_emptied hstarted (congrArg Course.result h)
    rwa [h] at hemptied

/-- A tick in its parts, and how things are between them. -/
structure TickParts (S : Setting) where
  /-- When the clock has been advanced. -/
  start : State S
  firings : List (Leg S (Slot × ScheduledLine))
  fired : State S
  turns : List (Leg S ConversationId)
  turned : State S
  hooks : List (Leg S (TickHook S))
  hooked : State S
  drained : List (Sight S)
  last : State S

namespace TickParts

/-- What there is to see of the turns and the hooks. -/
def inTurn (parts : TickParts S) : List (Sight S) := Leg.seen parts.turns ++ Leg.seen parts.hooks

def sights (parts : TickParts S) : List (Sight S) :=
  Leg.seen parts.firings ++ (parts.inTurn ++ parts.drained)

end TickParts

/-- How a tick goes that comes to its end. -/
structure Ticks (rules : Rules S) (delta : Duration) (s : State S) (parts : TickParts S)
    (course : Course S Unit) : Prop where
  course_eq : course = ⟨⟨.reached (.passing delta), s⟩ :: parts.sights, .ok (), parts.last⟩
  started : ∃ world, s.world.advance delta = some world ∧ parts.start = { s with world }
  fires : Legs (rules.Fires parts.start.forest.scheduler.lastSequence) parts.start parts.firings
    parts.fired
  none_due : parts.fired.forest.scheduler.popNext parts.fired.world.now
    parts.start.forest.scheduler.lastSequence = none
  turns : Legs (Runs rules.tickConversation) parts.fired parts.turns parts.turned
  turns_eq : parts.turns.map (·.task) = parts.fired.forest.ids
  hooks : Legs (Runs (rules.runHook delta)) parts.turned parts.hooks parts.hooked
  hooks_eq : parts.hooks.map (·.task) = rules.hooks
  drain : rules.drain parts.hooked = ⟨parts.drained, .ok (), parts.last⟩

/-- What comes of a tick. -/
structure TickLaw (rules : Rules S) (delta : Duration) (s : State S) (parts : TickParts S)
    (course : Course S Unit) : Prop extends Ticks rules delta s parts course where
  firing : FiringLaw rules parts.start parts.firings parts.fired
  fired_eq : fired course.sights = parts.firings.map (·.task.2)
  /-- What is scheduled during the tick stays pending, unless it is withdrawn later on. -/
  scheduled : ∀ {before after sight line}, course.sights = before ++ sight :: after →
    sight.Schedules line → (∀ later ∈ after, ¬later.Withdraws line.conversation) →
      parts.last.forest.scheduler.pending line.conversation = some line
  ids_ascending : parts.fired.forest.ids.Pairwise (·.index < ·.index)
  /-- Those that are there when they have their turn get one callback each, and no others do. -/
  ticked_eq : ticked course.sights =
    (parts.turns.filter fun t => t.before.forest.contains t.task).map (·.task)
  hooksRun_eq : hooksRun course.sights = rules.hooks
  /-- What the turns and the hooks queue is dispatched after all of them. -/
  none_in_turn : dispatched parts.inTurn = []
  in_order : FirstInFirstOut rules []
    (⟨parts.inTurn ++ parts.drained, .ok (), parts.last⟩ : Course S Unit)

theorem Forest.ids_ascending {τ ε : Type} (f : Forest τ ε) :
    f.ids.Pairwise (·.index < ·.index) := by
  have hsorted := Std.ExtTreeMap.ordered_keys (t := f.table)
  exact hsorted.imp fun {a b} hlt => Nat.compare_eq_lt.1 hlt

namespace Rules

variable {rules : Rules S} {s s' : State S}

theorem tickConversations_legs {ids : List ConversationId} {seen : List (Sight S)}
    (h : rules.tickConversations ids s = ⟨seen, .ok (), s'⟩) :
    ∃ turns, Legs (Runs rules.tickConversation) s turns s' ∧ turns.map (·.task) = ids ∧
      seen = Leg.seen turns := by
  obtain ⟨turns, last, hlegs, htasks, hcourse⟩ :=
    legs_of_each rfl (fun _ _ => rfl) ids (congrArg Course.result h)
  rw [hcourse] at h
  cases h
  exact ⟨turns, hlegs, htasks, rfl⟩

theorem runHooks_legs {delta : Duration} {hooks : List (TickHook S)} {seen : List (Sight S)}
    (h : rules.runHooks delta hooks s = ⟨seen, .ok (), s'⟩) :
    ∃ legs, Legs (Runs (rules.runHook delta)) s legs s' ∧ legs.map (·.task) = hooks ∧
      seen = Leg.seen legs := by
  have hcons (hook : TickHook S) (hooks : List (TickHook S)) :
      rules.runHooks delta (hook :: hooks) =
        rules.runHook delta hook >>= fun _ => rules.runHooks delta hooks := by
    rw [runHook, bind_assoc]
    rfl
  obtain ⟨legs, last, hlegs, htasks, hcourse⟩ :=
    legs_of_each rfl hcons hooks (congrArg Course.result h)
  rw [hcourse] at h
  cases h
  exact ⟨legs, hlegs, htasks, rfl⟩

end Rules

/-- Tasks that are no lines, and stages that are no tasks. -/
def Stage.InTurn (stage : Stage S) : Prop :=
  (∃ id, stage = .task (.turn id)) ∨ ∃ hook, stage = .task (.hook hook)

/-- Reached during a tick in which lines up to a number are fired. -/
def Stage.OfTick (through : Nat) : Stage S → Prop
  | .due through' _ => through' = through
  | _ => True

theorem Stage.OfDispatch.ofTick {stage : Stage S} (h : stage.OfDispatch) (through : Nat) :
    stage.OfTick through := by
  cases stage with
  | due through' line => cases h
  | _ => trivial

theorem Stage.OfFiring.ofTick {stage : Stage S} {through : Nat} (h : stage.OfFiring through) :
    stage.OfTick through := by
  cases stage with
  | due through' line => exact h
  | _ => trivial

theorem Stage.InTurn.ofTick {stage : Stage S} (h : stage.InTurn) (through : Nat) :
    stage.OfTick through := by
  rcases h with ⟨id, rfl⟩ | ⟨hook, rfl⟩ <;> trivial

theorem Rules.tick_ticks {rules : Rules S} {delta : Duration} {s : State S}
    (hk : s.forest.scheduler.Kept) (hok : (rules.tick delta s).result = .ok ()) :
    ∃ parts, Ticks rules delta s parts (rules.tick delta s) := by
  obtain ⟨passed, start, firings, fired, turns, turned, hooks, hooked, drained, last, hpass, hfire,
    hturns, hhooks, hdrain, hall⟩ := tick_split hok
  cases hworld : s.world.advance delta with
  | none =>
    -- Then the tick would have broken off.
    rw [passTime_of_none hworld] at hpass
    cases hpass
  | some world =>
    rw [passTime_of_some hworld] at hpass
    cases hpass
    have hkept : { s with world }.forest.scheduler.Kept := hk
    obtain ⟨fires, fired', hfires, hnone, hcourse⟩ := fireDue_fires (s := { s with world }) rules
      _ _ hkept (Nat.le_refl _) (Scheduler.length_older_le _ _) (congrArg Course.result hfire)
    rw [hcourse] at hfire
    cases hfire
    obtain ⟨turns, hlegs, hids, rfl⟩ := tickConversations_legs hturns
    obtain ⟨hooks, hlegs', hhooks', rfl⟩ := runHooks_legs hhooks
    refine ⟨⟨{ s with world }, fires, fired, turns, turned, hooks, hooked, drained, last⟩, ?_,
      ⟨world, hworld, rfl⟩, hfires, hnone, hlegs, hids, hlegs', hhooks', hdrain⟩
    rw [hall, TickParts.sights, TickParts.inTurn, List.append_assoc]
    rfl

namespace Ticks

variable {rules : Rules S} {delta : Duration} {s : State S} {parts : TickParts S}
variable {course : Course S Unit} (h : Ticks rules delta s parts course)
include h

theorem firing_walk : Walk (Stage.OfFiring parts.start.forest.scheduler.lastSequence) none
    parts.start (Leg.seen parts.firings) parts.fired :=
  h.fires.walk Rules.Fires.walk

theorem inTurn_walk : Walk Stage.InTurn (some 0) parts.fired parts.inTurn parts.hooked := by
  have hfirst : Walk Stage.InTurn (some 0) parts.fired (Leg.seen parts.turns) parts.turned :=
    (h.turns.walk Rules.tickConversation_ran).mono (fun _ hstage => .inl hstage) fun _ hg => hg
  exact hfirst.append ((h.hooks.walk Rules.runHook_ran).mono (fun _ hstage => .inr hstage)
    fun _ hg => hg)

theorem walk :
    Walk (Stage.OfTick s.forest.scheduler.lastSequence) none s course.sights parts.last := by
  -- The clock has nothing to do with what is pending, so the limit is that of the beginning.
  obtain ⟨world, hworld, hstart⟩ := h.started
  have hfiring := h.firing_walk
  rw [hstart] at hfiring
  have hinTurn : Walk (Stage.OfTick s.forest.scheduler.lastSequence) none parts.fired parts.inTurn
      parts.hooked :=
    h.inTurn_walk.mono (fun _ hstage => hstage.ofTick _) fun _ hg => by cases hg
  have hdrain := (Rules.drain_walk h.drain).mono
    (fun _ hstage => hstage.ofTick s.forest.scheduler.lastSequence) fun _ hg => hg
  rw [h.course_eq]
  refine .step (.passed trivial hworld) ?_
  exact (hfiring.mono (fun _ hstage => hstage.ofTick) fun _ hg => hg).append
    (hinTurn.append hdrain)

theorem fired_eq : fired course.sights = parts.firings.map (·.task.2) := by
  have hinTurn : reached Stage.line? parts.inTurn = [] := by
    apply h.inTurn_walk.reached_nil
    rintro stage (⟨id, rfl⟩ | ⟨hook, rfl⟩) <;> rfl
  have hdrain := (Rules.drain_walk h.drain).reached_nil fun _ hstage => hstage.line?_eq
  rw [h.course_eq]
  calc
    reached Stage.line? parts.sights = reached Stage.line? (Leg.seen parts.firings) := by
      rw [TickParts.sights, reached_append, reached_append, hinTurn, hdrain, List.append_nil,
        List.append_nil]
    _ = parts.firings.map (·.task.2) := h.fires.reached_eq Rules.Fires.reached_line

theorem hooksRun_eq : hooksRun course.sights = rules.hooks := by
  have hfiring := h.firing_walk.reached_nil fun _ hstage => hstage.hook?_eq
  have hturns : reached Stage.hook? (Leg.seen parts.turns) = [] := by
    apply (h.turns.walk Rules.tickConversation_ran).reached_nil
    rintro stage ⟨id, rfl⟩
    rfl
  have hdrain := (Rules.drain_walk h.drain).reached_nil fun _ hstage =>
    (hstage.ofFiring 0).hook?_eq
  rw [h.course_eq]
  calc
    reached Stage.hook? parts.sights = reached Stage.hook? (Leg.seen parts.hooks) := by
      rw [TickParts.sights, TickParts.inTurn, reached_append, reached_append, reached_append,
        hfiring, hturns, hdrain, List.append_nil]
      rfl
    _ = parts.hooks.map (·.task) := h.hooks.reached_eq Rules.runHook_reached
    _ = rules.hooks := h.hooks_eq

theorem ticked_eq (hs : s.AtRest) : ticked course.sights =
    (parts.turns.filter fun t => t.before.forest.contains t.task).map (·.task) := by
  obtain ⟨world, hworld, hstart⟩ := h.started
  have hstarted : parts.start.AtRest := by
    rw [hstart]
    exact hs.after (Rules.passTime_settles delta) (Rules.passTime_of_some hworld)
  have hfired : parts.fired.AtRest :=
    (h.fires.keeps (I := State.AtRest) Rules.Fires.atRest hstarted).1
  -- Only turns begin callbacks for a tick.
  have hfiring := h.firing_walk.unticked fun _ hstage => hstage
  have hhooks := (h.hooks.walk Rules.runHook_ran).unticked fun id ⟨hook, heq⟩ => by cases heq
  have hdrain := (Rules.drain_walk h.drain).unticked fun _ hstage => hstage
  rw [h.course_eq]
  calc
    ticked (⟨.reached (.passing delta), s⟩ :: parts.sights) = ticked parts.sights := rfl
    _ = ticked (Leg.seen parts.turns) := by
      rw [TickParts.sights, TickParts.inTurn, ticked_append, ticked_append, ticked_append, hfiring,
        hhooks, hdrain, List.append_nil, List.append_nil]
      rfl
    _ = _ := Rules.turns_ticked h.turns hfired

theorem inTurn_queue : Queues 0 parts.fired parts.inTurn parts.hooked := by
  apply h.inTurn_walk.queue
  rintro t (⟨id, heq⟩ | ⟨hook, heq⟩)
  · cases heq
    exact ⟨rfl, fun f hf => by cases hf⟩
  · cases heq
    exact ⟨rfl, fun f hf => by cases hf⟩

theorem in_order (hs : s.followUps.toList = []) : FirstInFirstOut rules []
    (⟨parts.inTurn ++ parts.drained, .ok (), parts.last⟩ : Course S Unit) := by
  obtain ⟨world, hworld, hstart⟩ := h.started
  have hfired : parts.fired.followUps.toList = [] := by
    apply (h.fires.keeps (I := fun s => s.followUps.toList = []) Rules.Fires.emptied _).1
    rw [hstart]
    exact hs
  have hqueue := h.inTurn_queue
  -- The turns and the hooks are like a program that is followed by what it has queued.
  let m : Run S Unit := fun _ => ⟨parts.inTurn, .ok (), parts.hooked⟩
  have hm : m parts.fired = ⟨parts.inTurn, .ok (), parts.hooked⟩ := rfl
  have hworks : Rules.Works rules.maxDeliveries parts.fired m :=
    Run.goes_of_ok hm (h.inTurn_walk.mono (fun _ _ => trivial) fun _ hg => by cases hg)
  have hfollowUps := hqueue.followUps_eq
  rw [hfired, List.nil_append] at hfollowUps
  have hfifo := Rules.drain_firstInFirstOut hworks (fun f hf => absurd hf List.not_mem_nil)
    hqueue.dispatched_eq hfollowUps hqueue.deeper
  rw [Run.bind_of_ok hm, Run.bind_const, h.drain] at hfifo
  exact hfifo

theorem law (hs : s.Quiet) : TickLaw rules delta s parts course where
  toTicks := h
  firing := by
    obtain ⟨world, hworld, hstart⟩ := h.started
    apply h.fires.firingLaw
    · rw [hstart]
      exact hs.atRest.coherent.kept
    · rw [hstart]
      exact hs.dated
    · rw [hstart]
      exact hs.emptied
    · exact h.none_due
  fired_eq := h.fired_eq
  scheduled {before after sight line} hcourse hsight hafter := by
    have hwalk := h.walk
    rw [hcourse] at hwalk
    apply hwalk.scheduled_stays hs.atRest.coherent.kept _ hsight hafter
    exact fun through fired hstage => Nat.le_of_eq hstage
  ids_ascending := Forest.ids_ascending _
  ticked_eq := h.ticked_eq hs.atRest
  hooksRun_eq := h.hooksRun_eq
  none_in_turn := h.inTurn_queue.dispatched_eq
  in_order := h.in_order hs.emptied

end Ticks

/-- After calls that have all come to their ends, starting from a world that has come about by
operations, a tick comes to its end part by part, or it breaks off for a reason; nothing but
deliveries without end keeps it from coming to its end. -/
theorem tick_in_order {w : World} (hw : w.Reachable) (memory : S.Memory)
    {calls : List (Rules S × Call S)} {seen : List (Sight S)} {s : State S}
    (hs : Call.runAll calls (.initial w memory) = ⟨seen, .ok (), s⟩) (rules : Rules S)
    (delta : Duration) :
    (∀ fault, (rules.tick delta s).result = .error fault →
      Founded rules.maxDeliveries fault (rules.tick delta s).sights) ∧
    ((rules.tick delta s).result = .ok () →
      ∃ parts, TickLaw rules delta s parts (rules.tick delta s)) ∧
    TerminationLaw rules (·.tick delta) s := by
  have hquiet := Call.runAll_quiet hw memory hs
  have hparts : CallParts rules fun m => ∀ s, Rules.Works rules.maxDeliveries s m :=
    Rules.works_callParts (Nat.le_refl _)
  have hworks := hparts.tick delta s
  refine ⟨hworks.founded, fun hok => ?_, rules.tick_terminationLaw delta s⟩
  obtain ⟨parts, hticks⟩ := Rules.tick_ticks hquiet.atRest.coherent.kept hok
  exact ⟨parts, hticks.law hquiet⟩

/-- Conversations that answer a line by letting ten seconds pass. -/
def dawdling : Rules plainSetting :=
  { chatter with
    behaviour :=
      { chatter.behaviour with
        onInput := fun talk _ _ _ => do
          let _ ← Program.perform (.advance (.ofSeconds 10))
          pure (.handled, talk) } }

/-- A conversation with either of them, and a line to come for each. -/
def talkWithBoth : Program plainSetting Unit := do
  let _ ← Program.start [⟨3⟩] () none
  let _ ← Program.start [⟨4⟩] () none
  let _ ← Program.schedule ⟨1⟩ ⟨3⟩ "soon" (.ofSeconds 1)
  let _ ← Program.schedule ⟨2⟩ ⟨4⟩ "later" (.ofSeconds 5)
  pure ()

theorem dawdling_ticked : (World.empty.run innWithTwo).map (fun w =>
    let course := Call.runAll [(dawdling, .withContext talkWithBoth)] (.initial w ())
    let tick := dawdling.tick (.ofSeconds 1) course.state
    (course.result, course.state.world.now, tick.result, fired tick.sights, ticked tick.sights)) =
      some (.ok (), .zero, .ok (),
        [⟨⟨1⟩, ⟨3⟩, "soon", .ofSeconds 1⟩, ⟨⟨2⟩, ⟨4⟩, "later", .ofSeconds 5⟩], [⟨1⟩, ⟨2⟩]) := by
  rfl

/-- The line that is fired first moves the clock on, and then the other one has come due as well,
though not by the time to which the tick has advanced the clock. -/
theorem tick_fires_not_yet_due :
    ∃ w seen s, World.empty.run innWithTwo = some w ∧
      Call.runAll [(dawdling, .withContext talkWithBoth)] (.initial w ()) = ⟨seen, .ok (), s⟩ ∧
      s.world.now.add? (.ofSeconds 1) = some (.ofSeconds 1) ∧
      (dawdling.tick (.ofSeconds 1) s).result = .ok () ∧
      ∃ line ∈ fired (dawdling.tick (.ofSeconds 1) s).sights, Duration.ofSeconds 1 < line.due := by
  obtain ⟨w, hw, hticked⟩ := Option.map_eq_some_iff.1 dawdling_ticked
  rcases hcourse : Call.runAll [(dawdling, .withContext talkWithBoth)] (.initial w ())
    with ⟨seen, result, s⟩
  rw [hcourse] at hticked
  simp only [Prod.mk.injEq] at hticked
  obtain ⟨rfl, hnow, hresult, hfired, -⟩ := hticked
  refine ⟨w, seen, s, hw, hcourse, ?_, hresult, ⟨⟨2⟩, ⟨4⟩, "later", .ofSeconds 5⟩, ?_, by decide⟩
  · rw [hnow]
    rfl
  · rw [hfired]
    exact List.mem_cons_of_mem _ List.mem_cons_self

/-- A conversation that starts a child and ends it at each turn is never done with a tick: whatever
the room for deliveries, it is too small. -/
theorem tick_endless_bouncing :
    ∃ w seen s, World.empty.run innWithGuest = some w ∧
      Call.runAll [(bouncing, .withContext (discard <| Program.start [⟨3⟩] () none))]
        (.initial w ()) = ⟨seen, .ok (), s⟩ ∧
      s.world.now.add? (.ofSeconds 1) = some (.ofSeconds 1) ∧
      ∀ n, ((bouncing.allowing n).tick (.ofSeconds 1) s).result = .error .endlessDeliveries := by
  have hrun : ((World.empty.run innWithGuest).map fun w =>
      let course := Call.runAll
        [(bouncing, .withContext (discard <| Program.start [⟨3⟩] () none))] (.initial w ())
      let s := course.state
      (course.result, s.world.now.add? (.ofSeconds 1), s.forest.get? ⟨1⟩, s.forest.lastIndex,
        (s.world.character? ⟨3⟩).bind (·.conversation), s.forest.ids, s.forest.scheduler.size)) =
      some (.ok (), some (.ofSeconds 1), some ⟨[⟨3⟩], none, none, some (), none, .empty⟩, 1,
        some ⟨1⟩, [⟨1⟩], 0) := by rfl
  obtain ⟨w, hw, hticks⟩ := Option.map_eq_some_iff.1 hrun
  rcases hcourse : Call.runAll
    [(bouncing, .withContext (discard <| Program.start [⟨3⟩] () none))] (.initial w ())
    with ⟨seen, result, s⟩
  rw [hcourse] at hticks
  simp only [Prod.mk.injEq] at hticks
  obtain ⟨rfl, hnow, hthere, hdrawn, hheld, hids, hsize⟩ := hticks
  have hhosts := Hosts.mk hthere (Nat.le_of_eq hdrawn.symm) hheld
  exact ⟨w, seen, s, hw, hcourse, hnow,
    fun n => (Rules.endless_tick n hhosts hnow hids hsize).result⟩

/-- So a tick may fire what is not due by the time to which it has advanced the clock, and it need
not come to its end. -/
theorem tick_not_timely_nor_finite :
    (∃ w seen s, World.empty.run innWithTwo = some w ∧
      Call.runAll [(dawdling, .withContext talkWithBoth)] (.initial w ()) = ⟨seen, .ok (), s⟩ ∧
      s.world.now.add? (.ofSeconds 1) = some (.ofSeconds 1) ∧
      (dawdling.tick (.ofSeconds 1) s).result = .ok () ∧
      ∃ line ∈ fired (dawdling.tick (.ofSeconds 1) s).sights, Duration.ofSeconds 1 < line.due) ∧
    ∃ w seen s, World.empty.run innWithGuest = some w ∧
      Call.runAll [(bouncing, .withContext (discard <| Program.start [⟨3⟩] () none))]
        (.initial w ()) = ⟨seen, .ok (), s⟩ ∧
      s.world.now.add? (.ofSeconds 1) = some (.ofSeconds 1) ∧
      ∀ n, ((bouncing.allowing n).tick (.ofSeconds 1) s).result = .error .endlessDeliveries :=
  ⟨tick_fires_not_yet_due, tick_endless_bouncing⟩

theorem tick_in_order_talkWithBoth :
    ∃ w seen s, World.empty.run innWithTwo = some w ∧
      Call.runAll [(dawdling, .withContext talkWithBoth)] (.initial w ()) = ⟨seen, .ok (), s⟩ ∧
      (dawdling.tick (.ofSeconds 1) s).result = .ok () ∧
      ticked (dawdling.tick (.ofSeconds 1) s).sights = [⟨1⟩, ⟨2⟩] ∧
      ∃ parts, TickLaw dawdling (.ofSeconds 1) s parts (dawdling.tick (.ofSeconds 1) s) := by
  obtain ⟨w, hw, hticked⟩ := Option.map_eq_some_iff.1 dawdling_ticked
  rcases hcourse : Call.runAll [(dawdling, .withContext talkWithBoth)] (.initial w ())
    with ⟨seen, result, s⟩
  rw [hcourse] at hticked
  simp only [Prod.mk.injEq] at hticked
  obtain ⟨rfl, -, hresult, -, hturns⟩ := hticked
  obtain ⟨-, hlaw, -⟩ := tick_in_order (S := plainSetting) ⟨innWithTwo, hw⟩ () hcourse dawdling
    (.ofSeconds 1)
  exact ⟨w, seen, s, hw, hcourse, hresult, hturns, hlaw hresult⟩

end TextWorld

import TextWorld.Proofs.Engine.Composition

/-!
The engine step by step. Each step is a request with what it does, a callback that begins or is
over, an end, or something that the engine reaches by itself. A computation goes if it goes on in
such steps, and breaks off only for a reason that can be seen.
-/

namespace TextWorld

variable {S : Setting} {α β : Type}

/-- What a request does to the state. An end is granted in steps of its own. -/
def State.granted (s : State S) (depth : Nat) : Request S → State S
  | .emit recipient text => s.emit recipient text
  | .emitRoom room except text => s.emitRoom room except text
  | .send actor line => { s with followUps := s.followUps.push ⟨actor, line, depth + 1⟩ }
  | .perform op =>
    match s.world.perform op with
    | none => s
    | some (_, world) => { s with world }
  | .edit e => { s with world := (s.world.edit e).2 }
  | .start participants talk ending => (s.start participants talk ending).2
  | .startChild parent participants talk => (s.startChild parent participants talk).2
  | .schedule id actor line delay =>
    match s.schedule id actor line delay with
    | none => s
    | some (_, s) => s
  | .cancel id => { s with forest.scheduler := s.forest.scheduler.cancel id }
  | .setMemory memory => { s with memory }
  | .finish .. | .world | .conversations | .catalogue | .config | .getMemory | .add .. => s

/-- The gates of a definition let a character through. -/
def Definition.Admits {ρ : Type} (d : Definition ρ) (c : Character) (now : Duration) : Prop :=
  (d.adminOnly = true → c.isAdmin = true) ∧
    (d.balanceGated = true → c.balanceRemaining now = none)

namespace Stage

/-- What has to be so for a stage to be reached while nothing changes. -/
def Warranted (s : State S) : Stage S → Prop
  | .passing delta => s.world.advance delta = none
  | .due _ _ => False
  | .invoked d inv => ∃ c, s.world.character? inv.actor = some c ∧ d.Admits c s.world.now
  | .barred d actor left => d.balanceGated = true ∧
    ∃ c, s.world.character? actor = some c ∧ c.balanceRemaining s.world.now = some left
  | _ => True

/-- Reached while the chain is asked about a line. -/
def OfChain : Stage S → Prop
  | .offered _ | .answered _ _ | .invoked _ _ | .barred _ _ _ => True
  | _ => False

/-- Reached while lines are dispatched. -/
def OfDispatch : Stage S → Prop
  | .task (.line _) | .done _ => True
  | stage => stage.OfChain

theorem OfChain.ofDispatch {stage : Stage S} (h : stage.OfChain) : stage.OfDispatch := by
  cases stage with
  | task t => cases h
  | done outcome => trivial
  | _ => exact h

end Stage

/-- A step, with what there is to see. The stages that may be reached are limited, and callbacks for
a tick begin only where turns may be reached; the lines queued are of one generation, or else
nothing is known about them. -/
inductive Step (allowed : Stage S → Prop) (generation : Option Nat) :
    State S → List (Sight S) → State S → Prop where
  | asked (s : State S) (r : Request S) (depth : Nat)
      (h : ∀ g, generation = some g → depth = g) :
      Step allowed generation s [⟨.asked r, s⟩] (s.granted depth r)
  | ended {s : State S} {id : ConversationId} {c : Conversation S.Talk S.Ending} (data : Value)
      (h : s.forest.get? id = some c) :
      Step allowed generation s [⟨.ended id c (s.forest.descendants id) data, s.closeAll id⟩]
        (s.closeAll id)
  | began (s : State S) (id : ConversationId) (occasion : Occasion)
      (h : occasion = .tick → allowed (.task (.turn id))) :
      Step allowed generation s [⟨.began id occasion, s.setTalk id none⟩] (s.setTalk id none)
  | stopped (s : State S) (id : ConversationId) (talk : S.Talk) :
      Step allowed generation s [⟨.stopped id, s.setTalk id (some talk)⟩]
        (s.setTalk id (some talk))
  | concluding (s : State S) (id : ConversationId) (ending : S.Ending) (data : Value) :
      Step allowed generation s [⟨.concluding id ending data, s⟩] s
  | handBack (s : State S) (id : ConversationId) (data : Value) :
      Step allowed generation s [] (s.handBack id data)
  | takeBack {s : State S} {id : ConversationId} {data : Value}
      {forest : Forest S.Talk S.Ending} (h : s.forest.takeHandedBack id = some (data, forest)) :
      Step allowed generation s [] { s with forest }
  | reached (s : State S) {stage : Stage S} (h : allowed stage) (hw : stage.Warranted s) :
      Step allowed generation s [⟨.reached stage, s⟩] s
  | told (s : State S) (actor : CharacterId) (text : String) :
      Step allowed generation s [] (s.emit actor text)
  | cleared (s : State S) (h : generation = none) :
      Step allowed generation s [] { s with followUps := .empty }
  | passed {s : State S} {delta : Duration} {world : World} (h : allowed (.passing delta))
      (hworld : s.world.advance delta = some world) :
      Step allowed generation s [⟨.reached (.passing delta), s⟩] { s with world }
  | fired {s : State S} {through : Nat} {line : ScheduledLine} {scheduler : Scheduler}
      (h : allowed (.due through line))
      (hpop : s.forest.scheduler.popNext s.world.now through = some (line, scheduler)) :
      Step allowed generation s [⟨.reached (.due through line), s⟩]
        { s with forest.scheduler := scheduler }

/-- Steps one after another. -/
inductive Walk (allowed : Stage S → Prop) (generation : Option Nat) :
    State S → List (Sight S) → State S → Prop where
  | refl (s : State S) : Walk allowed generation s [] s
  | step {s s' s'' : State S} {seen more : List (Sight S)}
      (h : Step allowed generation s seen s') (h' : Walk allowed generation s' more s'') :
      Walk allowed generation s (seen ++ more) s''

/-- Whether what there is to see is completion data that comes to its receiver. -/
def Event.isDelivery : Event S → Bool
  | .began _ (.returned _) | .concluding _ _ _ => true
  | _ => false

/-- Whether there is about to be a time that no clock can show. -/
def Sight.Overflows (sight : Sight S) : Prop :=
  match sight.event with
  | .asked (.perform op) => sight.state.world.perform op = none
  | .asked (.schedule id actor line delay) => sight.state.schedule id actor line delay = none
  | .asked (.add a b) => a.add? b = none
  | .reached (.passing delta) => sight.state.world.advance delta = none
  | _ => False

/-- There is a reason to break off: the last thing to see leads to a time that no clock can show,
or so many deliveries have been made. -/
def Founded (bound : Nat) (fault : Fault) (seen : List (Sight S)) : Prop :=
  match fault with
  | .clockOverflow => ∃ before sight, seen = before ++ [sight] ∧ sight.Overflows
  | .endlessDeliveries => bound ≤ (seen.filter (·.event.isDelivery)).length

/-- What is seen in one part or the other is seen in the first or in the second. -/
theorem sight_of_append {seen more before after : List (Sight S)} {sight : Sight S}
    (h : seen ++ more = before ++ sight :: after) :
    (∃ later, seen = before ++ sight :: later ∧ after = later ++ more) ∨
      ∃ earlier, before = seen ++ earlier ∧ more = earlier ++ sight :: after := by
  rcases List.append_eq_append_iff.1 h with ⟨middle, hbefore, hmore⟩ | ⟨middle, hseen, hafter⟩
  · exact .inr ⟨middle, hbefore, hmore⟩
  · cases middle with
    | nil => exact .inr ⟨[], by simpa using hseen.symm, by simpa using hafter.symm⟩
    | cons first middle =>
      obtain ⟨rfl, rfl⟩ := List.cons.inj hafter
      exact .inl ⟨middle, hseen, rfl⟩

section

variable {allowed allowed' : Stage S → Prop} {generation generation' : Option Nat}
variable {s s' s'' : State S} {seen more : List (Sight S)} {bound bound' : Nat} {fault : Fault}

theorem Walk.single (h : Step allowed generation s seen s') :
    Walk allowed generation s seen s' := by
  have hwalk := Walk.step h (.refl s')
  rwa [List.append_nil] at hwalk

theorem Walk.append (h : Walk allowed generation s seen s')
    (h' : Walk allowed generation s' more s'') :
    Walk allowed generation s (seen ++ more) s'' := by
  induction h with
  | refl s => exact h'
  | step hstep _ ih =>
    rw [List.append_assoc]
    exact .step hstep (ih h')

/-- There is one thing to see of a step, or nothing. -/
theorem Step.glimpse (h : Step allowed generation s seen s') :
    seen = [] ∨ ∃ sight, seen = [sight] ∧ (sight.state = s ∨ sight.state = s') := by
  cases h with
  | handBack | takeBack | told | cleared => exact .inl rfl
  | ended | began | stopped => exact .inr ⟨_, rfl, .inr rfl⟩
  | _ => exact .inr ⟨_, rfl, .inl rfl⟩

/-- What is reached is warranted, but for what the step itself brings about. -/
theorem Step.warranted {stage : Stage S} {t : State S}
    (h : Step allowed generation s [⟨.reached stage, t⟩] s') :
    t = s ∧ (stage.Warranted s ∨ (∃ delta, stage = .passing delta) ∨
      ∃ through line, stage = .due through line) := by
  cases h with
  | reached hstage hw => exact ⟨rfl, .inl hw⟩
  | passed hstage hworld => exact ⟨rfl, .inr (.inl ⟨_, rfl⟩)⟩
  | fired hstage hpop => exact ⟨rfl, .inr (.inr ⟨_, _, rfl⟩)⟩

/-- Each sight is that of one step, with a walk before it and one after it. -/
theorem Walk.split {before after : List (Sight S)} {sight : Sight S}
    (h : Walk allowed generation s (before ++ sight :: after) s') :
    ∃ s₁ s₂, Walk allowed generation s before s₁ ∧ Step allowed generation s₁ [sight] s₂ ∧
      Walk allowed generation s₂ after s' := by
  generalize hseen : before ++ sight :: after = seen at h
  induction h generalizing before with
  | refl s => simp at hseen
  | @step s s' s'' seen more hstep hwalk ih =>
    rcases hstep.glimpse with rfl | ⟨first, rfl, -⟩
    · obtain ⟨s₁, s₂, hbefore, hsight, hafter⟩ := ih hseen
      exact ⟨s₁, s₂, .step hstep hbefore, hsight, hafter⟩
    · -- The sight is that of the first step, or comes later.
      cases before with
      | nil =>
        cases hseen
        exact ⟨s, s', .refl s, hstep, hwalk⟩
      | cons x before =>
        rw [List.cons_append] at hseen
        obtain ⟨rfl, hlater⟩ := List.cons.inj hseen
        obtain ⟨s₁, s₂, hbefore, hsight, hafter⟩ := ih hlater
        exact ⟨s₁, s₂, .step hstep hbefore, hsight, hafter⟩

theorem Walk.reached_allowed (h : Walk allowed generation s seen s') {sight : Sight S}
    {stage : Stage S} (hmem : sight ∈ seen) (hevent : sight.event = .reached stage) :
    allowed stage := by
  obtain ⟨before, after, rfl⟩ := List.append_of_mem hmem
  obtain ⟨t, t', -, hstep, -⟩ := h.split
  obtain ⟨event, state⟩ := sight
  cases hevent
  cases hstep with
  | reached hstage hw => exact hstage
  | passed hstage hworld => exact hstage
  | fired hstage hpop => exact hstage

theorem Walk.turn_allowed (h : Walk allowed generation s seen s') {sight : Sight S}
    {id : ConversationId} (hmem : sight ∈ seen) (hevent : sight.event = .began id .tick) :
    allowed (.task (.turn id)) := by
  obtain ⟨before, after, rfl⟩ := List.append_of_mem hmem
  obtain ⟨t, t', -, hstep, -⟩ := h.split
  obtain ⟨event, state⟩ := sight
  cases hevent
  cases hstep with
  | began _ _ hturn => exact hturn rfl

theorem Step.mono (hallowed : ∀ stage, allowed stage → allowed' stage)
    (hgeneration : ∀ g, generation' = some g → generation = some g)
    (h : Step allowed generation s seen s') : Step allowed' generation' s seen s' := by
  cases h with
  | asked r depth hdepth => exact .asked s r depth fun g hg => hdepth g (hgeneration g hg)
  | ended data hc => exact .ended data hc
  | began id occasion hturn => exact .began s id occasion fun htick => hallowed _ (hturn htick)
  | stopped id talk => exact .stopped s id talk
  | concluding id ending data => exact .concluding s id ending data
  | handBack id data => exact .handBack s id data
  | takeBack htake => exact .takeBack htake
  | reached hstage hw => exact .reached s (hallowed _ hstage) hw
  | told actor text => exact .told s actor text
  | cleared hnone =>
    apply Step.cleared
    cases hg : generation' with
    | none => rfl
    | some g => rw [hgeneration g hg] at hnone; cases hnone
  | passed hstage hworld => exact .passed (hallowed _ hstage) hworld
  | fired hstage hpop => exact .fired (hallowed _ hstage) hpop

theorem Walk.mono (hallowed : ∀ stage, allowed stage → allowed' stage)
    (hgeneration : ∀ g, generation' = some g → generation = some g)
    (h : Walk allowed generation s seen s') : Walk allowed' generation' s seen s' := by
  induction h with
  | refl s => exact .refl s
  | step hstep _ ih => exact .step (hstep.mono hallowed hgeneration) ih

theorem Founded.append_left (h : Founded bound fault more) (seen : List (Sight S)) :
    Founded bound fault (seen ++ more) := by
  cases fault with
  | clockOverflow =>
    obtain ⟨before, sight, rfl, hsight⟩ := h
    exact ⟨seen ++ before, sight, by rw [List.append_assoc], hsight⟩
  | endlessDeliveries =>
    have hbound : bound ≤ (more.filter (·.event.isDelivery)).length := h
    rw [Founded, List.filter_append, List.length_append]
    omega

theorem Founded.cons_delivery {sight : Sight S} (hsight : sight.event.isDelivery = true)
    (h : Founded bound fault seen) : Founded (bound + 1) fault (sight :: seen) := by
  cases fault with
  | clockOverflow =>
    obtain ⟨before, last, rfl, hlast⟩ := h
    exact ⟨sight :: before, last, rfl, hlast⟩
  | endlessDeliveries =>
    have hbound : bound ≤ (seen.filter (·.event.isDelivery)).length := h
    have hcons : (sight :: seen).filter (·.event.isDelivery) =
        sight :: seen.filter (·.event.isDelivery) := List.filter_cons_of_pos hsight
    rw [Founded, hcons, List.length_cons]
    omega

theorem Founded.mono (hbound : bound' ≤ bound) (h : Founded bound fault seen) :
    Founded bound' fault seen := by
  cases fault with
  | clockOverflow => exact h
  | endlessDeliveries => exact Nat.le_trans hbound h

end

namespace Run

/-- From a state the computation goes on in steps, and breaks off only for a reason. -/
structure Goes (allowed : Stage S → Prop) (generation : Option Nat) (bound : Nat) (s : State S)
    (m : Run S α) : Prop where
  walk : Walk allowed generation s (m s).sights (m s).state
  founded : ∀ fault, (m s).result = .error fault → Founded bound fault (m s).sights

variable {allowed allowed' : Stage S → Prop} {generation generation' : Option Nat}
variable {s s' : State S} {bound bound' : Nat} {m : Run S α} {f : α → Run S β}

theorem Goes.mono (hallowed : ∀ stage, allowed stage → allowed' stage)
    (hgeneration : ∀ g, generation' = some g → generation = some g) (hbound : bound' ≤ bound)
    (h : m.Goes allowed generation bound s) : m.Goes allowed' generation' bound' s :=
  ⟨h.walk.mono hallowed hgeneration, fun fault hfault => (h.founded fault hfault).mono hbound⟩

theorem Goes.atMost (h : m.Goes allowed generation bound s) (hbound : bound' ≤ bound) :
    m.Goes allowed generation bound' s :=
  h.mono (fun _ hstage => hstage) (fun _ hg => hg) hbound

theorem Goes.anyGeneration {g : Nat} (h : m.Goes allowed (some g) bound s) :
    m.Goes allowed none bound s :=
  h.mono (fun _ hstage => hstage) (fun _ hg => by cases hg) (Nat.le_refl _)

theorem goes_of_ok {seen : List (Sight S)} {a : α} (hm : m s = ⟨seen, .ok a, s'⟩)
    (hwalk : Walk allowed generation s seen s') : m.Goes allowed generation bound s := by
  refine ⟨?_, fun fault hfault => ?_⟩
  · rw [hm]
    exact hwalk
  · rw [hm] at hfault
    cases hfault

theorem goes_pure (a : α) : (pure a : Run S α).Goes allowed generation bound s :=
  goes_of_ok rfl (.refl s)

theorem goes_bind (hm : m.Goes allowed generation bound s)
    (hf : ∀ a, (m s).result = .ok a → (f a).Goes allowed generation bound (m s).state) :
    (m >>= f).Goes allowed generation bound s := by
  have hbind : (m >>= f) s = Run.bind m f s := rfl
  obtain ⟨hwalk, hfounded⟩ := hm
  rcases hcourse : m s with ⟨seen, fault | a, s'⟩
  · rw [Run.bind, hcourse] at hbind
    rw [hcourse] at hwalk hfounded
    constructor
    · rw [hbind]
      exact hwalk
    · rw [hbind]
      rintro fault' ⟨⟩
      exact hfounded fault rfl
  · rw [Run.bind, hcourse] at hbind
    rw [hcourse] at hwalk hf
    have hrest := hf a rfl
    constructor
    · rw [hbind]
      exact hwalk.append hrest.walk
    · rw [hbind]
      exact fun fault hfault => (hrest.founded fault hfault).append_left seen

/-- What does not break off goes on with the rest. -/
theorem goes_bind_of_ok {seen : List (Sight S)} {a : α} (hm : m s = ⟨seen, .ok a, s'⟩)
    (hstep : Step allowed generation s seen s') (hf : (f a).Goes allowed generation bound s') :
    (m >>= f).Goes allowed generation bound s := by
  apply goes_bind (goes_of_ok hm (.single hstep))
  intro b hb
  rw [hm] at hb ⊢
  cases hb
  exact hf

/-- An update and what there is to see of it are one step. -/
theorem goes_update_note {g : State S → State S} {e : Event S} {f : Unit → Run S β}
    (hstep : Step allowed generation s [⟨e, g s⟩] (g s))
    (hf : (f ()).Goes allowed generation bound (g s)) :
    (Run.update g >>= fun _ => Run.note e >>= f).Goes allowed generation bound s := by
  rw [← bind_assoc]
  exact goes_bind_of_ok rfl hstep hf

theorem goes_get {f : State S → Run S β} (h : (f s).Goes allowed generation bound s) :
    ((get : Run S (State S)) >>= f).Goes allowed generation bound s := by
  apply goes_bind (m := (get : Run S (State S))) (goes_of_ok rfl (.refl s))
  intro a ha
  cases ha
  exact h

/-- Something comes to its receiver, so that one more delivery has been made. -/
theorem goes_delivery {sight : Sight S} {a : α} (hm : m s = ⟨[sight], .ok a, s'⟩)
    (hsight : sight.event.isDelivery = true) (hstep : Step allowed generation s [sight] s')
    (hf : (f a).Goes allowed generation bound s') :
    (m >>= f).Goes allowed generation (bound + 1) s := by
  have hcourse : (m >>= f) s = Run.bind m f s := rfl
  rw [Run.bind, hm] at hcourse
  constructor
  · rw [hcourse]
    exact (Walk.single hstep).append hf.walk
  · rw [hcourse]
    exact fun fault hfault => (hf.founded fault hfault).cons_delivery hsight

theorem goes_reach {stage : Stage S} (h : allowed stage) (hw : stage.Warranted s) :
    (Run.reach stage).Goes allowed generation bound s :=
  goes_of_ok rfl (.single (.reached s h hw))

theorem goes_discard (h : m.Goes allowed generation bound s) :
    (discard m : Run S Unit).Goes allowed generation bound s :=
  goes_bind h fun _ _ => goes_pure ()

theorem goes_compositional (allowed : Stage S → Prop) (generation : Option Nat) (bound : Nat) :
    Compositional (S := S) fun m => ∀ s, m.Goes allowed generation bound s where
  pure a _ := goes_pure a
  bind hm hf s := goes_bind (hm s) fun a _ => hf a _
  get s := goes_of_ok rfl (.refl s)

end Run

end TextWorld

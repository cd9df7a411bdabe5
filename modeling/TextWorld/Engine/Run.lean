import TextWorld.Engine.State

/-!
Computations of the engine. Besides its result a computation leaves behind what there was to see
while it went on, and the state of things at each such moment.
-/

namespace TextWorld

/-- What a callback of a conversation is run for. -/
inductive Occasion where
  | input (actor : CharacterId) (command : Command)
  | returned (data : Value)
  | tick

/-- Who takes a line. -/
inductive Responder where
  | conversation (id : ConversationId)
  | room (id : RoomId)
  | character (id : CharacterId)
  | global
  deriving DecidableEq, Repr

inductive DispatchOutcome where
  | empty
  | handled (responder : Responder)
  /-- Nobody accepted the line, and the actor was told so. -/
  | unknown
  deriving DecidableEq, Repr

/-- What the engine sets about, one thing after another. -/
inductive Task (S : Setting) where
  | line (f : FollowUp)
  | program
  /-- A conversation has its turn in a tick. -/
  | turn (id : ConversationId)
  | hook (hook : TickHook S)

/-- How far the engine has come with its work. -/
inductive Stage (S : Setting) where
  /-- The clock is about to be advanced. -/
  | passing (delta : Duration)
  /-- A line has come due, and is about to be taken from the pending ones that were scheduled no
  later than `through`. -/
  | due (through : Nat) (line : ScheduledLine)
  | task (t : Task S)
  /-- A level of the chain is asked about a line. -/
  | offered (level : Responder)
  | answered (level : Responder) (outcome : CommandOutcome)
  /-- The handler of a definition is about to run. -/
  | invoked (d : Definition (Handler S)) (inv : Invocation)
  /-- The handler of a definition does not run, for the actor has no balance yet. -/
  | barred (d : Definition (Handler S)) (actor : CharacterId) (left : Duration)
  /-- A line is done with, except for what it queued. -/
  | done (outcome : DispatchOutcome)

/-- What there is to see while the engine works. -/
inductive Event (S : Setting) where
  /-- A program, or somebody outside, asks for something, which is not done yet. -/
  | asked (r : Request S)
  | began (id : ConversationId) (occasion : Occasion)
  | stopped (id : ConversationId)
  /-- A conversation has been ended with completion data, and those below it with it. -/
  | ended (id : ConversationId) (c : Conversation S.Talk S.Ending) (below : List ConversationId)
    (data : Value)
  /-- What was to be done at the end of a conversation is about to be done. -/
  | concluding (id : ConversationId) (ending : S.Ending) (data : Value)
  | reached (stage : Stage S)

/-- An event, and how things are then. -/
structure Sight (S : Setting) where
  event : Event S
  state : State S

/-- How a computation went; when it breaks off, the state is kept as it was then. -/
structure Course (S : Setting) (α : Type) where
  sights : List (Sight S)
  result : Except Fault α
  state : State S

def Run (S : Setting) (α : Type) : Type := State S → Course S α

namespace Run

variable {S : Setting} {α β : Type}

protected def pure (a : α) : Run S α := fun s => ⟨[], .ok a, s⟩

protected def bind (m : Run S α) (f : α → Run S β) : Run S β := fun s =>
  match m s with
  | ⟨sights, .error fault, s⟩ => ⟨sights, .error fault, s⟩
  | ⟨sights, .ok a, s⟩ =>
    let rest := f a s
    ⟨sights ++ rest.sights, rest.result, rest.state⟩

instance : Monad (Run S) where
  pure := Run.pure
  bind := Run.bind

protected theorem bind_pure (m : Run S α) : m.bind Run.pure = m := by
  funext s
  rw [Run.bind]
  rcases m s with ⟨sights, _ | a, s'⟩
  · rfl
  · simp [Run.pure]

protected theorem bind_assoc {γ : Type} (m : Run S α) (f : α → Run S β) (g : β → Run S γ) :
    (m.bind f).bind g = m.bind fun a => (f a).bind g := by
  funext s
  simp only [Run.bind]
  rcases m s with ⟨sights, _ | a, s'⟩
  · rfl
  · dsimp only
    rcases f a s' with ⟨more, _ | b, s''⟩
    · rfl
    · simp [List.append_assoc]

instance : LawfulMonad (Run S) :=
  LawfulMonad.mk' (Run S) Run.bind_pure (fun _ _ => rfl) Run.bind_assoc

/-- What does not break off goes on with the rest. -/
theorem bind_of_ok {m : Run S α} {f : α → Run S β} {s s' : State S} {seen : List (Sight S)} {a : α}
    (h : m s = ⟨seen, .ok a, s'⟩) :
    (m >>= f) s = ⟨seen ++ (f a s').sights, (f a s').result, (f a s').state⟩ := by
  change Run.bind m f s = _
  rw [Run.bind, h]

theorem bind_of_error {m : Run S α} {f : α → Run S β} {s s' : State S} {seen : List (Sight S)}
    {fault : Fault} (h : m s = ⟨seen, .error fault, s'⟩) :
    (m >>= f) s = ⟨seen, .error fault, s'⟩ := by
  change Run.bind m f s = _
  rw [Run.bind, h]

/-- The result of the first is not needed. -/
theorem bind_const (m : Run S α) (b : β) (s : State S) :
    (m >>= fun _ => pure b) s = ⟨(m s).sights, (m s).result.map fun _ => b, (m s).state⟩ := by
  rcases hm : m s with ⟨seen, fault | a, s'⟩
  · exact bind_of_error hm
  · rw [bind_of_ok hm]
    change (⟨seen ++ [], .ok b, s'⟩ : Course S β) = _
    rw [List.append_nil]
    rfl

theorem discard_eq (m : Run S α) (s : State S) :
    (discard m : Run S Unit) s = ⟨(m s).sights, (m s).result.map fun _ => (), (m s).state⟩ :=
  bind_const m () s

theorem discard_of_ok {m : Run S α} {s s' : State S} {seen : List (Sight S)} {a : α}
    (h : m s = ⟨seen, .ok a, s'⟩) : (discard m : Run S Unit) s = ⟨seen, .ok (), s'⟩ := by
  rw [discard_eq, h]
  rfl

theorem discard_of_error {m : Run S α} {s s' : State S} {seen : List (Sight S)} {fault : Fault}
    (h : m s = ⟨seen, .error fault, s'⟩) :
    (discard m : Run S Unit) s = ⟨seen, .error fault, s'⟩ := by
  rw [discard_eq, h]
  rfl

theorem ok_of_bind {m : Run S α} {f : α → Run S β} {s : State S} {b : β}
    (h : ((m >>= f) s).result = .ok b) :
    ∃ seen a s', m s = ⟨seen, .ok a, s'⟩ ∧ (f a s').result = .ok b ∧
      (m >>= f) s = ⟨seen ++ (f a s').sights, .ok b, (f a s').state⟩ := by
  rcases hm : m s with ⟨seen, fault | a, s'⟩
  · rw [bind_of_error hm] at h
    cases h
  · rw [bind_of_ok hm] at h ⊢
    have hrest : (f a s').result = .ok b := h
    exact ⟨seen, a, s', rfl, hrest, by rw [hrest]⟩

instance : MonadStateOf (State S) (Run S) where
  get s := ⟨[], .ok s, s⟩
  set s _ := ⟨[], .ok (), s⟩
  modifyGet f s := ⟨[], .ok (f s).1, (f s).2⟩

def gets (f : State S → α) : Run S α := do pure (f (← get))

def update (f : State S → State S) : Run S Unit := modify f

def note (e : Event S) : Run S Unit := fun s => ⟨[⟨e, s⟩], .ok (), s⟩

def reach (stage : Stage S) : Run S Unit := note (.reached stage)

def breakOff (fault : Fault) : Run S α := fun s => ⟨[], .error fault, s⟩

theorem get_bind (f : State S → Run S β) (s : State S) :
    ((get : Run S (State S)) >>= f) s = f s s := rfl

theorem gets_bind (g : State S → α) (f : α → Run S β) (s : State S) :
    (gets g >>= f) s = f (g s) s := rfl

theorem note_bind (e : Event S) (f : Unit → Run S β) (s : State S) :
    (note e >>= f) s = ⟨⟨e, s⟩ :: (f () s).sights, (f () s).result, (f () s).state⟩ := rfl

theorem reach_bind (stage : Stage S) (f : Unit → Run S β) (s : State S) :
    (reach stage >>= f) s =
      ⟨⟨.reached stage, s⟩ :: (f () s).sights, (f () s).result, (f () s).state⟩ := rfl

def run (m : Run S α) : StateM (State S) (Except Fault α) := fun s =>
  let course := m s
  (course.result, course.state)

end Run

end TextWorld

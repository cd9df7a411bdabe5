import TextWorld.Engine.Tick

/-!
What a run is made of. Whatever holds of the parts, and of one thing done after another if it holds
of both, holds of a line's way through the chain, of a line with its follow-ups, and of any calls.
-/

namespace TextWorld

variable {S : Setting}

/-- What can be done from outside: lines and ticks, programs, and operations on the world. -/
inductive Call (S : Setting) where
  | dispatch (actor : CharacterId) (line : String)
  | tick (delta : Duration)
  | withContext (p : Program S Unit)
  | perform (op : World.Op)

namespace Call

/-- Carries out an operation for somebody outside. -/
def carryOut (op : World.Op) : Run S Unit := do
  Run.note (.asked (.perform op))
  match (← get).world.perform op with
  | none => Run.breakOff .clockOverflow
  | some (_, world) => Run.update fun s => { s with world }

def run (rules : Rules S) : Call S → Run S Unit
  | .dispatch actor line => discard (rules.dispatch actor line)
  | .tick delta => rules.tick delta
  | .withContext p => rules.withContext p
  | .perform op => carryOut op

/-- One call after another, each by the rules of its time. -/
def runAll : List (Rules S × Call S) → Run S Unit
  | [] => pure ()
  | (rules, call) :: calls => do
    call.run rules
    runAll calls

end Call

/-- Holds of what does nothing, and of one thing after another if it holds of both. -/
structure Compositional (P : ∀ {α : Type}, Run S α → Prop) : Prop where
  pure : ∀ {α : Type} (a : α), P (pure a : Run S α)
  bind : ∀ {α β : Type} {m : Run S α} {f : α → Run S β}, P m → (∀ a, P (f a)) → P (m >>= f)
  get : P (get : Run S (State S))

/-- The registry of a level of the chain. -/
def Rules.registry? (rules : Rules S) : Responder → Option (Registry (Handler S))
  | .conversation _ => none
  | .room room => rules.registries.rooms.get? room
  | .character other => rules.registries.characters.get? other
  | .global => some rules.registries.global

/-- Holds of what a line of an actor is answered with. Only registries that are there are asked,
and never the actor's own. -/
structure LineParts (rules : Rules S) (depth : Nat) (actor : CharacterId) (command : Command)
    (P : ∀ {α : Type}, Run S α → Prop) : Prop extends Compositional P where
  offered : ∀ level, P (Run.reach (.offered level))
  answered : ∀ level outcome, P (Run.reach (.answered level outcome))
  told : ∀ text, P (Run.update fun s => s.emit actor text)
  conversation : P (rules.askConversation depth actor command)
  handle : ∀ {level registry} origin, rules.registry? level = some registry →
    level ≠ .character actor → P (rules.handle depth registry actor command origin)

/-- Holds of the dispatch of single lines. -/
structure DispatchParts (rules : Rules S) (P : ∀ {α : Type}, Run S α → Prop) : Prop
    extends Compositional P where
  line : ∀ depth actor line, P (rules.dispatchLine depth actor line)
  cleared : P (Run.update fun s => { s with followUps := .empty })

/-- Holds of whatever is done in a call. -/
structure CallParts (rules : Rules S) (P : ∀ {α : Type}, Run S α → Prop) : Prop
    extends DispatchParts rules P where
  passTime : ∀ delta, P (Rules.passTime delta)
  takeDue : ∀ through, P (Rules.takeDue through)
  turn : ∀ id, P (rules.tickConversation id)
  task : ∀ t, P (Run.reach (.task t))
  execute : ∀ {α : Type} (p : Program S α), P (rules.execute 0 p)
  carryOut : ∀ op, P (Call.carryOut op)

variable {P : ∀ {α : Type}, Run S α → Prop} {rules : Rules S} {depth : Nat} {α : Type}

namespace Compositional

variable (h : Compositional P)
include h

theorem gets (f : State S → α) : P (Run.gets f) := h.bind h.get fun _ => h.pure _

theorem discard {m : Run S α} (hm : P m) : P (discard m : Run S Unit) :=
  h.bind hm fun _ => h.pure ()

theorem orAsk {first second : Run S (Option Responder)} (hfirst : P first) (hsecond : P second) :
    P (Rules.orAsk first second) := by
  apply h.bind hfirst
  intro answer
  cases answer with
  | some responder => exact h.pure _
  | none => exact hsecond

end Compositional

theorem Compositional.ask (h : Compositional P) {level : Responder} {answer : Run S CommandOutcome}
    (hoffered : P (Run.reach (.offered level)))
    (hanswered : ∀ outcome, P (Run.reach (.answered level outcome))) (hanswer : P answer) :
    P (Rules.ask level answer) := by
  apply h.bind hoffered
  intro _
  apply h.bind hanswer
  intro outcome
  exact h.bind (hanswered outcome) fun _ => h.pure _

theorem Compositional.askConversation (h : Compositional P) {actor : CharacterId}
    {command : Command} (hoffered : ∀ level, P (Run.reach (.offered level)))
    (hanswered : ∀ level outcome, P (Run.reach (.answered level outcome)))
    (hoffer : ∀ id, P (rules.offer depth id actor command)) :
    P (rules.askConversation depth actor command) := by
  apply h.bind h.get
  intro s
  split
  · exact h.pure none
  · exact h.ask (hoffered _) (hanswered _) (hoffer _)

namespace LineParts

variable {actor : CharacterId} {command : Command} (h : LineParts rules depth actor command P)
include h

theorem askLevel (level : Responder) {registry : Registry (Handler S)} (origin : Origin)
    (hregistry : rules.registry? level = some registry) (hown : level ≠ .character actor) :
    P (Rules.ask level (rules.handle depth registry actor command origin)) :=
  h.ask (h.offered level) (h.answered level) (h.handle origin hregistry hown)

theorem askCharacters {others : List CharacterId} (hothers : actor ∉ others) :
    P (rules.askCharacters depth actor command others) := by
  induction others with
  | nil => exact h.pure none
  | cons other others ih =>
    rw [List.mem_cons, not_or] at hothers
    rw [Rules.askCharacters]
    split
    · -- Whoever has no registry is passed over.
      exact ih hothers.2
    · rename_i registry hregistry
      have hown : (.character other : Responder) ≠ .character actor := by
        rintro ⟨⟩
        exact hothers.1 rfl
      exact h.orAsk (h.askLevel _ _ hregistry hown) (ih hothers.2)

theorem askRoom (room : RoomId) : P (rules.askRoom depth room actor command) := by
  unfold Rules.askRoom
  split
  · exact h.pure none
  · rename_i registry hregistry
    exact h.askLevel (.room room) _ hregistry (by rintro ⟨⟩)

theorem askSurroundings : P (rules.askSurroundings depth actor command) := by
  apply h.bind h.get
  intro s
  split
  · exact h.pure none
  · refine h.orAsk (h.askRoom _) (h.bind (h.gets _) fun occupants => h.askCharacters ?_)
    simp [List.mem_filter]

theorem respond : P (rules.respond depth actor command) := by
  unfold Rules.respond
  split
  · exact h.pure _
  · apply h.bind
    · exact h.orAsk h.conversation
        (h.orAsk h.askSurroundings (h.askLevel .global .global rfl (by rintro ⟨⟩)))
    · intro answer
      cases answer with
      | some responder => exact h.pure _
      | none => exact h.bind (h.told _) fun _ => h.pure _

end LineParts

namespace DispatchParts

variable (h : DispatchParts rules P)
include h

theorem dispatchQueued (queued : List FollowUp) : P (rules.dispatchQueued queued) := by
  induction queued with
  | nil => exact h.pure ()
  | cons f fs ih =>
    rw [Rules.dispatchQueued]
    split
    · exact h.bind (h.discard (h.line _ _ _)) fun _ => ih
    · exact ih

theorem drainGenerations (generations : Nat) : P (rules.drainGenerations generations) := by
  induction generations with
  | zero => exact h.cleared
  | succ generations ih =>
    apply h.bind h.get
    intro s
    dsimp only
    split
    · exact h.pure ()
    · apply h.bind h.cleared
      intro _
      exact h.bind (h.dispatchQueued _) fun _ => ih

theorem drain : P rules.drain := h.drainGenerations _

theorem dispatch (actor : CharacterId) (line : String) : P (rules.dispatch actor line) := by
  apply h.bind (h.line 0 actor line)
  intro outcome
  exact h.bind h.drain fun _ => h.pure outcome

theorem fireDue (htake : ∀ through, P (Rules.takeDue through)) (through count : Nat) :
    P (rules.fireDue through count) := by
  induction count with
  | zero => exact h.pure ()
  | succ count ih =>
    apply h.bind (htake through)
    intro fired
    cases fired with
    | none => exact h.pure ()
    | some line => exact h.bind (h.discard (h.dispatch _ _)) fun _ => ih

theorem tick {delta : Duration} (hpass : P (Rules.passTime delta))
    (htake : ∀ through, P (Rules.takeDue through)) (hturn : ∀ id, P (rules.tickConversation id))
    (hhooks : P (rules.runHooks delta rules.hooks)) : P (rules.tick delta) := by
  have hturns (ids : List ConversationId) : P (rules.tickConversations ids) := by
    induction ids with
    | nil => exact h.pure ()
    | cons id ids ih => exact h.bind (hturn id) fun _ => ih
  apply h.bind hpass
  intro _
  apply h.bind (h.gets _)
  intro scheduler
  apply h.bind (h.fireDue htake _ _)
  intro _
  apply h.bind (h.gets _)
  intro active
  apply h.bind (hturns active)
  intro _
  exact h.bind hhooks fun _ => h.drain

end DispatchParts

/-- A line that has been answered is done with. -/
def Rules.closure (result : Except Fault DispatchOutcome) (s : State S) : List (Sight S) :=
  match result with
  | .ok outcome => [⟨.reached (.done outcome), s⟩]
  | .error _ => []

theorem Rules.dispatchLine_course (rules : Rules S) (depth : Nat) (actor : CharacterId)
    (line : String) (s : State S) {seen : List (Sight S)}
    {result : Except Fault DispatchOutcome} {s' : State S}
    (h : rules.respond depth actor (.ofLine line) s = ⟨seen, result, s'⟩) :
    rules.dispatchLine depth actor line s =
      ⟨⟨.reached (.task (.line ⟨actor, line, depth⟩)), s⟩ :: (seen ++ closure result s'),
        result, s'⟩ := by
  unfold Rules.dispatchLine
  rw [Run.bind_of_ok (m := Run.reach (.task (.line ⟨actor, line, depth⟩))) rfl]
  cases result with
  | error fault =>
    rw [Run.bind_of_error h, closure, List.append_nil]
    rfl
  | ok outcome =>
    rw [Run.bind_of_ok h]
    rfl

/-- A tick that comes to its end has come to the end of each of its parts. -/
theorem Rules.tick_split {rules : Rules S} {delta : Duration} {s : State S}
    (h : (rules.tick delta s).result = .ok ()) :
    ∃ passed start firings fired turns turned hooks hooked drained last,
      passTime delta s = ⟨passed, .ok (), start⟩ ∧
      rules.fireDue start.forest.scheduler.lastSequence start.forest.scheduler.size start =
        ⟨firings, .ok (), fired⟩ ∧
      rules.tickConversations fired.forest.ids fired = ⟨turns, .ok (), turned⟩ ∧
      rules.runHooks delta rules.hooks turned = ⟨hooks, .ok (), hooked⟩ ∧
      rules.drain hooked = ⟨drained, .ok (), last⟩ ∧
      rules.tick delta s =
        ⟨passed ++ (firings ++ (turns ++ (hooks ++ drained))), .ok (), last⟩ := by
  -- The whole has come to its end, so each part has.
  obtain ⟨passed, _, start, hpass, hscheduler, hpassed⟩ := Run.ok_of_bind h
  obtain ⟨_, _, _, hread, hfire, hlooked⟩ := Run.ok_of_bind hscheduler
  cases hread
  obtain ⟨firings, _, fired, hfiring, hids, hfired⟩ := Run.ok_of_bind hfire
  obtain ⟨_, _, _, hlist, hturns, hlisted⟩ := Run.ok_of_bind hids
  cases hlist
  obtain ⟨turns, _, turned, hturning, hhooks, hturned⟩ := Run.ok_of_bind hturns
  obtain ⟨hooks, _, hooked, hhooking, hdrain, hhooked⟩ := Run.ok_of_bind hhooks
  rcases hdraining : rules.drain hooked with ⟨drained, result, last⟩
  rw [hdraining] at hdrain hhooked
  cases hdrain
  refine ⟨passed, start, firings, fired, turns, turned, hooks, hooked, drained, last, hpass,
    hfiring, hturning, hhooking, hdraining, ?_⟩
  unfold Rules.tick
  rw [hpassed, hlooked, hfired, hlisted, hturned, hhooked]
  rfl

namespace CallParts

section

variable (h : CallParts rules P)
include h

theorem withContext (p : Program S α) : P (rules.withContext p) := by
  apply h.bind (h.task .program)
  intro _
  apply h.bind (h.execute p)
  intro a
  exact h.bind h.drain fun _ => h.pure a

theorem runHooks (delta : Duration) (hooks : List (TickHook S)) :
    P (rules.runHooks delta hooks) := by
  induction hooks with
  | nil => exact h.pure ()
  | cons hook hooks ih =>
    apply h.bind (h.task (.hook hook))
    intro _
    exact h.bind (h.execute (hook delta)) fun _ => ih

theorem tick (delta : Duration) : P (rules.tick delta) :=
  h.toDispatchParts.tick (h.passTime delta) h.takeDue h.turn (h.runHooks delta rules.hooks)

theorem run (call : Call S) : P (call.run rules) := by
  cases call with
  | dispatch actor line => exact h.discard (h.dispatch actor line)
  | tick delta => exact h.tick delta
  | withContext p => exact h.withContext p
  | perform op => exact h.carryOut op

end

theorem runAll (hc : Compositional P) {calls : List (Rules S × Call S)}
    (h : ∀ call ∈ calls, CallParts call.1 P) : P (Call.runAll calls) := by
  induction calls with
  | nil => exact hc.pure ()
  | cons call calls ih =>
    apply hc.bind ((h call List.mem_cons_self).run call.2)
    intro _
    exact ih fun later hlater => h later (List.mem_cons_of_mem _ hlater)

end CallParts

end TextWorld

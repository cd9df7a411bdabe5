import TextWorld.Proofs.Engine.Composition
import Mathlib.Data.List.Forall2

/-!
Two runs side by side. A run is mirrored by another if the same happens in both, with the same
results, while their states correspond at every moment. Where the handlers of two sets of rules are
mirrored, so is every line and every tick.
-/

namespace TextWorld

variable {S : Setting} {α β γ : Type} {R : State S → State S → Prop} {P : State S → Prop}

/-- The same happens in both courses, and the states correspond whenever something does. -/
structure Course.Mirrors (R : State S → State S → Prop) (c c' : Course S α) : Prop where
  sights : List.Forall₂ (fun a b => b.event = a.event ∧ R a.state b.state) c.sights c'.sights
  result : c'.result = c.result
  state : R c.state c'.state

namespace Run

/-- From these states the second run mirrors the first, provided that `P` holds at all sights of
the first. -/
def MirroredAt (R : State S → State S → Prop) (P : State S → Prop) (m m' : Run S α)
    (s t : State S) : Prop :=
  (∀ sight ∈ (m s).sights, P sight.state) → (m s).Mirrors R (m' t)

/-- From corresponding states the second run mirrors the first. -/
def Mirrored (R : State S → State S → Prop) (P : State S → Prop) (m m' : Run S α) : Prop :=
  ∀ s t, R s t → m.MirroredAt R P m' s t

variable {m m' : Run S α} {f f' : α → Run S β} {s t : State S}

theorem mirroredAt_pure {a : α} (h : R s t) : (pure a : Run S α).MirroredAt R P (pure a) s t :=
  fun _ => ⟨.nil, rfl, h⟩

theorem mirrored_pure (a : α) : (pure a : Run S α).Mirrored R P (pure a) :=
  fun _ _ h => mirroredAt_pure h

theorem MirroredAt.bind (h : m.MirroredAt R P m' s t)
    (hf : ∀ a, (f a).Mirrored R P (f' a)) : (m >>= f).MirroredAt R P (m' >>= f') s t := by
  intro hP
  rcases hm : m s with ⟨seen, fault | a, u⟩
  · -- A first part that breaks off is mirrored by one that breaks off for the same reason.
    rw [bind_of_error hm] at hP ⊢
    have hfirst := h (by rw [hm]; exact hP)
    rcases hm' : m' t with ⟨seen', result, u'⟩
    rw [hm, hm'] at hfirst
    obtain ⟨hsights, rfl, hstate⟩ := hfirst
    rw [bind_of_error hm']
    exact ⟨hsights, rfl, hstate⟩
  · rw [bind_of_ok hm] at hP ⊢
    have hfirst := h (by rw [hm]; exact fun sight hmem => hP sight (List.mem_append_left _ hmem))
    rcases hm' : m' t with ⟨seen', result, u'⟩
    rw [hm, hm'] at hfirst
    obtain ⟨hsights, rfl, hstate⟩ := hfirst
    rw [bind_of_ok hm']
    have hrest := hf a u u' hstate fun sight hmem => hP sight (List.mem_append_right _ hmem)
    exact ⟨List.rel_append hsights hrest.sights, hrest.result, hrest.state⟩

theorem Mirrored.bind (h : m.Mirrored R P m') (hf : ∀ a, (f a).Mirrored R P (f' a)) :
    (m >>= f).Mirrored R P (m' >>= f') :=
  fun s t hst => (h s t hst).bind hf

theorem Mirrored.discard (h : m.Mirrored R P m') :
    (discard m : Run S Unit).Mirrored R P (discard m') :=
  h.bind fun _ => mirrored_pure ()

theorem mirroredAt_get_bind {f f' : State S → Run S β} (h : (f s).MirroredAt R P (f' t) s t) :
    ((get : Run S (State S)) >>= f).MirroredAt R P (get >>= f') s t := h

theorem mirroredAt_gets_bind {g g' : State S → γ} {f f' : γ → Run S β}
    (h : (f (g s)).MirroredAt R P (f' (g' t)) s t) :
    (gets g >>= f).MirroredAt R P (gets g' >>= f') s t := h

theorem mirroredAt_update {g g' : State S → State S} (h : R (g s) (g' t)) :
    (update g).MirroredAt R P (update g') s t :=
  fun _ => ⟨.nil, rfl, h⟩

theorem mirroredAt_update_bind {g g' : State S → State S} {f f' : Unit → Run S β}
    (h : (f ()).MirroredAt R P (f' ()) (g s) (g' t)) :
    (update g >>= f).MirroredAt R P (update g' >>= f') s t := h

theorem mirroredAt_set {u u' : State S} (h : R u u') :
    (set u : Run S Unit).MirroredAt R P (set u') s t :=
  fun _ => ⟨.nil, rfl, h⟩

theorem mirroredAt_breakOff (fault : Fault) (h : R s t) :
    (breakOff fault : Run S α).MirroredAt R P (breakOff fault) s t :=
  fun _ => ⟨.nil, rfl, h⟩

/-- At an event it is known that `P` holds. -/
theorem mirroredAt_note_bind {e : Event S} {f f' : Unit → Run S β} (hst : R s t)
    (h : P s → (f ()).MirroredAt R P (f' ()) s t) :
    (note e >>= f).MirroredAt R P (note e >>= f') s t := by
  intro hP
  rw [note_bind] at hP
  rw [note_bind, note_bind]
  have hrest := h (hP ⟨e, s⟩ List.mem_cons_self) fun sight hmem =>
    hP sight (List.mem_cons_of_mem _ hmem)
  exact ⟨.cons ⟨rfl, hst⟩ hrest.sights, hrest.result, hrest.state⟩

theorem mirrored_note (e : Event S) : (note e).Mirrored R P (note e) :=
  fun _ _ h _ => ⟨.cons ⟨rfl, h⟩ .nil, rfl, h⟩

theorem mirrored_reach (stage : Stage S) : (reach stage).Mirrored R P (reach stage) :=
  mirrored_note _

theorem mirroredAt_of_eq (h : m' s = m s) : m.MirroredAt Eq P m' s s := by
  intro _
  rw [h]
  exact ⟨List.forall₂_same.2 fun _ _ => ⟨rfl, rfl⟩, rfl, rfl⟩

theorem mirrored_of_eq (h : m' = m) : m.Mirrored Eq P m' := by
  rintro s _ rfl
  exact mirroredAt_of_eq (congrFun h s)

end Run

/-- What mirrors a course with the very states it has is no other course. -/
theorem Course.Mirrors.eq {c c' : Course S α} (h : c.Mirrors Eq c') : c' = c := by
  obtain ⟨sights, result, state⟩ := c
  obtain ⟨sights', result', state'⟩ := c'
  obtain ⟨hsights, hresult, hstate⟩ := h
  dsimp only at hsights hresult hstate
  have hsame : List.Forall₂ Eq sights sights' := by
    exact hsights.imp fun a b hab => congrArg₂ Sight.mk hab.1.symm hab.2
  rw [List.forall₂_eq_eq_eq] at hsame
  rw [hsame, hresult, hstate]

/-- Corresponding states show the engine the same, and what the engine itself does to both keeps
them corresponding. -/
structure Correspondence (R : State S → State S → Prop) : Prop where
  forest : ∀ {s t}, R s t → t.forest = s.forest
  followUps : ∀ {s t}, R s t → t.followUps = s.followUps
  now : ∀ {s t}, R s t → t.world.now = s.world.now
  characterRoom : ∀ {s t}, R s t → ∀ id, t.world.characterRoom id = s.world.characterRoom id
  occupants : ∀ {s t}, R s t → ∀ room,
    (t.world.room? room).map (·.characters) = (s.world.room? room).map (·.characters)
  emit : ∀ {s t}, R s t → ∀ recipient text, R (s.emit recipient text) (t.emit recipient text)
  queue : ∀ {s t}, R s t → ∀ followUps, R { s with followUps } { t with followUps }
  schedule : ∀ {s t}, R s t → ∀ scheduler,
    R { s with forest.scheduler := scheduler } { t with forest.scheduler := scheduler }
  pass : ∀ {s t}, R s t → ∀ now, R { s with world.now := now } { t with world.now := now }

/-- Two sets of rules that differ in their registries, each changed by `f` in the second, whose
handlers and callbacks are mirrored. -/
structure Rules.Mirror (R : State S → State S → Prop) (P : State S → Prop)
    (f : Registry (Handler S) → Registry (Handler S)) (rules rules' : Rules S) : Prop
    extends Correspondence R where
  config : rules'.config = rules.config
  hooks : rules'.hooks = rules.hooks
  registry? : ∀ level, rules'.registry? level = (rules.registry? level).map f
  handle : ∀ {level registry}, rules.registry? level = some registry →
    ∀ depth actor command origin {s t}, R s t → P s →
      (rules.handle depth registry actor command origin).MirroredAt R P
        (rules'.handle depth (f registry) actor command origin) s t
  askConversation : ∀ depth actor command,
    (rules.askConversation depth actor command).Mirrored R P
      (rules'.askConversation depth actor command)
  tickConversation : ∀ id, (rules.tickConversation id).Mirrored R P (rules'.tickConversation id)
  hook : ∀ hook ∈ rules.hooks, ∀ delta,
    (rules.execute 0 (hook delta)).Mirrored R P (rules'.execute 0 (hook delta))

/-- What is done to a world from outside as time goes on: a line is typed, or time passes. -/
inductive Prompt where
  | line (actor : CharacterId) (text : String)
  | time (delta : Duration)

namespace Prompt

/-- Dispatches the line, or lets the time pass. The outcome is that of the line. -/
def answer (rules : Rules S) : Prompt → Run S (Option DispatchOutcome)
  | .line actor text => do
    let outcome ← rules.dispatch actor text
    pure (some outcome)
  | .time delta => do
    rules.tick delta
    pure none

/-- One prompt after another, with the outcome of each. -/
def answerAll (rules : Rules S) : List Prompt → Run S (List (Option DispatchOutcome))
  | [] => pure []
  | prompt :: prompts => do
    let outcome ← prompt.answer rules
    let outcomes ← answerAll rules prompts
    pure (outcome :: outcomes)

end Prompt

namespace Rules.Mirror

open Run

variable {f : Registry (Handler S) → Registry (Handler S)} {rules rules' : Rules S}

theorem orAsk {first first' second second' : Run S (Option Responder)}
    (hfirst : first.Mirrored R P first') (hsecond : second.Mirrored R P second') :
    (Rules.orAsk first second).Mirrored R P (Rules.orAsk first' second') := by
  apply hfirst.bind
  intro answer
  cases answer with
  | some responder => exact mirrored_pure _
  | none => exact hsecond

section

variable (h : rules.Mirror R P f rules')
include h

theorem askLevel (level : Responder) {registry : Registry (Handler S)}
    (hregistry : rules.registry? level = some registry) (depth : Nat) (actor : CharacterId)
    (command : Command) (origin : Origin) :
    (Rules.ask level (rules.handle depth registry actor command origin)).Mirrored R P
      (Rules.ask level (rules'.handle depth (f registry) actor command origin)) := by
  intro s t hst
  refine mirroredAt_note_bind hst fun hP => ?_
  refine (h.handle hregistry depth actor command origin hst hP).bind fun outcome => ?_
  exact (mirrored_reach _).bind fun _ => mirrored_pure _

theorem askCharacters (depth : Nat) (actor : CharacterId) (command : Command)
    (others : List CharacterId) : (rules.askCharacters depth actor command others).Mirrored R P
      (rules'.askCharacters depth actor command others) := by
  induction others with
  | nil => exact mirrored_pure none
  | cons other others ih =>
    have hlevel : rules'.registries.characters.get? other =
        (rules.registries.characters.get? other).map f := h.registry? (.character other)
    rw [Rules.askCharacters, Rules.askCharacters, hlevel]
    cases hregistry : rules.registries.characters.get? other with
    | none => exact ih
    | some registry =>
      exact orAsk (h.askLevel (.character other) hregistry depth actor command _) ih

theorem askRoom (depth : Nat) (room : RoomId) (actor : CharacterId) (command : Command) :
    (rules.askRoom depth room actor command).Mirrored R P
      (rules'.askRoom depth room actor command) := by
  have hlevel : rules'.registries.rooms.get? room = (rules.registries.rooms.get? room).map f :=
    h.registry? (.room room)
  rw [Rules.askRoom, Rules.askRoom, hlevel]
  cases hregistry : rules.registries.rooms.get? room with
  | none => exact mirrored_pure none
  | some registry => exact h.askLevel (.room room) hregistry depth actor command _

theorem askOccupants (depth : Nat) (room : RoomId) (actor : CharacterId) (command : Command) :
    (rules.askOccupants depth room actor command).Mirrored R P
      (rules'.askOccupants depth room actor command) := by
  intro s t hst
  refine mirroredAt_gets_bind ?_
  rw [h.occupants hst room]
  exact h.askCharacters depth actor command _ s t hst

theorem askSurroundings (depth : Nat) (actor : CharacterId) (command : Command) :
    (rules.askSurroundings depth actor command).Mirrored R P
      (rules'.askSurroundings depth actor command) := by
  intro s t hst
  refine mirroredAt_get_bind ?_
  rw [h.characterRoom hst actor]
  cases s.world.characterRoom actor with
  | none => exact mirroredAt_pure hst
  | some room =>
    exact orAsk (h.askRoom depth room actor command) (h.askOccupants depth room actor command)
      s t hst

theorem route (depth : Nat) (actor : CharacterId) (command : Command) :
    (rules.route depth actor command).Mirrored R P (rules'.route depth actor command) := by
  have hglobal : rules'.registries.global = f rules.registries.global :=
    Option.some.inj (h.registry? .global)
  refine orAsk (h.askConversation depth actor command)
    (orAsk (h.askSurroundings depth actor command) ?_)
  rw [Rules.askGlobal, Rules.askGlobal, hglobal]
  exact h.askLevel .global rfl depth actor command _

theorem respond (depth : Nat) (actor : CharacterId) (command : Command) :
    (rules.respond depth actor command).Mirrored R P (rules'.respond depth actor command) := by
  rw [Rules.respond, Rules.respond]
  split
  · exact mirrored_pure _
  · refine (h.route depth actor command).bind fun answer => ?_
    cases answer with
    | some responder => exact mirrored_pure _
    | none =>
      rw [h.config]
      refine Mirrored.bind (fun s t hst => mirroredAt_update ?_) fun _ => mirrored_pure _
      exact h.emit hst actor _

theorem dispatchLine (depth : Nat) (actor : CharacterId) (line : String) :
    (rules.dispatchLine depth actor line).Mirrored R P (rules'.dispatchLine depth actor line) := by
  refine (mirrored_reach _).bind fun _ => ?_
  refine (h.respond depth actor _).bind fun outcome => ?_
  exact (mirrored_reach _).bind fun _ => mirrored_pure _

theorem dispatchQueued (queued : List FollowUp) :
    (rules.dispatchQueued queued).Mirrored R P (rules'.dispatchQueued queued) := by
  induction queued with
  | nil => exact mirrored_pure ()
  | cons followUp queued ih =>
    rw [Rules.dispatchQueued, Rules.dispatchQueued, h.config]
    split
    · exact (h.dispatchLine _ _ _).discard.bind fun _ => ih
    · exact ih

theorem drainGenerations (generations : Nat) :
    (rules.drainGenerations generations).Mirrored R P (rules'.drainGenerations generations) := by
  have hcleared : (update fun s : State S => { s with followUps := .empty }).Mirrored R P
      (update fun t => { t with followUps := .empty }) :=
    fun s t hst => mirroredAt_update (h.queue hst .empty)
  induction generations with
  | zero => exact hcleared
  | succ generations ih =>
    intro s t hst
    refine mirroredAt_get_bind ?_
    rw [h.followUps hst]
    dsimp only
    split
    · exact mirroredAt_pure hst
    · exact (hcleared s t hst).bind fun _ => (h.dispatchQueued _).bind fun _ => ih

theorem drain : rules.drain.Mirrored R P rules'.drain := by
  rw [Rules.drain, Rules.drain, h.config]
  exact h.drainGenerations _

theorem dispatch (actor : CharacterId) (line : String) :
    (rules.dispatch actor line).Mirrored R P (rules'.dispatch actor line) :=
  (h.dispatchLine 0 actor line).bind fun _ => h.drain.bind fun _ => mirrored_pure _

theorem passTime (delta : Duration) :
    (Rules.passTime delta : Run S Unit).Mirrored R P (Rules.passTime delta) := by
  intro s t hst
  refine mirroredAt_note_bind hst fun _ => mirroredAt_get_bind ?_
  rw [World.advance, World.advance, h.now hst]
  cases s.world.now.add? delta with
  | none =>
    -- Both clocks have come to their end.
    exact mirroredAt_breakOff _ hst
  | some now => exact mirroredAt_update (h.pass hst now)

theorem takeDue (through : Nat) :
    (Rules.takeDue through : Run S _).Mirrored R P (Rules.takeDue through) := by
  intro s t hst
  refine mirroredAt_get_bind ?_
  -- The clocks and the schedules are the same, and so is the line that is due.
  rw [h.forest hst, h.now hst]
  split
  · exact mirroredAt_pure hst
  · rename_i line scheduler _
    refine mirroredAt_note_bind hst fun _ => ?_
    have hset := h.schedule hst scheduler
    rw [h.forest hst] at hset
    exact (mirroredAt_set hset).bind fun _ => mirrored_pure _

theorem fireDue (through count : Nat) :
    (rules.fireDue through count).Mirrored R P (rules'.fireDue through count) := by
  induction count with
  | zero => exact mirrored_pure ()
  | succ count ih =>
    refine (h.takeDue through).bind fun fired => ?_
    cases fired with
    | none => exact mirrored_pure ()
    | some line => exact (h.dispatch _ _).discard.bind fun _ => ih

theorem tickConversations (ids : List ConversationId) :
    (rules.tickConversations ids).Mirrored R P (rules'.tickConversations ids) := by
  induction ids with
  | nil => exact mirrored_pure ()
  | cons id ids ih => exact (h.tickConversation id).bind fun _ => ih

theorem runHooks (delta : Duration) {hooks : List (TickHook S)}
    (hhooks : ∀ hook ∈ hooks, hook ∈ rules.hooks) :
    (rules.runHooks delta hooks).Mirrored R P (rules'.runHooks delta hooks) := by
  induction hooks with
  | nil => exact mirrored_pure ()
  | cons hook hooks ih =>
    refine (mirrored_reach _).bind fun _ => ?_
    refine (h.hook hook (hhooks hook List.mem_cons_self) delta).bind fun _ => ?_
    exact ih fun other hother => hhooks other (List.mem_cons_of_mem _ hother)

theorem tick (delta : Duration) : (rules.tick delta).Mirrored R P (rules'.tick delta) := by
  refine (h.passTime delta).bind fun _ s t hst => ?_
  refine mirroredAt_gets_bind ?_
  rw [h.forest hst]
  refine (h.fireDue _ _ s t hst).bind fun _ s t hst => ?_
  refine mirroredAt_gets_bind ?_
  rw [h.forest hst, h.hooks]
  refine (h.tickConversations _ s t hst).bind fun _ => ?_
  exact (h.runHooks delta fun _ => id).bind fun _ => h.drain

theorem answerAll (prompts : List Prompt) :
    (Prompt.answerAll rules prompts).Mirrored R P (Prompt.answerAll rules' prompts) := by
  have hanswer (prompt : Prompt) :
      (prompt.answer rules).Mirrored R P (prompt.answer rules') := by
    cases prompt with
    | line actor text => exact (h.dispatch actor text).bind fun _ => mirrored_pure _
    | time delta => exact (h.tick delta).bind fun _ => mirrored_pure _
  induction prompts with
  | nil => exact mirrored_pure []
  | cons prompt prompts ih =>
    exact (hanswer prompt).bind fun _ => ih.bind fun _ => mirrored_pure _

end

end Rules.Mirror

end TextWorld

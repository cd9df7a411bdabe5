import TextWorld.Proofs.Engine.Once

/-!
What a run comes to. Other than a postcondition, this says that the run does not break off. Programs
that keep to a licence come to the same whatever has been queued before them, and however many
generations down they are run.
-/

namespace TextWorld

variable {S : Setting} {α β : Type}

namespace Run

/-- From `s` the run comes to its end with result `a`, and leaves `t` behind. -/
def Yields (m : Run S α) (s : State S) (a : α) (t : State S) : Prop :=
  ∃ seen, m s = ⟨seen, .ok a, t⟩

variable {m : Run S α} {f : α → Run S β} {s t u : State S} {a : α} {b : β}

theorem Yields.result_eq (h : m.Yields s a t) : (m s).result = .ok a := by
  obtain ⟨seen, hm⟩ := h
  rw [hm]

theorem Yields.state_eq (h : m.Yields s a t) : (m s).state = t := by
  obtain ⟨seen, hm⟩ := h
  rw [hm]

theorem yields_pure (a : α) (s : State S) : (pure a : Run S α).Yields s a s := ⟨[], rfl⟩

theorem yields_note (e : Event S) (s : State S) : (note e).Yields s () s := ⟨[⟨e, s⟩], rfl⟩

theorem yields_reach (stage : Stage S) (s : State S) : (reach stage).Yields s () s :=
  yields_note _ s

theorem yields_update (g : State S → State S) (s : State S) : (update g).Yields s () (g s) :=
  ⟨[], rfl⟩

theorem Yields.bind (hm : m.Yields s a t) (hf : (f a).Yields t b u) : (m >>= f).Yields s b u := by
  obtain ⟨seen, hm⟩ := hm
  obtain ⟨more, hf⟩ := hf
  exact ⟨seen ++ more, by rw [bind_of_ok hm, hf]⟩

theorem yields_get_bind {f : State S → Run S β} (h : (f s).Yields s b t) :
    ((get : Run S (State S)) >>= f).Yields s b t := h

theorem yields_gets_bind {g : State S → α} (h : (f (g s)).Yields s b t) :
    (gets g >>= f).Yields s b t := h

theorem Yields.discard (h : m.Yields s a t) : (discard m : Run S Unit).Yields s () t :=
  h.bind (yields_pure () t)

end Run

open Run

/-- What a definition is run with for a command of an actor. -/
def Definition.invocation (d : Definition (Handler S)) (w : World) (actor : CharacterId)
    (command : Command) (origin : Origin) : Invocation where
  actor := actor
  command := command
  args := match d.grammar with
    | some g => g.resolve w actor command.params
    | none => some []
  origin := origin
  data := d.data

namespace Rules

variable {rules : Rules S} {depth : Nat} {actor : CharacterId} {command : Command}
variable {s t u : State S}

/-! Lines where commands are registered for all only, and the actor is in no conversation. -/

theorem yields_orAsk {first second : Run S (Option Responder)} {answer : Option Responder}
    (hfirst : first.Yields s none s) (hsecond : second.Yields s answer t) :
    (orAsk first second).Yields s answer t :=
  hfirst.bind hsecond

theorem yields_ask {level : Responder} {handle : Run S CommandOutcome} {outcome : CommandOutcome}
    (h : handle.Yields s outcome t) :
    (ask level handle).Yields s (if outcome.isHandled then some level else none) t :=
  (yields_reach _ s).bind (h.bind ((yields_reach _ t).bind (yields_pure _ t)))

/-- Whoever is not there has no commands. -/
theorem yields_handle_missing {registry : Registry (Handler S)} {origin : Origin}
    (hnobody : s.world.character? actor = none) :
    (rules.handle depth registry actor command origin).Yields s .notHandled s := by
  refine yields_gets_bind ?_
  rw [hnobody]
  cases registry.lookup command.word <;> exact yields_pure _ s

theorem yields_handle_unknown {registry : Registry (Handler S)} {origin : Origin}
    (hword : registry.lookup command.word = none) :
    (rules.handle depth registry actor command origin).Yields s .notHandled s := by
  refine yields_gets_bind ?_
  rw [hword]
  exact yields_pure _ s

/-- A command that is for all, and needs no balance, is carried out. -/
theorem yields_handle {registry : Registry (Handler S)} {origin : Origin}
    {d : Definition (Handler S)} {outcome : CommandOutcome}
    (hword : registry.lookup command.word = some d) (hadmin : d.adminOnly = false)
    (hbalance : d.balanceGated = false) (hthere : (s.world.character? actor).isSome)
    (hrun : (rules.execute depth (d.run (d.invocation s.world actor command origin))).Yields s
      outcome t) :
    (rules.handle depth registry actor command origin).Yields s outcome t := by
  obtain ⟨c, hc⟩ := Option.isSome_iff_exists.1 hthere
  refine yields_gets_bind ?_
  rw [hword, hc]
  dsimp only
  rw [hadmin, hbalance]
  exact (yields_reach _ s).bind hrun

section

variable (honly : rules.OnlyGlobal)
include honly

theorem yields_askLevel (level : Responder) {registry : Registry (Handler S)} (origin : Origin)
    (hregistry : rules.registry? level = some registry) (hlevel : level ≠ .global) :
    (ask level (rules.handle depth registry actor command origin)).Yields s none s :=
  yields_ask (yields_handle_unknown (honly level registry hregistry hlevel command.word))

theorem yields_askCharacters (others : List CharacterId) :
    (rules.askCharacters depth actor command others).Yields s none s := by
  induction others with
  | nil => exact yields_pure none s
  | cons other others ih =>
    rw [askCharacters]
    split
    · exact ih
    · rename_i registry hregistry
      exact yields_orAsk (yields_askLevel honly (.character other) _ hregistry (by simp)) ih

theorem yields_askSurroundings :
    (rules.askSurroundings depth actor command).Yields s none s := by
  refine yields_get_bind ?_
  split
  · exact yields_pure none s
  · rename_i room _
    refine yields_orAsk ?_ (yields_gets_bind (yields_askCharacters honly _))
    unfold askRoom
    split
    · exact yields_pure none s
    · rename_i registry hregistry
      exact yields_askLevel honly (.room room) _ hregistry (by simp)

/-- A line comes to what the handler makes of it; the actor is told if nobody takes it. -/
theorem yields_dispatchLine (hquiet : activeConversation s.world s.forest actor = none)
    {line : String} (hblank : (Command.ofLine line).isBlank = false) {outcome : CommandOutcome}
    (h : (rules.handle depth rules.registries.global actor (.ofLine line) .global).Yields s
      outcome t) :
    (rules.dispatchLine depth actor line).Yields s
      (if outcome.isHandled then .handled .global else .unknown)
      (if outcome.isHandled then t else t.emit actor rules.config.unknownCommand) := by
  have hconversation : (rules.askConversation depth actor (.ofLine line)).Yields s none s := by
    refine yields_get_bind ?_
    rw [hquiet]
    exact yields_pure none s
  have hroute : (rules.route depth actor (.ofLine line)).Yields s
      (if outcome.isHandled then some .global else none) t :=
    yields_orAsk hconversation (yields_orAsk (yields_askSurroundings honly) (yields_ask h))
  refine (yields_reach _ s).bind (Yields.bind ?_ ((yields_reach _ _).bind (yields_pure _ _)))
  unfold respond
  rw [if_neg (by rw [hblank]; exact Bool.false_ne_true)]
  refine hroute.bind ?_
  cases outcome.isHandled with
  | true => exact yields_pure _ t
  | false => exact (yields_update _ t).bind (yields_pure _ _)

end

/-! Follow-ups. -/

theorem yields_drain_idle (hidle : s.followUps = .empty) (generations : Nat) :
    (rules.drainGenerations generations).Yields s () s := by
  have hsame : { s with followUps := .empty } = s := by rw [← hidle]
  cases generations with
  | zero => exact hsame ▸ yields_update _ s
  | succ generations =>
    refine yields_get_bind ?_
    dsimp only
    rw [if_pos (by rw [hidle]; rfl)]
    exact yields_pure () s

/-- A single line that is queued is dispatched, and then whatever it has queued itself. -/
theorem yields_drain_one {f : FollowUp} {outcome : DispatchOutcome} {generations : Nat}
    (hqueue : s.followUps.toList = [f]) (hdepth : f.depth ≤ rules.config.maxFollowUpDepth)
    (hline : (rules.dispatchLine f.depth f.actor f.line).Yields { s with followUps := .empty }
      outcome t)
    (hrest : (rules.drainGenerations generations).Yields t () u) :
    (rules.drainGenerations (generations + 1)).Yields s () u := by
  refine yields_get_bind ?_
  dsimp only
  rw [if_neg (by simp [Queue.isEmpty_iff, hqueue]), hqueue]
  have hround : (rules.dispatchQueued [f]).Yields { s with followUps := .empty } () t := by
    rw [dispatchQueued, if_pos hdepth]
    exact hline.discard.bind (yields_pure () t)
  exact (yields_update _ s).bind (hround.bind hrest)

theorem yields_dispatch {line : String} {outcome : DispatchOutcome}
    (hline : (rules.dispatchLine 0 actor line).Yields s outcome t)
    (hdrain : (rules.drainGenerations rules.config.maxFollowUpDepth).Yields t () u) :
    (rules.dispatch actor line).Yields s outcome u :=
  hline.bind (Yields.bind hdrain (yields_pure outcome u))

end Rules

/-! Programs. -/

/-- Queues lines of an actor, one after another. -/
def Queue.pushLines (queue : Queue FollowUp) (actor : CharacterId) (depth : Nat)
    (lines : List String) : Queue FollowUp :=
  lines.foldl (fun q line => q.push ⟨actor, line, depth⟩) queue

/-- Whatever is queued before, and however many generations down it is run, the program comes to
its end with this result in this state, and has queued these lines of the actor. -/
def Program.Steady (rules : Rules S) (actor : CharacterId) (p : Program S α) (s : State S) (a : α)
    (t : State S) (lines : List String) : Prop :=
  ∀ depth queue, (rules.execute depth p).Yields { s with followUps := queue } a
    { t with followUps := queue.pushLines actor (depth + 1) lines }

namespace Program

variable {rules : Rules S} {actor : CharacterId} {s t u : State S} {a : α} {b : β}
variable {lines more : List String}

theorem steady_pure (a : α) (s : State S) :
    (pure a : Program S α).Steady rules actor s a s [] :=
  fun _ _ => yields_pure a _

theorem Steady.bind {p : Program S α} {f : α → Program S β}
    (hp : p.Steady rules actor s a t lines) (hf : (f a).Steady rules actor t b u more) :
    (p >>= f).Steady rules actor s b u (lines ++ more) := by
  intro depth queue
  rw [Rules.execute, run_bind, Queue.pushLines, List.foldl_append]
  exact (hp depth queue).bind (hf depth _)

theorem steady_emit (recipient : CharacterId) (text : String) (s : State S) :
    (emit recipient text).Steady rules actor s () (s.emit recipient text) [] :=
  fun _ _ => (yields_note _ _).bind ((yields_update _ _).bind (yields_pure () _))

theorem steady_emitRoom (room : RoomId) (except : Option CharacterId) (text : String)
    (s : State S) :
    (emitRoom room except text).Steady rules actor s () (s.emitRoom room except text) [] := by
  intro depth queue
  -- What is queued does not matter for who is told.
  have hfold (ids : List CharacterId) (s : State S) :
      ids.foldl (fun s id => s.emit id text) { s with followUps := queue } =
        { ids.foldl (fun s id => s.emit id text) s with followUps := queue } := by
    induction ids generalizing s with
    | nil => rfl
    | cons id ids ih => exact ih (s.emit id text)
  have hemit : ({ s with followUps := queue } : State S).emitRoom room except text =
      { s.emitRoom room except text with followUps := queue } := by
    rw [State.emitRoom, State.emitRoom]
    dsimp only
    split
    · rfl
    · exact hfold _ s
  have htold := yields_update (fun s => s.emitRoom room except text) { s with followUps := queue }
  rw [hemit] at htold
  exact (yields_note _ _).bind (htold.bind (yields_pure () _))

theorem steady_send (line : String) (s : State S) :
    (send actor line).Steady rules actor s () s [line] :=
  fun _ _ => (yields_note _ _).bind ((yields_update _ _).bind (yields_pure () _))

theorem steady_world (s : State S) : (world : Program S World).Steady rules actor s s.world s [] :=
  fun _ _ => (yields_note _ _).bind (yields_gets_bind (yields_pure _ _))

theorem steady_catalogue (s : State S) :
    (catalogue : Program S (Registries Unit)).Steady rules actor s
      (rules.registries.map fun _ => ()) s [] :=
  fun _ _ => (yields_note _ _).bind ((yields_pure _ _).bind (yields_pure _ _))

theorem steady_perform {op : World.Op} {reply : World.Reply op.Result}
    (h : s.world.perform op = some reply) :
    (perform op : Program S _).Steady rules actor s reply.1 { s with world := reply.2 } [] := by
  intro depth queue
  have hreply : (rules.reply depth (rules.deliver depth rules.maxDeliveries) (.perform op)).Yields
      { s with followUps := queue } reply.1
      { s with world := reply.2, followUps := queue } := by
    refine yields_get_bind ?_
    dsimp only
    rw [h]
    exact (yields_update _ _).bind (yields_pure _ _)
  exact (yields_note _ _).bind (hreply.bind (yields_pure _ _))

/-- A program that keeps to a licence is steady if its operation cannot overrun the clock. -/
theorem Within.exists_steady (rules : Rules S) {p : Program S α} {may : Licence}
    (h : p.Within actor may s.world)
    (hop : ∀ op, may.op op → (s.world.perform op).isSome) :
    ∃ a t lines, p.Steady rules actor s a t lines ∧ ∀ line ∈ lines, may.line line := by
  induction p generalizing s may with
  | done a => exact ⟨a, s, [], steady_pure a s, nofun⟩
  | ask r next ih =>
    obtain ⟨hr, hnext⟩ := h
    have hspent {line : String} : (may.spend r).line line → may.line line := by
      cases r <;> first | exact id | exact False.elim
    -- What is asked for is steady by itself, and so is what follows.
    have hthen {x : r.Reply} {v : State S} {sent : List String}
        (hfirst : (request r).Steady rules actor s x v sent) (hsent : ∀ line ∈ sent, may.line line)
        (hrest : ∃ a t lines, (next x).Steady rules actor v a t lines ∧
          ∀ line ∈ lines, (may.spend r).line line) :
        ∃ a t lines, (ask r next).Steady rules actor s a t lines ∧
          ∀ line ∈ lines, may.line line := by
      obtain ⟨a, t, lines, hsteady, hlines⟩ := hrest
      refine ⟨a, t, sent ++ lines, hfirst.bind hsteady, fun line hmem => ?_⟩
      exact (List.mem_append.1 hmem).elim (hsent line) fun hlater => hspent (hlines line hlater)
    cases r with
    | emit recipient text =>
      exact hthen (steady_emit recipient text s) nofun
        (ih () (s := s.emit recipient text) (hnext () _ rfl) hop)
    | emitRoom room except text =>
      obtain ⟨mailbox, hemit⟩ := s.emitRoom_eq room except text
      refine hthen (steady_emitRoom room except text s) nofun ?_
      rw [hemit]
      exact ih () (s := { s with mailbox }) (hnext () _ rfl) hop
    | world => exact hthen (steady_world s) nofun (ih s.world (hnext s.world _ ⟨rfl, rfl⟩) hop)
    | catalogue => exact hthen (steady_catalogue s) nofun (ih _ (hnext _ _ rfl) hop)
    | send who line =>
      obtain ⟨rfl, hline⟩ := hr
      exact hthen (steady_send line s) (by simpa using hline) (ih () (hnext () _ rfl) hop)
    | perform op =>
      obtain ⟨reply, hreply⟩ := Option.isSome_iff_exists.1 (hop op hr)
      refine hthen (steady_perform hreply) nofun ?_
      exact ih reply.1 (s := { s with world := reply.2 }) (hnext _ _ hreply)
        fun _ hnone => hnone.elim
    | _ => exact absurd hr (by rintro ⟨⟩)

/-- The world is left as the one operation of the licence leaves it. -/
theorem Steady.leaves {p : Program S α} {may : Licence} (h : p.Steady rules actor s a t lines)
    (hwithin : p.Within actor may s.world) : t.forest = s.forest ∧
      (t.world = s.world ∨ ∃ op, may.op op ∧ t.world = s.world.after op) := by
  have hrun := h 0 s.followUps
  have honce : (rules.execute 0 p).Once may.op
      (fun _ t => t.forest = s.forest ∧ s.Queues actor (0 + 1) may.line t) s :=
    Rules.once_execute hwithin
  have hleft := honce.leaves.ensures a hrun.result_eq
  rw [hrun.state_eq] at hleft
  exact ⟨hleft.1.1, hleft.2⟩

end Program

end TextWorld

import TextWorld.Proofs.Engine.Answering
import TextWorld.Proofs.Engine.Worldly

/-!
The gates in front of commands. No handler starts for somebody its definition does not admit; who
has been put off balance stays so for exactly that long; and who is stopped for it is told so, and
nothing else comes of the line.
-/

namespace TextWorld

variable {S : Setting} {α : Type}

/-- A character is put off balance, successfully. -/
def Sight.PutsOff (sight : Sight S) (who : CharacterId) (duration : Duration) : Prop :=
  sight.event = .asked (.perform (.putOffBalance who duration)) ∧
    ∃ w, sight.state.world.putOffBalance who duration = some (.ok (), w)

namespace World

/-- A character has no balance until then, or is gone for good. -/
structure Recovering (who : CharacterId) (deadline : Duration) (w : World) : Prop where
  drawn : who.index ≤ w.lastIndex
  balanceUntil : ∀ {c}, w.character? who = some c → c.balanceUntil = some deadline

theorem secluded_balance (who : CharacterId) :
    Secluded (fun x c => if x = who then c.balanceUntil else none) none where
  room _ _ _ := rfl
  bare _ _ := rfl
  isAdmin _ _ _ := rfl
  conversation _ _ _ := rfl
  new x c _ hnone := by
    split
    · exact hnone
    · rfl

variable {who : CharacterId} {deadline duration : Duration} {w v : World}

theorem Recovering.remaining (h : Recovering who deadline w) {c : Character}
    (hc : w.character? who = some c) (now : Duration) :
    c.balanceRemaining now = deadline.remaining? now := by
  rw [Character.balanceRemaining, h.balanceUntil hc, Option.bind_some]

theorem Recovering.retains (h : Recovering who deadline w)
    (hr : Retains (fun x c => if x = who then c.balanceUntil else none) none w v) :
    Recovering who deadline v := by
  refine ⟨Nat.le_trans h.drawn hr.lastIndex, fun {c} hc => ?_⟩
  rcases hr.retained hc with ⟨d, hd, hview⟩ | ⟨-, hfresh, -⟩
  · rw [if_pos rfl, if_pos rfl] at hview
    exact hview.symm.trans (h.balanceUntil hd)
  · exact absurd h.drawn (Nat.not_le.2 hfresh)

theorem Recovering.perform (h : Recovering who deadline w) {op : Op} {reply : Reply op.Result}
    (hr : w.perform op = some reply)
    (hput : ∀ duration v, op = .putOffBalance who duration →
      w.putOffBalance who duration ≠ some (.ok (), v)) : Recovering who deadline reply.2 := by
  cases op with
  | advance delta =>
    obtain ⟨v, hv, rfl⟩ := Option.map_eq_some_iff.1 hr
    obtain ⟨now, -, rfl⟩ := Option.map_eq_some_iff.1 hv
    exact ⟨h.drawn, h.balanceUntil⟩
  | putOffBalance who' duration =>
    by_cases hwho : who' = who
    · subst hwho
      -- Nobody is there to be put off balance.
      have hfail := hput duration reply.2 rfl
      simp only [World.perform, putOffBalance] at hr hfail
      obtain ⟨due, hdue, rfl⟩ := Option.map_eq_some_iff.1 hr
      rw [hdue] at hfail
      cases hc : w.character? who' with
      | none => exact h
      | some c => simp [hc] at hfail
    · apply h.retains
      apply retains_perform (secluded_balance who).toAloof hr (fun delta heq => by cases heq)
      intro other longer heq c balanceUntil
      cases heq
      rw [if_neg hwho, if_neg hwho]
  | _ =>
    apply h.retains
    exact retains_perform (secluded_balance who).toAloof hr (fun delta heq => by cases heq)
      fun other longer heq => by cases heq

theorem Recovering.advance (h : Recovering who deadline w) {delta : Duration}
    (hv : w.advance delta = some v) : Recovering who deadline v := by
  obtain ⟨now, -, rfl⟩ := Option.map_eq_some_iff.1 hv
  exact ⟨h.drawn, h.balanceUntil⟩

theorem recovering_putOffBalance (hput : w.putOffBalance who duration = some (.ok (), v))
    (hdrawn : who.index ≤ w.lastIndex) :
    Recovering who ⟨w.now.nanos + duration.nanos⟩ v := by
  obtain ⟨due, hdue, hreply⟩ := Option.map_eq_some_iff.1 hput
  obtain ⟨-, hdeadline⟩ := Duration.add?_eq_some.1 hdue
  cases hc : w.character? who with
  | none => simp [hc] at hreply
  | some c =>
    rw [hc] at hreply
    cases hreply
    refine ⟨hdrawn, fun {d} hd => ?_⟩
    rw [character?_eq, Table.getElem?_modify, if_pos rfl] at hd
    obtain ⟨e, -, rfl⟩ := Option.map_eq_some_iff.1 hd
    rw [← hdeadline]

end World

section

variable {allowed : Stage S → Prop} {generation : Option Nat} {s s' : State S}
variable {seen : List (Sight S)} {who : CharacterId} {deadline : Duration}

theorem Step.recovering (h : Step allowed generation s seen s')
    (hs : s.world.Recovering who deadline)
    (hput : ∀ sight ∈ seen, ∀ duration, ¬sight.PutsOff who duration) :
    s'.world.Recovering who deadline := by
  -- The world is left alone, or an operation is carried out, or time passes.
  rcases h.world_cases with hretains | ⟨op, reply, rfl, hreply, hworld⟩ | ⟨delta, -, hworld⟩
  · exact hs.retains (hretains (World.secluded_balance who))
  · rw [hworld]
    apply hs.perform hreply
    rintro duration v rfl hok
    exact hput _ (List.mem_singleton.2 rfl) duration ⟨rfl, v, hok⟩
  · exact hs.advance hworld

theorem Walk.recovering (h : Walk allowed generation s seen s')
    (hs : s.world.Recovering who deadline)
    (hput : ∀ sight ∈ seen, ∀ duration, ¬sight.PutsOff who duration) :
    s'.world.Recovering who deadline := by
  induction h with
  | refl s => exact hs
  | step hstep _ ih =>
    apply ih
    · exact hstep.recovering hs fun sight hmem => hput sight (List.mem_append_left _ hmem)
    · exact fun sight hmem => hput sight (List.mem_append_right _ hmem)

end

/-- Whether a handler starts or is stopped. -/
def Stage.AtGate : Stage S → Prop
  | .invoked _ _ | .barred _ _ _ => True
  | _ => False

/-- The gates in what there is to see. -/
structure GateLaw (seen : List (Sight S)) : Prop where
  /-- Whoever a handler is started for is there, and is admitted. -/
  admitted : ∀ {sight d inv}, sight ∈ seen → sight.event = .reached (.invoked d inv) →
    ∃ c, sight.state.world.character? inv.actor = some c ∧ d.Admits c sight.state.world.now
  /-- Who was put off balance has recovered when a handler is started that needs balance. -/
  recovered : ∀ {before between after : List (Sight S)} {put sight : Sight S} {who duration},
    seen = before ++ put :: (between ++ sight :: after) → put.PutsOff who duration →
      (∀ other ∈ between, ∀ longer, ¬other.PutsOff who longer) →
      ∀ d inv, sight.event = .reached (.invoked d inv) → inv.actor = who →
        d.balanceGated = true →
        put.state.world.now.nanos + duration.nanos ≤ sight.state.world.now.nanos
  /-- Who is stopped has not recovered yet, and just as much time is left. -/
  barred : ∀ {before between after : List (Sight S)} {put sight : Sight S} {who duration},
    seen = before ++ put :: (between ++ sight :: after) → put.PutsOff who duration →
      (∀ other ∈ between, ∀ longer, ¬other.PutsOff who longer) →
      ∀ d left, sight.event = .reached (.barred d who left) →
        d.balanceGated = true ∧ 0 < left.nanos ∧
          sight.state.world.now.nanos + left.nanos =
            put.state.world.now.nanos + duration.nanos

section

variable {allowed : Stage S → Prop} {generation : Option Nat} {s s' : State S}
variable {seen before between after : List (Sight S)} {put sight : Sight S}
variable {who : CharacterId} {duration : Duration}

theorem Step.warranted_atGate {stage : Stage S} {t : State S}
    (h : Step allowed generation s [⟨.reached stage, t⟩] s') (hgate : stage.AtGate) :
    t = s ∧ stage.Warranted s := by
  obtain ⟨rfl, hw | ⟨delta, rfl⟩ | ⟨through, line, rfl⟩⟩ := h.warranted
  · exact ⟨rfl, hw⟩
  · exact absurd hgate id
  · exact absurd hgate id

/-- Between two times that somebody is put off balance, the deadline is that of the first. -/
theorem Walk.recovering_at
    (h : Walk allowed generation s (before ++ put :: (between ++ sight :: after)) s')
    (hdrawn : ∀ {x}, (put.state.world.character? x).isSome → x.index ≤ put.state.world.lastIndex)
    (hput : put.PutsOff who duration)
    (hbetween : ∀ other ∈ between, ∀ longer, ¬other.PutsOff who longer) :
    ∃ t t', Step allowed generation t [sight] t' ∧
      t.world.Recovering who ⟨put.state.world.now.nanos + duration.nanos⟩ := by
  -- The first step sets the deadline, and the steps in the middle leave it as it is.
  obtain ⟨t₁, t₂, -, hfirst, hrest⟩ := h.split
  obtain ⟨t, t', hmiddle, hsight, -⟩ := hrest.split
  refine ⟨t, t', hsight, hmiddle.recovering ?_ hbetween⟩
  obtain ⟨event, state⟩ := put
  obtain ⟨rfl, w, hw⟩ := hput
  cases hfirst with
  | asked r depth hdepth =>
    have hworld : (t₁.granted depth (.perform (.putOffBalance who duration))).world = w := by
      rw [State.granted, World.perform, hw]
    rw [hworld]
    apply World.recovering_putOffBalance hw
    apply hdrawn
    cases hc : t₁.world.character? who with
    | some c => rfl
    | none =>
      obtain ⟨due, -, hreply⟩ := Option.map_eq_some_iff.1 hw
      simp [hc] at hreply

/-- Where everybody there has an id that was drawn, the gates keep what they promise. -/
theorem Walk.gateLaw (h : Walk allowed generation s seen s')
    (hdrawn : ∀ sight ∈ seen, ∀ {x}, (sight.state.world.character? x).isSome →
      x.index ≤ sight.state.world.lastIndex) : GateLaw seen := by
  constructor
  · intro sight d inv hmem hevent
    obtain ⟨before, after, rfl⟩ := List.append_of_mem hmem
    obtain ⟨t, t', -, hstep, -⟩ := h.split
    obtain ⟨event, state⟩ := sight
    cases hevent
    obtain ⟨rfl, hw⟩ := hstep.warranted_atGate trivial
    exact hw
  · rintro before between after put sight who duration rfl hput hbetween d inv hevent rfl hgated
    have hmem : put ∈ before ++ put :: (between ++ sight :: after) :=
      List.mem_append_right _ List.mem_cons_self
    obtain ⟨t, t', hstep, hrecovering⟩ := h.recovering_at (hdrawn put hmem) hput hbetween
    obtain ⟨event, state⟩ := sight
    cases hevent
    obtain ⟨rfl, c, hc, hadmits⟩ := hstep.warranted_atGate trivial
    have hleft := hadmits.2 hgated
    rw [hrecovering.remaining hc] at hleft
    exact Duration.remaining?_eq_none.1 hleft
  · rintro before between after put sight who duration rfl hput hbetween d left hevent
    have hmem : put ∈ before ++ put :: (between ++ sight :: after) :=
      List.mem_append_right _ List.mem_cons_self
    obtain ⟨t, t', hstep, hrecovering⟩ := h.recovering_at (hdrawn put hmem) hput hbetween
    obtain ⟨event, state⟩ := sight
    cases hevent
    obtain ⟨rfl, hgated, c, hc, hleft⟩ := hstep.warranted_atGate trivial
    rw [hrecovering.remaining hc] at hleft
    exact ⟨hgated, Duration.remaining?_eq_some.1 hleft⟩

end

/-- Handlers start, and are stopped, at the levels of the chain that have registries. -/
structure AtLevels (rules : Rules S) (seen : List (Sight S)) : Prop where
  /-- A handler is that of the word of the line, in the registry of the level just asked. -/
  invoked : ∀ {before after : List (Sight S)} {s d inv},
    seen = before ++ ⟨.reached (.invoked d inv), s⟩ :: after →
      ∃ earlier level registry, before = earlier ++ [⟨.reached (.offered level), s⟩] ∧
        rules.registry? level = some registry ∧ registry.lookup inv.command.word = some d
  /-- Who is stopped is told how much time is left; no handler runs, and the line is done with. -/
  barred : ∀ {before after : List (Sight S)} {s d actor left},
    seen = before ++ ⟨.reached (.barred d actor left), s⟩ :: after →
      ∃ earlier later level registry word s',
        before = earlier ++ [⟨.reached (.offered level), s⟩] ∧
        rules.registry? level = some registry ∧ registry.lookup word = some d ∧
        s' = s.emit actor (rules.config.cooldownMessage left) ∧
        after = ⟨.reached (.answered level .blocked), s'⟩ ::
          ⟨.reached (.done (.handled level)), s'⟩ :: later

/-- No handler starts and none is stopped. -/
def Ungated (seen : List (Sight S)) : Prop :=
  ∀ sight ∈ seen, ∀ stage, sight.event = .reached stage → ¬stage.AtGate

theorem Ungated.cons {seen : List (Sight S)} (h : Ungated seen) {stage : Stage S} {s : State S}
    (hstage : ¬stage.AtGate) : Ungated (⟨.reached stage, s⟩ :: seen) := by
  intro sight hmem stage' hevent
  rcases List.mem_cons.1 hmem with rfl | hmem
  · cases hevent
    exact hstage
  · exact h sight hmem stage' hevent

theorem ungated_nil : Ungated ([] : List (Sight S)) := fun sight hmem => by cases hmem

namespace AtLevels

variable {rules : Rules S} {seen more : List (Sight S)} {s : State S}

theorem of_ungated (h : Ungated seen) : AtLevels rules seen := by
  constructor
  · rintro before after s d inv rfl
    exact absurd trivial (h _ (List.mem_append_right _ List.mem_cons_self) _ rfl)
  · rintro before after s d actor left rfl
    exact absurd trivial (h _ (List.mem_append_right _ List.mem_cons_self) _ rfl)

theorem single {stage : Stage S} (s : State S) (h : ¬stage.AtGate) :
    AtLevels rules [⟨.reached stage, s⟩] :=
  of_ungated (ungated_nil.cons h)

theorem append (h : AtLevels rules seen) (h' : AtLevels rules more) :
    AtLevels rules (seen ++ more) := by
  constructor
  · intro before after s d inv hseen
    rcases sight_of_append hseen with ⟨later, hfirst, -⟩ | ⟨earlier, rfl, hsecond⟩
    · exact h.invoked hfirst
    · obtain ⟨earlier, level, registry, rfl, hregistry⟩ := h'.invoked hsecond
      exact ⟨seen ++ earlier, level, registry, (List.append_assoc _ _ _).symm, hregistry⟩
  · intro before after s d actor left hseen
    rcases sight_of_append hseen with ⟨middle, hfirst, rfl⟩ | ⟨earlier, rfl, hsecond⟩
    · obtain ⟨earlier, later, level, registry, word, s', hbefore, hregistry, hword, hs', rfl⟩ :=
        h.barred hfirst
      exact ⟨earlier, later ++ more, level, registry, word, s', hbefore, hregistry, hword, hs', rfl⟩
    · obtain ⟨earlier, later, level, registry, word, s', rfl, hrest⟩ := h'.barred hsecond
      exact ⟨seen ++ earlier, later, level, registry, word, s', (List.append_assoc _ _ _).symm,
        hrest⟩

/-- A level starts the handler of a word. -/
theorem start {level : Responder} {registry : Registry (Handler S)} {d : Definition (Handler S)}
    {inv : Invocation} (hregistry : rules.registry? level = some registry)
    (hword : registry.lookup inv.command.word = some d) (hmore : Ungated more) :
    AtLevels rules
      (⟨.reached (.offered level), s⟩ :: ⟨.reached (.invoked d inv), s⟩ :: more) := by
  have hfirst : AtLevels rules
      [⟨.reached (.offered level), s⟩, ⟨.reached (.invoked d inv), s⟩] := by
    constructor
    · intro before after s' d' inv' hseen
      rcases before with _ | ⟨first, _ | ⟨second, before⟩⟩
      · cases hseen
      · cases hseen
        exact ⟨[], level, registry, rfl, hregistry, hword⟩
      · simp at hseen
    · intro before after s' d' actor left hseen
      rcases before with _ | ⟨first, _ | ⟨second, before⟩⟩
      all_goals simp at hseen
  exact hfirst.append (of_ungated hmore)

/-- A level stops somebody, and the line is done with. -/
theorem stop {level : Responder} {registry : Registry (Handler S)} {d : Definition (Handler S)}
    {word : String} {actor : CharacterId} {left : Duration} {s' : State S}
    (hregistry : rules.registry? level = some registry) (hword : registry.lookup word = some d)
    (hs' : s' = s.emit actor (rules.config.cooldownMessage left)) :
    AtLevels rules [⟨.reached (.offered level), s⟩, ⟨.reached (.barred d actor left), s⟩,
      ⟨.reached (.answered level .blocked), s'⟩, ⟨.reached (.done (.handled level)), s'⟩] := by
  constructor
  · intro before after t d' inv hseen
    rcases before with _ | ⟨first, _ | ⟨second, _ | ⟨third, _ | ⟨fourth, before⟩⟩⟩⟩
    all_goals simp at hseen
  · intro before after t d' actor' left' hseen
    rcases before with _ | ⟨first, _ | ⟨second, _ | ⟨third, _ | ⟨fourth, before⟩⟩⟩⟩
    · cases hseen
    · -- The second of the four is the only place where somebody is stopped.
      cases hseen
      exact ⟨[], [], level, registry, word, s', rfl, hregistry, hword, hs', rfl⟩
    all_goals simp at hseen

end AtLevels

section

variable {allowed : Stage S → Prop} {generation : Option Nat} {s s' : State S}
variable {seen : List (Sight S)}

/-- Where no handler may start and none may be stopped, none does and none is. -/
theorem Walk.ungated (hallowed : ∀ stage, allowed stage → ¬stage.AtGate)
    (h : Walk allowed generation s seen s') : Ungated seen :=
  fun _ hmem stage hevent => hallowed stage (h.reached_allowed hmem hevent)

end

namespace Rules

variable {rules : Rules S} {depth : Nat} {s : State S} {actor : CharacterId} {command : Command}

/-- What a level does with a line: nothing at a gate, or it stops the actor, or it starts the
handler of the word. -/
inductive AtGate (rules : Rules S) (actor : CharacterId) (command : Command) (level : Responder)
    (s : State S) : Course S CommandOutcome → Prop where
  | ungated {course : Course S CommandOutcome} (h : Ungated course.sights) :
      AtGate rules actor command level s course
  | barred {registry : Registry (Handler S)} {d : Definition (Handler S)} {left : Duration}
      (hregistry : rules.registry? level = some registry)
      (hword : registry.lookup command.word = some d) :
      AtGate rules actor command level s ⟨[⟨.reached (.barred d actor left), s⟩], .ok .blocked,
        s.emit actor (rules.config.cooldownMessage left)⟩
  | invoked {registry : Registry (Handler S)} {d : Definition (Handler S)} {inv : Invocation}
      {more : List (Sight S)} {result : Except Fault CommandOutcome} {s' : State S}
      (hregistry : rules.registry? level = some registry)
      (hword : registry.lookup inv.command.word = some d) (hmore : Ungated more) :
      AtGate rules actor command level s ⟨⟨.reached (.invoked d inv), s⟩ :: more, result, s'⟩

theorem handle_atGate {level : Responder} {registry : Registry (Handler S)} (depth : Nat)
    (actor : CharacterId) (command : Command) (origin : Origin) (s : State S)
    (hregistry : rules.registry? level = some registry) :
    AtGate rules actor command level s (rules.handle depth registry actor command origin s) := by
  have hnone : AtGate rules actor command level s ⟨[], .ok .notHandled, s⟩ := .ungated ungated_nil
  rw [handle, Run.gets_bind]
  cases hword : registry.lookup command.word with
  | none => exact hnone
  | some d =>
    cases s.world.character? actor with
    | none => exact hnone
    | some c =>
      dsimp only
      split
      · exact hnone
      · generalize (if d.balanceGated = true then c.balanceRemaining s.world.now else none) = left
        cases left with
        | some left => exact .barred hregistry hword
        | none =>
          refine .invoked hregistry hword ?_
          exact (execute_acts rules depth _ s).walk.ungated fun stage hstage _ => hstage

theorem answer_atGate (rules : Rules S) (depth : Nat) (actor : CharacterId) (command : Command)
    (level : Responder) (s : State S) :
    AtGate rules actor command level s (rules.answer depth actor command level s) := by
  have hnone : AtGate rules actor command level s ⟨[], .ok .notHandled, s⟩ := .ungated ungated_nil
  cases level with
  | conversation id =>
    apply AtGate.ungated
    exact (offer_acts rules depth id actor command s).walk.ungated fun stage hstage _ => hstage
  | room room =>
    rw [answer]
    cases hregistry : rules.registries.rooms.get? room with
    | none => exact hnone
    | some registry => exact handle_atGate depth actor command (.room room) s hregistry
  | character other =>
    rw [answer]
    cases hregistry : rules.registries.characters.get? other with
    | none => exact hnone
    | some registry => exact handle_atGate depth actor command (.character other) s hregistry
  | global => exact handle_atGate depth actor command .global s rfl

/-- A level that is asked and does not stop the actor, up to its answer. -/
theorem AtGate.unbarred {level : Responder} {course : Course S CommandOutcome}
    (h : AtGate rules actor command level s course) (hopen : course.result ≠ .ok .blocked) :
    AtLevels rules (⟨.reached (.offered level), s⟩ :: course.sights) := by
  cases h with
  | ungated hungated => exact .of_ungated (hungated.cons id)
  | barred hregistry hword => exact absurd rfl hopen
  | invoked hregistry hword hmore => exact .start hregistry hword hmore

/-- The last level that is asked, with its answer and the end of the line. -/
theorem AtGate.closed {level : Responder} {more : List (Sight S)} {outcome : CommandOutcome}
    {s' : State S} (h : AtGate rules actor command level s ⟨more, .ok outcome, s'⟩) :
    AtLevels rules (⟨.reached (.offered level), s⟩ :: more ++
      [⟨.reached (.answered level outcome), s'⟩, ⟨.reached (.done (.handled level)), s'⟩]) := by
  have hend : AtLevels rules
      [⟨.reached (.answered level outcome), s'⟩, ⟨.reached (.done (.handled level)), s'⟩] :=
    .of_ungated ((ungated_nil.cons id).cons id)
  cases h with
  | ungated hungated => exact .append (.of_ungated (hungated.cons id)) hend
  | barred hregistry hword => exact .stop hregistry hword rfl
  | invoked hregistry hword hmore => exact .append (.start hregistry hword hmore) hend

theorem Asking.atLevels {asks : List (Ask S)} {seen : List (Sight S)} {s' : State S}
    (h : Asking rules depth actor command s asks seen s')
    (hleft : ∀ ask ∈ asks, ask.outcome = .notHandled) : AtLevels rules seen := by
  induction h with
  | nil s => exact .of_ungated fun sight hmem => by cases hmem
  | @cons s s' s'' level outcome asks seen more hanswer _ ih =>
    have houtcome : outcome = .notHandled := hleft _ List.mem_cons_self
    have hgate := answer_atGate rules depth actor command level s
    rw [hanswer, houtcome] at hgate
    apply (hgate.unbarred (by rintro ⟨⟩)).append
    have hrest := ih fun ask hmem => hleft ask (List.mem_cons_of_mem _ hmem)
    exact (AtLevels.single s' id).append hrest

/-- The last level that was asked. -/
theorem Asking.last {asks : List (Ask S)} {last : Ask S} {seen : List (Sight S)} {s' : State S}
    (h : Asking rules depth actor command s (asks ++ [last]) seen s') :
    ∃ earlier t more, Asking rules depth actor command s asks earlier t ∧
      rules.answer depth actor command last.level t = ⟨more, .ok last.outcome, last.state⟩ ∧
      seen = earlier ++ (⟨.reached (.offered last.level), t⟩ :: more ++
        [⟨.reached (.answered last.level last.outcome), last.state⟩]) := by
  induction asks generalizing s seen with
  | nil =>
    cases h with
    | cons hanswer hrest =>
      cases hrest
      exact ⟨[], s, _, .nil s, hanswer, rfl⟩
  | cons ask asks ih =>
    cases h with
    | cons hanswer hrest =>
      obtain ⟨earlier, t, more, hasking, hlast, rfl⟩ := ih hrest
      exact ⟨_, t, more, .cons hanswer hasking, hlast, by simp⟩

theorem dispatchLine_atLevels (rules : Rules S) (depth : Nat) (actor : CharacterId)
    (line : String) (s : State S) :
    AtLevels rules (rules.dispatchLine depth actor line s).sights := by
  cases hline : (Command.ofLine line).isBlank with
  | true =>
    have hrespond : rules.respond depth actor (.ofLine line) s = ⟨[], .ok .empty, s⟩ := by
      rw [respond, if_pos hline]
      rfl
    rw [dispatchLine_course rules depth actor line s hrespond]
    exact .of_ungated ((ungated_nil.cons id).cons id)
  | false =>
    rw [dispatchLine_settled rules depth actor line s hline]
    have hstart : AtLevels rules [⟨.reached (.task (.line ⟨actor, line, depth⟩)), s⟩] :=
      .single s id
    obtain ⟨asks, hasked⟩ := route_asked rules depth actor (.ofLine line) s
    generalize rules.route depth actor (.ofLine line) s = answers at hasked
    cases hasked with
    | passed hasking hlevels hleft =>
      exact hstart.append ((hasking.atLevels hleft).append (.single _ id))
    | broken hasking hlevels hleft hanswer =>
      rename_i level seen more s' s'' fault
      have hgate := answer_atGate rules depth actor (.ofLine line) level s'
      rw [hanswer] at hgate
      exact hstart.append ((hasking.atLevels hleft).append (hgate.unbarred (by rintro ⟨⟩)))
    | accepted hasking hlevels hleft hlast =>
      rename_i asks last seen
      -- Only the last level can have stopped the actor, and the line ends with its answer.
      obtain ⟨earlier, t, more, hearlier, hanswer, rfl⟩ := hasking.last
      have hgate := answer_atGate rules depth actor (.ofLine line) last.level t
      rw [hanswer] at hgate
      have hall := hstart.append ((hearlier.atLevels hleft).append hgate.closed)
      simpa [settled] using hall

theorem Goes.atLevels {m : Run S α} (h : m.Goes (fun stage => ¬stage.AtGate) none 0 s) :
    AtLevels rules (m s).sights :=
  .of_ungated (h.walk.ungated fun _ hstage => hstage)

theorem atLevels_callParts (rules : Rules S) :
    CallParts rules fun m => ∀ s, AtLevels rules (m s).sights where
  pure _ _ := .of_ungated ungated_nil
  bind {_ _ m f} hm hf s := by
    have hfirst := hm s
    rcases hcourse : m s with ⟨seen, fault | a, s'⟩
    · rw [Run.bind_of_error hcourse]
      rwa [hcourse] at hfirst
    · rw [Run.bind_of_ok hcourse]
      rw [hcourse] at hfirst
      exact hfirst.append (hf a s')
  get _ := .of_ungated ungated_nil
  line := dispatchLine_atLevels rules
  cleared _ := .of_ungated ungated_nil
  passTime delta s := Goes.atLevels (passTime_goes id s)
  takeDue through s := Goes.atLevels (takeDue_goes (fun _ => id) s)
  turn id s := Goes.atLevels ((tickConversation_goes rules (fun h => h) s).anyGeneration.atMost
    (Nat.zero_le _))
  task t s := .single s id
  execute p s := Goes.atLevels ((execute_acts rules 0 p s).goes.atMost (Nat.zero_le _))
  carryOut op s := Goes.atLevels (carryOut_goes op s)

end Rules

/-- From a world that has come about by operations, whatever is called and whatever the programs
do: nobody gets past a gate. -/
theorem gates_never_bypassed {w : World} (hw : w.Reachable) (memory : S.Memory)
    (calls : List (Rules S × Call S)) :
    GateLaw (Call.runAll calls (.initial w memory)).sights ∧
      ∀ (rules : Rules S) (call : Call S) (s : State S),
        AtLevels rules (call.run rules s).sights := by
  constructor
  · obtain ⟨d, hhistory, hstate, -⟩ := Call.runAll_settles calls (.initial w memory) []
    obtain ⟨-, hsights⟩ := hhistory.coherent (State.coherent_initial hw memory)
    apply (Call.runAll_works calls (.initial w memory)).walk.gateLaw
    intro sight hmem x hx
    exact (hsights sight hmem).character_drawn hx
  · intro rules call s
    exact (Rules.atLevels_callParts rules).run call s

/-- A world in which a lunge costs two seconds of balance, and needs it. -/
def sparring : Rules plainSetting :=
  { chatter with
    registries :=
      { Registries.empty with
        global := Registry.empty.add (.needingBalance (.named "lunge" fun inv => do
          let _ ← Program.perform (.putOffBalance inv.actor (.ofSeconds 2))
          pure .handled)) } }

def threeLunges : List (Rules plainSetting × Call plainSetting) :=
  [(sparring, .dispatch ⟨3⟩ "lunge"), (sparring, .dispatch ⟨3⟩ "lunge"),
    (sparring, .tick (.ofSeconds 2)), (sparring, .dispatch ⟨3⟩ "lunge")]

/-- Whether the gate was passed, each time somebody came to it. -/
def passed (seen : List (Sight S)) : List Bool :=
  seen.filterMap fun sight =>
    match sight.event with
    | .reached (.invoked _ _) => some true
    | .reached (.barred _ _ _) => some false
    | _ => none

theorem gates_never_bypassed_threeLunges :
    ∃ w, World.empty.run innWithGuest = some w ∧
      (Call.runAll threeLunges (.initial w ())).result = .ok () ∧
      passed (Call.runAll threeLunges (.initial w ())).sights = [true, false, true] ∧
      GateLaw (Call.runAll threeLunges (.initial w ())).sights ∧
      AtLevels sparring (Call.run sparring (.dispatch ⟨3⟩ "lunge") (.initial w ())).sights := by
  have hrun : ((World.empty.run innWithGuest).map fun w =>
      ((Call.runAll threeLunges (.initial w ())).result,
        passed (Call.runAll threeLunges (.initial w ())).sights)) =
      some (.ok (), [true, false, true]) := by rfl
  obtain ⟨w, hw, heq⟩ := Option.map_eq_some_iff.1 hrun
  simp only [Prod.mk.injEq] at heq
  obtain ⟨hgates, hlevels⟩ := gates_never_bypassed (S := plainSetting) ⟨innWithGuest, hw⟩ ()
    threeLunges
  exact ⟨w, hw, heq.1, heq.2, hgates, hlevels sparring _ _⟩

end TextWorld

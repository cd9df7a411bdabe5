import TextWorld.Proofs.Engine.Composition
import TextWorld.Proofs.Engine.Machine

/-!
Every computation of the engine moves as the machine does. One that starts with free hands comes
back with free hands and with the same callbacks running, unless it breaks off on the way.
-/

namespace TextWorld

variable {S : Setting} {α β : Type}

namespace Run

/-- What the computation lets see is a history of the machine, and what it comes to is as wanted. -/
def Follows (m : Run S α) (c : Config S) (Q : α → Config S → Prop) : Prop :=
  ∃ d, History c (m c.state).sights d ∧ d.state = (m c.state).state ∧
    ∀ a, (m c.state).result = .ok a → Q a d

/-- From free hands the computation comes back to free hands. -/
def Settles (m : Run S α) : Prop :=
  ∀ s running, m.Follows ⟨s, .settled, running⟩ fun _ d =>
    d.mode = .settled ∧ d.running = running

variable {c : Config S} {Q : β → Config S → Prop}

theorem follows_pure {P : α → Config S → Prop} {a : α} (h : P a c) :
    (pure a : Run S α).Follows c P := by
  refine ⟨c, .refl, rfl, fun b hb => ?_⟩
  cases hb
  exact h

theorem follows_bind {P : α → Config S → Prop} {m : Run S α} {f : α → Run S β}
    (hm : m.Follows c P) (hf : ∀ a d, P a d → (f a).Follows d Q) : (m >>= f).Follows c Q := by
  obtain ⟨d, hd, hstate, hP⟩ := hm
  have hbind : (m >>= f) c.state = Run.bind m f c.state := rfl
  rw [Follows, hbind, Run.bind]
  rcases hcourse : m c.state with ⟨sights, result, s⟩
  rw [hcourse] at hd hstate hP
  cases result with
  | error fault =>
    refine ⟨d, hd, hstate, fun b hb => ?_⟩
    cases hb
  | ok a =>
    obtain ⟨d', hd', hstate', hQ⟩ := hf a d (hP a rfl)
    rw [hstate] at hd' hstate' hQ
    exact ⟨d', hd.append hd', hstate', hQ⟩

theorem follows_get {f : State S → Run S β} (h : (f c.state).Follows c Q) :
    ((get : Run S (State S)) >>= f).Follows c Q := by
  apply follows_bind (P := fun s d => s = c.state ∧ d = c)
  · refine ⟨c, .refl, rfl, fun s hs => ?_⟩
    cases hs
    exact ⟨rfl, rfl⟩
  · rintro _ _ ⟨rfl, rfl⟩
    exact h

/-- A silent move of the machine that does to the state what the update does. -/
theorem follows_update {g : State S → State S} {f : Unit → Run S β} {mode : Mode S}
    {running : List ConversationId} (hm : Silent c ⟨g c.state, mode, running⟩)
    (h : (f ()).Follows ⟨g c.state, mode, running⟩ Q) : (Run.update g >>= f).Follows c Q := by
  apply follows_bind (P := fun _ d => d = ⟨g c.state, mode, running⟩)
  · exact ⟨_, .silent .refl hm, rfl, fun _ _ => rfl⟩
  · rintro _ _ rfl
    exact h

/-- A move of the machine that can be seen, with the update it makes. -/
theorem follows_update_note {g : State S → State S} {e : Event S} {f : Unit → Run S β}
    {mode : Mode S} {running : List ConversationId}
    (hm : Visible c e ⟨g c.state, mode, running⟩)
    (h : (f ()).Follows ⟨g c.state, mode, running⟩ Q) :
    (Run.update g >>= fun _ => Run.note e >>= f).Follows c Q := by
  have hassoc : (Run.update g >>= fun _ => Run.note e >>= f) c.state =
      ((fun s => ⟨[⟨e, g s⟩], .ok (), g s⟩ : Run S Unit) >>= f) c.state := rfl
  have hboth : ((fun s => ⟨[⟨e, g s⟩], .ok (), g s⟩ : Run S Unit) >>= f).Follows c Q := by
    apply follows_bind (P := fun _ d => d = ⟨g c.state, mode, running⟩)
    · exact ⟨_, .visible .refl hm, rfl, fun _ _ => rfl⟩
    · rintro _ _ rfl
      exact h
  rwa [Follows, hassoc]

theorem follows_note {e : Event S} {f : Unit → Run S β} {mode : Mode S}
    {running : List ConversationId} (hm : Visible c e ⟨c.state, mode, running⟩)
    (h : (f ()).Follows ⟨c.state, mode, running⟩ Q) : (Run.note e >>= f).Follows c Q := by
  apply follows_bind (P := fun _ d => d = ⟨c.state, mode, running⟩)
  · exact ⟨⟨c.state, mode, running⟩, .visible .refl hm, rfl, fun _ _ => rfl⟩
  · rintro _ _ rfl
    exact h

theorem follows_breakOff {P : α → Config S → Prop} (fault : Fault) :
    (Run.breakOff fault : Run S α).Follows c P :=
  ⟨c, .refl, rfl, fun _ h => by cases h⟩

/-- A silent move of the machine that does nothing to the state. -/
theorem Follows.silently {mode : Mode S} {running : List ConversationId} {m : Run S β}
    (h : m.Follows ⟨c.state, mode, running⟩ Q) (hm : Silent c ⟨c.state, mode, running⟩) :
    m.Follows c Q := by
  obtain ⟨d, hd, hstate, hQ⟩ := h
  exact ⟨d, (History.silent .refl hm).append hd, hstate, hQ⟩

theorem settles_pure (a : α) : (pure a : Run S α).Settles :=
  fun _ _ => follows_pure ⟨rfl, rfl⟩

theorem settles_bind {m : Run S α} {f : α → Run S β} (hm : m.Settles)
    (hf : ∀ a, (f a).Settles) : (m >>= f).Settles := by
  intro s running
  apply follows_bind (hm s running)
  rintro a ⟨s', mode, running'⟩ ⟨rfl, rfl⟩
  exact hf a s' _

theorem settles_get {f : State S → Run S β}
    (h : ∀ s running, (f s).Follows ⟨s, .settled, running⟩ fun _ d =>
      d.mode = .settled ∧ d.running = running) : ((get : Run S (State S)) >>= f).Settles :=
  fun s running => follows_get (h s running)

theorem settles_gets (f : State S → α) : (Run.gets f : Run S α).Settles :=
  settles_get fun _ _ => follows_pure ⟨rfl, rfl⟩

/-- The last update of a computation. -/
theorem follows_change {s : State S} {running : List ConversationId} {g : State S → State S}
    (h : Change s (g s)) : (Run.update g).Follows ⟨s, .settled, running⟩ fun _ d =>
      d.mode = .settled ∧ d.running = running :=
  ⟨_, .silent .refl (.change h), rfl, fun _ _ => ⟨rfl, rfl⟩⟩

theorem settles_update_bind {g : State S → State S} {f : Unit → Run S β}
    (hg : ∀ s, Change s (g s)) (hf : (f ()).Settles) : (Run.update g >>= f).Settles := by
  intro s running
  apply follows_update (.change (hg s))
  exact hf (g s) running

theorem settles_update {g : State S → State S} (h : ∀ s, Change s (g s)) :
    (Run.update g).Settles :=
  fun s _ => follows_change (h s)

/-- An update after which a value is given. -/
theorem follows_set {s s' : State S} {running : List ConversationId} (h : Change s s') (a : α) :
    ((do set s'; pure a : Run S α)).Follows ⟨s, .settled, running⟩ fun _ d =>
      d.mode = .settled ∧ d.running = running :=
  ⟨_, .silent .refl (.change h), rfl, fun _ _ => ⟨rfl, rfl⟩⟩

theorem settles_reach (stage : Stage S) : (Run.reach stage).Settles :=
  fun s running => ⟨_, .visible .refl (.reached s running stage), rfl, fun _ _ => ⟨rfl, rfl⟩⟩

theorem settles_reach_bind {stage : Stage S} {f : Unit → Run S β} (h : (f ()).Settles) :
    (Run.reach stage >>= f).Settles :=
  settles_bind (settles_reach stage) fun _ => h

theorem settles_discard {m : Run S α} (h : m.Settles) : (discard m : Run S Unit).Settles :=
  settles_bind h fun _ => settles_pure _

end Run

/-- Requests are granted as the machine grants them. -/
def Grants (reply : (r : Request S) → Run S r.Reply) : Prop :=
  ∀ r s running, (reply r).Follows ⟨s, .afterAsk r, running⟩ fun _ d =>
    d.mode = .settled ∧ d.running = running

theorem Program.run_settles {reply : (r : Request S) → Run S r.Reply} (h : Grants reply)
    (p : Program S α) : (p.run reply).Settles := by
  induction p with
  | done a => exact Run.settles_pure a
  | ask r next ih =>
    intro s running
    apply Run.follows_note (.asked s running r)
    apply Run.follows_bind (h r s running)
    rintro x ⟨s', mode, running'⟩ ⟨rfl, rfl⟩
    exact ih x s' _

/-- What the machine is about to do when a delivery is on its way. -/
def Delivery.mode : Delivery S → Mode S
  | .toParent parent data => .handing parent data
  | .toEnding id ending data => .concluding id ending data

/-- Deliveries are made as the machine makes them. -/
def Delivers (deliver : Delivery S → Run S Unit) : Prop :=
  ∀ d s running, (deliver d).Follows ⟨s, d.mode, running⟩ fun _ c =>
    c.mode = .settled ∧ c.running = running

namespace Rules

variable {rules : Rules S} {depth : Nat} {deliver : Delivery S → Run S Unit}

theorem finish_follows (hd : Delivers deliver) (id : ConversationId) (data : Value) (s : State S)
    (running : List ConversationId) :
    (finish deliver id data).Follows ⟨s, .closing id data, running⟩ fun _ d =>
      d.mode = .settled ∧ d.running = running := by
  apply Run.follows_get
  cases hc : s.forest.get? id with
  | none => exact (Run.settles_pure _ s running).silently (.refuse hc)
  | some c =>
    apply Run.follows_get
    -- The conversation and all below it are gone before anything else can happen.
    apply Run.follows_update_note (.ended data hc)
    dsimp only [Mode.afterEnd]
    cases c.parent with
    | some parent =>
      apply Run.follows_bind (hd (.toParent parent data) _ running)
      exact fun _ _ h => Run.follows_pure h
    | none =>
      cases c.ending with
      | some ending =>
        apply Run.follows_bind (hd (.toEnding id ending data) _ running)
        exact fun _ _ h => Run.follows_pure h
      | none => exact Run.settles_pure _ _ running

theorem emitRoom_aside (s : State S) (room : RoomId) (except : Option CharacterId)
    (text : String) : Change s (s.emitRoom room except text) := by
  have hfold (ids : List CharacterId) (s : State S) :
      (ids.foldl (fun s id => s.emit id text) s).world = s.world ∧
        (ids.foldl (fun s id => s.emit id text) s).forest = s.forest := by
    induction ids generalizing s with
    | nil => exact ⟨rfl, rfl⟩
    | cons id ids ih => exact ih (s.emit id text)
  unfold State.emitRoom
  split
  · exact .aside rfl rfl
  · obtain ⟨hw, hf⟩ := hfold _ s
    exact .aside hw hf

theorem reply_grants (hd : Delivers deliver) : Grants (rules.reply depth deliver) := by
  intro r s running
  cases r with
  | emit recipient text => exact Run.follows_change (.aside rfl rfl)
  | emitRoom room except text => exact Run.follows_change (emitRoom_aside s room except text)
  | send actor line => exact Run.follows_change (.aside rfl rfl)
  | perform op =>
    apply Run.follows_get
    dsimp only
    cases h : s.world.perform op with
    | none => exact Run.follows_breakOff _
    | some reply =>
      apply Run.follows_bind (Run.follows_change (.perform h))
      exact fun _ _ h => Run.follows_pure h
  | edit e =>
    apply Run.follows_get
    apply Run.follows_bind (Run.follows_change (.edit s e))
    exact fun _ _ h => Run.follows_pure h
  | world => exact Run.settles_gets _ s running
  | conversations => exact Run.settles_gets _ s running
  | catalogue => exact Run.settles_pure _ s running
  | config => exact Run.settles_pure _ s running
  | start participants talk ending =>
    apply Run.follows_get
    exact Run.follows_set (.start s participants talk ending) _
  | startChild parent participants talk =>
    apply Run.follows_get
    exact Run.follows_set (.startChild s parent participants talk) _
  | finish id data => exact finish_follows hd id data s running
  | schedule id actor line delay =>
    apply Run.follows_get
    dsimp only
    cases h : s.schedule id actor line delay with
    | none => exact Run.follows_breakOff _
    | some reply => exact Run.follows_set (.schedule h) _
  | cancel id =>
    apply Run.follows_get
    apply Run.follows_bind (Run.follows_change (.cancel s id))
    exact fun _ _ h => Run.follows_pure h
  | getMemory => exact Run.settles_gets _ s running
  | setMemory memory => exact Run.follows_change (.aside rfl rfl)
  | add a b =>
    rw [reply]
    cases a.add? b with
    | none => exact Run.follows_breakOff _
    | some sum => exact Run.settles_pure _ s running

/-- A callback of a conversation that is there and not busy runs; any other one does nothing. -/
theorem callback_follows (hd : Delivers deliver) {id : ConversationId} {occasion : Occasion}
    {mode : Mode S} (hmode : mode.Admits id occasion) (s : State S)
    (running : List ConversationId) (body : S.Talk → Program S (α × S.Talk)) :
    (rules.callback depth deliver id occasion body).Follows ⟨s, mode, running⟩ fun result d =>
      d.running = running ∧
        (result = none ∧ d.mode = mode ∧ d.state = s ∧ (s.forest.get? id).bind (·.talk) = none ∨
          result.isSome ∧ d.mode = .draining id) := by
  apply Run.follows_get
  cases htalk : (s.forest.get? id).bind (·.talk) with
  | none => exact Run.follows_pure ⟨rfl, .inl ⟨rfl, rfl, rfl, rfl⟩⟩
  | some talk =>
    apply Run.follows_update_note (.began hmode htalk)
    -- The body comes back with the same callbacks running, so it is this one that ends.
    apply Run.follows_bind (Program.run_settles (reply_grants hd) (body talk) _ (id :: running))
    rintro ⟨result, talk⟩ ⟨s', mode', running'⟩ ⟨rfl, rfl⟩
    apply Run.follows_update_note (.stopped s' running id talk)
    exact Run.follows_pure ⟨rfl, .inr ⟨rfl, rfl⟩⟩

theorem handOn_follows (hd : Delivers deliver) (s : State S) (id : ConversationId)
    (running : List ConversationId) :
    (handOn deliver id).Follows ⟨s, .draining id, running⟩ fun _ d =>
      d.mode = .settled ∧ d.running = running := by
  apply Run.follows_get
  cases htake : s.forest.takeHandedBack id with
  | none => exact (Run.settles_pure () s running).silently (.drained htake)
  | some taken =>
    apply Run.follows_update (.next htake)
    exact hd (.toParent id taken.1) _ running

theorem deliver_delivers (rules : Rules S) (depth count : Nat) :
    Delivers (rules.deliver depth count) := by
  -- What a delivery brings about is delivered with a smaller count.
  induction count with
  | zero => exact fun d s running => Run.follows_breakOff _
  | succ count ih =>
    intro d s running
    cases d with
    | toEnding id ending data =>
      apply Run.follows_note (.concluding s running id ending data)
      exact Program.run_settles (reply_grants ih) _ s running
    | toParent parent data =>
      apply Run.follows_get
      by_cases hbusy : s.forest.isBusy parent = true
      · rw [if_pos hbusy]
        exact ⟨_, .silent .refl (.defer hbusy), rfl, fun _ _ => ⟨rfl, rfl⟩⟩
      · rw [if_neg hbusy]
        have hmode : (Mode.handing parent data : Mode S).Admits parent (.returned data) := rfl
        apply Run.follows_bind (callback_follows ih hmode s running _)
        rintro result ⟨s', mode, running'⟩ ⟨rfl, ⟨-, rfl, rfl, htalk⟩ | ⟨-, rfl⟩⟩
        · -- The parent is neither busy nor ready, so it is gone, and so is what it was handed.
          have hgone : s'.forest.get? parent = none := by
            rw [Forest.isBusy] at hbusy
            cases hc : s'.forest.get? parent with
            | none => rfl
            | some c =>
              rw [hc] at htalk hbusy
              exact absurd (Option.isNone_iff_eq_none.2 htalk) hbusy
          have htake : s'.forest.takeHandedBack parent = none := by
            rw [Forest.takeHandedBack, hgone]
            rfl
          apply Run.Follows.silently _ (.drop hgone)
          apply Run.follows_get
          dsimp only
          rw [htake]
          exact Run.settles_pure () s' _
        · exact handOn_follows ih s' parent _

theorem withTalk_settles (rules : Rules S) (depth : Nat) (id : ConversationId)
    (occasion : Occasion) (hmode : (Mode.settled : Mode S).Admits id occasion)
    (body : S.Talk → Program S (α × S.Talk)) : (rules.withTalk depth id occasion body).Settles := by
  intro s running
  have hd := deliver_delivers rules depth rules.maxDeliveries
  apply Run.follows_bind (callback_follows hd hmode s running body)
  rintro result ⟨s', mode, running'⟩ ⟨rfl, ⟨rfl, rfl, -, -⟩ | ⟨hsome, rfl⟩⟩
  -- A callback that has not run has moved nothing.
  · exact Run.settles_pure none s' _
  · rw [if_pos hsome]
    apply Run.follows_bind (handOn_follows hd s' id _)
    exact fun _ _ h => Run.follows_pure h

theorem execute_settles (rules : Rules S) (depth : Nat) (p : Program S α) :
    (rules.execute depth p).Settles :=
  Program.run_settles (reply_grants (deliver_delivers rules depth rules.maxDeliveries)) p

theorem offer_settles (rules : Rules S) (depth : Nat) (id : ConversationId) (actor : CharacterId)
    (command : Command) : (rules.offer depth id actor command).Settles :=
  Run.settles_bind (withTalk_settles rules depth id (.input actor command) rfl _)
    fun _ => Run.settles_pure _

theorem tickConversation_settles (rules : Rules S) (id : ConversationId) :
    (rules.tickConversation id).Settles := by
  apply Run.settles_reach_bind
  exact Run.settles_discard (withTalk_settles rules 0 id .tick rfl _)

theorem handle_settles (rules : Rules S) (depth : Nat) (registry : Registry (Handler S))
    (actor : CharacterId) (command : Command) (origin : Origin) :
    (rules.handle depth registry actor command origin).Settles := by
  apply Run.settles_bind (Run.settles_gets _)
  intro world
  split
  · split
    · exact Run.settles_pure _
    · split
      · apply Run.settles_reach_bind
        apply Run.settles_update_bind
        · exact fun s => .aside rfl rfl
        · exact Run.settles_pure _
      · apply Run.settles_reach_bind
        exact execute_settles rules depth _
  · exact Run.settles_pure _

theorem settles_compositional : Compositional (S := S) Run.Settles where
  pure := Run.settles_pure
  bind := Run.settles_bind
  get := Run.settles_gets id

theorem settles_lineParts (rules : Rules S) (depth : Nat) (actor : CharacterId)
    (command : Command) : LineParts rules depth actor command Run.Settles where
  toCompositional := settles_compositional
  offered _ := Run.settles_reach _
  answered _ _ := Run.settles_reach _
  told _ := Run.settles_update fun _ => .aside rfl rfl
  conversation := settles_compositional.askConversation (fun _ => Run.settles_reach _)
    (fun _ _ => Run.settles_reach _) fun id => offer_settles rules depth id actor command
  handle origin _ _ := handle_settles rules depth _ actor command origin

theorem dispatchLine_settles (rules : Rules S) (depth : Nat) (actor : CharacterId)
    (line : String) : (rules.dispatchLine depth actor line).Settles := by
  apply Run.settles_reach_bind
  apply Run.settles_bind (settles_lineParts rules depth actor _).respond
  intro outcome
  apply Run.settles_reach_bind
  exact Run.settles_pure outcome

theorem passTime_settles (delta : Duration) : (passTime delta : Run S Unit).Settles := by
  apply Run.settles_reach_bind
  apply Run.settles_get
  intro s running
  split
  · exact Run.follows_breakOff _
  · rename_i world hworld
    have hadvance : s.world.perform (.advance delta) = some (.ok (), world) := by
      rw [World.perform, hworld]
      rfl
    exact Run.follows_change (.perform hadvance)

theorem takeDue_settles (through : Nat) :
    (takeDue through : Run S (Option ScheduledLine)).Settles := by
  apply Run.settles_get
  intro s running
  split
  · exact Run.settles_pure _ s running
  · rename_i line scheduler hpop
    apply Run.follows_note (.reached s running _)
    exact Run.follows_set (.fire hpop) _

theorem settles_callParts (rules : Rules S) : CallParts rules Run.Settles where
  toCompositional := settles_compositional
  line := dispatchLine_settles rules
  cleared := Run.settles_update fun _ => .aside rfl rfl
  passTime := passTime_settles
  takeDue := takeDue_settles
  turn := tickConversation_settles rules
  task _ := Run.settles_reach _
  execute p := execute_settles rules 0 p
  carryOut op := by
    intro s running
    apply Run.follows_note (.asked s running (.perform op))
    apply Run.follows_get
    dsimp only [Mode.afterAsk]
    cases h : s.world.perform op with
    | none => exact Run.follows_breakOff _
    | some reply => exact Run.follows_change (.perform h)

end Rules

theorem Call.runAll_settles (calls : List (Rules S × Call S)) : (runAll calls).Settles :=
  CallParts.runAll Rules.settles_compositional fun call _ => Rules.settles_callParts call.1

end TextWorld

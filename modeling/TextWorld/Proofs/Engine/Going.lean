import TextWorld.Proofs.Engine.Steps

/-!
Every computation of the engine goes on in steps, whatever the programs ask for.
-/

namespace TextWorld

variable {S : Setting} {α : Type}

theorem Request.finish_or_other (r : Request S) :
    (∃ id data, r = .finish id data) ∨ ∀ id data, r ≠ .finish id data := by
  cases r with
  | finish id data => exact .inl ⟨id, data, rfl⟩
  | _ => exact .inr fun _ _ => nofun

namespace Rules

variable {rules : Rules S} {depth bound : Nat} {deliver : Delivery S → Run S Unit}

/-- What programs and callbacks do: no stage is reached, and what is queued is one generation
below. -/
abbrev Acts (depth bound : Nat) (s : State S) (m : Run S α) : Prop :=
  m.Goes (fun _ => False) (some depth) bound s

theorem Acts.within {allowed : Stage S → Prop} {m : Run S α} {s : State S}
    (h : Acts depth bound s m) : m.Goes allowed (some depth) bound s :=
  h.mono (fun _ hstage => absurd hstage id) (fun _ hg => hg) (Nat.le_refl _)

theorem reply_course (rules : Rules S) (depth : Nat) (deliver : Delivery S → Run S Unit)
    (r : Request S) (hr : ∀ id data, r ≠ .finish id data) (s : State S) :
    (rules.reply depth deliver r s).sights = [] ∧
      (rules.reply depth deliver r s).state = s.granted depth r ∧
      ∀ fault, (rules.reply depth deliver r s).result = .error fault →
        fault = .clockOverflow ∧ (⟨.asked r, s⟩ : Sight S).Overflows := by
  -- Only operations, pending lines and sums have to do with clocks; no other reply can fail.
  cases r with
  | finish id data => exact absurd rfl (hr id data)
  | perform op =>
    rw [reply, Run.get_bind, State.granted]
    cases h : s.world.perform op with
    | none => exact ⟨rfl, rfl, fun _ hfault => by cases hfault; exact ⟨rfl, h⟩⟩
    | some reply => exact ⟨rfl, rfl, fun _ hfault => by cases hfault⟩
  | schedule id actor line delay =>
    rw [reply, Run.get_bind, State.granted]
    cases h : s.schedule id actor line delay with
    | none => exact ⟨rfl, rfl, fun _ hfault => by cases hfault; exact ⟨rfl, h⟩⟩
    | some reply => exact ⟨rfl, rfl, fun _ hfault => by cases hfault⟩
  | add a b =>
    rw [reply, State.granted]
    cases h : a.add? b with
    | none => exact ⟨rfl, rfl, fun _ hfault => by cases hfault; exact ⟨rfl, h⟩⟩
    | some sum => exact ⟨rfl, rfl, fun _ hfault => by cases hfault⟩
  | _ => exact ⟨rfl, rfl, fun _ hfault => by cases hfault⟩

/-- A request is granted in one step, or leads to a time that no clock can show. -/
theorem asked_acts (r : Request S) (hr : ∀ id data, r ≠ .finish id data) (s : State S) :
    Acts depth bound s (Run.note (.asked r) >>= fun _ => rules.reply depth deliver r) := by
  obtain ⟨hsights, hstate, hfault⟩ := reply_course rules depth deliver r hr s
  have hbind : (Run.note (.asked r) >>= fun _ => rules.reply depth deliver r) s =
      ⟨⟨.asked r, s⟩ :: (rules.reply depth deliver r s).sights,
        (rules.reply depth deliver r s).result, (rules.reply depth deliver r s).state⟩ := rfl
  rw [hsights, hstate] at hbind
  constructor
  · rw [hbind]
    apply Walk.single
    apply Step.asked
    intro g hg
    exact (Option.some.inj hg)
  · rw [hbind]
    intro fault hresult
    obtain ⟨rfl, hoverflow⟩ := hfault fault hresult
    exact ⟨[], _, rfl, hoverflow⟩

theorem finish_acts (hd : ∀ d s, Acts depth bound s (deliver d)) (id : ConversationId)
    (data : Value) (s : State S) : Acts depth bound s (finish deliver id data) := by
  apply Run.goes_get
  cases hc : s.forest.get? id with
  | none => exact Run.goes_pure _
  | some c =>
    apply Run.goes_get
    apply Run.goes_update_note (.ended data hc)
    dsimp only
    -- The data goes to the parent, to the ending, or nowhere.
    split
    · exact Run.goes_bind (hd _ _) fun _ _ => Run.goes_pure _
    · exact Run.goes_bind (hd _ _) fun _ _ => Run.goes_pure _
    · exact Run.goes_pure _

theorem run_acts (hd : ∀ d s, Acts depth bound s (deliver d)) (p : Program S α) (s : State S) :
    Acts depth bound s (p.run (rules.reply depth deliver)) := by
  induction p generalizing s with
  | done a => exact Run.goes_pure a
  | ask r next ih =>
    have hrun : Program.run (rules.reply depth deliver) (.ask r next) =
        ((Run.note (.asked r) >>= fun _ => rules.reply depth deliver r) >>= fun x =>
          (next x).run (rules.reply depth deliver)) := by
      rw [bind_assoc]
      rfl
    rw [hrun]
    apply Run.goes_bind
    · rcases r.finish_or_other with ⟨id, data, rfl⟩ | hother
      · -- Asking for an end does nothing yet.
        exact Run.goes_bind_of_ok rfl (.asked s _ depth fun g hg => Option.some.inj hg)
          (finish_acts hd id data s)
      · exact asked_acts r hother s
    · exact fun x _ => ih x _

/-- What a callback does once it has begun, up to its end. -/
theorem body_acts (rules : Rules S) (hd : ∀ d s, Acts depth bound s (deliver d))
    (id : ConversationId) (body : Program S (α × S.Talk)) (s : State S) :
    Acts depth bound s (do
      let (result, talk) ← body.run (rules.reply depth deliver)
      Run.update fun s => s.setTalk id (some talk)
      Run.note (.stopped id)
      pure (some result)) := by
  apply Run.goes_bind (run_acts hd _ _)
  rintro ⟨result, talk⟩ -
  exact Run.goes_update_note (.stopped _ id talk) (Run.goes_pure _)

/-- A callback runs if the talk is there; completion data that it runs for has come to its
receiver. -/
theorem callback_goes {allowed : Stage S → Prop} (hd : ∀ d s, Acts depth bound s (deliver d))
    (id : ConversationId) (occasion : Occasion)
    (hturn : occasion = .tick → allowed (.task (.turn id)))
    (body : S.Talk → Program S (α × S.Talk)) (s : State S) :
    (rules.callback depth deliver id occasion body).Goes allowed (some depth) bound s := by
  apply Run.goes_get
  split
  · exact Run.goes_pure none
  · exact Run.goes_update_note (.began s id occasion hturn) (body_acts rules hd id _ _).within

theorem handOn_acts (hd : ∀ d s, Acts depth bound s (deliver d)) (id : ConversationId)
    (s : State S) : Acts depth bound s (handOn deliver id) := by
  apply Run.goes_get
  cases htake : s.forest.takeHandedBack id with
  | none => exact Run.goes_pure ()
  | some taken => exact Run.goes_bind_of_ok rfl (.takeBack htake) (hd _ _)

theorem deliver_acts (rules : Rules S) (depth count : Nat) (d : Delivery S) (s : State S) :
    Acts depth count s (rules.deliver depth count d) := by
  -- Each delivery counts, and what it brings about is delivered with a smaller count.
  induction count generalizing d s with
  | zero =>
    refine ⟨.refl s, fun fault hfault => ?_⟩
    cases hfault
    exact Nat.zero_le _
  | succ count ih =>
    cases d with
    | toEnding id ending data =>
      exact Run.goes_delivery rfl rfl (.concluding s id ending data) (run_acts ih _ s)
    | toParent parent data =>
      apply Run.goes_get
      by_cases hbusy : s.forest.isBusy parent = true
      · rw [if_pos hbusy]
        exact Run.goes_of_ok rfl (.single (.handBack s parent data))
      · rw [if_neg hbusy, callback, bind_assoc]
        apply Run.goes_get
        dsimp only
        cases htalk : (s.forest.get? parent).bind (·.talk) with
        | none =>
          -- The parent is neither busy nor ready, so it is gone, and nothing waits with it.
          have htake : s.forest.takeHandedBack parent = none := by
            rw [Forest.isBusy] at hbusy
            rw [Forest.takeHandedBack]
            cases hc : s.forest.get? parent with
            | none => rfl
            | some c =>
              rw [hc] at htalk hbusy
              exact absurd (Option.isNone_iff_eq_none.2 htalk) hbusy
          rw [pure_bind]
          apply Run.goes_get
          rw [htake]
          exact Run.goes_pure ()
        | some talk =>
          simp only [bind_assoc]
          rw [← bind_assoc]
          refine Run.goes_delivery rfl rfl (.began s parent (.returned data) (by rintro ⟨⟩)) ?_
          apply Run.goes_bind (run_acts ih _ _)
          rintro ⟨result, talk⟩ -
          apply Run.goes_update_note (.stopped _ parent talk)
          exact handOn_acts ih parent _

theorem withTalk_goes {allowed : Stage S → Prop} (rules : Rules S) (depth : Nat)
    (id : ConversationId) (occasion : Occasion)
    (hturn : occasion = .tick → allowed (.task (.turn id)))
    (body : S.Talk → Program S (α × S.Talk)) (s : State S) :
    (rules.withTalk depth id occasion body).Goes allowed (some depth) rules.maxDeliveries s := by
  have hd := deliver_acts rules depth rules.maxDeliveries
  apply Run.goes_bind (callback_goes hd id occasion hturn body s)
  intro result _
  split
  · exact Run.goes_bind (handOn_acts hd id _).within fun _ _ => Run.goes_pure _
  · exact Run.goes_pure _

theorem execute_acts (rules : Rules S) (depth : Nat) (p : Program S α) (s : State S) :
    Acts depth rules.maxDeliveries s (rules.execute depth p) :=
  run_acts (deliver_acts rules depth rules.maxDeliveries) p s

theorem offer_acts (rules : Rules S) (depth : Nat) (id : ConversationId) (actor : CharacterId)
    (command : Command) (s : State S) :
    Acts depth rules.maxDeliveries s (rules.offer depth id actor command) :=
  Run.goes_bind (withTalk_goes rules depth id (.input actor command) (by rintro ⟨⟩) _ s)
    fun _ _ => Run.goes_pure _

/-- What is done while the chain is asked about a line of a generation. -/
abbrev Asks (depth bound : Nat) (s : State S) (m : Run S α) : Prop :=
  m.Goes Stage.OfChain (some depth) bound s

theorem handle_asks (rules : Rules S) (depth : Nat) (registry : Registry (Handler S))
    (actor : CharacterId) (command : Command) (origin : Origin) (s : State S) :
    Asks depth rules.maxDeliveries s (rules.handle depth registry actor command origin) := by
  apply Run.goes_get
  dsimp only
  split
  · rename_i d c _ hc
    split
    · exact Run.goes_pure _
    · rename_i hadmin
      -- Who has no balance is stopped, and anybody else is admitted.
      split
      · rename_i left hleft
        have hgated : d.balanceGated = true ∧ c.balanceRemaining s.world.now = some left := by
          split at hleft
          · exact ⟨‹_›, hleft⟩
          · cases hleft
        refine Run.goes_bind_of_ok rfl (.reached s trivial ⟨hgated.1, c, hc, hgated.2⟩) ?_
        exact Run.goes_bind_of_ok rfl (.told s actor _) (Run.goes_pure _)
      · rename_i hleft
        have hadmits : d.Admits c s.world.now := by
          refine ⟨fun honly => ?_, fun hgated => ?_⟩
          · simpa [honly] using hadmin
          · rwa [if_pos hgated] at hleft
        refine Run.goes_bind_of_ok rfl (.reached s trivial ⟨c, hc, hadmits⟩) ?_
        exact (execute_acts rules depth _ s).within
  · exact Run.goes_pure _

theorem asks_lineParts (rules : Rules S) (depth : Nat) (actor : CharacterId)
    (command : Command) :
    LineParts rules depth actor command fun m => ∀ s, Asks depth rules.maxDeliveries s m where
  toCompositional := Run.goes_compositional _ _ _
  offered _ _ := Run.goes_reach trivial trivial
  answered _ _ _ := Run.goes_reach trivial trivial
  told text s := Run.goes_of_ok rfl (.single (.told s actor text))
  conversation := (Run.goes_compositional _ _ _).askConversation
    (fun _ _ => Run.goes_reach trivial trivial) (fun _ _ _ => Run.goes_reach trivial trivial)
    fun id s => (offer_acts rules depth id actor command s).within
  handle origin _ _ := handle_asks rules depth _ actor command origin

theorem respond_asks (rules : Rules S) (depth : Nat) (actor : CharacterId) (command : Command)
    (s : State S) : Asks depth rules.maxDeliveries s (rules.respond depth actor command) :=
  (asks_lineParts rules depth actor command).respond s

/-- What is done while lines are dispatched, whatever their generations. -/
abbrev Dispatches (bound : Nat) (s : State S) (m : Run S α) : Prop :=
  m.Goes Stage.OfDispatch none bound s

theorem dispatchLine_dispatches (rules : Rules S) (depth : Nat) (actor : CharacterId)
    (line : String) (s : State S) :
    Dispatches rules.maxDeliveries s (rules.dispatchLine depth actor line) := by
  refine Run.goes_bind_of_ok rfl (.reached s trivial trivial) ?_
  have hrespond := respond_asks rules depth actor (.ofLine line) s
  apply Run.goes_bind
  · exact hrespond.mono (fun _ => Stage.OfChain.ofDispatch) (fun _ hg => by cases hg)
      (Nat.le_refl _)
  · intro outcome _
    exact Run.goes_bind_of_ok rfl (.reached _ trivial trivial) (Run.goes_pure outcome)

theorem dispatches_parts (rules : Rules S) :
    DispatchParts rules fun m => ∀ s, Dispatches rules.maxDeliveries s m where
  toCompositional := Run.goes_compositional _ _ _
  line := dispatchLine_dispatches rules
  cleared s := Run.goes_of_ok rfl (.single (.cleared s rfl))

/-- What is done in a call. -/
abbrev Works (bound : Nat) (s : State S) (m : Run S α) : Prop :=
  m.Goes (fun _ => True) none bound s

theorem Acts.goes {allowed : Stage S → Prop} {m : Run S α} {s : State S}
    (h : Acts depth bound s m) : m.Goes allowed none bound s :=
  h.within.anyGeneration

theorem Dispatches.works {m : Run S α} {s : State S} (h : Dispatches bound s m) :
    Works bound s m :=
  h.mono (fun _ _ => trivial) (fun _ hg => by cases hg) (Nat.le_refl _)

section

variable {allowed : Stage S → Prop}

theorem passTime_of_none {delta : Duration} {s : State S} (h : s.world.advance delta = none) :
    passTime delta s = ⟨[⟨.reached (.passing delta), s⟩], .error .clockOverflow, s⟩ := by
  rw [passTime, Run.reach_bind, Run.get_bind, h]
  rfl

theorem passTime_of_some {delta : Duration} {s : State S} {world : World}
    (h : s.world.advance delta = some world) :
    passTime delta s = ⟨[⟨.reached (.passing delta), s⟩], .ok (), { s with world }⟩ := by
  rw [passTime, Run.reach_bind, Run.get_bind, h]
  rfl

theorem passTime_goes {delta : Duration} (h : allowed (.passing delta)) (s : State S) :
    (passTime delta).Goes allowed none bound s := by
  cases hworld : s.world.advance delta with
  | none =>
    constructor
    · rw [passTime_of_none hworld]
      exact .single (.reached s h hworld)
    · rw [passTime_of_none hworld]
      rintro _ ⟨⟩
      exact ⟨[], _, rfl, hworld⟩
  | some world => exact Run.goes_of_ok (passTime_of_some hworld) (.single (.passed h hworld))

theorem takeDue_goes {through : Nat} (h : ∀ line, allowed (.due through line)) (s : State S) :
    (takeDue through : Run S (Option ScheduledLine)).Goes allowed none bound s := by
  apply Run.goes_get
  cases hpop : s.forest.scheduler.popNext s.world.now through with
  | none => exact Run.goes_pure none
  | some taken => exact Run.goes_of_ok rfl (.single (.fired (h _) hpop))

theorem tickConversation_goes (rules : Rules S) {id : ConversationId}
    (h : allowed (.task (.turn id))) (s : State S) :
    (rules.tickConversation id).Goes allowed (some 0) rules.maxDeliveries s := by
  refine Run.goes_bind_of_ok rfl (.reached s h trivial) ?_
  exact Run.goes_discard (withTalk_goes rules 0 id .tick (fun _ => h) _ s)

theorem carryOut_goes (op : World.Op) (s : State S) :
    (Call.carryOut op).Goes allowed none bound s := by
  have hstep : Step allowed none s [⟨.asked (.perform op), s⟩] (s.granted 0 (.perform op)) :=
    .asked s (.perform op) 0 fun _ hg => by cases hg
  rw [State.granted] at hstep
  cases hworld : s.world.perform op with
  | none =>
    rw [hworld] at hstep
    have hcourse : Call.carryOut op s =
        ⟨[⟨.asked (.perform op), s⟩], .error .clockOverflow, s⟩ := by
      rw [Call.carryOut, Run.note_bind, Run.get_bind, hworld]
      rfl
    constructor
    · rw [hcourse]
      exact .single hstep
    · rw [hcourse]
      rintro _ ⟨⟩
      exact ⟨[], _, rfl, hworld⟩
  | some reply =>
    rw [hworld] at hstep
    have hcourse : Call.carryOut op s =
        ⟨[⟨.asked (.perform op), s⟩], .ok (), { s with world := reply.2 }⟩ := by
      rw [Call.carryOut, Run.note_bind, Run.get_bind, hworld]
      rfl
    exact Run.goes_of_ok hcourse (.single hstep)

end

theorem works_callParts (h : bound ≤ rules.maxDeliveries) :
    CallParts rules fun m => ∀ s, Works bound s m where
  toCompositional := Run.goes_compositional _ _ _
  line depth actor line s := (dispatchLine_dispatches rules depth actor line s).works.atMost h
  cleared s := Run.goes_of_ok rfl (.single (.cleared s rfl))
  passTime _ s := passTime_goes trivial s
  takeDue _ s := takeDue_goes (fun _ => trivial) s
  turn _ s := (tickConversation_goes rules trivial s).anyGeneration.atMost h
  task _ _ := Run.goes_reach trivial trivial
  execute p s := (execute_acts rules 0 p s).goes.atMost h
  carryOut op s := carryOut_goes op s

end Rules

theorem Call.runAll_works (calls : List (Rules S × Call S)) (s : State S) :
    Rules.Works 0 s (Call.runAll calls) :=
  CallParts.runAll (Run.goes_compositional _ _ _)
    (fun _ _ => Rules.works_callParts (Nat.zero_le _)) s

end TextWorld

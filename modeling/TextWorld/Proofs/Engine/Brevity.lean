import TextWorld.Proofs.Engine.Telling
import TextWorld.Proofs.Engine.Timing

/-!
Programs that are brief. They ask for no time beyond a short span and end no conversation but their
own, so a line that is dispatched leaves clock and memory alone, conversations do not wait for one
another, and nothing breaks off unless the clock is about to run out.
-/

namespace TextWorld

variable {S : Setting} {α β : Type}

/-- The operation leaves the clock alone, and looks no further ahead than this. -/
def World.Op.Brief (span : Duration) : World.Op → Prop
  | .putOffBalance _ duration => duration ≤ span
  | .advance _ => False
  | _ => True

/-- The request leaves clock and memory alone, looks no further ahead than this, and ends no
conversation. -/
def Request.Brief (span : Duration) : Request S → Prop
  | .perform op => op.Brief span
  | .schedule _ _ _ delay => delay ≤ span
  | .finish .. | .setMemory _ | .add .. => False
  | _ => True

/-- All that conversations ask for in the course of a line is brief, but that they may end
themselves when something is said to them. -/
structure Behaviour.Brief (span : Duration) (b : Behaviour S) : Prop where
  onInput : ∀ talk id actor command, (b.onInput talk id actor command).Asks fun r =>
    r.Brief span ∨ ∃ data, r = .finish id data
  onReturn : ∀ talk id data, (b.onReturn talk id data).Asks (·.Brief span)
  onEnd : ∀ ending data, (b.onEnd ending data).Asks (·.Brief span)

/-- The clock cannot show the time after this span. -/
def Overruns (now span : Duration) (fault : Fault) : Prop :=
  fault = .clockOverflow ∧ Duration.limit.nanos < now.nanos + span.nanos

theorem Duration.lt_of_add?_eq_none {now delay span : Duration} (h : now.add? delay = none)
    (hdelay : delay ≤ span) : Duration.limit.nanos < now.nanos + span.nanos := by
  have hspan : delay.nanos ≤ span.nanos := hdelay
  rw [add?] at h
  split at h
  · cases h
  · omega

theorem overruns_of_overflows {now span : Duration} {r : Request S} {s : State S}
    (hr : r.Brief span) (hnow : s.world.now = now) (h : (⟨.asked r, s⟩ : Sight S).Overflows) :
    Overruns now span .clockOverflow := by
  subst hnow
  cases r with
  | perform op =>
    have hnone : s.world.perform op = none := h
    cases op with
    | putOffBalance id duration =>
      exact ⟨rfl, Duration.lt_of_add?_eq_none (Option.map_eq_none_iff.1 hnone) hr⟩
    | advance delta => exact hr.elim
    | _ => cases hnone
  | schedule id actor line delay =>
    have hnone : s.schedule id actor line delay = none := h
    rw [State.schedule] at hnone
    split at hnone
    · cases hnone
    · exact ⟨rfl, Duration.lt_of_add?_eq_none (Option.map_eq_none_iff.1 hnone) hr⟩
  | add a b => exact hr.elim
  | _ => exact absurd h (by rintro ⟨⟩)

/-! Conversations that do not get into each other's way. -/

namespace Forest

variable {τ ε : Type} {f f' : Forest τ ε} {id : ConversationId} {busy : Option ConversationId}

/-- Nothing waits to be handed on, and every talk but that of the busy conversation is where it
belongs. -/
def Settled (f : Forest τ ε) (busy : Option ConversationId) : Prop :=
  ∀ id c, f.get? id = some c → c.handedBack.toList = [] ∧ (c.talk = none → busy = some id)

theorem Settled.weaken (h : f.Settled none) : f.Settled busy := by
  intro id c hc
  obtain ⟨hback, htalk⟩ := h id c hc
  exact ⟨hback, fun hnone => nomatch htalk hnone⟩

/-- When the busy conversation is gone none is. -/
theorem Settled.idle (h : f.Settled (some id)) (hgone : f.get? id = none) : f.Settled none := by
  intro x c hc
  refine ⟨(h x c hc).1, fun hnone => ?_⟩
  obtain rfl := Option.some.inj ((h x c hc).2 hnone)
  rw [hgone] at hc
  cases hc

theorem Settled.takeHandedBack (h : f.Settled busy) (id : ConversationId) :
    f.takeHandedBack id = none := by
  cases hc : f.get? id with
  | none => simp [Forest.takeHandedBack, hc]
  | some c => simp [Forest.takeHandedBack, hc, Queue.pop?_eq_none_iff.2 (h id c hc).1]

theorem Settled.isBusy (h : f.Settled none) (id : ConversationId) : f.isBusy id = false := by
  rw [Forest.isBusy]
  cases hc : f.get? id with
  | none => rfl
  | some c =>
    cases htalk : c.talk with
    | none => cases (h id c hc).2 htalk
    | some talk => simp [htalk]

/-- Links do not matter. -/
theorem Settled.of_unlinked (h : f.Settled busy) (hf : ∀ x c, f'.get? x = some c →
    ∃ d, f.get? x = some d ∧ d.unlinked = c.unlinked) : f'.Settled busy := by
  intro x c hc
  obtain ⟨d, hd, hsame⟩ := hf x c hc
  have hback : d.handedBack = c.handedBack := (congrArg Conversation.handedBack hsame :)
  have htalk : d.talk = c.talk := (congrArg Conversation.talk hsame :)
  rw [← hback, ← htalk]
  exact h x d hd

theorem Settled.insert (h : f.Settled busy) {c : Conversation τ ε}
    (hback : c.handedBack.toList = []) (htalk : c.talk.isSome) : (f.insert c).2.Settled busy := by
  intro x d hd
  have hunlinked := congrArg (Option.map Conversation.unlinked) hd
  rw [unlinked_insert] at hunlinked
  split at hunlinked
  · have hsame : c.unlinked = d.unlinked := Option.some.inj hunlinked
    have hdback : c.handedBack = d.handedBack := (congrArg Conversation.handedBack hsame :)
    have hdtalk : c.talk = d.talk := (congrArg Conversation.talk hsame :)
    refine ⟨hdback ▸ hback, fun hnone => ?_⟩
    rw [hdtalk, hnone] at htalk
    cases htalk
  · obtain ⟨e, he, hsame⟩ := Option.map_eq_some_iff.1 hunlinked
    have heback : e.handedBack = d.handedBack := (congrArg Conversation.handedBack hsame :)
    have hetalk : e.talk = d.talk := (congrArg Conversation.talk hsame :)
    rw [← heback, ← hetalk]
    exact h x e he

theorem Settled.remove (h : f.Settled busy) (id : ConversationId) : (f.remove id).Settled busy := by
  cases hc : f.get? id with
  | none =>
    rw [Forest.remove, hc]
    exact h
  | some c =>
    refine h.of_unlinked fun x d hd => ?_
    have hunlinked := congrArg (Option.map Conversation.unlinked) hd
    rw [unlinked_remove hc] at hunlinked
    split at hunlinked
    · cases hunlinked
    · exact Option.map_eq_some_iff.1 hunlinked

theorem Settled.take (h : f.Settled none) (id : ConversationId) :
    (f.modify id fun c => { c with talk := none }).Settled (some id) := by
  intro x c hc
  rw [get?_modify] at hc
  split at hc
  · rename_i hx
    obtain ⟨d, hd, rfl⟩ := Option.map_eq_some_iff.1 hc
    exact ⟨(h x d hd).1, fun _ => congrArg some hx⟩
  · exact h.weaken x c hc

theorem Settled.put (h : f.Settled (some id)) (talk : τ) :
    (f.modify id fun c => { c with talk := some talk }).Settled none := by
  intro x c hc
  rw [get?_modify] at hc
  split at hc
  · obtain ⟨d, hd, rfl⟩ := Option.map_eq_some_iff.1 hc
    exact ⟨(h x d hd).1, nofun⟩
  · rename_i hx
    obtain ⟨hback, hbusy⟩ := h x c hc
    exact ⟨hback, fun hnone => absurd (Option.some.inj (hbusy hnone)) hx⟩

end Forest

namespace State

variable {now span : Duration} {memory : S.Memory} {busy : Option ConversationId} {s : State S}
variable {id : ConversationId}

theorem memory_close (s : State S) (id : ConversationId) : (s.close id).memory = s.memory := by
  rw [close]
  split <;> rfl

/-- The clock and the memory are as they are, and no conversation but one is in the middle of
something. -/
structure Poised (now : Duration) (memory : S.Memory) (busy : Option ConversationId)
    (s : State S) : Prop where
  now : s.world.now = now
  memory : s.memory = memory
  settled : s.forest.Settled busy

theorem Poised.emit (h : s.Poised now memory busy) (recipient : CharacterId) (text : String) :
    (s.emit recipient text).Poised now memory busy :=
  ⟨h.now, h.memory, h.settled⟩

theorem Poised.take (h : s.Poised now memory none) (id : ConversationId) :
    (s.setTalk id none).Poised now memory (some id) :=
  ⟨h.now, h.memory, h.settled.take id⟩

theorem Poised.put (h : s.Poised now memory (some id)) (talk : S.Talk) :
    (s.setTalk id (some talk)).Poised now memory none :=
  ⟨h.now, h.memory, h.settled.put talk⟩

theorem Poised.addConversation (h : s.Poised now memory busy)
    {c : Conversation S.Talk S.Ending} (hback : c.handedBack.toList = [])
    (htalk : c.talk.isSome) : (s.addConversation c).2.Poised now memory busy :=
  ⟨(retains_addConversation World.secluded_nothing s c).now.trans h.now, h.memory,
    h.settled.insert hback htalk⟩

theorem Poised.closeAll (h : s.Poised now memory busy) (id : ConversationId) :
    (s.closeAll id).Poised now memory busy := by
  refine closeAll_keeps (P := fun t => t.Poised now memory busy) (fun t x _ ht => ?_) h
  refine ⟨(retains_close World.secluded_nothing t x).now.trans ht.now,
    (memory_close t x).trans ht.memory, ?_⟩
  rw [forest_close]
  exact ht.settled.remove x

/-- What is brief can be granted. -/
theorem Poised.granted (h : s.Poised now memory busy) {r : Request S} (hr : r.Brief span)
    (depth : Nat) : (s.granted depth r).Poised now memory busy := by
  cases r with
  | emitRoom room except text =>
    obtain ⟨mailbox, hemit⟩ := s.emitRoom_eq room except text
    rw [State.granted, hemit]
    exact ⟨h.now, h.memory, h.settled⟩
  | perform op =>
    rw [State.granted]
    cases hreply : s.world.perform op with
    | none => exact h
    | some reply =>
      have hadvance (delta : Duration) : op ≠ .advance delta := by
        rintro rfl
        exact hr.elim
      have hkept := World.retains_perform World.secluded_nothing.toAloof hreply hadvance
        fun _ _ _ _ _ => rfl
      exact ⟨hkept.now.trans h.now, h.memory, h.settled⟩
  | edit e =>
    have hkept := World.retains_edit World.secluded_nothing.toAloof s.world e
    exact ⟨hkept.now.trans h.now, h.memory, h.settled⟩
  | start participants talk ending =>
    rw [State.granted, State.start]
    split
    · exact h
    · split
      · exact h
      · exact h.addConversation rfl rfl
  | startChild parent participants talk =>
    rw [State.granted, State.startChild]
    split
    · exact h
    · split
      · exact h
      · split
        · exact h
        · exact h.addConversation rfl rfl
  | schedule id actor line delay =>
    rw [State.granted]
    cases hreply : s.schedule id actor line delay with
    | none => exact h
    | some reply =>
      obtain ⟨scheduler, hscheduled⟩ := schedule_eq hreply
      dsimp only
      rw [hscheduled]
      exact ⟨h.now, h.memory, h.settled⟩
  | finish id data => exact hr.elim
  | setMemory memory => exact hr.elim
  | add a b => exact hr.elim
  | _ => exact ⟨h.now, h.memory, h.settled⟩

end State

namespace Rules

variable {rules : Rules S} {depth count : Nat} {deliver : Delivery S → Run S Unit}
variable {now span : Duration} {memory : S.Memory} {busy : Option ConversationId} {s : State S}

/-- The run keeps the state poised, and breaks off only at the end of time. -/
abbrev Briefly (now span : Duration) (memory : S.Memory) (busy : Option ConversationId)
    (m : Run S α) (s : State S) : Prop :=
  m.Secures (Overruns now span) (fun _ t => t.Poised now memory busy) s

theorem briefly_reply {r : Request S} (hr : r.Brief span) (hs : s.Poised now memory busy) :
    Briefly now span memory busy (rules.reply depth deliver r) s := by
  have hfinish (id : ConversationId) (data : Value) : r ≠ .finish id data := by
    rintro rfl
    exact hr.elim
  obtain ⟨-, hstate, hfault⟩ := reply_course rules depth deliver r hfinish s
  refine ⟨fun fault h => ?_, fun _ _ => ?_⟩
  · obtain ⟨rfl, hoverflow⟩ := hfault fault h
    exact overruns_of_overflows hr hs.now hoverflow
  · rw [hstate]
    exact hs.granted hr depth

/-- A request of a licence is answered as the world has it. -/
theorem ensures_answered {actor : CharacterId} {may : Licence} {r : Request S}
    (h : r.Within actor may) :
    (rules.reply depth deliver r).Ensures (fun x t => r.Answered s.world x t.world) s := by
  have hany : r.Within actor ⟨fun _ => True, fun _ => True⟩ := by
    cases r with
    | send => exact ⟨h.1, trivial⟩
    | emit | emitRoom | perform | world | catalogue => trivial
    | _ => exact absurd h (by rintro ⟨⟩)
  intro x hx
  rcases answer_course (s := s) rules depth deliver hany with
    ⟨_, rfl, -, hcourse⟩ | ⟨y, t, _, hcourse, hanswered, -⟩
  · rw [hcourse] at hx
    cases hx
  · rw [hcourse] at hx ⊢
    cases hx
    exact hanswered

/-- A program whose requests can all be answered briefly is brief itself. -/
theorem briefly_run {ok : Request S → Prop} {p : Program S α} (hp : p.Asks ok)
    (hreply : ∀ r t, ok r → t.Poised now memory busy →
      Briefly now span memory busy (rules.reply depth deliver r) t)
    (hs : s.Poised now memory busy) :
    Briefly now span memory busy (p.run (rules.reply depth deliver)) s := by
  induction p generalizing s with
  | done a => exact Run.secures_pure hs
  | ask r next ih =>
    exact Program.secures_ask ((hreply r s hp.1 hs).mono fun x t ht => ih x (hp.2 x) ht)

theorem briefly_asks {p : Program S α} (hp : p.Asks (·.Brief span))
    (hs : s.Poised now memory busy) :
    Briefly now span memory busy (p.run (rules.reply depth deliver)) s :=
  briefly_run hp (fun _ _ hr ht => briefly_reply hr ht) hs

/-- A program that keeps to a licence for brief operations is brief. -/
theorem briefly_within {actor : CharacterId} {may : Licence} {p : Program S α}
    (hp : p.Within actor may s.world) (hop : ∀ op, may.op op → op.Brief span)
    (hs : s.Poised now memory busy) :
    Briefly now span memory busy (p.run (rules.reply depth deliver)) s := by
  induction p generalizing s may with
  | done a => exact Run.secures_pure hs
  | ask r next ih =>
    obtain ⟨hr, hnext⟩ := hp
    have hbrief : r.Brief span := by
      cases r with
      | perform op => exact hop op hr
      | emit | emitRoom | send | world | catalogue => trivial
      | _ => exact absurd hr (by rintro ⟨⟩)
    have hspent (op : World.Op) (h : (may.spend r).op op) : op.Brief span := by
      cases r with
      | perform => exact h.elim
      | _ => exact hop op h
    have hanswered : (rules.reply depth deliver r).Ensures
        (fun x t => r.Answered s.world x t.world) s := ensures_answered hr
    have hreply : Briefly now span memory busy (rules.reply depth deliver r) s :=
      briefly_reply hbrief hs
    refine Program.secures_ask ⟨hreply.faults, fun x hx => ?_⟩
    exact ih x (hnext x _ (hanswered x hx)) hspent (hreply.ensures x hx)

theorem briefly_handOn (hs : s.Poised now memory busy) (id : ConversationId) :
    Briefly now span memory busy (handOn deliver id) s := by
  refine Run.secures_get_bind ?_
  rw [hs.settled.takeHandedBack]
  exact Run.secures_pure hs

/-- A callback that keeps the others out of it leaves no conversation busy. -/
theorem briefly_callback {id : ConversationId} {occasion : Occasion}
    {body : S.Talk → Program S (α × S.Talk)} (hs : s.Poised now memory none)
    (hbody : ∀ talk t, t.Poised now memory (some id) →
      Briefly now span memory (some id) ((body talk).run (rules.reply depth deliver)) t) :
    Briefly now span memory none (rules.callback depth deliver id occasion body) s := by
  refine Run.secures_get_bind ?_
  split
  · exact Run.secures_pure hs
  · rename_i talk _
    refine Run.secures_bind (Run.secures_update (Run.secures_bind (Run.secures_note
      (Run.secures_bind ?_))))
    refine (hbody talk _ (hs.take id)).mono ?_
    rintro ⟨result, talk⟩ t ht
    exact Run.secures_bind (Run.secures_update (Run.secures_bind (Run.secures_note
      (Run.secures_pure (ht.put talk)))))

section

variable (hb : rules.behaviour.Brief span)
include hb

/-- Completion data comes to a receiver that is not busy, and leads to no more of it. -/
theorem briefly_deliver (hs : s.Poised now memory none) (d : Delivery S) :
    Briefly now span memory none (rules.deliver depth (count + 1) d) s := by
  cases d with
  | toEnding id ending data =>
    exact Run.secures_bind (Run.secures_note (briefly_asks (hb.onEnd ending data) hs))
  | toParent parent data =>
    refine Run.secures_get_bind ?_
    rw [hs.settled.isBusy]
    refine Run.secures_bind ((briefly_callback hs fun talk t ht => ?_).mono fun _ t ht =>
      briefly_handOn ht parent)
    exact briefly_asks ((hb.onReturn talk parent data).bind fun _ => Program.asks_pure _) ht

/-- A conversation in the middle of something may end itself. -/
theorem briefly_finish {id : ConversationId} (hs : s.Poised now memory (some id)) (data : Value) :
    Briefly now span memory (some id)
      (rules.reply depth (rules.deliver depth (count + 1)) (.finish id data)) s := by
  have hgone := s.get?_closeAll id
  have hclosed := hs.closeAll id
  have hidle : (s.closeAll id).Poised now memory none :=
    ⟨hclosed.now, hclosed.memory, hclosed.settled.idle hgone⟩
  have hweaken (t : State S) (ht : t.Poised now memory none) : t.Poised now memory (some id) :=
    ⟨ht.now, ht.memory, ht.settled.weaken⟩
  refine Run.secures_get_bind ?_
  split
  · exact Run.secures_pure hs
  · refine Run.secures_gets_bind (f := fun below => _) (Run.secures_bind (Run.secures_update
      (Run.secures_bind (Run.secures_note ?_))))
    -- The data goes to the parent, to the ending, or nowhere.
    dsimp only
    split
    · exact Run.secures_bind ((briefly_deliver hb hidle _).mono fun _ t ht =>
        Run.secures_pure (hweaken t ht))
    · exact Run.secures_bind ((briefly_deliver hb hidle _).mono fun _ t ht =>
        Run.secures_pure (hweaken t ht))
    · exact Run.secures_pure hclosed

variable (hdeliveries : rules.maxDeliveries ≠ 0)
include hdeliveries

theorem briefly_offer (hs : s.Poised now memory none) (id : ConversationId) (actor : CharacterId)
    (command : Command) :
    Briefly now span memory none (rules.offer depth id actor command) s := by
  obtain ⟨count, hcount⟩ := Nat.exists_eq_succ_of_ne_zero hdeliveries
  have hbody (talk : S.Talk) (t : State S) (ht : t.Poised now memory (some id)) :
      Briefly now span memory (some id) ((rules.behaviour.onInput talk id actor command).run
        (rules.reply depth (rules.deliver depth rules.maxDeliveries))) t := by
    refine briefly_run (hb.onInput talk id actor command) (fun r u hr hu => ?_) ht
    rcases hr with hbrief | ⟨data, rfl⟩
    · exact briefly_reply hbrief hu
    · rw [hcount]
      exact briefly_finish hb hu data
  refine Run.secures_bind (Run.secures_bind ((briefly_callback hs hbody).mono
    fun result t ht => ?_))
  dsimp only
  split
  · exact Run.secures_bind ((briefly_handOn ht id).mono fun _ u hu =>
      Run.secures_pure (Run.secures_pure hu))
  · exact Run.secures_pure (Run.secures_pure ht)

end

/-! Lines. -/

/-- All that the handlers do is brief, and so are the conversations. -/
structure Brief (rules : Rules S) (span : Duration) : Prop where
  behaviour : rules.behaviour.Brief span
  deliveries : rules.maxDeliveries ≠ 0
  handler : ∀ {level registry word d}, rules.registry? level = some registry →
    registry.lookup word = some d → ∀ inv depth now memory s, s.Poised now memory none →
      Briefly now span memory none (rules.execute depth (d.run inv)) s

theorem briefly_handle (h : rules.Brief span) {level : Responder}
    {registry : Registry (Handler S)} (hlevel : rules.registry? level = some registry)
    {actor : CharacterId} {command : Command} (origin : Origin) (hs : s.Poised now memory none) :
    Briefly now span memory none (rules.handle depth registry actor command origin) s := by
  refine Run.secures_gets_bind (f := fun world => _) ?_
  dsimp only
  split
  · rename_i d c hd _
    split
    · exact Run.secures_pure hs
    · split
      · exact Run.secures_bind (Run.secures_reach (Run.secures_bind (Run.secures_update
          (Run.secures_pure (hs.emit actor _)))))
      · exact Run.secures_bind (Run.secures_reach (h.handler hlevel hd _ _ _ _ _ hs))
  · exact Run.secures_pure hs

theorem brief_lineParts (h : rules.Brief span) (depth : Nat) (actor : CharacterId)
    (command : Command) : LineParts rules depth actor command fun m =>
      ∀ s, s.Poised now memory none → Briefly now span memory none m s where
  toCompositional := Run.secures_compositional _ _
  offered _ _ hs := Run.secures_reach hs
  answered _ _ _ hs := Run.secures_reach hs
  told text _ hs := Run.secures_update (hs.emit actor text)
  conversation := (Run.secures_compositional _ _).askConversation
    (fun _ _ hs => Run.secures_reach hs) (fun _ _ _ hs => Run.secures_reach hs)
    fun id _ hs => briefly_offer h.behaviour h.deliveries hs id actor command
  handle origin hlevel _ _ hs := briefly_handle h hlevel origin hs

theorem brief_dispatchParts (h : rules.Brief span) : DispatchParts rules fun m =>
    ∀ s, s.Poised now memory none → Briefly now span memory none m s where
  toCompositional := Run.secures_compositional _ _
  line depth actor line s hs := by
    refine Run.secures_bind (Run.secures_reach (Run.secures_bind ?_))
    refine ((brief_lineParts h depth actor (.ofLine line)).respond s hs).mono fun _ t ht => ?_
    exact Run.secures_bind (Run.secures_reach (Run.secures_pure ht))
  cleared _ hs := Run.secures_update ⟨hs.now, hs.memory, hs.settled⟩

/-- A line with all its follow-ups takes no time, and comes to its end unless the clock is about to
run out. -/
theorem briefly_dispatch (h : rules.Brief span) (hs : s.Poised now memory none)
    (actor : CharacterId) (line : String) :
    Briefly now span memory none (rules.dispatch actor line) s :=
  (brief_dispatchParts h).dispatch actor line s hs

end Rules

end TextWorld

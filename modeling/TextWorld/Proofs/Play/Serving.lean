import TextWorld.Proofs.Play.Innkeeper
import TextWorld.Proofs.Play.Playing

/-!
How scenes at the inn go on. Between the things that are done from outside a scene rests: the
customer is in a chat that comes to its end by itself, or has been asked a question.
-/

namespace TextWorld

namespace Village

open Scene (chat asking quiet)

/-- A scene is on and nobody has anything to say. -/
structure Calm (J : World → Prop) (keeper : CharacterId) (now : Duration) (scene : Scene)
    (s : State setting) : Prop where
  shows : scene.Shows keeper none s
  world : J s.world
  time : s.world.now = now
  followUps : s.followUps.toList = []

/-- A scene that rests until something is done from outside. -/
structure Resting (J : World → Prop) (keeper : CharacterId) (now : Duration) (scene : Scene)
    (s : State setting) : Prop extends Calm J keeper now scene s where
  rests : scene.Rests now

variable {J : World → Prop} {rules : Rules setting} {keeper actor customer : CharacterId}
variable {now : Duration} {scene scene' : Scene} {h : ConversationId} {slot : Option Slot}
variable {s t : State setting} {α : Type} {m : Run setting α}

/-- When nothing is queued, it is as good as anybody's. -/
theorem calm_iff : Calm J keeper now scene s ↔ ∀ who, Episode J keeper who now scene none s := by
  constructor
  · intro hs who
    exact ⟨hs.shows, hs.world, hs.time, by simp [hs.followUps]⟩
  · intro hs
    -- What is queued would have to be said by two different characters.
    have h := hs ⟨0⟩
    refine ⟨h.shows, h.world, h.time, List.eq_nil_iff_forall_not_mem.2 fun f hf => ?_⟩
    have hboth := (h.followUps f hf).symm.trans ((hs ⟨1⟩).followUps f hf)
    exact absurd hboth (by decide)

theorem ensures_calm (hm : ∀ who, m.Ensures (fun _ t => Episode J keeper who now scene none t) s) :
    m.Ensures (fun _ t => Calm J keeper now scene t) s :=
  fun a ha => calm_iff.2 fun who => hm who a ha

theorem ensures_drain_calm (hs : Calm J keeper now scene s) :
    rules.drain.Ensures (fun _ t => Calm J keeper now scene t) s := by
  unfold Rules.drain
  cases rules.config.maxFollowUpDepth with
  | zero =>
    exact Run.ensures_update ⟨hs.shows.congr rfl fun _ => rfl, hs.world, hs.time, rfl⟩
  | succ generations =>
    refine Run.ensures_get_bind ?_
    dsimp only
    rw [if_pos (Queue.isEmpty_iff.2 hs.followUps)]
    exact Run.ensures_pure hs

/-- A line leads from one scene that rests to another, in no time. -/
theorem ensures_dispatch (hg : Governed rules keeper) (hJ : World.Durable J)
    (hs : Resting J keeper now scene s) (actor : CharacterId) (line : String) :
    (rules.dispatch actor line).Ensures
      (fun _ t => ∃ scene', scene.Turns actor now scene' ∧ Resting J keeper now scene' t) s := by
  have hline (depth : Nat) (line : String) : (rules.dispatchLine depth actor line).Keeps
      (Underway J keeper actor now scene) := keeps_dispatchLine hg hJ line
  have hown (t : State setting) (ht : Underway J keeper actor now scene t) :
      ∀ f ∈ t.followUps.toList, f.actor = actor := by
    obtain ⟨scene', -, ht⟩ := ht
    exact ht.followUps
  have hcleared (t : State setting) (ht : Underway J keeper actor now scene t) :
      Underway J keeper actor now scene { t with followUps := .empty } := by
    obtain ⟨scene', hturns, ht⟩ := ht
    exact ⟨scene', hturns, ht.shows.congr rfl fun _ => rfl, ht.world, ht.time, by rintro _ ⟨⟩⟩
  -- The line keeps the scene under way, and so does each line it has queued, all the actor's.
  have hbegin := calm_iff.1 hs.toCalm actor
  refine Run.ensures_bind ((hline 0 line s ⟨scene, .inl rfl, hbegin⟩).mono ?_)
  intro outcome t ht
  refine Run.ensures_bind ((Rules.ensures_drain hown hcleared hline ht).mono ?_)
  rintro _ u ⟨⟨scene', hturns, hu⟩, hqueue⟩
  exact Run.ensures_pure ⟨scene', hturns, ⟨hu.shows, hu.world, hu.time, hqueue⟩,
    hturns.rests hs.rests⟩

/-- The customer takes leave. -/
theorem ensures_bye (hg : Governed rules keeper) (hJ : World.Durable J)
    (hs : Calm J keeper now (chat h customer slot) s) :
    (rules.dispatch customer "bye").Ensures (fun _ t => Calm J keeper now quiet t) s := by
  have hpartner : Scene.partner? keeper (chat h customer slot) customer = some h :=
    if_pos (.inl rfl)
  have hblank : (Command.ofLine "bye").isBlank = false := by decide
  have hword : (Command.ofLine "bye").word = "bye" := by decide
  have hleave (who : CharacterId) :
      (rules.dispatchLine 0 customer "bye").Ensures
        (fun _ t => Episode J keeper who now quiet none t) s := by
    refine Run.ensures_bind (Run.ensures_reach (Run.ensures_bind ?_))
    unfold Rules.respond
    rw [hblank]
    refine Run.ensures_bind (Run.ensures_bind (Run.ensures_get_bind ?_))
    rw [hs.shows.activeConversation, hpartner]
    refine Rules.ensures_ask ((ensures_offer_chat hg hJ (calm_iff.1 hs who)).mono ?_)
    rintro outcome t ⟨_, ⟨-, hbye⟩, ht⟩
    obtain ⟨rfl, rfl⟩ := hbye hword
    exact Run.ensures_pure (Run.ensures_pure (Run.ensures_bind (Run.ensures_reach
      (Run.ensures_pure ht))))
  refine Run.ensures_bind ((ensures_calm hleave).mono fun outcome t ht => ?_)
  exact Run.ensures_bind ((ensures_drain_calm ht).mono fun _ _ hu => Run.ensures_pure hu)

/-! The parts of a tick. -/

/-- What is left of a scene when the time has come. -/
def Scene.after (now : Duration) : Scene → Scene
  | chat h customer (some slot) => if slot.due ≤ now then quiet else chat h customer (some slot)
  | scene => scene

theorem fireDue_of_none {through : Nat} (count : Nat) {Q : State setting → Prop} (hQ : Q s)
    (hpop : s.forest.scheduler.popNext s.world.now through = none) :
    (rules.fireDue through count).Ensures (fun _ => Q) s := by
  cases count with
  | zero => exact Run.ensures_pure hQ
  | succ count =>
    refine Run.ensures_bind (Run.ensures_get_bind ?_)
    rw [hpop]
    exact Run.ensures_pure (Run.ensures_pure hQ)

theorem popNext_eq_none (hs : Calm J keeper now scene s) (through : Nat)
    (hscene : ∀ h customer slot, scene ≠ chat h customer (some slot)) :
    s.forest.scheduler.popNext s.world.now through = none := by
  cases hpop : s.forest.scheduler.popNext s.world.now through with
  | none => rfl
  | some taken =>
    obtain ⟨h, customer, slot, hchat, -⟩ := hs.shows.fire hpop
    exact absurd hchat (hscene h customer slot)

/-- The customer whose time has come takes leave, and nothing else comes due. -/
theorem ensures_fireDue (hg : Governed rules keeper) (hJ : World.Durable J)
    (hs : Calm J keeper now scene s) :
    (rules.fireDue s.forest.scheduler.lastSequence s.forest.scheduler.size).Ensures
      (fun _ t => Calm J keeper now (scene.after now) t) s := by
  cases hpop : s.forest.scheduler.popNext s.world.now s.forest.scheduler.lastSequence with
  | none =>
    refine fireDue_of_none _ ?_ hpop
    match scene, hs with
    | quiet, hs => exact hs
    | asking .., hs => exact hs
    | chat _ _ none, hs => exact hs
    | chat h customer (some slot), hs =>
      have hearly := hs.shows.not_due hpop slot rfl
      rw [hs.time] at hearly
      have hlate : ¬slot.due ≤ now := Nat.not_le.2 hearly
      rw [Scene.after, if_neg hlate]
      exact hs
  | some taken =>
    obtain ⟨h, customer, slot, rfl, hdue, hline, hfired⟩ := hs.shows.fire hpop
    have hqueued := hs.shows.queued slot
    rw [Scene.queued?, if_pos rfl] at hqueued
    obtain ⟨count, hsize⟩ : ∃ count, s.forest.scheduler.size = count + 1 :=
      Table.exists_size hqueued
    rw [hs.time] at hdue
    rw [hsize, Scene.after, if_pos hdue]
    refine Run.ensures_bind (Run.ensures_get_bind ?_)
    rw [hpop]
    refine Run.ensures_bind (Run.ensures_reach (Run.ensures_bind (Run.ensures_set
      (Run.ensures_pure ?_))))
    have hcalm : Calm J keeper now (chat h customer none)
        { s with forest.scheduler := taken.2 } := ⟨hfired, hs.world, hs.time, hs.followUps⟩
    rw [hline]
    -- Once the customer has left the inn is quiet, and nothing more can come due.
    refine Run.ensures_bind (Run.ensures_discard ((ensures_bye hg hJ hcalm).mono ?_))
    intro _ t ht
    exact fireDue_of_none count ht (popNext_eq_none ht _ (by rintro _ _ _ ⟨⟩))

/-- A conversation that has its turn does nothing with it. -/
theorem ensures_turn (hg : Governed rules keeper) (hs : Calm J keeper now scene s)
    (id : ConversationId) :
    (rules.tickConversation id).Ensures (fun _ t => Calm J keeper now scene t) s := by
  refine Run.ensures_bind (Run.ensures_reach (Run.ensures_discard ?_))
  cases htalk : scene.talk? keeper id with
  | none =>
    refine Run.ensures_bind (Run.ensures_get_bind ?_)
    rw [hs.shows.talk, htalk]
    exact Run.ensures_pure (Run.ensures_pure hs)
  | some talk =>
    refine ensures_calm fun who => ?_
    refine (ensures_withTalk (R := fun _ scene' => scene' = scene) (calm_iff.1 hs who) htalk
      fun t ht => ?_).mono ?_
    · rw [hg.behaviour]
      refine Program.ensures_run_bind (Program.ensures_run_pure (Program.ensures_run_pure ?_))
      exact ⟨rfl, scene, rfl, fun _ => Scene.eq_of_talk? htalk, ht⟩
    · rintro _ t ⟨_, _, -, rfl, ht⟩
      exact ht

theorem ensures_tickConversations (hg : Governed rules keeper)
    (hs : Calm J keeper now scene s) (ids : List ConversationId) :
    (rules.tickConversations ids).Ensures (fun _ t => Calm J keeper now scene t) s := by
  induction ids generalizing s with
  | nil => exact Run.ensures_pure hs
  | cons id ids ih => exact Run.ensures_bind ((ensures_turn hg hs id).mono fun _ _ => ih)

theorem tame_toll (who : CharacterId) (rooms : List RoomId) (w : World) :
    (toll rooms : Program setting Unit).Tame who w := by
  induction rooms generalizing w with
  | nil => exact Program.tame_pure ()
  | cons room rooms ih => exact Program.tame_emitRoom_bind.2 (ih w)

theorem tame_ring (who : CharacterId) (rooms : List RoomId) (memory : setting.Memory)
    (since : Duration) (w : World) : (ring lodging rooms memory since).Tame who w := by
  induction since using ring.induct generalizing w with
  | case1 since hfull left ih =>
    rw [ring_of_full _ _ _ hfull, Program.tame_setMemory_bind]
    exact (tame_toll who rooms w).bind fun _ v => ih v
  | case2 since hshort =>
    rw [ring_of_not_full _ _ _ hshort]
    exact Program.tame_pure ()

/-- The bell tolls, and life goes on. -/
theorem ensures_hooks (hg : Governed rules keeper) (hJ : World.Durable J)
    (hs : Calm J keeper now scene s) (delta : Duration) :
    (rules.runHooks delta rules.hooks).Ensures (fun _ t => Calm J keeper now scene t) s := by
  obtain ⟨rooms, hrooms⟩ := hg.hooks
  have htame (who : CharacterId) : (bell lodging rooms delta).Tame who s.world := by
    rw [bell, Program.tame_getMemory_bind]
    intro memory
    rw [Program.tame_add_bind]
    intro since
    rw [Program.tame_setMemory_bind]
    exact tame_ring who rooms memory since s.world
  rw [hrooms]
  refine Run.ensures_bind (Run.ensures_reach (Run.ensures_bind ?_))
  have hbell (who : CharacterId) : (rules.execute 0 (bell lodging rooms delta)).Ensures
      (fun _ t => Episode J keeper who now scene none t) s :=
    (Rules.run_tamely (htame who)).mono fun _ t ht => (calm_iff.1 hs who).tamely hJ ht
  exact (ensures_calm hbell).mono fun _ t ht => Run.ensures_pure ht

theorem Scene.Rests.after {now now' : Duration} (hrests : scene.Rests now)
    (hlater : now.nanos ≤ now'.nanos) : (scene.after now').Rests now' := by
  match scene, hrests with
  | quiet, _ => trivial
  | asking .., _ => trivial
  | chat h customer (some slot), ⟨_, rfl, hwaits⟩ =>
    rw [Scene.after]
    split
    · trivial
    · rename_i hearly
      have hsoon := hwaits.2
      refine ⟨slot, rfl, Nat.lt_of_not_le hearly, ?_⟩
      omega

/-- The time passes for whoever is waiting. -/
theorem ensures_tick (hg : Governed rules keeper) (hJ : World.Durable J)
    (hs : Resting J keeper now scene s) (delta : Duration) :
    (rules.tick delta).Ensures
      (fun _ t => ∃ now', now'.nanos = now.nanos + delta.nanos ∧
        Resting J keeper now' (scene.after now') t) s := by
  refine Run.ensures_bind (Run.ensures_bind (Run.ensures_reach (Run.ensures_get_bind ?_)))
  cases hadvance : s.world.advance delta with
  | none => exact Run.ensures_breakOff _ _
  | some w =>
    refine Run.ensures_update (Run.ensures_gets_bind (f := fun scheduler => _) ?_)
    obtain ⟨now', hnow, rfl⟩ := Option.map_eq_some_iff.1 hadvance
    rw [hs.time, Duration.add?_eq_some] at hnow
    obtain ⟨-, rfl⟩ := hnow
    have hpassed : Calm J keeper ⟨now.nanos + delta.nanos⟩ scene
        { s with world := { s.world with now := ⟨now.nanos + delta.nanos⟩ } } :=
      ⟨hs.shows.congr rfl fun _ => rfl, hJ.advance hs.world hadvance, rfl, hs.followUps⟩
    refine Run.ensures_bind ((ensures_fireDue hg hJ hpassed).mono fun _ t ht => ?_)
    refine Run.ensures_gets_bind (f := fun active => _) (Run.ensures_bind
      ((ensures_tickConversations hg ht _).mono fun _ u hu => ?_))
    refine Run.ensures_bind ((ensures_hooks hg hJ hu delta).mono fun _ v hv => ?_)
    refine (ensures_drain_calm hv).mono fun _ x hx => ?_
    exact ⟨_, rfl, hx, hs.rests.after (Nat.le_add_right _ _)⟩

/-! Sessions in the village. -/

/-- A session in which a scene rests. -/
structure Hosting (J : World → Prop) (keeper : CharacterId) (now : Duration) (scene : Scene)
    (s : Session setting) : Prop where
  governed : Governed s.rules keeper
  resting : Resting J keeper now scene s.state

/-- How a scene goes on when somebody says something, or when nobody does and time passes. -/
def Scene.Proceeds (now : Duration) : Option CharacterId → Scene → Scene → Prop
  | some actor, scene, scene' => scene.Turns actor now scene'
  | none, scene, scene' => scene' = scene.after now

variable {a b : Session setting}

theorem Hosting.continues {now' : Duration} {Q : State setting → Prop}
    (ha : Hosting J keeper now scene a) (hb : a.Continues b Q)
    (hQ : ∀ s, Q s → Resting J keeper now' scene' s) : Hosting J keeper now' scene' b := by
  obtain ⟨u, hu, hstate⟩ := hb.state
  have hrests := hQ u hu
  refine ⟨hb.rules ▸ ha.governed, ⟨?_, ?_, ?_, ?_⟩, hrests.rests⟩
  all_goals rw [hstate]
  · exact hrests.shows.congr rfl fun _ => rfl
  · exact hrests.world
  · exact hrests.time
  · exact hrests.followUps

theorem Hosting.submitAs (hJ : World.Durable J) (ha : Hosting J keeper now scene a)
    {line : String} {texts : List String} (htake : a.submitAs actor line = (.ok texts, b)) :
    b.player = a.player ∧
      ∃ scene', scene.Turns actor now scene' ∧ Hosting J keeper now scene' b := by
  have hb := Session.continues_submitAs htake
    (ensures_dispatch ha.governed hJ ha.resting actor line)
  obtain ⟨u, ⟨scene', hturns, hu⟩, hstate⟩ := hb.state
  have hcontinues : a.Continues b fun s => s = u := ⟨hb.rules, hb.player, u, rfl, hstate⟩
  exact ⟨hb.player, scene', hturns, ha.continues hcontinues fun s hs => hs ▸ hu⟩

theorem Hosting.tick (hJ : World.Durable J) (ha : Hosting J keeper now scene a)
    {delta : Duration} {texts : List String} (htake : a.tick delta = (.ok texts, b)) :
    b.player = a.player ∧ ∃ now', now'.nanos = now.nanos + delta.nanos ∧
      Hosting J keeper now' (scene.after now') b := by
  have hb := Session.continues_tick htake (ensures_tick ha.governed hJ ha.resting delta)
  obtain ⟨u, ⟨now', hnow, hu⟩, hstate⟩ := hb.state
  have hcontinues : a.Continues b fun s => s = u := ⟨hb.rules, hb.player, u, rfl, hstate⟩
  exact ⟨hb.player, now', hnow, ha.continues hcontinues fun s hs => hs ▸ hu⟩

/-- One input after another leads from one scene that rests to the next. -/
theorem Hosting.take (hJ : World.Durable J) (ha : Hosting J keeper now scene a)
    {input : Session.Input} {texts : List String} (htake : a.take input = (.ok texts, b)) :
    b.player = a.player ∧ ∃ now' scene', now'.nanos = now.nanos + input.span.nanos ∧
      Scene.Proceeds now' (input.actor? a.player) scene scene' ∧
        Hosting J keeper now' scene' b := by
  cases input with
  | line text =>
    obtain ⟨hplayer, scene', hturns, hb⟩ := ha.submitAs hJ htake
    exact ⟨hplayer, now, scene', rfl, hturns, hb⟩
  | lineAs actor text =>
    obtain ⟨hplayer, scene', hturns, hb⟩ := ha.submitAs hJ htake
    exact ⟨hplayer, now, scene', rfl, hturns, hb⟩
  | time delta =>
    obtain ⟨hplayer, now', hnow, hb⟩ := ha.tick hJ htake
    exact ⟨hplayer, now', _, hnow, rfl, hb⟩

/-- What each input keeps true of the scene is true of it after all of them. -/
theorem Hosting.takeAll (hJ : World.Durable J) {P : Scene → Prop} {inputs : List Session.Input}
    (hstep : ∀ input ∈ inputs, ∀ now scene scene', Scene.Proceeds now (input.actor? a.player)
      scene scene' → P scene → P scene') (ha : Hosting J keeper now scene a) (hP : P scene)
    (htake : a.takeAll inputs = .ok b) :
    ∃ now' scene', now'.nanos = now.nanos + Session.total inputs ∧ P scene' ∧
      Hosting J keeper now' scene' b := by
  induction inputs generalizing a now scene with
  | nil =>
    cases htake
    exact ⟨now, scene, rfl, hP, ha⟩
  | cons input inputs ih =>
    obtain ⟨texts, c, hfirst, htake⟩ := Session.takeAll_cons_eq_ok.1 htake
    obtain ⟨hplayer, now', scene', hnow, hproceeds, hc⟩ := ha.take hJ hfirst
    have hfirst := hstep input List.mem_cons_self now' scene scene' hproceeds hP
    have hrest : ∀ later ∈ inputs, ∀ now scene scene', Scene.Proceeds now
        (later.actor? c.player) scene scene' → P scene → P scene' := by
      rw [hplayer]
      exact fun later hlater => hstep later (List.mem_cons_of_mem _ hlater)
    obtain ⟨now'', scene'', hend, hlast, hb⟩ := ih hrest hc hfirst htake
    refine ⟨now'', scene'', ?_, hlast, hb⟩
    rw [hend, hnow, Session.total]
    omega

end Village

end TextWorld

import TextWorld.Proofs.Play.Conduct
import TextWorld.Proofs.Play.Scene

/-!
The innkeeper at work. Whatever an actor does, the scene stays, or it becomes one in which nobody
but the actor is served and in which the innkeeper waits for an answer or until some time.
-/

namespace TextWorld

/-- What is true of a world and stays true whatever its characters do, whoever talks with whom, and
however much time passes. -/
structure World.Durable (J : World → Prop) : Prop where
  signposted : ∀ {w}, J w → w.Signposted
  errand : ∀ {w v actor}, J w → World.Errand actor w v → J v
  regrouped : ∀ {w v : World}, J w → w.Regrouped v → J v
  advance : ∀ {w v delta}, J w → w.advance delta = some v → J v

theorem World.Durable.errands {J : World → Prop} (hJ : World.Durable J) {actor : CharacterId}
    {w v : World} (hw : J w) (h : World.Errands actor w v) : J v := by
  induction h with
  | refl => exact hw
  | tail _ hlast ih => exact hJ.errand ih hlast

namespace Village

open Scene (chat asking quiet)

/-- The innkeeper is waiting, but not for long. -/
def Waits (now : Duration) (slot : Slot) : Prop :=
  now < slot.due ∧ slot.due.nanos ≤ now.nanos + idleTimeout.nanos

namespace Scene

/-- Nobody but this character is served. -/
def Serves (actor : CharacterId) : Scene → Prop
  | quiet => True
  | chat _ customer _ | asking _ _ customer => customer = actor

/-- A scene that can go on for a while by itself. -/
def Rests (now : Duration) : Scene → Prop
  | chat _ _ slot => ∃ pending, slot = some pending ∧ Waits now pending
  | _ => True

/-- What becomes of a scene while an actor has its say. -/
def Turns (actor : CharacterId) (now : Duration) (scene scene' : Scene) : Prop :=
  scene' = scene ∨ scene.Serves actor ∧ scene'.Serves actor ∧ scene'.Rests now

theorem Turns.trans {actor : CharacterId} {now : Duration} {a b c : Scene}
    (h : a.Turns actor now b) (h' : b.Turns actor now c) : a.Turns actor now c := by
  rcases h' with rfl | ⟨hb, hc⟩
  · exact h
  · rcases h with rfl | ⟨ha, -⟩
    · exact .inr ⟨hb, hc⟩
    · exact .inr ⟨ha, hc⟩

theorem Turns.rests {actor : CharacterId} {now : Duration} {a b : Scene}
    (h : a.Turns actor now b) (ha : a.Rests now) : b.Rests now := by
  rcases h with rfl | ⟨-, -, hb⟩
  · exact ha
  · exact hb

end Scene

/-- The rules of the village: its commands are the standard ones, praying and, for the innkeeper's
neighbours, talking to the innkeeper. -/
structure Governed (rules : Rules setting) (keeper : CharacterId) : Prop where
  behaviour : rules.behaviour = Village.behaviour
  hooks : ∃ rooms, rules.hooks = [bell lodging rooms]
  command : ∀ {level registry word d}, rules.registry? level = some registry →
    registry.lookup word = some d → d ∈ StandardCommands.standard ∨ d.run = pray ∨
      level = .character keeper ∧ d.run = talkToKeeper lodging keeper

/-- A scene is on while an actor has its say, and only lines of the actor are queued. -/
structure Episode (J : World → Prop) (keeper actor : CharacterId) (now : Duration) (scene : Scene)
    (busy : Option ConversationId) (s : State setting) : Prop where
  shows : scene.Shows keeper busy s
  world : J s.world
  time : s.world.now = now
  followUps : ∀ f ∈ s.followUps.toList, f.actor = actor

/-- A callback of a conversation can end: the scene is such a scene, and unless the conversation is
gone it has been about the same thing as ever. -/
def Concludes (J : World → Prop) (keeper actor : CharacterId) (now : Duration) (id : ConversationId)
    (talk : Talk) (R : Scene → Prop) (s : State setting) : Prop :=
  ∃ scene, R scene ∧ (∀ left, scene.talk? keeper id = some left → left = talk) ∧
    Episode J keeper actor now scene (some id) s

/-- The innkeeper has nothing more to say to this customer now. -/
def Served (customer : CharacterId) (now : Duration) (scene : Scene) : Prop :=
  scene.Serves customer ∧ scene.Rests now

/-- The innkeeper has answered a word of the customer, who is gone after taking leave. -/
def Haggled (customer : CharacterId) (now : Duration) (command : Command)
    (outcome : CommandOutcome) (scene : Scene) : Prop :=
  Served customer now scene ∧ (command.word = "bye" → outcome = .handled ∧ scene = quiet)

variable {J : World → Prop} {rules : Rules setting} {keeper actor customer : CharacterId}
variable {now : Duration} {scene scene' : Scene} {busy busy' : Option ConversationId}
variable {h q : ConversationId} {slot : Option Slot} {s t : State setting}

section

variable (hJ : World.Durable J)
include hJ

theorem Episode.tamely (he : Episode J keeper actor now scene busy s) (ht : s.Tamely actor t) :
    Episode J keeper actor now scene busy t := by
  refine ⟨he.shows.tamely ht, hJ.errands he.world ht.errands, ?_, fun f hf => ?_⟩
  · exact ht.errands.undisturbed.now.trans he.time
  · rcases ht.followUps f hf with hold | hnew
    · exact he.followUps f hold
    · exact hnew

theorem Episode.regroups (he : Episode J keeper actor now scene busy s)
    (hs : scene'.Shows keeper busy' t) (ht : s.Regroups t) :
    Episode J keeper actor now scene' busy' t := by
  refine ⟨hs, hJ.regrouped he.world ht.world, ht.world.now.trans he.time, ?_⟩
  rw [ht.followUps]
  exact he.followUps

end

/-- What changes neither world nor queue. -/
theorem Episode.becomes (he : Episode J keeper actor now scene busy s)
    (hs : scene'.Shows keeper busy' t) (hworld : t.world = s.world)
    (hqueue : t.followUps = s.followUps) : Episode J keeper actor now scene' busy' t := by
  refine ⟨hs, ?_, ?_, ?_⟩
  · rw [hworld]
    exact he.world
  · rw [hworld]
    exact he.time
  · rw [hqueue]
    exact he.followUps

/-! The programs of the innkeeper. -/

section Programs

variable {depth count : Nat} {deliver : Delivery setting → Run setting Unit}

theorem ensures_keepWaiting (he : Episode J keeper actor now (chat h customer slot) busy s) :
    ((keepWaiting h customer).run (rules.reply depth deliver)).Ensures
      (fun _ t => ∃ pending, Waits now pending ∧
        Episode J keeper actor now (chat h customer (some pending)) busy t) s := by
  refine Program.ensures_run_bind (p := Program.schedule h customer "bye" idleTimeout)
    (Program.ensures_request (Run.ensures_get_bind ?_))
  cases hreply : s.schedule h customer "bye" idleTimeout with
  | none => exact Run.ensures_breakOff _ _
  | some reply =>
    obtain ⟨due, sequence, hdue, hworld, hqueue, hs⟩ := he.shows.schedule hreply
    refine Run.ensures_bind (Run.ensures_set (Run.ensures_pure (Program.ensures_run_pure ?_)))
    refine ⟨⟨due, sequence⟩, ?_, he.becomes hs hworld hqueue⟩
    rw [he.time, Duration.add?_eq_some] at hdue
    obtain ⟨-, rfl⟩ := hdue
    have htimeout : 0 < idleTimeout.nanos := by decide
    exact ⟨Nat.lt_add_of_pos_right htimeout, Nat.le_refl _⟩

theorem ensures_handOn (hs : scene.Shows keeper busy s) (id : ConversationId)
    {Q : Unit → State setting → Prop} (hQ : Q () s) : (Rules.handOn deliver id).Ensures Q s := by
  refine Run.ensures_get_bind ?_
  rw [hs.takeHandedBack]
  exact Run.ensures_pure hQ

/-- A callback begins and ends with the talk of its conversation where it belongs. -/
theorem ensures_callback {α : Type} {id : ConversationId} {occasion : Occasion}
    {body : setting.Talk → Program setting (α × setting.Talk)} {talk : Talk}
    {R : α → Scene → Prop} (he : Episode J keeper actor now scene none s)
    (htalk : scene.talk? keeper id = some talk)
    (hbody : ∀ t, Episode J keeper actor now scene (some id) t →
      ((body talk).run (rules.reply depth deliver)).Ensures
        (fun r t => r.2 = talk ∧ Concludes J keeper actor now id talk (R r.1) t) t) :
    (rules.callback depth deliver id occasion body).Ensures
      (fun r t => ∃ a scene', r = some a ∧ R a scene' ∧ Episode J keeper actor now scene' none t)
      s := by
  refine Run.ensures_get_bind ?_
  rw [he.shows.talk, htalk]
  refine Run.ensures_bind (Run.ensures_update (Run.ensures_bind (Run.ensures_note
    (Run.ensures_bind ?_))))
  refine (hbody _ (he.becomes (he.shows.take id) rfl rfl)).mono ?_
  rintro ⟨a, last⟩ t ⟨rfl, scene', hR, hleft, he'⟩
  refine Run.ensures_bind (Run.ensures_update (Run.ensures_bind (Run.ensures_note
    (Run.ensures_pure ?_))))
  exact ⟨a, scene', rfl, hR, he'.becomes (he'.shows.put hleft) rfl rfl⟩

theorem ensures_withTalk {α : Type} {id : ConversationId} {occasion : Occasion}
    {body : setting.Talk → Program setting (α × setting.Talk)} {talk : Talk}
    {R : α → Scene → Prop} (he : Episode J keeper actor now scene none s)
    (htalk : scene.talk? keeper id = some talk)
    (hbody : ∀ t, Episode J keeper actor now scene (some id) t →
      ((body talk).run (rules.reply depth (rules.deliver depth rules.maxDeliveries))).Ensures
        (fun r t => r.2 = talk ∧ Concludes J keeper actor now id talk (R r.1) t) t) :
    (rules.withTalk depth id occasion body).Ensures
      (fun r t => ∃ a scene', r = some a ∧ R a scene' ∧ Episode J keeper actor now scene' none t)
      s := by
  refine Run.ensures_bind ((ensures_callback he htalk hbody).mono ?_)
  rintro _ t ⟨a, scene', rfl, hR, he'⟩
  exact Run.ensures_bind (ensures_handOn he'.shows id
    (Run.ensures_pure ⟨a, scene', rfl, hR, he'⟩))

/-- Ending the chat, the innkeeper has a word for the customer. -/
theorem ensures_farewell (hg : Governed rules keeper) (hJ : World.Durable J) {data : Value}
    (he : Episode J keeper actor now scene busy s) :
    (rules.deliver depth count (.toEnding h (.farewell customer) data)).Ensures
      (fun _ t => Episode J keeper actor now scene busy t) s := by
  cases count with
  | zero => exact Run.ensures_breakOff _ _
  | succ count =>
    refine Run.ensures_bind (Run.ensures_note ?_)
    rw [hg.behaviour]
    have htame : (onEnd (.farewell customer) : Program setting Unit).Tame actor s.world :=
      ⟨trivial, fun _ _ _ => trivial⟩
    exact (Rules.run_tamely htame).mono fun _ t ht => he.tamely hJ ht

theorem ensures_finish_chat (hg : Governed rules keeper) (hJ : World.Durable J) {data : Value}
    (he : Episode J keeper actor now (chat h customer slot) busy s) :
    (rules.reply depth (rules.deliver depth count) (.finish h data)).Ensures
      (fun _ t => Episode J keeper actor now quiet busy t) s := by
  refine Run.ensures_get_bind ?_
  rw [he.shows.get_chat]
  refine Run.ensures_gets_bind (f := fun below => _) (Run.ensures_bind (Run.ensures_update
    (Run.ensures_bind (Run.ensures_note (Run.ensures_bind ?_)))))
  have hleft := he.regroups hJ he.shows.leave (.closeAll s h)
  exact (ensures_farewell hg hJ hleft).mono fun _ t ht => Run.ensures_pure ht

/-- What is done tamely on the way leaves the scene alone. -/
theorem ensures_tame_bind {α β : Type} (hJ : World.Durable J) {p : Program setting α}
    {f : α → Program setting β} {Q : β → State setting → Prop}
    (he : Episode J keeper actor now scene busy s) (hp : p.Tame actor s.world)
    (hf : ∀ a t, Episode J keeper actor now scene busy t →
      ((f a).run (rules.reply depth deliver)).Ensures Q t) :
    ((p >>= f).run (rules.reply depth deliver)).Ensures Q s :=
  Rules.ensures_tame_bind hp fun a t ht => hf a t (he.tamely hJ ht)

theorem ensures_emit_bind {α : Type} (hJ : World.Durable J) {recipient : CharacterId}
    {text : String} {f : Unit → Program setting α} {Q : α → State setting → Prop}
    (he : Episode J keeper actor now scene busy s)
    (hf : ∀ t, Episode J keeper actor now scene busy t →
      ((f ()).run (rules.reply depth deliver)).Ensures Q t) :
    ((Program.emit recipient text >>= f).run (rules.reply depth deliver)).Ensures Q s :=
  ensures_tame_bind hJ he ⟨trivial, fun _ _ _ => trivial⟩ fun _ => hf

theorem ensures_haggleReturn (hJ : World.Durable J) {data : Value}
    (he : Episode J keeper actor now (chat h customer slot) busy s) :
    ((haggleReturn customer h data).run (rules.reply depth deliver)).Ensures
      (fun _ t => ∃ pending, Waits now pending ∧
        Episode J keeper actor now (chat h customer (some pending)) busy t) s := by
  unfold haggleReturn
  dsimp only
  split
  · have hserve : (Request.perform (.spawnItem (.inventory customer)
        ⟨"ale", "a mug of ale", ["ale", "mug"]⟩) : Request setting).Tame s.world actor := trivial
    refine Program.ensures_run_bind (Program.ensures_request ((Rules.reply_tame hserve).mono ?_))
    rintro result t ⟨-, ht⟩
    have he' := he.tamely hJ ht
    cases result with
    | ok _ => exact ensures_emit_bind hJ he' fun _ => ensures_keepWaiting
    | error _ => exact ensures_keepWaiting he'
  · exact ensures_emit_bind hJ he fun _ => ensures_keepWaiting

/-- The customer's answer is brought to the chat, where the innkeeper waits for more. -/
theorem ensures_answer (hg : Governed rules keeper) (hJ : World.Durable J) {data : Value}
    (he : Episode J keeper actor now (chat h customer none) none s) :
    (rules.deliver depth count (.toParent h data)).Ensures
      (fun _ t => ∃ pending, Waits now pending ∧
        Episode J keeper actor now (chat h customer (some pending)) none t) s := by
  cases count with
  | zero => exact Run.ensures_breakOff _ _
  | succ count =>
    have hidle : s.forest.isBusy h = false := by
      rw [Forest.isBusy, he.shows.get_chat]
      rfl
    -- The chat is not busy, so that the answer is heard at once.
    refine Run.ensures_get_bind ?_
    rw [hidle]
    refine Run.ensures_bind ((ensures_callback (R := fun _ scene' => ∃ pending, Waits now pending ∧
      scene' = chat h customer (some pending)) he Scene.talk?_chat fun t ht => ?_).mono ?_)
    · rw [hg.behaviour]
      refine Program.ensures_run_bind (Program.ensures_run_bind
        ((ensures_haggleReturn hJ ht).mono ?_))
      rintro _ u ⟨pending, hwaits, hu⟩
      refine Program.ensures_run_pure (Program.ensures_run_pure ?_)
      exact ⟨rfl, _, ⟨pending, hwaits, rfl⟩, fun _ => Scene.eq_of_talk? Scene.talk?_chat, hu⟩
    · rintro _ u ⟨_, _, rfl, ⟨pending, hwaits, rfl⟩, hu⟩
      exact ensures_handOn hu.shows h ⟨pending, hwaits, hu⟩

theorem ensures_finish_question (hg : Governed rules keeper) (hJ : World.Durable J) {data : Value}
    (he : Episode J keeper actor now (asking h q customer) (some q) s) :
    (rules.reply depth (rules.deliver depth count) (.finish q data)).Ensures
      (fun _ t => ∃ pending, Waits now pending ∧
        Episode J keeper actor now (chat h customer (some pending)) (some q) t) s := by
  have hgone (slot : Option Slot) : q ∉ (chat h customer slot).ids := by
    simpa [Scene.ids] using he.shows.apart.2
  refine Run.ensures_get_bind ?_
  rw [he.shows.get_question]
  refine Run.ensures_gets_bind (f := fun below => _) (Run.ensures_bind (Run.ensures_update
    (Run.ensures_bind (Run.ensures_note (Run.ensures_bind ?_)))))
  -- Nothing is busy any more, for the question is gone.
  have hback := (Scene.Shows.gone_iff (hgone none)).1 he.shows.answer
  refine (ensures_answer hg hJ (he.regroups hJ hback (.closeAll s q))).mono ?_
  rintro _ t ⟨pending, hwaits, ht⟩
  exact Run.ensures_pure ⟨pending, hwaits,
    ht.becomes ((Scene.Shows.gone_iff (hgone _)).2 ht.shows) rfl rfl⟩

/-- The innkeeper stops waiting, and the customer is asked. -/
theorem ensures_startChild (hJ : World.Durable J)
    (he : Episode J keeper actor now (chat h customer none) (some h) s) :
    (rules.reply depth deliver (.startChild h [customer] .confirm)).Ensures
      (fun result t => ∃ q, result = .ok q ∧
        Episode J keeper actor now (asking h q customer) (some h) t) s := by
  obtain ⟨q, t, hstart, ht⟩ := he.shows.startChild
  have hregroups := State.Regroups.startChild s h [customer] (.confirm : setting.Talk)
  rw [hstart] at hregroups
  refine Run.ensures_get_bind ?_
  rw [hstart]
  exact Run.ensures_bind (Run.ensures_set (Run.ensures_pure
    ⟨q, rfl, he.regroups hJ ht hregroups⟩))

/-- A customer who types something is answered in one way or another; to take leave is to leave. -/
theorem ensures_haggleInput (hg : Governed rules keeper) (hJ : World.Durable J)
    (he : Episode J keeper actor now (chat h customer slot) (some h) s) (command : Command) :
    ((haggleInput lodging customer keeper h customer command).run
      (rules.reply depth (rules.deliver depth count))).Ensures
      (fun outcome t => Concludes J keeper actor now h (.haggle customer keeper)
        (Haggled customer now command outcome) t) s := by
  -- After most words the innkeeper waits again.
  have hwait {t : State setting} (ht : Episode J keeper actor now (chat h customer slot)
      (some h) t) (outcome : CommandOutcome) (hword : command.word ≠ "bye") :
      ((do keepWaiting h customer; pure outcome : Program setting CommandOutcome).run
        (rules.reply depth (rules.deliver depth count))).Ensures
        (fun outcome t => Concludes J keeper actor now h (.haggle customer keeper)
          (Haggled customer now command outcome) t) t := by
    refine Program.ensures_run_bind ((ensures_keepWaiting ht).mono ?_)
    rintro _ u ⟨pending, hwaits, hu⟩
    exact Program.ensures_run_pure ⟨chat h customer (some pending),
      ⟨⟨rfl, pending, rfl, hwaits⟩, fun hbye => absurd hbye hword⟩,
      fun _ => Scene.eq_of_talk? Scene.talk?_chat, hu⟩
  unfold haggleInput
  rw [if_neg (not_not_intro rfl)]
  split
  · rename_i hword
    refine ensures_emit_bind hJ he fun t ht => hwait ht _ ?_
    rw [hword]
    decide
  · split
    · rename_i hword
      refine Program.ensures_run_bind (Program.ensures_run_bind (p := Program.cancel h)
        (Program.ensures_request (Run.ensures_get_bind (Run.ensures_bind (Run.ensures_update
          (Run.ensures_pure (Program.ensures_run_pure ?_)))))))
      have hidle := he.becomes he.shows.cancel rfl rfl
      refine Program.ensures_run_bind (Program.ensures_request
        ((ensures_startChild hJ hidle).mono ?_))
      rintro _ t ⟨q, rfl, ht⟩
      refine ensures_emit_bind hJ ht fun u hu => Program.ensures_run_pure ?_
      refine ⟨asking h q customer, ⟨⟨rfl, trivial⟩, fun hbye => ?_⟩,
        fun _ => Scene.eq_of_talk? (Scene.talk?_asking ht.shows.apart.2), hu⟩
      rw [hword] at hbye
      exact absurd hbye (by decide)
    · split
      · refine ensures_tame_bind hJ he ⟨trivial, fun _ _ _ => trivial⟩ fun w t ht => ?_
        refine ensures_emit_bind hJ ht fun u hu => ?_
        refine Program.ensures_run_bind (Program.ensures_run_bind (p := Program.finish h .nil)
          (Program.ensures_request ((ensures_finish_chat hg hJ hu).mono ?_)))
        intro _ v hv
        refine Program.ensures_run_pure (Program.ensures_run_pure ?_)
        exact ⟨quiet, ⟨⟨trivial, trivial⟩, fun _ => ⟨rfl, rfl⟩⟩, by rintro _ ⟨⟩, hv⟩
      · rename_i hword
        exact hwait he _ hword

theorem ensures_confirmInput (hg : Governed rules keeper) (hJ : World.Durable J)
    (he : Episode J keeper customer now (asking h q customer) (some q) s) (command : Command) :
    ((confirmInput q customer command).run
      (rules.reply depth (rules.deliver depth count))).Ensures
      (fun _ t => Concludes J keeper customer now q .confirm (Served customer now) t) s := by
  -- Yes or no, the customer is back in the chat.
  have hfinish (data : Value) : ((do
      discard <| Program.finish q data
      pure .handled : Program setting CommandOutcome).run
        (rules.reply depth (rules.deliver depth count))).Ensures
        (fun _ t => Concludes J keeper customer now q .confirm (Served customer now) t) s := by
    refine Program.ensures_run_bind (Program.ensures_run_bind (p := Program.finish q data)
      (Program.ensures_request ((ensures_finish_question hg hJ he).mono ?_)))
    rintro _ t ⟨pending, hwaits, ht⟩
    refine Program.ensures_run_pure (Program.ensures_run_pure ?_)
    refine ⟨chat h customer (some pending), ⟨rfl, pending, rfl, hwaits⟩, fun left hleft => ?_, ht⟩
    rw [Scene.talk?, if_neg (Ne.symm he.shows.apart.2)] at hleft
    cases hleft
  unfold confirmInput
  split
  · exact hfinish _
  · split
    · exact hfinish _
    · refine ensures_emit_bind hJ he fun t ht => Program.ensures_run_pure ?_
      exact ⟨asking h q customer, ⟨rfl, trivial⟩,
        fun _ => Scene.eq_of_talk? Scene.talk?_question, ht⟩

end Programs

section Lines

variable {depth : Nat} {command : Command}

/-- The innkeeper's own lines are left to others. -/
theorem ensures_offer_keeper (hg : Governed rules keeper)
    (he : Episode J keeper keeper now scene none s) (hne : customer ≠ keeper)
    (htalk : scene.talk? keeper h = some (.haggle customer keeper)) :
    (rules.offer depth h keeper command).Ensures
      (fun _ t => Episode J keeper keeper now scene none t) s := by
  refine Run.ensures_bind ((ensures_withTalk (R := fun _ scene' => scene' = scene) he htalk
    fun t ht => ?_).mono ?_)
  · have hleft : (haggleInput lodging customer keeper h keeper command : Program setting _) =
        pure .notHandled := by
      rw [haggleInput, if_pos (Ne.symm hne)]
    rw [hg.behaviour]
    change ((haggleInput lodging customer keeper h keeper command >>= _).run _).Ensures _ t
    rw [hleft]
    refine Program.ensures_run_bind (Program.ensures_run_pure (Program.ensures_run_pure ?_))
    exact ⟨rfl, scene, rfl, fun _ => Scene.eq_of_talk? htalk, ht⟩
  · rintro _ t ⟨outcome, _, -, rfl, ht⟩
    exact Run.ensures_pure ht

theorem ensures_offer_chat (hg : Governed rules keeper) (hJ : World.Durable J)
    (he : Episode J keeper actor now (chat h customer slot) none s) :
    (rules.offer depth h customer command).Ensures
      (fun outcome t => ∃ scene', Haggled customer now command outcome scene' ∧
        Episode J keeper actor now scene' none t) s := by
  refine Run.ensures_bind ((ensures_withTalk (R := Haggled customer now command) he Scene.talk?_chat
    fun t ht => ?_).mono ?_)
  · rw [hg.behaviour]
    refine Program.ensures_run_bind ((ensures_haggleInput hg hJ ht command).mono ?_)
    intro outcome u hu
    exact Program.ensures_run_pure ⟨rfl, hu⟩
  · rintro _ t ⟨outcome, scene', rfl, hhaggled, ht⟩
    exact Run.ensures_pure ⟨scene', hhaggled, ht⟩

theorem ensures_offer_asking (hg : Governed rules keeper) (hJ : World.Durable J)
    (he : Episode J keeper customer now (asking h q customer) none s) :
    (rules.offer depth q customer command).Ensures
      (fun _ t => ∃ scene', Served customer now scene' ∧
        Episode J keeper customer now scene' none t) s := by
  refine Run.ensures_bind ((ensures_withTalk (R := fun _ => Served customer now) he
    Scene.talk?_question fun t ht => ?_).mono ?_)
  · rw [hg.behaviour]
    refine Program.ensures_run_bind ((ensures_confirmInput hg hJ ht command).mono ?_)
    intro outcome u hu
    exact Program.ensures_run_pure ⟨rfl, hu⟩
  · rintro _ t ⟨outcome, scene', rfl, hserved, ht⟩
    exact Run.ensures_pure ⟨scene', hserved, ht⟩

/-- What comes of a line that is offered to the actor's conversation. -/
theorem ensures_offer (hg : Governed rules keeper) (hJ : World.Durable J)
    (he : Episode J keeper actor now scene none s) {id : ConversationId}
    (hid : scene.partner? keeper actor = some id) :
    (rules.offer depth id actor command).Ensures
      (fun _ t => ∃ scene', scene.Turns actor now scene' ∧
        Episode J keeper actor now scene' none t) s := by
  cases scene with
  | quiet => cases hid
  | chat h customer slot =>
    rw [Scene.partner?] at hid
    split at hid
    · rename_i hwho
      cases hid
      by_cases hactor : actor = customer
      · subst hactor
        refine (ensures_offer_chat hg hJ he).mono ?_
        rintro _ t ⟨scene', hhaggled, ht⟩
        exact ⟨scene', .inr ⟨rfl, hhaggled.1⟩, ht⟩
      · obtain rfl := hwho.resolve_left hactor
        exact (ensures_offer_keeper hg he (Ne.symm hactor) Scene.talk?_chat).mono fun _ t ht =>
          ⟨_, .inl rfl, ht⟩
    · cases hid
  | asking h q customer =>
    have hqh := he.shows.apart.2
    rw [Scene.partner?] at hid
    split at hid
    · rename_i hactor
      cases hid
      subst hactor
      refine (ensures_offer_asking hg hJ he).mono ?_
      rintro _ t ⟨scene', hserved, ht⟩
      exact ⟨scene', .inr ⟨rfl, hserved⟩, ht⟩
    · rename_i hactor
      split at hid
      · rename_i hkeeper
        cases hid
        subst hkeeper
        exact (ensures_offer_keeper hg he (Ne.symm hactor) (Scene.talk?_asking hqh)).mono
          fun _ t ht => ⟨_, .inl rfl, ht⟩
      · cases hid

theorem ensures_start (hJ : World.Durable J)
    (he : Episode J keeper actor now scene none s) (hne : customer ≠ keeper)
    {deliver : Delivery setting → Run setting Unit} :
    (rules.reply depth deliver (.start [customer, keeper] (lodging.talk (.haggle customer keeper))
      (some (lodging.ending (.farewell customer))))).Ensures
      (fun result t => (∃ e, result = .error e ∧ Episode J keeper actor now scene none t) ∨
        ∃ h, scene = quiet ∧ result = .ok h ∧
          Episode J keeper actor now (chat h customer none) none t) s := by
  have hregroups := State.Regroups.start s [customer, keeper]
    (.haggle customer keeper : setting.Talk) (some (.farewell customer : setting.Ending))
  refine Run.ensures_get_bind ?_
  change Run.Ensures (match s.start [customer, keeper] (.haggle customer keeper)
    (some (.farewell customer)) with | (result, t) => do set t; pure result) _ s
  rcases he.shows.start hne with ⟨e, hstart⟩ | ⟨h, t, hquiet, hstart, ht⟩
  · rw [hstart]
    exact Run.ensures_bind (Run.ensures_set (Run.ensures_pure (.inl ⟨e, rfl, he⟩)))
  · rw [hstart] at hregroups ⊢
    exact Run.ensures_bind (Run.ensures_set (Run.ensures_pure
      (.inr ⟨h, hquiet, rfl, he.regroups hJ ht hregroups⟩)))

/-- The innkeeper serves whoever comes first. -/
theorem ensures_talkToKeeper (hJ : World.Durable J) {inv : Invocation}
    (he : Episode J keeper inv.actor now scene none s) (hne : inv.actor ≠ keeper) :
    (rules.execute depth (talkToKeeper lodging keeper inv)).Ensures
      (fun _ t => ∃ scene', scene.Turns inv.actor now scene' ∧
        Episode J keeper inv.actor now scene' none t) s := by
  unfold talkToKeeper
  split
  · exact Program.ensures_run_pure ⟨scene, .inl rfl, he⟩
  · refine Program.ensures_run_bind (Program.ensures_request
      ((ensures_start hJ he hne).mono ?_))
    rintro _ t (⟨e, rfl, ht⟩ | ⟨h, rfl, rfl, ht⟩)
    · -- Somebody else is being served.
      exact ensures_emit_bind hJ ht fun u hu => Program.ensures_run_pure ⟨scene, .inl rfl, hu⟩
    · refine ensures_emit_bind hJ ht fun u hu => ?_
      refine Program.ensures_run_bind ((ensures_keepWaiting hu).mono ?_)
      rintro _ v ⟨pending, hwaits, hv⟩
      exact Program.ensures_run_pure ⟨chat h inv.actor (some pending),
        .inr ⟨trivial, rfl, pending, rfl, hwaits⟩, hv⟩

theorem tame_pray (inv : Invocation) (w : World) :
    (pray inv : Program setting CommandOutcome).Tame inv.actor w := by
  rw [pray, Program.tame_emit_bind, Program.tame_world_bind]
  exact (StandardCommands.tame_tellOthers _ _ _ w).bind fun _ _ => Program.tame_pure _

/-- Whatever the actor's line makes a registry do. -/
theorem ensures_handle (hg : Governed rules keeper) (hJ : World.Durable J) {level : Responder}
    {registry : Registry (Handler setting)} (origin : Origin)
    (hlevel : rules.registry? level = some registry) (hown : level ≠ .character actor)
    (he : Episode J keeper actor now scene none s) :
    (rules.handle depth registry actor command origin).Ensures
      (fun _ t => ∃ scene', scene.Turns actor now scene' ∧
        Episode J keeper actor now scene' none t) s := by
  refine Rules.ensures_handle ⟨scene, .inl rfl, he⟩
    (fun text => ⟨scene, .inl rfl, he.tamely hJ (.emit s actor text)⟩) ?_
  rintro d c inv hd hc hadmin rfl hargs
  have htamely (htame : (d.run inv).Tame inv.actor s.world) :
      (rules.execute depth (d.run inv)).Ensures
        (fun _ t => ∃ scene', scene.Turns inv.actor now scene' ∧
          Episode J keeper inv.actor now scene' none t) s :=
    (Rules.run_tamely htame).mono fun _ t ht => ⟨scene, .inl rfl, he.tamely hJ ht⟩
  rcases hg.command hlevel hd with hstandard | hpray | ⟨rfl, htalk⟩
  · exact htamely (StandardCommands.tame_of_mem_standard hstandard (hJ.signposted he.world) hc
      hadmin hargs)
  · rw [hpray] at htamely ⊢
    exact htamely (tame_pray inv s.world)
  · -- Nobody is asked for commands of its own, so the innkeeper is not talking to itself.
    have hne : inv.actor ≠ keeper := by
      rintro rfl
      exact hown rfl
    rw [htalk]
    exact ensures_talkToKeeper hJ he hne

/-- The state of things while an actor has its say that began in some scene. -/
def Underway (J : World → Prop) (keeper actor : CharacterId) (now : Duration) (scene : Scene)
    (s : State setting) : Prop :=
  ∃ scene', scene.Turns actor now scene' ∧ Episode J keeper actor now scene' none s

theorem lineParts (hg : Governed rules keeper) (hJ : World.Durable J) :
    LineParts rules depth actor command (Run.Keeps (Underway J keeper actor now scene)) where
  toCompositional := Run.keeps_compositional _
  offered _ := Run.keeps_reach _
  answered _ _ := Run.keeps_reach _
  told text := by
    rintro s ⟨scene', hturns, hs⟩
    exact Run.ensures_update ⟨scene', hturns, hs.tamely hJ (.emit s actor text)⟩
  conversation := by
    rintro s ⟨scene', hturns, hs⟩
    refine Run.ensures_get_bind ?_
    rw [hs.shows.activeConversation]
    split
    · exact Run.ensures_pure ⟨scene', hturns, hs⟩
    · rename_i id hid
      refine Rules.ensures_ask ((ensures_offer hg hJ hs hid).mono ?_)
      rintro _ t ⟨scene'', hmore, ht⟩
      exact ⟨scene'', hturns.trans hmore, ht⟩
  handle origin hlevel hown := by
    rintro s ⟨scene', hturns, hs⟩
    refine (ensures_handle hg hJ origin hlevel hown hs).mono ?_
    rintro _ t ⟨scene'', hmore, ht⟩
    exact ⟨scene'', hturns.trans hmore, ht⟩

theorem keeps_dispatchLine (hg : Governed rules keeper) (hJ : World.Durable J) (line : String) :
    (rules.dispatchLine depth actor line).Keeps (Underway J keeper actor now scene) := by
  have h := Run.keeps_compositional (Underway J keeper actor now scene)
  exact h.bind (Run.keeps_reach _) fun _ => h.bind (lineParts hg hJ).respond fun outcome =>
    h.bind (Run.keeps_reach _) fun _ => h.pure outcome

end Lines

end Village

end TextWorld

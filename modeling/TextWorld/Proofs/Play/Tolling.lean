import TextWorld.Proofs.Play.Promptness

/-!
A tick in the village. Once the clock has been advanced nothing can break off any more, and the bell
is heard as often as minutes are over, by everyone who is in one of its rooms just then.
-/

namespace TextWorld

namespace Village

open Scene (chat asking quiet)

def tollText : String := "The temple bell tolls."

/-- The bell has been left alone, nobody has heard it, and nothing has been queued. -/
structure Hushed (s t : State setting) : Prop where
  memory : t.memory = s.memory
  followUps : t.followUps.toList = s.followUps.toList
  told : ∃ told, t.mailbox.toList = s.mailbox.toList ++ told ∧ ∀ m ∈ told, m.text ≠ tollText

variable {J : World → Prop} {rules : Rules setting} {keeper actor customer : CharacterId}
variable {now : Duration} {scene : Scene} {h : ConversationId} {slot : Option Slot}
variable {s t u : State setting} {α : Type} {m : Run setting α}

namespace Hushed

theorem of_eq (hmemory : t.memory = s.memory) (hqueue : t.followUps.toList = s.followUps.toList)
    (hmailbox : t.mailbox = s.mailbox) : Hushed s t :=
  ⟨hmemory, hqueue, [], by rw [hmailbox, List.append_nil], by rintro _ ⟨⟩⟩

theorem refl (s : State setting) : Hushed s s := of_eq rfl rfl rfl

theorem trans (h : Hushed s t) (h' : Hushed t u) : Hushed s u := by
  obtain ⟨hmemory, hqueue, told, hmail, htold⟩ := h
  obtain ⟨hmemory', hqueue', more, hmore, hsaid⟩ := h'
  refine ⟨hmemory'.trans hmemory, hqueue'.trans hqueue, told ++ more, ?_, fun m hm => ?_⟩
  · rw [hmore, hmail, List.append_assoc]
  · exact (List.mem_append.1 hm).elim (htold m) (hsaid m)

theorem emit (s : State setting) (recipient : CharacterId) {text : String}
    (htext : text ≠ tollText) : Hushed s (s.emit recipient text) := by
  refine ⟨rfl, rfl, [⟨recipient, text⟩], Mailbox.toList_emit _ _ _, fun m hm => ?_⟩
  rw [List.mem_singleton.1 hm]
  exact htext

theorem closeAll (s : State setting) (id : ConversationId) : Hushed s (s.closeAll id) := by
  refine State.closeAll_keeps (P := fun t => Hushed s t) (fun t x _ ht => ht.trans ?_) (.refl s)
  rw [State.close]
  split
  · exact .refl t
  · exact .of_eq rfl rfl rfl

end Hushed

/-- The run comes to its end, so that this holds. -/
abbrev Completes (m : Run setting α) (Q : α → State setting → Prop) (s : State setting) : Prop :=
  m.Secures (fun _ => False) Q s

/-- Where nothing is queued nothing is done. -/
theorem completes_drain (hidle : s.followUps.toList = []) :
    Completes rules.drain
      (fun _ t => ∃ queue, t = { s with followUps := queue } ∧ queue.toList = []) s := by
  unfold Rules.drain
  cases rules.config.maxFollowUpDepth with
  | zero => exact Run.secures_update ⟨.empty, rfl, rfl⟩
  | succ generations =>
    refine Run.secures_get_bind ?_
    dsimp only
    rw [if_pos (Queue.isEmpty_iff.2 hidle)]
    exact Run.secures_pure ⟨s.followUps, rfl, hidle⟩

section Leaving

variable {depth count : Nat}

/-- No word of the customer is the sound of the bell. -/
theorem nod_ne_toll (name : String) : "You nod to " ++ name ++ "." ≠ tollText := by
  intro heq
  have hchars := congrArg (fun text => text.toList.head?) heq
  simp [tollText] at hchars

theorem completes_farewell (hg : Governed rules keeper) (data : Value) :
    Completes (rules.deliver depth (count + 1) (.toEnding h (.farewell customer) data))
      (fun _ t => Hushed s t) s := by
  refine Run.secures_bind (Run.secures_note ?_)
  rw [hg.behaviour]
  refine Program.secures_request (Run.secures_update ?_)
  exact .emit s customer (by decide)

theorem completes_finish (hg : Governed rules keeper) (hdeliveries : rules.maxDeliveries ≠ 0)
    {busy : Option ConversationId} (hs : (chat h customer slot).Shows keeper busy s)
    (data : Value) :
    Completes (rules.reply depth (rules.deliver depth rules.maxDeliveries) (.finish h data))
      (fun _ t => Hushed s t) s := by
  obtain ⟨count, hcount⟩ := Nat.exists_eq_succ_of_ne_zero hdeliveries
  refine Run.secures_get_bind ?_
  rw [hs.get_chat, hcount]
  refine Run.secures_gets_bind (f := fun below => _) (Run.secures_bind (Run.secures_update
    (Run.secures_bind (Run.secures_note (Run.secures_bind ?_)))))
  exact (completes_farewell hg data).mono fun _ t ht =>
    Run.secures_pure ((Hushed.closeAll s h).trans ht)

/-- A customer who takes leave nods to the innkeeper, who turns away. -/
theorem completes_bye_input (hg : Governed rules keeper) (hdeliveries : rules.maxDeliveries ≠ 0)
    {busy : Option ConversationId} (hs : (chat h customer slot).Shows keeper busy s)
    {command : Command} (hword : command.word = "bye") :
    Completes ((haggleInput lodging customer keeper h customer command).run
      (rules.reply depth (rules.deliver depth rules.maxDeliveries)))
      (fun _ t => Hushed s t) s := by
  have hother (word : String) (hne : "bye" ≠ word) : ¬command.word = word := by
    rw [hword]
    exact hne
  unfold haggleInput
  rw [if_neg (not_not_intro rfl), if_neg (hother "menu" (by decide)),
    if_neg (hother "buy" (by decide)), if_pos hword]
  refine Program.secures_run_bind (Program.secures_request (Run.secures_gets_bind (f := pure)
    (Run.secures_pure ?_)))
  refine Program.secures_run_bind (Program.secures_request (Run.secures_update ?_))
  have hnod := Hushed.emit s customer (nod_ne_toll (s.world.characterName keeper))
  have hshows := hs.congr (t := s.emit customer ("You nod to " ++ s.world.characterName keeper ++
    ".")) rfl fun _ => rfl
  refine Program.secures_run_bind (Program.secures_run_bind (p := Program.finish h .nil)
    (Program.secures_request ((completes_finish hg hdeliveries hshows .nil).mono ?_)))
  exact fun _ t ht => Run.secures_pure (Run.secures_pure (hnod.trans ht))

end Leaving

/-- A callback that is brief about the bell is so with what is done around it. -/
theorem completes_withTalk {depth : Nat} {id : ConversationId} {occasion : Occasion}
    {body : setting.Talk → Program setting (α × setting.Talk)} {talk : Talk}
    {R : α → Scene → Prop} (he : Episode J keeper actor now scene none s)
    (htalk : scene.talk? keeper id = some talk)
    (hbody : ∀ t, Episode J keeper actor now scene (some id) t →
      ((body talk).run (rules.reply depth (rules.deliver depth rules.maxDeliveries))).Ensures
        (fun r t => r.2 = talk ∧ Concludes J keeper actor now id talk (R r.1) t) t)
    (hhush : Completes ((body talk).run
      (rules.reply depth (rules.deliver depth rules.maxDeliveries)))
      (fun _ t => Hushed (s.setTalk id none) t) (s.setTalk id none)) :
    Completes (rules.withTalk depth id occasion body) (fun _ t => Hushed s t) s := by
  have hcallback : Completes (rules.callback depth (rules.deliver depth rules.maxDeliveries) id
      occasion body) (fun _ t => Hushed s t) s := by
    refine Run.secures_get_bind ?_
    rw [he.shows.talk, htalk]
    refine Run.secures_bind (Run.secures_update (Run.secures_bind (Run.secures_note
      (Run.secures_bind (hhush.mono fun _ t ht => ?_)))))
    exact Run.secures_bind (Run.secures_update (Run.secures_bind (Run.secures_note
      (Run.secures_pure ⟨ht.memory, ht.followUps, ht.told⟩))))
  refine Run.secures_bind ((hcallback.and (ensures_callback he htalk hbody)).mono ?_)
  rintro _ t ⟨ht, _, scene', rfl, -, he'⟩
  refine Run.secures_bind (Run.secures_get_bind ?_)
  rw [he'.shows.takeHandedBack]
  exact Run.secures_pure (Run.secures_pure ht)

/-- The customer takes leave, and nothing else happens. -/
theorem completes_bye (hg : Governed rules keeper) (hJ : World.Durable J)
    (hdeliveries : rules.maxDeliveries ≠ 0) (hs : Calm J keeper now (chat h customer slot) s) :
    Completes (rules.dispatch customer "bye") (fun _ t => Hushed s t) s := by
  have he := calm_iff.1 hs customer
  have hpartner : Scene.partner? keeper (chat h customer slot) customer = some h :=
    if_pos (.inl rfl)
  have hblank : (Command.ofLine "bye").isBlank = false := by decide
  have hword : (Command.ofLine "bye").word = "bye" := by decide
  have hoffer : Completes (rules.offer 0 h customer (.ofLine "bye"))
      (fun _ t => Hushed s t) s := by
    refine Run.secures_bind ((completes_withTalk (R := Haggled customer now (.ofLine "bye")) he
      Scene.talk?_chat (fun t ht => ?_) ?_).mono fun _ _ ht => Run.secures_pure ht)
    · rw [hg.behaviour]
      refine Program.ensures_run_bind ((ensures_haggleInput hg hJ ht _).mono ?_)
      exact fun outcome u hu => Program.ensures_run_pure ⟨rfl, hu⟩
    · rw [hg.behaviour]
      refine Program.secures_run_bind ((completes_bye_input hg hdeliveries
        (he.shows.take h) hword).mono ?_)
      exact fun outcome u hu => Run.secures_pure hu
  have hline : Completes (rules.dispatchLine 0 customer "bye") (fun _ t => Hushed s t) s := by
    refine Run.secures_bind (Run.secures_reach (Run.secures_bind ?_))
    unfold Rules.respond
    rw [hblank]
    refine Run.secures_bind (Run.secures_bind (Run.secures_get_bind ?_))
    rw [hs.shows.activeConversation, hpartner]
    refine Run.secures_bind (Run.secures_reach (Run.secures_bind ?_))
    -- The innkeeper takes the line, so nobody else is asked.
    refine (hoffer.and (ensures_offer_chat hg hJ he)).mono ?_
    rintro outcome t ⟨ht, _, ⟨-, hbye⟩, -⟩
    obtain ⟨rfl, -⟩ := hbye hword
    exact Run.secures_bind (Run.secures_reach (Run.secures_pure (Run.secures_pure
      (Run.secures_pure (Run.secures_bind (Run.secures_reach (Run.secures_pure ht)))))))
  refine Run.secures_bind (hline.mono fun outcome t ht => Run.secures_bind ?_)
  have hidle : t.followUps.toList = [] := by rw [ht.followUps, hs.followUps]
  refine (completes_drain hidle).mono ?_
  rintro _ _ ⟨queue, rfl, hqueue⟩
  exact Run.secures_pure ⟨ht.memory, hqueue.trans hs.followUps.symm, ht.told⟩

/-! The parts of a tick. -/

/-- The customer whose time has come takes leave, and nothing else comes due. -/
theorem completes_fireDue (hg : Governed rules keeper) (hJ : World.Durable J)
    (hdeliveries : rules.maxDeliveries ≠ 0) (hs : Calm J keeper now scene s) :
    Completes (rules.fireDue s.forest.scheduler.lastSequence s.forest.scheduler.size)
      (fun _ t => Hushed s t) s := by
  have hnone {through : Nat} (count : Nat) {t : State setting} (ht : Hushed s t)
      (hpop : t.forest.scheduler.popNext t.world.now through = none) :
      Completes (rules.fireDue through count) (fun _ u => Hushed s u) t := by
    cases count with
    | zero => exact Run.secures_pure ht
    | succ count =>
      refine Run.secures_bind (Run.secures_get_bind ?_)
      rw [hpop]
      exact Run.secures_pure (Run.secures_pure ht)
  cases hpop : s.forest.scheduler.popNext s.world.now s.forest.scheduler.lastSequence with
  | none => exact hnone _ (.refl s) hpop
  | some taken =>
    obtain ⟨h, customer, slot, rfl, -, hline, hfired⟩ := hs.shows.fire hpop
    have hqueued := hs.shows.queued slot
    rw [Scene.queued?, if_pos rfl] at hqueued
    obtain ⟨count, hsize⟩ : ∃ count, s.forest.scheduler.size = count + 1 :=
      Table.exists_size hqueued
    rw [hsize]
    refine Run.secures_bind (Run.secures_get_bind ?_)
    rw [hpop]
    refine Run.secures_bind (Run.secures_reach (Run.secures_bind (Run.secures_set
      (Run.secures_pure ?_))))
    have hcalm : Calm J keeper now (chat h customer none)
        { s with forest.scheduler := taken.2 } := ⟨hfired, hs.world, hs.time, hs.followUps⟩
    rw [hline]
    refine Run.secures_bind (Run.secures_discard
      (((completes_bye hg hJ hdeliveries hcalm).and (ensures_bye hg hJ hcalm)).mono ?_))
    rintro _ t ⟨ht, hquiet⟩
    have hhush : Hushed s t := ⟨ht.memory, ht.followUps, ht.told⟩
    exact hnone count hhush (popNext_eq_none hquiet _ (by rintro _ _ _ ⟨⟩))

theorem completes_turn (hg : Governed rules keeper) (hs : Calm J keeper now scene s)
    (id : ConversationId) :
    Completes (rules.tickConversation id) (fun _ t => Hushed s t) s := by
  refine Run.secures_bind (Run.secures_reach (Run.secures_discard ?_))
  cases htalk : scene.talk? keeper id with
  | none =>
    refine Run.secures_bind (Run.secures_get_bind ?_)
    rw [hs.shows.talk, htalk]
    exact Run.secures_pure (Run.secures_pure (.refl s))
  | some talk =>
    refine completes_withTalk (R := fun _ scene' => scene' = scene) (calm_iff.1 hs keeper) htalk
      (fun t ht => ?_) ?_
    · rw [hg.behaviour]
      refine Program.ensures_run_bind (Program.ensures_run_pure (Program.ensures_run_pure ?_))
      exact ⟨rfl, scene, rfl, fun _ => Scene.eq_of_talk? htalk, ht⟩
    · rw [hg.behaviour]
      exact Run.secures_pure (.refl _)

theorem completes_tickConversations (hg : Governed rules keeper)
    (hs : Calm J keeper now scene s) (ids : List ConversationId) :
    Completes (rules.tickConversations ids) (fun _ t => Hushed s t) s := by
  induction ids generalizing s with
  | nil => exact Run.secures_pure (.refl s)
  | cons id ids ih =>
    refine Run.secures_bind (((completes_turn hg hs id).and (ensures_turn hg hs id)).mono ?_)
    rintro _ t ⟨ht, hcalm⟩
    exact (ih hcalm).mono fun _ u hu => ht.trans hu

/-- What everybody hears when the bell tolls once. -/
def peal (w : World) (rooms : List RoomId) : List Message :=
  rooms.flatMap fun room => (w.attendance (.room room)).map (⟨·, tollText⟩)

/-- The bell is heard so many times, with this much time kept in the end. -/
structure Rung (rooms : List RoomId) (times : Nat) (kept : Duration) (s t : State setting) :
    Prop where
  world : t.world = s.world
  memory : t.memory = kept
  followUps : t.followUps = s.followUps
  mailbox : t.mailbox.toList =
    s.mailbox.toList ++ (List.replicate times (peal s.world rooms)).flatten

section Bell

variable {depth : Nat} {deliver : Delivery setting → Run setting Unit} {rooms : List RoomId}

theorem completes_add {a b sum : Duration} {Q : Duration → State setting → Prop}
    (hsum : a.add? b = some sum) (hQ : Q sum s) :
    Completes (rules.reply depth deliver (.add a b)) Q s := by
  rw [Rules.reply, hsum]
  exact Run.secures_pure hQ

theorem completes_toll (s : State setting) (rooms : List RoomId) :
    Completes ((toll rooms : Program setting Unit).run (rules.reply depth deliver))
      (fun _ t => Rung rooms 1 s.memory s t) s := by
  induction rooms generalizing s with
  | nil => exact Run.secures_pure ⟨rfl, rfl, rfl, by simp [peal]⟩
  | cons room rooms ih =>
    refine Program.secures_run_bind (p := Program.emitRoom room none tollText)
      (Program.secures_request (Run.secures_update ?_))
    have hmail := s.toList_emitRoom room none tollText
    have hall : ((s.world.attendance (.room room)).filter fun id => some id ≠ none) =
        s.world.attendance (.room room) := List.filter_eq_self.2 (by simp)
    rw [hall] at hmail
    obtain ⟨mailbox, hemit⟩ := s.emitRoom_eq room none tollText
    rw [hemit] at hmail ⊢
    refine (ih { s with mailbox }).mono fun _ t ht => ⟨ht.world, ht.memory, ht.followUps, ?_⟩
    rw [ht.mailbox]
    dsimp only at hmail ⊢
    rw [hmail]
    simp [peal]

/-- One round of the loop takes an interval off what is kept, and the bell is heard once; the loop
goes on from there. -/
theorem completes_round {Q : Unit → State setting → Prop} {memory : setting.Memory}
    {since : Duration} (hfull : bellInterval ≤ since)
    (hrest : ∀ t, Rung rooms 1 ⟨since.nanos - bellInterval.nanos⟩ s t →
      Completes ((ring lodging rooms memory ⟨since.nanos - bellInterval.nanos⟩).run
        (rules.reply depth deliver)) Q t) :
    Completes ((ring lodging rooms memory since).run (rules.reply depth deliver)) Q s := by
  rw [ring_of_full _ _ _ hfull]
  refine Program.secures_run_bind (p := Program.setMemory _)
    (Program.secures_request (Run.secures_update ?_))
  refine Program.secures_run_bind ((completes_toll _ rooms).mono fun _ t ht => hrest t ?_)
  exact ⟨ht.world, ht.memory, ht.followUps, ht.mailbox⟩

/-- The loop leaves the remainder, and the bell is heard as often as the interval fits in. -/
theorem completes_ring (memory : setting.Memory) {since : Duration} (s : State setting)
    (hs : s.memory = since) :
    Completes ((ring lodging rooms memory since).run (rules.reply depth deliver))
      (fun _ t => Rung rooms (since.nanos / bellInterval.nanos)
        ⟨since.nanos % bellInterval.nanos⟩ s t) s := by
  induction since using ring.induct generalizing s with
  | case1 since hfull left ih =>
    apply completes_round hfull
    intro t ht
    refine (ih t ht.memory).mono fun _ u hu => ?_
    have hnanos : bellInterval.nanos ≤ since.nanos := hfull
    have htimes : since.nanos / bellInterval.nanos = left.nanos / bellInterval.nanos + 1 :=
      Nat.div_eq_sub_div bellInterval_pos hnanos
    have hkept : since.nanos % bellInterval.nanos = left.nanos % bellInterval.nanos :=
      Nat.mod_eq_sub_mod hnanos
    rw [htimes, hkept]
    refine ⟨hu.world.trans ht.world, hu.memory, hu.followUps.trans ht.followUps, ?_⟩
    rw [hu.mailbox, ht.mailbox, ht.world, List.append_assoc, ← List.flatten_append,
      List.replicate_append_replicate, Nat.add_comm]
  | case2 since hshort =>
    have hless : since.nanos < bellInterval.nanos := Nat.lt_of_not_le hshort
    rw [ring_of_not_full _ _ _ hshort, Nat.div_eq_of_lt hless, Nat.mod_eq_of_lt hless]
    exact Run.secures_pure ⟨rfl, hs, rfl, by simp⟩

/-- If no sum is too long for a clock, the bell tolls once for each full minute and goes on from
what is left. -/
theorem completes_bell {s : State setting} {delta : Duration}
    (hfits : (s.memory.add? delta).isSome) (rooms : List RoomId) :
    Completes (rules.execute depth (bell lodging rooms delta)) (fun _ t =>
      Rung rooms ((s.memory.nanos + delta.nanos) / bellInterval.nanos)
        ⟨(s.memory.nanos + delta.nanos) % bellInterval.nanos⟩ s t) s := by
  obtain ⟨since, hsince⟩ := Option.isSome_iff_exists.1 hfits
  have hsum := (Duration.add?_eq_some.1 hsince).2
  refine Program.secures_run_bind (Program.secures_request (Run.secures_gets_bind (f := pure)
    (Run.secures_pure ?_)))
  refine Program.secures_run_bind (p := Program.add s.memory delta)
    (Program.secures_request (completes_add hsince ?_))
  refine Program.secures_run_bind (p := Program.setMemory _)
    (Program.secures_request (Run.secures_update ?_))
  refine (completes_ring s.memory { s with memory := since } rfl).mono fun _ t ht => ?_
  rw [hsum] at ht
  exact ⟨ht.world, ht.memory, ht.followUps, ht.mailbox⟩

end Bell

/-- What a tick does to the bell: everyone who is then in one of its rooms hears it once for each
full minute, after whatever else there was to hear. -/
structure Tolled (rooms : List RoomId) (delta : Duration) (s t : State setting) : Prop where
  memory : t.memory = ⟨(s.memory.nanos + delta.nanos) % bellInterval.nanos⟩
  mailbox : ∃ told, t.mailbox.toList = s.mailbox.toList ++ told ++
      (List.replicate ((s.memory.nanos + delta.nanos) / bellInterval.nanos)
        (peal t.world rooms)).flatten ∧
    ∀ m ∈ told, m.text ≠ tollText

theorem completes_hooks {rooms : List RoomId} (hhooks : rules.hooks = [bell lodging rooms])
    {s : State setting} {delta : Duration} (hfits : (s.memory.add? delta).isSome) :
    Completes (rules.runHooks delta rules.hooks) (fun _ t =>
      Rung rooms ((s.memory.nanos + delta.nanos) / bellInterval.nanos)
        ⟨(s.memory.nanos + delta.nanos) % bellInterval.nanos⟩ s t) s := by
  rw [hhooks]
  refine Run.secures_bind (Run.secures_reach (Run.secures_bind ?_))
  exact (completes_bell hfits rooms).mono fun _ t ht => Run.secures_pure ht

/-- A tick comes to its end if the clock can show the time after it, and the bell what it keeps. -/
theorem completes_tick (hg : Governed rules keeper) (hJ : World.Durable J)
    (hdeliveries : rules.maxDeliveries ≠ 0) {rooms : List RoomId}
    (hhooks : rules.hooks = [bell lodging rooms]) (hs : Resting J keeper now scene s)
    {delta : Duration} {w : World} (hadvance : s.world.advance delta = some w)
    (hfits : (s.memory.add? delta).isSome) :
    Completes (rules.tick delta) (fun _ t => Tolled rooms delta s t) s := by
  obtain ⟨now', hnow, rfl⟩ := Option.map_eq_some_iff.1 hadvance
  have hpassed : Calm J keeper now' scene { s with world := { s.world with now := now' } } :=
    ⟨hs.shows.congr rfl fun _ => rfl, hJ.advance hs.world hadvance, rfl, hs.followUps⟩
  refine Run.secures_bind (Run.secures_bind (Run.secures_reach (Run.secures_get_bind ?_)))
  rw [hadvance]
  refine Run.secures_update (Run.secures_gets_bind (f := fun scheduler => _) (Run.secures_bind ?_))
  refine ((completes_fireDue hg hJ hdeliveries hpassed).and
    (ensures_fireDue hg hJ hpassed)).mono ?_
  rintro _ t ⟨ht, hfired⟩
  refine Run.secures_gets_bind (f := fun active => _) (Run.secures_bind ?_)
  refine ((completes_tickConversations hg hfired _).and
    (ensures_tickConversations hg hfired _)).mono ?_
  rintro _ u ⟨hu, hturned⟩
  have hhush : Hushed s u := by
    obtain ⟨hmemory, hqueue, htold⟩ := ht.trans hu
    exact ⟨hmemory, hqueue, htold⟩
  have hkept : (u.memory.add? delta).isSome := by rw [hhush.memory]; exact hfits
  refine Run.secures_bind ((completes_hooks hhooks hkept).mono fun _ v hv => ?_)
  have hidle : v.followUps.toList = [] := by rw [hv.followUps]; exact hturned.followUps
  refine (completes_drain hidle).mono ?_
  rintro _ _ ⟨queue, rfl, -⟩
  obtain ⟨told, hmail, htold⟩ := hhush.told
  have hmemory := hv.memory
  have hmailbox := hv.mailbox
  rw [hhush.memory] at hmemory hmailbox
  refine ⟨hmemory, told, ?_, htold⟩
  dsimp only
  rw [hmailbox, hmail, hv.world]

end Village

end TextWorld

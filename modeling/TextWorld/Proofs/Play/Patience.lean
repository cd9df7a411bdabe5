import Mathlib.Data.List.Perm.Subperm
import TextWorld.Proofs.Play.Opening

/-!
The innkeeper never gets stuck. Whoever is in a chat with the innkeeper has either been asked a
question or will be made to take leave before long.
-/

namespace TextWorld

namespace Village

open Scene (chat asking quiet)

/-- A chat with the innkeeper is under way. -/
def Haggles (s : State setting) (h : ConversationId) : Prop :=
  ∃ c customer keeper, s.forest.get? h = some c ∧ c.talk = some (.haggle customer keeper)

/-- The chat is one of this customer with the innkeeper, who are both in it, and nobody else is. -/
structure Claims (s : State setting) (h : ConversationId) (customer keeper : CharacterId) :
    Prop where
  participants : ∃ c, s.forest.get? h = some c ∧ c.talk = some (.haggle customer keeper) ∧
    c.participants = [customer, keeper]
  different : customer ≠ keeper
  held : ∀ x, (s.world.character? x).bind (·.conversation) = some h ↔ x = customer ∨ x = keeper

/-- The customer alone is asked a question, and nothing is pending. -/
def Asked (s : State setting) (h : ConversationId) (customer : CharacterId) : Prop :=
  (∃ q c, s.forest.child? h = some q ∧ s.forest.get? q = some c ∧ c.parent = some h ∧
    c.talk = some .confirm ∧ c.participants = [customer]) ∧ s.forest.scheduler.queue.values = []

/-- Nothing is pending but that the customer takes leave, within half a minute from now. -/
def Awaited (s : State setting) (h : ConversationId) (customer : CharacterId) : Prop :=
  s.forest.child? h = none ∧ ∃ due, s.forest.scheduler.queue.values = [⟨h, customer, "bye", due⟩] ∧
    s.world.now < due ∧ due.nanos ≤ s.world.now.nanos + (Duration.ofSeconds 30).nanos

/-- The conversations at the inn are in order. -/
structure Orderly (keeper : CharacterId) (s : State setting) : Prop where
  few : s.forest.size ≤ 2
  idle : s.forest.size = 0 → s.forest.scheduler.queue.values = [] ∧
    ∀ x c, s.world.character? x = some c → c.conversation = none
  engaged : s.forest.size ≠ 0 → ∃ h customer, (∀ id, Haggles s id ↔ id = h) ∧
    Claims s h customer keeper ∧ Xor (Asked s h customer) (Awaited s h customer)

variable {J : World → Prop} {keeper customer : CharacterId} {now : Duration} {scene : Scene}
variable {s : State setting} {h q : ConversationId} {slot : Slot}

namespace Scene

theorem Shows.size_le (hs : scene.Shows keeper none s) : s.forest.size ≤ scene.ids.length := by
  have hsub : s.forest.table.keys ⊆ scene.ids := by
    intro id hid
    rw [Std.ExtTreeMap.mem_keys, Std.ExtTreeMap.mem_iff_isSome_getElem?] at hid
    have hget : (s.forest.get? id).isSome := hid
    rw [hs.conversation] at hget
    obtain ⟨c, hc⟩ := Option.isSome_iff_exists.1 hget
    exact (of_conversation? hc).1
  have hsize : s.forest.table.keys.length = s.forest.size := Std.ExtTreeMap.length_keys
  rw [← hsize]
  exact (List.subperm_of_subset Std.ExtTreeMap.nodup_keys hsub).length_le

/-- Nothing is pending if the innkeeper is not waiting. -/
theorem Shows.nothing_pending (hs : scene.Shows keeper none s)
    (hscene : ∀ slot, scene.queued? slot = none) : s.forest.scheduler.queue.values = [] := by
  have hempty : s.forest.scheduler.queue = Table.empty := by
    apply Std.ExtTreeMap.ext_getElem?
    intro slot
    rw [hs.queued, hscene, Std.ExtTreeMap.getElem?_empty]
  rw [hempty]
  rfl

theorem Shows.pending (hs : (chat h customer (some slot)).Shows keeper none s) :
    s.forest.scheduler.queue.values = [⟨h, customer, "bye", slot.due⟩] := by
  have hsingle : s.forest.scheduler.queue =
      Table.empty.insert slot (parting h customer slot.due) := by
    apply Std.ExtTreeMap.ext_getElem?
    intro other
    rw [hs.queued, Table.getElem?_insert, Std.ExtTreeMap.getElem?_empty]
    rfl
  rw [hsingle]
  rfl

/-- The chat that goes on in a scene. -/
def haggle? : Scene → Option ConversationId
  | quiet => none
  | chat h _ _ | asking h _ _ => some h

theorem Shows.haggles_iff (hs : scene.Shows keeper none s) (id : ConversationId) :
    Haggles s id ↔ scene.haggle? = some id := by
  have htalk : Haggles s id ↔ ∃ customer keeper',
      scene.talk? keeper id = some (.haggle customer keeper') := by
    rw [← hs.talk]
    constructor
    · rintro ⟨c, customer, keeper', hc, htalk⟩
      rw [hc, Option.bind_some]
      exact ⟨customer, keeper', htalk⟩
    · rintro ⟨customer, keeper', htalk⟩
      obtain ⟨c, hc, hget⟩ := Option.bind_eq_some_iff.1 htalk
      exact ⟨c, customer, keeper', hc, hget⟩
  rw [htalk]
  cases scene with
  | quiet => simp [talk?, haggle?]
  | chat h customer slot => by_cases hid : h = id <;> simp [talk?, haggle?, hid]
  | asking h q customer =>
    have hqh := hs.apart.2
    by_cases hid : q = id
    · subst hid
      simp [talk?, haggle?, Ne.symm hqh]
    · by_cases hh : h = id <;> simp [talk?, haggle?, hid, hh]

end Scene

theorem claims_of_shows (hs : scene.Shows keeper none s)
    (hholder : ∀ x, scene.holder keeper x = if x = customer ∨ x = keeper then some h else none)
    {child : Option ConversationId}
    (hget : s.forest.get? h = some (Scene.chatting keeper none h customer child))
    (hne : customer ≠ keeper) : Claims s h customer keeper := by
  refine ⟨⟨_, hget, rfl, rfl⟩, hne, fun x => ?_⟩
  rw [hs.company, hholder]
  split
  · rename_i hx
    simp [hx]
  · rename_i hx
    simp [hx]

theorem Resting.awaited (hs : Resting J keeper now (chat h customer (some slot)) s) :
    Awaited s h customer := by
  obtain ⟨_, hslot, hwaits⟩ := hs.rests
  cases hslot
  refine ⟨Forest.child?_of_get? hs.shows.get_chat, slot.due, hs.shows.pending, ?_, ?_⟩
  · rw [hs.time]
    exact hwaits.1
  · rw [hs.time]
    exact hwaits.2

theorem Resting.asked (hs : Resting J keeper now (asking h q customer) s) :
    Asked s h customer :=
  ⟨⟨q, _, Forest.child?_of_get? hs.shows.get_asking, hs.shows.get_question, rfl, rfl, rfl⟩,
    hs.shows.nothing_pending fun _ => rfl⟩

theorem not_asked_and_awaited : ¬(Asked s h customer ∧ Awaited s h customer) := by
  rintro ⟨⟨⟨q, _, hchild, -⟩, -⟩, hnone, -⟩
  rw [hnone] at hchild
  cases hchild

/-- Where a scene rests everything is in order. -/
theorem Resting.orderly (hs : Resting J keeper now scene s) : Orderly keeper s := by
  have hsize := hs.shows.size_le
  have hhaggles {h : ConversationId} (hscene : scene.haggle? = some h) (id : ConversationId) :
      Haggles s id ↔ id = h := by
    rw [hs.shows.haggles_iff, hscene, Option.some.injEq, eq_comm]
  have hsome {h : ConversationId} {c : Conversation setting.Talk setting.Ending}
      (hget : s.forest.get? h = some c) : s.forest.size ≠ 0 := by
    obtain ⟨count, hcount⟩ : ∃ count, s.forest.size = count + 1 := Table.exists_size hget
    omega
  match scene, hs with
  | quiet, hs =>
    have hnone : s.forest.size = 0 := Nat.le_zero.1 hsize
    refine ⟨by omega, fun _ => ⟨hs.shows.nothing_pending fun _ => rfl, fun x c hc => ?_⟩,
      fun hsome => absurd hnone hsome⟩
    have hcompany := hs.shows.company x
    rwa [hc, Option.bind_some] at hcompany
  | asking h q customer, hs =>
    have hget := hs.shows.get_asking
    exact ⟨hsize, fun hnone => absurd hnone (hsome hget), fun _ => ⟨h, customer, hhaggles rfl,
      claims_of_shows hs.shows (fun _ => rfl) hget hs.shows.apart.1,
      .inl ⟨hs.asked, fun hawaited => not_asked_and_awaited ⟨hs.asked, hawaited⟩⟩⟩⟩
  | chat h customer (some slot), hs =>
    have hget := hs.shows.get_chat
    exact ⟨Nat.le_succ_of_le hsize, fun hnone => absurd hnone (hsome hget),
      fun _ => ⟨h, customer, hhaggles rfl,
        claims_of_shows hs.shows (fun _ => rfl) hget hs.shows.apart,
        .inr ⟨hs.awaited, fun hasked => not_asked_and_awaited ⟨hasked, hs.awaited⟩⟩⟩⟩
  | chat h customer none, hs =>
    obtain ⟨pending, hslot, -⟩ := hs.rests
    cases hslot

/-- This character has left, and is in no conversation. -/
def Left (customer : CharacterId) (s : State setting) : Prop :=
  (s.world.character? customer).bind (·.conversation) = none ∧
    ∀ id c, s.forest.get? id = some c → customer ∉ c.participants

namespace Scene

/-- This character is not the one who is served. -/
def Lacks (customer : CharacterId) : Scene → Prop
  | quiet => True
  | chat _ other _ | asking _ _ other => other ≠ customer

/-- A chat goes on as it is, or another scene lacks the customer. -/
def Fades (h : ConversationId) (customer : CharacterId) (slot : Slot) (scene : Scene) : Prop :=
  scene = chat h customer (some slot) ∨ scene.Lacks customer

/-- Without a word of the customer the chat comes to its end, and does not begin again. -/
theorem Fades.proceeds {who : Option CharacterId} {scene' : Scene}
    (hscene : scene.Fades h customer slot) (hwho : who ≠ some customer)
    (hproceeds : Scene.Proceeds now who scene scene') : scene'.Fades h customer slot := by
  cases who with
  | some actor =>
    have hactor : actor ≠ customer := fun heq => hwho (congrArg some heq)
    rcases hproceeds with rfl | ⟨-, hserves, -⟩
    · exact hscene
    · right
      cases scene' with
      | quiet => trivial
      | chat _ other _ => exact fun heq => hactor (hserves.symm.trans heq)
      | asking _ _ other => exact fun heq => hactor (hserves.symm.trans heq)
  | none =>
    obtain rfl : scene' = scene.after now := hproceeds
    rcases hscene with rfl | hlacks
    · rw [after]
      split
      · exact .inr trivial
      · exact .inl rfl
    · right
      cases scene with
      | quiet => trivial
      | asking h q other => exact hlacks
      | chat h other slot =>
        cases slot with
        | none => exact hlacks
        | some slot =>
          rw [after]
          split
          · trivial
          · exact hlacks

theorem Shows.left (hs : scene.Shows keeper none s) (hscene : scene.Lacks customer)
    (hne : customer ≠ keeper) : Left customer s := by
  have hfree : scene.holder keeper customer = none := by
    cases scene with
    | quiet => rfl
    | chat _ other _ => exact if_neg fun hor => hor.elim (Ne.symm hscene) hne
    | asking _ _ other => exact if_neg fun hor => hor.elim (Ne.symm hscene) hne
  refine ⟨(hs.company customer).trans hfree, fun id c hc hmem => ?_⟩
  rw [hs.conversation] at hc
  have hheld := (of_conversation? hc).2.2 customer hmem
  rw [hfree] at hheld
  cases hheld

end Scene

theorem durable_signposted : World.Durable World.Signposted where
  signposted hw := hw
  errand hw herrand := herrand.cases.1.toSameWalls.signposted hw
  regrouped hw hregrouped := hregrouped.sameWalls.signposted hw
  advance hw hadvance := by
    obtain ⟨now, -, rfl⟩ := Option.map_eq_some_iff.1 hadvance
    exact hw

/-- A customer whom the innkeeper waits for is the one in the chat that goes on. -/
theorem chat_of_awaited (hs : scene.Shows keeper none s) (hclaims : Claims s h customer keeper)
    (hawaited : Awaited s h customer) : ∃ slot, scene = chat h customer slot := by
  obtain ⟨c, hget, htalk, -⟩ := hclaims.participants
  have hhaggle := (hs.haggles_iff h).1 ⟨c, customer, keeper, hget, htalk⟩
  cases scene with
  | quiet => cases hhaggle
  | chat h' other slot =>
    cases hhaggle
    cases hget.symm.trans hs.get_chat
    cases htalk
    exact ⟨slot, rfl⟩
  | asking h' q other =>
    cases hhaggle
    have hchild := hawaited.1
    rw [Forest.child?_of_get? hs.get_asking] at hchild
    cases hchild

/-- Whatever is typed and however time passes, the innkeeper serves one customer at a time and waits
for none of them for longer than half a minute. -/
theorem innkeeper_never_stuck (settings : Settings) : ∃ start keeper c,
    session lodging behaviour Duration.zero settings = .ok start ∧
      start.state.world.character? keeper = some c ∧ c.key.text = "innkeeper@village" ∧
        ∀ inputs s, start.takeAll inputs = .ok s → Orderly keeper s.state ∧
          ∀ h customer more t, Claims s.state h customer keeper → Awaited s.state h customer →
            s.takeAll more = .ok t → (∀ input ∈ more, input.actor? s.player ≠ some customer) →
              (Duration.ofSeconds 30).nanos ≤ Session.total more → Left customer t.state := by
  obtain ⟨start, w, hstart, hw, hstate, -, hhosting⟩ := session_eq settings
  obtain ⟨c, hc, hperson⟩ := Option.map_eq_some_iff.1 (hw.characters residents.keeper)
  have hkey : c.key = keyOf "innkeeper" (by decide) := congrArg Person.key hperson
  have hbegins := hhosting World.Signposted hw.signposted
  refine ⟨start, residents.keeper, c, hstart, ?_, ?_, fun inputs s hplayed => ?_⟩
  · rw [hstate]
    exact hc
  · rw [hkey]
    rfl
  · obtain ⟨now, scene, -, -, hs⟩ := hbegins.takeAll durable_signposted (P := fun _ => True)
      (fun _ _ _ _ _ _ _ => trivial) trivial hplayed
    refine ⟨hs.resting.orderly, fun h customer more t hclaims hawaited hmore hsilent hlong => ?_⟩
    obtain ⟨slot, rfl⟩ := chat_of_awaited hs.resting.shows hclaims hawaited
    obtain ⟨pending, rfl, hwaits⟩ := hs.resting.rests
    obtain ⟨now', scene', hnow, hfades, ht⟩ := hs.takeAll durable_signposted
      (P := Scene.Fades h customer pending)
      (fun input hinput _ _ _ hproceeds hscene => hscene.proceeds (hsilent input hinput) hproceeds)
      (.inl rfl) hmore
    rcases hfades with rfl | hlacks
    · -- By now the time of the chat would be over.
      obtain ⟨_, hslot, hlater⟩ := ht.resting.rests
      cases hslot
      have hdue := hwaits.2
      have hearly : now'.nanos < pending.due.nanos := hlater.1
      have htimeout : idleTimeout.nanos = (Duration.ofSeconds 30).nanos := rfl
      omega
    · exact ht.resting.shows.left hlacks hclaims.different

/-- A customer who asks for the menu and then falls silent is gone after half a minute. -/
theorem innkeeper_never_stuck_menu : ∃ start s t h customer keeper,
    session lodging behaviour Duration.zero default = .ok start ∧
      start.takeAll [.line "north", .line "talk maren", .time (.ofSeconds 29), .line "menu"] =
        .ok s ∧
      Claims s.state h customer keeper ∧ Awaited s.state h customer ∧
        s.takeAll [.time (.ofSeconds 10), .time (.ofSeconds 20)] = .ok t ∧
          Left customer t.state := by
  obtain ⟨start, keeper, -, hstart, -, -, hnever⟩ := innkeeper_never_stuck default
  have hruns : (session lodging behaviour Duration.zero default).toOption.bind (fun start =>
      (start.takeAll [.line "north", .line "talk maren", .time (.ofSeconds 29),
        .line "menu"]).toOption.bind fun s =>
          (s.takeAll [.time (.ofSeconds 10), .time (.ofSeconds 20)]).toOption.map fun _ =>
            (s.state.forest.size, s.state.forest.scheduler.queue.values.length)) =
      some (1, 1) := by
    decide +kernel
  obtain ⟨start', hsame, hruns⟩ := Option.bind_eq_some_iff.1 hruns
  rw [hstart] at hsame
  obtain rfl : start = start' := Option.some.inj hsame
  obtain ⟨s, hplayed, hrest⟩ := Option.bind_eq_some_iff.1 hruns
  obtain ⟨t, hmore, hsizes⟩ := Option.map_eq_some_iff.1 hrest
  rw [Prod.mk.injEq] at hsizes
  have hs := ok_of_toOption hplayed
  have ht := ok_of_toOption hmore
  obtain ⟨horderly, hleaves⟩ := hnever _ s hs
  obtain ⟨h, customer, -, hclaims, hxor⟩ := horderly.engaged (by rw [hsizes.1]; decide)
  have hawaited : Awaited s.state h customer := by
    rcases hxor with ⟨⟨-, hnothing⟩, -⟩ | ⟨hawaited, -⟩
    · rw [hnothing] at hsizes
      cases hsizes.2
    · exact hawaited
  refine ⟨start, s, t, h, customer, keeper, hstart, hs, hclaims, hawaited, ht, ?_⟩
  refine hleaves h customer _ t hclaims hawaited ht (fun input hinput => ?_) (by decide)
  rcases List.mem_cons.1 hinput with rfl | hinput
  · exact (Option.some_ne_none customer).symm
  · rw [List.mem_singleton.1 hinput]
    exact (Option.some_ne_none customer).symm

end Village

end TextWorld

import TextWorld.Proofs.Engine.Brevity
import TextWorld.Proofs.Play.Opening
import TextWorld.Proofs.Play.Repertoire

/-!
How far ahead the village looks. The commands and the innkeeper ask for half a minute at most, so a
line leaves the clock and the bell alone, and it comes to its end as long as the clock can show what
is to come in half a minute.
-/

namespace TextWorld

variable {S : Setting}

namespace StandardCommands

open Program

/-- A licence for what looks no further ahead than this. -/
def briefly (span : Duration) : Licence := ⟨fun op => op.Brief span, fun _ => True⟩

/-- Whatever arguments a standard command is given, it looks ahead only to rest. -/
theorem within_briefly {d : Definition (Handler S)} (hd : d ∈ standard) {span : Duration}
    (hspan : restDuration ≤ span) (inv : Invocation) (w : World) :
    (d.run inv).Within inv.actor (briefly span) w := by
  simp only [standard, List.mem_append, List.mem_cons, List.mem_map, List.not_mem_nil,
    or_false] at hd
  rcases hd with (hd | ⟨direction, -, rfl⟩) | hd
  · rcases hd with rfl | rfl | rfl | rfl | rfl | rfl | rfl | rfl | rfl | rfl
    · exact within_look inv
    · exact within_peek inv
    · exact within_say inv
    · exact within_tell inv
    · exact within_get fun _ _ => trivial
    · exact within_drop fun _ _ _ _ => trivial
    · exact within_give fun _ _ _ => trivial
    · exact within_inventory inv
    · exact within_equip fun _ _ _ => trivial
    · exact within_go (fun _ _ _ _ _ _ => trivial) trivial
  · have hwalk : (walk inv : Program S CommandOutcome).Within inv.actor (briefly span) w := by
      unfold walk
      split
      · exact within_pure _
      · exact within_send_bind trivial fun _ => within_pure _
    exact hwalk
  · rcases hd with rfl | rfl | rfl | rfl | rfl | rfl | rfl
    · exact within_setDoor fun _ _ _ _ _ => trivial
    · exact within_setDoor fun _ _ _ _ _ => trivial
    · exact within_rest hspan
    · exact within_who inv
    · exact within_goto (fun _ => trivial) trivial
    · exact within_commands inv
    · exact within_talk inv

end StandardCommands

namespace Village

open Program

/-! What the people of the village ask for. -/

theorem asks_emit (recipient : CharacterId) (text : String) :
    (emit recipient text : Program S Unit).Asks (·.Brief idleTimeout) :=
  asks_request trivial

theorem asks_keepWaiting (me : ConversationId) (customer : CharacterId) :
    (keepWaiting me customer : Program S Unit).Asks (·.Brief idleTimeout) :=
  (asks_request (Nat.le_refl _)).discard

theorem asks_pray (inv : Invocation) :
    (pray inv : Program S CommandOutcome).Asks (·.Brief idleTimeout) := by
  have hothers (text : String) : (StandardCommands.tellOthers inv.actor text : Program S Unit).Asks
      (·.Brief idleTimeout) := by
    refine (asks_request trivial).bind fun w => ?_
    split
    · exact asks_request trivial
    · exact asks_pure _
  refine (asks_emit _ _).bind fun _ => (asks_request trivial).bind fun w => ?_
  exact (hothers _).bind fun _ => asks_pure _

theorem asks_talkToKeeper (lodging : Lodging S) (keeper : CharacterId) (inv : Invocation) :
    (talkToKeeper lodging keeper inv).Asks (·.Brief idleTimeout) := by
  unfold talkToKeeper
  split
  · exact asks_pure _
  · refine (asks_request trivial).bind fun started => ?_
    cases started with
    | error e => exact (asks_emit _ _).bind fun _ => asks_pure _
    | ok me =>
      exact (asks_emit _ _).bind fun _ => (asks_keepWaiting me _).bind fun _ => asks_pure _

theorem asks_haggleReturn (customer : CharacterId) (me : ConversationId) (data : Value) :
    (haggleReturn customer me data : Program S Unit).Asks (·.Brief idleTimeout) := by
  unfold haggleReturn
  dsimp only
  split
  · refine (asks_request trivial).bind fun served => ?_
    cases served with
    | ok _ => exact (asks_emit _ _).bind fun _ => asks_keepWaiting me customer
    | error _ => exact asks_keepWaiting me customer
  · exact (asks_emit _ _).bind fun _ => asks_keepWaiting me customer

/-- What is brief, and to end oneself. -/
abbrev Modest (me : ConversationId) (r : Request S) : Prop :=
  r.Brief idleTimeout ∨ ∃ data, r = .finish me data

theorem asks_haggleInput (lodging : Lodging S) (customer keeper : CharacterId)
    (me : ConversationId) (actor : CharacterId) (command : Command) :
    (haggleInput lodging customer keeper me actor command).Asks (Modest me) := by
  have hemit (text : String) : (emit actor text : Program S Unit).Asks (Modest me) :=
    asks_request (.inl trivial)
  have hwait : (keepWaiting me actor : Program S Unit).Asks (Modest me) :=
    (asks_keepWaiting me actor).mono fun _ => .inl
  unfold haggleInput
  split
  · exact asks_pure _
  · split
    · exact (hemit _).bind fun _ => hwait.bind fun _ => asks_pure _
    · split
      · refine (asks_request (.inl trivial)).discard.bind fun _ =>
          (asks_request (.inl trivial)).bind fun asked => ?_
        cases asked with
        | ok _ => exact (hemit _).bind fun _ => asks_pure _
        | error _ => exact asks_pure _
      · split
        · refine (asks_request (.inl trivial)).bind fun w => (hemit _).bind fun _ => ?_
          exact (asks_request (.inr ⟨_, rfl⟩)).discard.bind fun _ => asks_pure _
        · exact hwait.bind fun _ => asks_pure _

theorem asks_confirmInput (me : ConversationId) (actor : CharacterId) (command : Command) :
    (confirmInput me actor command : Program S CommandOutcome).Asks (Modest me) := by
  have hfinish (data : Value) : (discard <| finish me data : Program S Unit).Asks (Modest me) :=
    (asks_request (.inr ⟨data, rfl⟩)).discard
  unfold confirmInput
  split
  · exact (hfinish _).bind fun _ => asks_pure _
  · split
    · exact (hfinish _).bind fun _ => asks_pure _
    · exact (asks_request (.inl trivial)).bind fun _ => asks_pure _

theorem brief_behaviour : behaviour.Brief idleTimeout where
  onInput talk id actor command := by
    refine Asks.bind ?_ fun _ => asks_pure _
    cases talk with
    | haggle customer keeper => exact asks_haggleInput lodging customer keeper id actor command
    | confirm => exact asks_confirmInput id actor command
  onReturn talk id data := by
    refine Asks.bind ?_ fun _ => asks_pure _
    cases talk with
    | haggle customer keeper => exact asks_haggleReturn customer id data
    | confirm => exact asks_pure _
  onEnd ending _ := by
    cases ending with
    | farewell customer => exact asks_emit customer _

variable {J : World → Prop} {rules : Rules setting} {keeper : CharacterId} {now : Duration}
variable {scene : Scene} {a b : Session setting}

/-- Nothing in the village takes longer than the innkeeper is ready to wait. -/
theorem Governed.brief (hg : Governed rules keeper) (hdeliveries : rules.maxDeliveries ≠ 0) :
    rules.Brief idleTimeout where
  behaviour := hg.behaviour ▸ brief_behaviour
  deliveries := hdeliveries
  handler hlevel hword inv _ _ _ s hs := by
    rcases hg.command hlevel hword with hstandard | hpray | ⟨-, htalk⟩
    · have hrest : StandardCommands.restDuration ≤ idleTimeout := by decide
      exact Rules.briefly_within (StandardCommands.within_briefly hstandard hrest inv s.world)
        (fun _ => id) hs
    · rw [hpray]
      exact Rules.briefly_asks (asks_pray inv) hs
    · rw [htalk]
      exact Rules.briefly_asks (asks_talkToKeeper lodging keeper inv) hs

theorem Scene.Shows.settled {s : State setting} (hs : scene.Shows keeper none s) :
    s.forest.Settled none := by
  intro id c hc
  have htalk := hs.talk id
  rw [hc, Option.bind_some] at htalk
  rw [hs.conversation] at hc
  refine ⟨by rw [(Scene.of_conversation? hc).2.1]; rfl, fun hnone => ?_⟩
  -- Whatever is under way remembers what it is about.
  rw [hnone] at htalk
  cases scene with
  | quiet => cases hc
  | chat h customer slot =>
    rw [Scene.conversation?] at hc
    rw [Scene.talk?] at htalk
    split at hc
    · rename_i hid
      rw [if_pos hid] at htalk
      cases htalk
    · cases hc
  | asking h question customer =>
    rw [Scene.conversation?] at hc
    rw [Scene.talk?] at htalk
    split at hc
    · rename_i hid
      rw [if_pos hid] at htalk
      cases htalk
    · split at hc
      · rename_i hquestion hid
        rw [if_neg hquestion, if_pos hid] at htalk
        cases htalk
      · cases hc

end Village

end TextWorld

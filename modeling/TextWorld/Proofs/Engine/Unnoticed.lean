import TextWorld.Proofs.Command.Registering
import TextWorld.Proofs.Engine.Mirroring
import TextWorld.Proofs.Engine.Structure

/-!
Commands of admins go unnoticed among everybody else. As long as nobody is an admin, whatever
happens would have happened just so without them, provided that no program looks into the
registries.
-/

namespace TextWorld

variable {S : Setting} {α β ρ : Type}

def Request.Blind : Request S → Prop
  | .catalogue => False
  | _ => True

/-- The program never looks into the registries. -/
def Program.Blind : Program S α → Prop
  | .done _ => True
  | .ask r next => r.Blind ∧ ∀ x, (next x).Blind

structure Behaviour.Blind (b : Behaviour S) : Prop where
  onInput : ∀ talk id actor command, (b.onInput talk id actor command).Blind
  onReturn : ∀ talk id data, (b.onReturn talk id data).Blind
  onTick : ∀ talk id, (b.onTick talk id).Blind
  onEnd : ∀ ending data, (b.onEnd ending data).Blind

/-- No handler, no conversation and no hook ever looks into the registries. -/
structure Rules.Blind (rules : Rules S) : Prop where
  handler : ∀ {level registry word d}, rules.registry? level = some registry →
    registry.lookup word = some d → ∀ inv, (d.run inv).Blind
  behaviour : rules.behaviour.Blind
  hook : ∀ hook ∈ rules.hooks, ∀ delta, (hook delta).Blind

/-- The registries without the definitions that only admins may use. -/
def Registries.withoutAdminOnly (rs : Registries ρ) : Registries ρ :=
  ⟨rs.global.withoutAdminOnly, rs.rooms.map fun _ r => r.withoutAdminOnly,
    rs.characters.map fun _ r => r.withoutAdminOnly⟩

def Rules.withoutAdminOnly (rules : Rules S) : Rules S :=
  { rules with registries := rules.registries.withoutAdminOnly }

def World.NobodyAdmin (w : World) : Prop :=
  ∀ id c, w.character? id = some c → c.isAdmin = false

theorem Program.Blind.bind {p : Program S α} {f : α → Program S β} (hp : p.Blind)
    (hf : ∀ a, (f a).Blind) : (p >>= f).Blind := by
  change (p.bind f).Blind
  induction p with
  | done a => exact hf a
  | ask r next ih => exact ⟨hp.1, fun x => ih x (hp.2 x)⟩

namespace Rules

variable {rules : Rules S} {registries : Registries (Handler S)} {depth : Nat}
variable {deliver : Delivery S → Run S Unit}

/-! What is blind goes the same way whatever the registries are. -/

theorem run_with_registries {p : Program S α} (hp : p.Blind) :
    p.run ({ rules with registries }.reply depth deliver) = p.run (rules.reply depth deliver) := by
  induction p with
  | done a => rfl
  | ask r next ih =>
    have hreply : { rules with registries }.reply depth deliver r =
        rules.reply depth deliver r := by
      cases r with
      | catalogue => exact absurd hp.1 id
      | _ => rfl
    rw [Program.run, Program.run, hreply]
    simp only [ih _ (hp.2 _)]

theorem callback_with_registries {id : ConversationId} {occasion : Occasion}
    {body : S.Talk → Program S (α × S.Talk)} (hbody : ∀ talk, (body talk).Blind) :
    { rules with registries }.callback depth deliver id occasion body =
      rules.callback depth deliver id occasion body := by
  unfold callback
  simp only [run_with_registries (hbody _)]

theorem deliver_with_registries (hb : rules.behaviour.Blind) (count : Nat) :
    { rules with registries }.deliver depth count = rules.deliver depth count := by
  induction count with
  | zero => rfl
  | succ count ih =>
    funext delivery
    cases delivery with
    | toEnding id ending data =>
      rw [Rules.deliver, Rules.deliver, ih, run_with_registries (hb.onEnd ending data)]
    | toParent parent data =>
      have hbody (talk : S.Talk) : (do
          let talk ← rules.behaviour.onReturn talk parent data
          pure ((), talk) : Program S (Unit × S.Talk)).Blind :=
        (hb.onReturn talk parent data).bind fun _ => trivial
      rw [Rules.deliver, Rules.deliver, ih, callback_with_registries hbody]

theorem execute_with_registries (hb : rules.behaviour.Blind) {p : Program S α} (hp : p.Blind) :
    { rules with registries }.execute depth p = rules.execute depth p := by
  rw [execute, execute, deliver_with_registries hb, run_with_registries hp]

theorem withTalk_with_registries (hb : rules.behaviour.Blind) {id : ConversationId}
    {occasion : Occasion} {body : S.Talk → Program S (α × S.Talk)}
    (hbody : ∀ talk, (body talk).Blind) :
    { rules with registries }.withTalk depth id occasion body =
      rules.withTalk depth id occasion body := by
  unfold withTalk
  simp only [deliver_with_registries hb, callback_with_registries hbody]

theorem askConversation_with_registries (hb : rules.behaviour.Blind) (actor : CharacterId)
    (command : Command) : { rules with registries }.askConversation depth actor command =
      rules.askConversation depth actor command := by
  have hoffer (id : ConversationId) : { rules with registries }.offer depth id actor command =
      rules.offer depth id actor command := by
    rw [offer, offer, withTalk_with_registries hb fun talk => hb.onInput talk id actor command]
  unfold askConversation
  simp only [hoffer]

theorem tickConversation_with_registries (hb : rules.behaviour.Blind) (id : ConversationId) :
    { rules with registries }.tickConversation id = rules.tickConversation id := by
  have hbody (talk : S.Talk) : (do
      let talk ← rules.behaviour.onTick talk id
      pure ((), talk) : Program S (Unit × S.Talk)).Blind :=
    (hb.onTick talk id).bind fun _ => trivial
  rw [tickConversation, tickConversation, withTalk_with_registries hb hbody]

end Rules

namespace Rules

variable {rules : Rules S} {s : State S}

theorem registry?_withoutAdminOnly (rules : Rules S) (level : Responder) :
    rules.withoutAdminOnly.registry? level =
      (rules.registry? level).map Registry.withoutAdminOnly := by
  cases level with
  | conversation id => rfl
  | room id => exact Std.ExtTreeMap.getElem?_map
  | character id => exact Std.ExtTreeMap.getElem?_map
  | global => rfl

/-- Among those who are no admins a registry answers as if it had no commands of admins. -/
theorem handle_withoutAdminOnly (hblind : rules.Blind) {level : Responder}
    {registry : Registry (Handler S)} (hregistry : rules.registry? level = some registry)
    (hbuilt : registry.Built) (hnobody : s.world.NobodyAdmin) (depth : Nat) (actor : CharacterId)
    (command : Command) (origin : Origin) :
    rules.withoutAdminOnly.handle depth registry.withoutAdminOnly actor command origin s =
      rules.handle depth registry actor command origin s := by
  rw [handle, handle, Run.gets_bind, Run.gets_bind, hbuilt.lookup_withoutAdminOnly]
  cases hd : registry.lookup command.word with
  | none => rfl
  | some d =>
    cases hc : s.world.character? actor with
    | none =>
      -- Whoever is not there is answered by no command at all.
      rw [Option.filter_some]
      split <;> rfl
    | some c =>
      have hadmin := hnobody actor c hc
      cases honly : d.adminOnly with
      | true =>
        -- The admin check comes before the gates, so nothing tells this from an unknown word.
        simp [Option.filter_some, honly, hadmin]
      | false =>
        have hexecute (inv : Invocation) :
            rules.withoutAdminOnly.execute depth (d.run inv) = rules.execute depth (d.run inv) :=
          execute_with_registries hblind.behaviour (hblind.handler hregistry hd inv)
        simp only [Option.filter_some, honly, Bool.not_false, if_true, hexecute]
        rfl

theorem mirror_withoutAdminOnly (hblind : rules.Blind)
    (hbuilt : ∀ {level registry}, rules.registry? level = some registry → registry.Built) :
    rules.Mirror Eq (fun s => s.world.NobodyAdmin) Registry.withoutAdminOnly
      rules.withoutAdminOnly where
  forest h := by rw [h]
  followUps h := by rw [h]
  now h := by rw [h]
  characterRoom h _ := by rw [h]
  occupants h _ := by rw [h]
  emit h _ _ := by rw [h]
  queue h _ := by rw [h]
  schedule h _ := by rw [h]
  pass h _ := by rw [h]
  config := rfl
  hooks := rfl
  registry? := rules.registry?_withoutAdminOnly
  handle {_ _} hregistry depth actor command origin {s _} hst hnobody := by
    subst hst
    exact Run.mirroredAt_of_eq (handle_withoutAdminOnly hblind hregistry (hbuilt hregistry)
      hnobody depth actor command origin)
  askConversation _ actor command :=
    Run.mirrored_of_eq (askConversation_with_registries hblind.behaviour actor command)
  tickConversation id :=
    Run.mirrored_of_eq (tickConversation_with_registries hblind.behaviour id)
  hook hook hmem delta :=
    Run.mirrored_of_eq (execute_with_registries hblind.behaviour (hblind.hook hook hmem delta))

/-- A run in which nobody is ever an admin is the same without the commands of admins: it has the
same outcomes, messages and worlds, and all that happens in it is the same. -/
theorem adminOnly_unnoticed (hblind : rules.Blind)
    (hbuilt : ∀ {level registry}, rules.registry? level = some registry → registry.Built)
    (prompts : List Prompt) (s : State S)
    (hnobody : ∀ sight ∈ (Prompt.answerAll rules prompts s).sights,
      sight.state.world.NobodyAdmin) :
    Prompt.answerAll rules.withoutAdminOnly prompts s = Prompt.answerAll rules prompts s :=
  ((mirror_withoutAdminOnly hblind hbuilt).answerAll prompts s s rfl hnobody).eq

end Rules

/-- Everyone may bow. Admins may also bar somebody, and have taken the short word for it. -/
def wardens : Rules plainSetting :=
  { chatter with
    registries :=
      { global := (Registry.empty.add
          ((Definition.named "bar" fun _ => pure .handled).withAliases ["b"]).forAdmins).add
            ((Definition.named "bow" fun inv => do
              Program.emit inv.actor "You bow."
              pure .handled).withAliases ["b"])
        rooms := .empty
        characters := .empty } }

theorem registry_of_wardens {level : Responder} {registry : Registry (Handler plainSetting)}
    (h : wardens.registry? level = some registry) : registry = wardens.registries.global := by
  cases level with
  | conversation id => cases h
  | room id => simp [Rules.registry?, wardens] at h
  | character id => simp [Rules.registry?, wardens] at h
  | global => exact (Option.some.inj h).symm

theorem blind_wardens : wardens.Blind where
  handler {level registry word d} hregistry hd inv := by
    obtain rfl := registry_of_wardens hregistry
    rcases Registry.mem_add hd with hfirst | rfl
    · rcases Registry.mem_add hfirst with hempty | rfl
      · simp [Registry.empty] at hempty
      · trivial
    · exact ⟨trivial, fun _ => trivial⟩
  behaviour :=
    { onInput := fun _ _ _ _ => ⟨trivial, fun x => by
        cases x with
        | error e => trivial
        | ok child => exact ⟨trivial, fun _ => trivial⟩⟩
      onReturn := fun _ _ _ => trivial
      onTick := fun _ _ => trivial
      onEnd := fun _ _ => trivial }
  hook _ hmem := by cases hmem

/-- The guest tries all the words that the wardens have, and waits. -/
def bowing : List Prompt :=
  [.line ⟨3⟩ "bar", .line ⟨3⟩ "b", .line ⟨3⟩ "bow", .time (.ofSeconds 1)]

theorem Rules.adminOnly_unnoticed_wardens :
    ∃ w, World.empty.run innWithGuest = some w ∧
      (Prompt.answerAll wardens bowing (.initial w ())).result =
        .ok [some .unknown, some .unknown, some (.handled .global), none] ∧
      Prompt.answerAll wardens.withoutAdminOnly bowing (.initial w ()) =
        Prompt.answerAll wardens bowing (.initial w ()) := by
  have hrun : (World.empty.run innWithGuest).isSome := by decide
  obtain ⟨w, hw⟩ := Option.isSome_iff_exists.1 hrun
  have hcourse : (World.empty.run innWithGuest).map (fun w =>
      let course := Prompt.answerAll wardens bowing (.initial w ())
      (course.result, course.sights.all fun sight =>
        sight.state.world.characters.values.all fun c => !c.isAdmin)) =
      some (.ok [some .unknown, some .unknown, some (.handled .global), none], true) := by
    rfl
  rw [hw] at hcourse
  obtain ⟨hresult, hadmins⟩ := Prod.mk.inj (Option.some.inj hcourse)
  refine ⟨w, hw, hresult, ?_⟩
  apply adminOnly_unnoticed blind_wardens
  · intro level registry hregistry
    obtain rfl := registry_of_wardens hregistry
    dsimp only [wardens]
    refine Registry.Built.add (Registry.Built.add .empty ?_) ?_
    · exact ⟨"bar", rfl⟩
    · exact ⟨"bow", rfl⟩
  · intro sight hsight id c hc
    have hall := List.all_eq_true.1 (List.all_eq_true.1 hadmins sight hsight) c
      (Table.mem_values.2 ⟨id, hc⟩)
    simpa using hall

end TextWorld

import TextWorld.Proofs.Command.Binding
import TextWorld.Proofs.Engine.Once
import TextWorld.Proofs.Engine.Structure
import TextWorld.Proofs.Play.Conduct
import TextWorld.Proofs.World.Locks
import TextWorld.Proofs.World.Possession

/-!
The repertoire of a world with nothing but the standard commands: which word stands for which of
them, and what each of them may do. None does more than one thing to the world.
-/

namespace TextWorld

variable {S : Setting}

namespace StandardCommands

/-- The names of the standard commands and their aliases. -/
def words : List (String × List String) :=
  [("look", ["l"]), ("peek", []), ("say", ["'"]), ("tell", []), ("get", ["take"]), ("drop", []),
    ("give", []), ("inventory", ["i", "inv"]), ("equip", ["wear"]), ("go", [])]
    ++ Direction.all.map (fun d => (d.name, [d.short]))
    ++ [("open", []), ("close", []), ("rest", []), ("who", []), ("goto", []), ("commands", []),
      ("talk", [])]

theorem words_standard :
    (standard : List (Definition (Handler S))).map (fun d => (d.name, d.aliases)) = words := by
  rfl

/-- No two standard commands share a word. -/
theorem names_standard :
    (standard : List (Definition (Handler S))).Pairwise fun d e => d.answers e.name = false := by
  -- The handlers are left out, which depend on the setting.
  have hwords : words.Pairwise fun d e => (e.1 == d.1 || d.2.contains e.1) = false := by
    decide +kernel
  rw [← words_standard (S := S), List.pairwise_map] at hwords
  exact hwords

theorem addTo_eq (registry : Registry (Handler S)) :
    addTo registry = .ok (standard.foldl Registry.add registry) := by
  rw [addTo, definitions_eq]
  rfl

/-- Where nothing else is registered, a word stands for the standard command that answers to it. -/
theorem lookup_standard {registry : Registry (Handler S)} (h : addTo .empty = .ok registry)
    (word : String) : registry.lookup word = standard.find? (·.answers (Text.lowercase word)) := by
  rw [addTo_eq] at h
  obtain rfl := Except.ok.inj h
  have hempty (word : String) : (Registry.empty : Registry (Handler S)).words[word]? = none := by
    simp [Registry.empty]
  -- Of two commands that share an alias the first keeps it, and is the one that is found.
  have hlookup := Registry.getElem?_foldl_add (fun d _ => hempty d.name) (names_standard (S := S))
    (Text.lowercase word)
  rw [hempty, Option.none_or] at hlookup
  exact hlookup

def lookDefinition : Definition (Handler S) := (Definition.named "look" look).withAliases ["l"]

def goDefinition : Definition (Handler S) :=
  { Definition.named "go" go with
    grammar := some ⟨"exit.visible.passable", [⟨.exit ⟨true, true, false, false, false⟩, false⟩]⟩ }

theorem lookup_look {registry : Registry (Handler S)} (h : addTo .empty = .ok registry) :
    registry.lookup "look" = some lookDefinition := by
  rw [lookup_standard h]
  rfl

theorem lookup_go {registry : Registry (Handler S)} (h : addTo .empty = .ok registry) :
    registry.lookup "go" = some goDefinition := by
  rw [lookup_standard h]
  rfl

/-- The licence to do one thing, and to look around then. -/
def deeds (w : World) (actor : CharacterId) : Licence := ⟨w.Entitles actor, (· = "look")⟩

/-- The licence to do one thing that respects the locks, and to look around then. -/
def lawfulDeeds (w : World) (actor : CharacterId) : Licence :=
  ⟨fun op => w.Entitles actor op ∧ w.RespectsLocks op, (· = "look")⟩

/-- The licence to do nothing but to set out in a direction. -/
def steps : Licence := ⟨fun _ => False, fun line => ∃ d : Direction, line = "go " ++ d.name⟩

open Program Grammar

variable {w : World} {inv : Invocation} {may : Licence}

theorem within_tellActor (inv : Invocation) (text : String) :
    (tellActor inv text : Program S CommandOutcome).Within inv.actor may w :=
  within_emit_bind (within_pure _)

/-! Commands that change nothing. -/

theorem within_look (inv : Invocation) :
    (look inv : Program S CommandOutcome).Within inv.actor may w :=
  within_world_bind (within_tellActor inv _)

theorem within_peek (inv : Invocation) :
    (peek inv : Program S CommandOutcome).Within inv.actor may w :=
  within_world_bind (within_tellActor inv _)

theorem within_say (inv : Invocation) :
    (say inv : Program S CommandOutcome).Within inv.actor may w := by
  unfold say
  split
  · exact within_tellActor inv _
  · refine within_world_bind ?_
    have hothers (who : CharacterId) (text : String) :
        (tellOthers who text : Program S Unit).Within inv.actor ⟨may.op, fun _ => False⟩ w := by
      refine within_world_bind ?_
      split
      · exact within_emitRoom_bind (f := pure) (within_pure _)
      · exact within_pure _
    exact (hothers _ _).bind fun _ _ _ => within_tellActor inv _

theorem within_tell (inv : Invocation) :
    (tell inv : Program S CommandOutcome).Within inv.actor may w := by
  unfold tell
  split
  · exact within_world_bind (within_emit_bind (within_tellActor inv _))
  · exact within_tellActor inv _

theorem within_talk (inv : Invocation) :
    (talk inv : Program S CommandOutcome).Within inv.actor may w :=
  within_world_bind (within_tellActor inv _)

theorem within_inventory (inv : Invocation) :
    (inventory inv : Program S CommandOutcome).Within inv.actor may w := by
  refine within_world_bind ?_
  split
  · exact within_pure _
  · exact within_tellActor inv _

theorem within_who (inv : Invocation) :
    (who inv : Program S CommandOutcome).Within inv.actor may w :=
  within_world_bind (within_tellActor inv _)

theorem within_commands (inv : Invocation) :
    (commands inv : Program S CommandOutcome).Within inv.actor may w :=
  within_world_bind (within_catalogue_bind fun _ => within_tellActor inv _)

/-! Commands that move items. -/

theorem within_moveAndTell {item : ItemId} {target : ItemLocation} {done refused : String}
    (hop : may.op (.moveItem item target)) :
    (moveAndTell inv item target done refused : Program S CommandOutcome).Within inv.actor may
      w := by
  refine within_perform_bind hop fun x v => ?_
  cases x with
  | error e => exact within_tellActor inv _
  | ok _ => exact within_tellActor inv _

/-- The item that is named first. -/
theorem item_of_argItem {g : Grammar} {f : ItemFilter} {es : List Element}
    (hg : g.elements = ⟨.item f, false⟩ :: es) {params : List String}
    (hargs : inv.args = g.resolve w inv.actor params) (hw : w.Filed) {item : ItemId}
    (hitem : argItem? inv 0 = some item) :
    f.inventory = true ∧ item ∈ w.listing (.inventory inv.actor) ∨
      f.equipment = true ∧ (∃ slot, item ∈ w.listing (.equipped inv.actor slot)) ∨
      f.room = true ∧ ∃ room, w.characterRoom inv.actor = some room ∧
        item ∈ w.listing (.room room) := by
  obtain ⟨arg, harg, hitem⟩ := Option.bind_eq_some_iff.1 hitem
  obtain ⟨args, hresolved, hfirst⟩ := Option.bind_eq_some_iff.1 harg
  rw [hargs] at hresolved
  obtain ⟨param, hbound⟩ := Resolution.bindOne_of_resolve hg hresolved hfirst
  cases arg with
  | item id =>
    cases hitem
    exact Resolution.mem_of_bindOne hw hbound
  | _ => cases hitem

/-- An item that is worn cannot be named where the token does not say so. -/
theorem atHand_of_argItem {g : Grammar} {f : ItemFilter} {es : List Element}
    (hg : g.elements = ⟨.item f, false⟩ :: es) (hf : f.equipment = false) {params : List String}
    (hargs : inv.args = g.resolve w inv.actor params) (hw : w.Filed) {item : ItemId}
    (hitem : argItem? inv 0 = some item) : w.AtHand inv.actor item := by
  rcases item_of_argItem hg hargs hw hitem with ⟨-, hcarried⟩ | ⟨hworn, -⟩ | ⟨-, hlying⟩
  · exact .inl hcarried
  · rw [hf] at hworn
    cases hworn
  · exact .inr hlying

theorem within_get (hop : ∀ item, argItem? inv 0 = some item →
    may.op (.moveItem item (.inventory inv.actor))) :
    (get inv : Program S CommandOutcome).Within inv.actor may w := by
  unfold get
  split
  · exact within_tellActor inv _
  · rename_i item hnamed
    exact within_world_bind (within_moveAndTell (hop item hnamed))

theorem within_drop (hop : ∀ item room, argItem? inv 0 = some item →
    w.characterRoom inv.actor = some room → may.op (.moveItem item (.room room))) :
    (drop inv : Program S CommandOutcome).Within inv.actor may w := by
  refine within_world_bind ?_
  split
  · rename_i item room hnamed hroom
    exact within_moveAndTell (hop item room hnamed hroom)
  · exact within_tellActor inv _

theorem within_give (hop : ∀ item target, argItem? inv 0 = some item →
    may.op (.moveItem item (.inventory target))) :
    (give inv : Program S CommandOutcome).Within inv.actor may w := by
  unfold give
  split
  · rename_i item target hnamed _
    refine within_world_bind (within_perform_bind (hop item target hnamed) fun x v => ?_)
    cases x with
    | error e => exact within_tellActor inv _
    | ok _ => exact within_emit_bind (within_emit_bind (within_pure _))
  · exact within_tellActor inv _

theorem within_equip (hop : ∀ item slot, argItem? inv 0 = some item →
    may.op (.moveItem item (.equipped inv.actor slot))) :
    (equip inv : Program S CommandOutcome).Within inv.actor may w := by
  unfold equip
  split
  · rename_i item slot hnamed _
    exact within_world_bind (within_moveAndTell (hop item slot hnamed))
  · exact within_tellActor inv _

/-! Commands that move the actor, doors, or nothing but time. -/

/-- Going somewhere is allowed if the exit is open to the actor. -/
theorem within_moveActor {d : Direction} {actor : CharacterId} {ok : World.Op → Prop}
    (hexit : ∀ here there, w.characterRoom actor = some here →
      w.exitDestination here d = some there → ok (.moveCharacter actor there)) :
    (moveActor actor d : Program S Bool).Within actor ⟨ok, fun _ => False⟩ w := by
  refine within_world_bind ?_
  split
  · exact within_pure _
  · rename_i here hhere
    split
    · exact within_pure _
    · rename_i there hthere
      refine within_perform_bind (hexit here there hhere hthere) fun x v => ?_
      cases x with
      | error e => exact within_pure _
      | ok _ => exact within_emitRoom_bind (within_emitRoom_bind (within_pure _))

theorem within_go (hop : ∀ d here there, argExit? inv 0 = some d →
    w.characterRoom inv.actor = some here → w.exitDestination here d = some there →
      may.op (.moveCharacter inv.actor there)) (hline : may.line "look") :
    (go inv : Program S CommandOutcome).Within inv.actor may w := by
  have hrest (ok : World.Op → Prop) (moved : Bool) (v : World) :
      (if moved then do
          send inv.actor "look"
          pure .handled
        else tellActor inv "You can't go that way." : Program S CommandOutcome).Within
          inv.actor ⟨ok, may.line⟩ v := by
    cases moved with
    | true => exact within_send_bind hline fun _ => within_pure _
    | false => exact within_tellActor inv _
  unfold go
  dsimp only
  split
  · rename_i d hd
    exact (within_moveActor fun here there => hop d here there hd).bind hrest
  · exact hrest _ false w

/-- Who goes somewhere goes through an exit that is open to it. -/
theorem entitles_go {params : List String} (hw : w.Filed)
    (hargs : ∀ g, goDefinition (S := S).grammar = some g →
      inv.args = g.resolve w inv.actor params) {d : Direction} {here there : RoomId}
    (hd : argExit? inv 0 = some d) (hhere : w.characterRoom inv.actor = some here)
    (hthere : w.exitDestination here d = some there) :
    w.Entitles inv.actor (.moveCharacter inv.actor there) :=
  allows_moveCharacter rfl rfl rfl (hargs _ rfl) hw.exit hd hhere hthere

theorem within_walk {d : Direction} (hdata : inv.data = some (.text d.name)) :
    (walk inv : Program S CommandOutcome).Within inv.actor steps w := by
  unfold walk
  rw [hdata]
  exact within_send_bind ⟨d, rfl⟩ fun _ => within_pure _

/-- A door is opened only if it is not locked. -/
theorem within_setDoor {closed : Bool} (hop : ∀ d room, argExit? inv 0 = some d →
    w.characterRoom inv.actor = some room →
      ¬(!closed && (((w.room? room).bind (·.exit? d)).bind (·.door)).any (·.locked)) = true →
      may.op (.setDoorClosed room d closed)) :
    (setDoor closed inv : Program S CommandOutcome).Within inv.actor may w := by
  unfold setDoor
  dsimp only
  refine within_world_bind ?_
  split
  · rename_i d room hd hroom
    split
    · exact within_tellActor inv _
    · rename_i hlock
      refine within_perform_bind (hop d room hd hroom hlock) fun x v => ?_
      split
      · exact within_emit_bind (within_emitRoom_bind (within_pure _))
      · exact within_pure _
  · exact within_tellActor inv _

/-- A door that is opened is there, and neither open nor locked. -/
theorem respectsLocks_open {g : Grammar} {f : ExitFilter} (hopenable : f.openable = true)
    (hg : g.elements = [⟨.exit f, false⟩]) {params : List String}
    (hargs : inv.args = g.resolve w inv.actor params) (hw : w.Signposted) {d : Direction}
    (hd : argExit? inv 0 = some d) {room : RoomId} (hroom : w.characterRoom inv.actor = some room)
    (hlock : ¬(!false && (((w.room? room).bind (·.exit? d)).bind (·.door)).any (·.locked)) =
      true) :
    w.RespectsLocks (.setDoorClosed room d false) := by
  intro _
  obtain ⟨c, e, -, -, he, haccepts⟩ := exit_of_argExit hg hargs hw hd hroom
  simp only [Resolution.ExitFilter.accepts, hopenable, Bool.and_eq_true] at haccepts
  have hclosed : e.isOpenable = true := by simpa using haccepts.2
  obtain ⟨x, hx, hshut⟩ := (Option.any_eq_true _ _).1 hclosed
  have hdoor : w.doorAt ⟨room, d⟩ = some x := by
    rw [World.doorAt, World.exitAt, he]
    exact hx
  change ¬(!false && (w.doorAt ⟨room, d⟩).any (·.locked)) = true at hlock
  rw [hdoor] at hlock
  exact ⟨x, hdoor, hshut, by simpa using hlock⟩

theorem within_rest (hop : may.op (.putOffBalance inv.actor restDuration)) :
    (rest inv : Program S CommandOutcome).Within inv.actor may w := by
  refine within_perform_bind hop fun x v => ?_
  cases x with
  | error e => exact within_pure _
  | ok _ => exact within_tellActor inv _

theorem within_goto (hop : ∀ room, may.op (.moveCharacter inv.actor room))
    (hline : may.line "look") :
    (goto inv : Program S CommandOutcome).Within inv.actor may w := by
  unfold goto
  dsimp only
  refine within_world_bind ?_
  split
  · exact within_tellActor inv _
  · rename_i room _
    refine within_perform_bind (hop room) fun x v => ?_
    cases x with
    | error e => exact within_tellActor inv _
    | ok _ => exact within_send_bind hline fun _ => within_pure _

theorem mem_standard_of_invoked {registry : Registry (Handler S)}
    (hregistry : addTo .empty = .ok registry) {command : Command} {d : Definition (Handler S)}
    {actor : CharacterId} (h : Invoked registry command w actor d inv) : d ∈ standard := by
  have hword := h.word
  rw [lookup_standard hregistry] at hword
  exact List.mem_of_find?_eq_some hword

/-- Each standard command but those that set out in a direction does at most one thing, which the
actor is entitled to and which respects the locks. -/
theorem lawful_of_invoked {registry : Registry (Handler S)} {command : Command} (hw : w.Filed)
    {d : Definition (Handler S)} (hd : d ∈ standard) {actor : CharacterId}
    (h : Invoked registry command w actor d inv)
    (hstays : ∀ direction, d ≠ walkDefinition direction) :
    (d.run inv).Within actor (lawfulDeeds w actor) w := by
  obtain rfl := h.actor_eq
  have hargs := h.args_eq
  simp only [standard, List.mem_append, List.mem_cons, List.mem_map, List.not_mem_nil,
    or_false] at hd
  rcases hd with (hd | ⟨direction, -, rfl⟩) | hd
  · rcases hd with rfl | rfl | rfl | rfl | rfl | rfl | rfl | rfl | rfl | rfl
    · exact within_look inv
    · exact within_peek inv
    · exact within_say inv
    · exact within_tell inv
    · exact within_get fun _ hitem =>
        ⟨⟨atHand_of_argItem rfl rfl (hargs _ rfl) hw hitem, trivial⟩, trivial⟩
    · exact within_drop fun _ _ hitem hroom =>
        ⟨⟨atHand_of_argItem rfl rfl (hargs _ rfl) hw hitem, hroom⟩, trivial⟩
    · exact within_give fun _ _ hitem =>
        ⟨⟨atHand_of_argItem rfl rfl (hargs _ rfl) hw hitem, trivial⟩, trivial⟩
    · exact within_inventory inv
    · exact within_equip fun _ _ hitem =>
        ⟨⟨atHand_of_argItem rfl rfl (hargs _ rfl) hw hitem, rfl⟩, trivial⟩
    · exact within_go (fun _ _ _ hd hhere hthere =>
        ⟨entitles_go hw hargs hd hhere hthere, trivial⟩) rfl
  · exact absurd rfl (hstays direction)
  · rcases hd with rfl | rfl | rfl | rfl | rfl | rfl | rfl
    · refine within_setDoor fun _ _ hd hroom hlock => ⟨?_, ?_⟩
      · exact allows_setDoorClosed rfl rfl (hargs _ rfl) hw.exit hd hroom hlock
      · exact respectsLocks_open rfl rfl (hargs _ rfl) hw.exit hd hroom hlock
    · refine within_setDoor fun _ _ hd hroom hlock => ⟨?_, fun hopens => absurd hopens (by decide)⟩
      exact allows_setDoorClosed rfl rfl (hargs _ rfl) hw.exit hd hroom hlock
    · exact within_rest ⟨rfl, trivial⟩
    · exact within_who inv
    · obtain ⟨c, hc, hadmin⟩ := h.admits
      exact within_goto (fun _ => ⟨⟨rfl, c, hc, .inl (hadmin rfl)⟩, trivial⟩) rfl
    · exact within_commands inv
    · exact within_talk inv

theorem within_of_invoked {registry : Registry (Handler S)}
    (hregistry : addTo .empty = .ok registry) {command : Command} (hw : w.Filed)
    {d : Definition (Handler S)} {actor : CharacterId}
    (h : Invoked registry command w actor d inv)
    (hstays : ∀ direction, d ≠ walkDefinition direction) :
    (d.run inv).Within actor (deeds w actor) w :=
  (lawful_of_invoked hw (mem_standard_of_invoked hregistry h) h hstays).mono
    (fun _ hop => hop.1) fun _ => id

end StandardCommands

/-- The only registrations are the standard commands, and those are for all. -/
structure Rules.Standard (rules : Rules S) : Prop where
  global : StandardCommands.addTo .empty = .ok rules.registries.global
  only : rules.OnlyGlobal

def standardRules : Rules plainSetting :=
  { chatter with
    registries :=
      { global := StandardCommands.standard.foldl Registry.add .empty
        rooms := .empty
        characters := .empty } }

theorem standard_standardRules : standardRules.Standard where
  global := by rw [StandardCommands.addTo_eq, standardRules]
  only level registry hregistry hlevel := by
    cases level with
    | conversation id => cases hregistry
    | room id => simp [Rules.registry?, standardRules] at hregistry
    | character id => simp [Rules.registry?, standardRules] at hregistry
    | global => exact absurd rfl hlevel

end TextWorld

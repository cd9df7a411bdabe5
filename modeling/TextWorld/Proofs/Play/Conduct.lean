import TextWorld.Play.StandardCommands
import TextWorld.Proofs.Command.Binding
import TextWorld.Proofs.Command.Registering
import TextWorld.Proofs.Engine.Tame

/-!
How the standard commands conduct themselves. Each of them is tame: a door or an exit that a
command handles is one that its grammar let the actor name, and only admins can go to a room by its
name.
-/

namespace TextWorld

theorem World.SameWalls.signposted {w v : World} (h : w.SameWalls v) (hw : w.Signposted) :
    v.Signposted := by
  intro room d e he
  obtain ⟨e₀, he₀, hsame⟩ := h.exists_exit he
  have hdirection : e₀.direction = e.direction := (congrArg Exit.direction hsame :)
  rw [← hdirection]
  exact hw he₀

namespace Resolution

open Grammar

/-- The one argument that an `exit` token makes is an exit that was named. -/
theorem exitNamed_of_resolve {g : Grammar} {f : ExitFilter} (hg : g.elements = [⟨.exit f, false⟩])
    {w : World} {actor : CharacterId} {params : List String} {args : List Argument}
    (h : g.resolve w actor params = some args) {d : Direction}
    (hd : (args[0]?).bind Argument.exit? = some d) :
    ∃ param, exitNamed w actor f param = some d := by
  rw [Grammar.resolve, hg] at h
  cases params with
  | nil => simp [bindAll] at h
  | cons param params =>
    simp only [bindAll, bindOne] at h
    cases hnamed : exitNamed w actor f param with
    | none => simp [hnamed] at h
    | some d' =>
      simp only [hnamed, Option.map_some, Option.some.injEq] at h
      subst h
      cases hd
      exact ⟨param, hnamed⟩

end Resolution

namespace StandardCommands

open Program Grammar

variable {S : Setting} {w : World} {inv : Invocation}

theorem tame_tellActor (inv : Invocation) (text : String) (w : World) :
    (tellActor inv text : Program S CommandOutcome).Tame inv.actor w := by
  rw [tellActor, tame_emit_bind]
  exact tame_pure _

theorem tame_tellOthers (actor who : CharacterId) (text : String) (w : World) :
    (tellOthers who text : Program S Unit).Tame actor w := by
  rw [tellOthers, tame_world_bind]
  split
  · exact tame_emitRoom
  · exact tame_pure _

theorem tame_look (inv : Invocation) (w : World) :
    (look inv : Program S CommandOutcome).Tame inv.actor w := by
  rw [look, tame_world_bind]
  exact tame_tellActor inv _ w

theorem tame_peek (inv : Invocation) (w : World) :
    (peek inv : Program S CommandOutcome).Tame inv.actor w := by
  rw [peek, tame_world_bind]
  exact tame_tellActor inv _ w

theorem tame_say (inv : Invocation) (w : World) :
    (say inv : Program S CommandOutcome).Tame inv.actor w := by
  unfold say
  split
  · exact tame_tellActor inv _ w
  · rw [tame_world_bind]
    exact (tame_tellOthers _ _ _ w).bind fun _ v => tame_tellActor inv _ v

theorem tame_tell (inv : Invocation) (w : World) :
    (tell inv : Program S CommandOutcome).Tame inv.actor w := by
  unfold tell
  split
  · rw [tame_world_bind, tame_emit_bind]
    exact tame_tellActor inv _ w
  · exact tame_tellActor inv _ w

theorem tame_talk (inv : Invocation) (w : World) :
    (talk inv : Program S CommandOutcome).Tame inv.actor w := by
  rw [talk, tame_world_bind]
  exact tame_tellActor inv _ w

theorem tame_moveAndTell (inv : Invocation) (item : ItemId) (target : ItemLocation)
    (done refused : String) (w : World) :
    (moveAndTell inv item target done refused : Program S CommandOutcome).Tame inv.actor w := by
  refine tame_perform_bind trivial fun x v => ?_
  cases x with
  | error e => exact tame_tellActor inv _ v
  | ok _ => exact tame_tellActor inv _ v

theorem tame_get (inv : Invocation) (w : World) :
    (get inv : Program S CommandOutcome).Tame inv.actor w := by
  unfold get
  split
  · exact tame_tellActor inv _ w
  · rw [tame_world_bind]
    exact tame_moveAndTell inv _ _ _ _ w

theorem tame_drop (inv : Invocation) (w : World) :
    (drop inv : Program S CommandOutcome).Tame inv.actor w := by
  rw [drop, tame_world_bind]
  split
  · exact tame_moveAndTell inv _ _ _ _ w
  · exact tame_tellActor inv _ w

theorem tame_give (inv : Invocation) (w : World) :
    (give inv : Program S CommandOutcome).Tame inv.actor w := by
  unfold give
  split
  · rw [tame_world_bind]
    refine tame_perform_bind trivial fun x v => ?_
    cases x with
    | error e => exact tame_tellActor inv _ v
    | ok _ =>
      dsimp only
      rw [tame_emit_bind, tame_emit_bind]
      exact tame_pure _
  · exact tame_tellActor inv _ w

theorem tame_inventory (inv : Invocation) (w : World) :
    (inventory inv : Program S CommandOutcome).Tame inv.actor w := by
  rw [inventory, tame_world_bind]
  split
  · exact tame_pure _
  · exact tame_tellActor inv _ w

theorem tame_equip (inv : Invocation) (w : World) :
    (equip inv : Program S CommandOutcome).Tame inv.actor w := by
  unfold equip
  split
  · rw [tame_world_bind]
    exact tame_moveAndTell inv _ _ _ _ w
  · exact tame_tellActor inv _ w

theorem tame_walk (inv : Invocation) (w : World) :
    (walk inv : Program S CommandOutcome).Tame inv.actor w := by
  unfold walk
  split
  · exact tame_pure _
  · rw [tame_send_bind]
    exact ⟨rfl, tame_pure _⟩

theorem tame_rest (inv : Invocation) (w : World) :
    (rest inv : Program S CommandOutcome).Tame inv.actor w := by
  refine tame_perform_bind trivial fun x v => ?_
  cases x with
  | error e => exact tame_pure _
  | ok _ => exact tame_tellActor inv _ v

theorem tame_who (inv : Invocation) (w : World) :
    (who inv : Program S CommandOutcome).Tame inv.actor w := by
  rw [who, tame_world_bind]
  exact tame_tellActor inv _ w

theorem tame_commands (inv : Invocation) (w : World) :
    (commands inv : Program S CommandOutcome).Tame inv.actor w := by
  rw [commands, tame_world_bind, tame_catalogue_bind]
  exact fun _ => tame_tellActor inv _ w

theorem tame_moveActor {actor : CharacterId} {d : Direction}
    (hexit : ∀ here there, w.characterRoom actor = some here →
      w.exitDestination here d = some there → w.Allows actor (.moveCharacter actor there)) :
    (moveActor actor d : Program S Bool).Tame actor w := by
  rw [moveActor, tame_world_bind]
  split
  · exact tame_pure _
  · rename_i here hhere
    split
    · exact tame_pure _
    · rename_i there hthere
      refine tame_perform_bind (hexit here there hhere hthere) fun x v => ?_
      cases x with
      | error e => exact tame_pure _
      | ok _ =>
        dsimp only
        rw [tame_emitRoom_bind, tame_emitRoom_bind]
        exact tame_pure _

/-- The exit that an argument of an `exit` token stands for, as the actor has it before it. -/
theorem exit_of_argExit {g : Grammar} {f : ExitFilter} (hg : g.elements = [⟨.exit f, false⟩])
    {params : List String} (hargs : inv.args = g.resolve w inv.actor params) (hw : w.Signposted)
    {d : Direction} (hd : argExit? inv 0 = some d) {here : RoomId}
    (hhere : w.characterRoom inv.actor = some here) :
    ∃ c e, w.character? inv.actor = some c ∧ c.room = some here ∧ w.exit? here d = some e ∧
      Resolution.ExitFilter.accepts f c e = true := by
  obtain ⟨arg, harg, hexit⟩ := Option.bind_eq_some_iff.1 hd
  obtain ⟨args, hresolved, hfirst⟩ := Option.bind_eq_some_iff.1 harg
  rw [hargs] at hresolved
  have hnamed : (args[0]?).bind Argument.exit? = some d := by
    rw [hfirst]
    exact hexit
  obtain ⟨param, hparam⟩ := Resolution.exitNamed_of_resolve hg hresolved hnamed
  obtain ⟨c, here', e, hc, hroom, he, haccepts⟩ := Resolution.exit_of_exitNamed hw hparam
  rw [World.characterRoom_eq, hc, Option.bind_some, hroom] at hhere
  cases hhere
  exact ⟨c, e, hc, hroom, he, haccepts⟩

/-- Going where an argument leads is allowed if it stands for an exit that is open to the actor. -/
theorem allows_moveCharacter {g : Grammar} {f : ExitFilter} (hvisible : f.visible = true)
    (hpassable : f.passable = true) (hg : g.elements = [⟨.exit f, false⟩]) {params : List String}
    (hargs : inv.args = g.resolve w inv.actor params) (hw : w.Signposted) {d : Direction}
    (hd : argExit? inv 0 = some d) {here there : RoomId}
    (hhere : w.characterRoom inv.actor = some here)
    (hthere : w.exitDestination here d = some there) :
    w.Allows inv.actor (.moveCharacter inv.actor there) := by
  obtain ⟨c, e, hc, hroom, he, haccepts⟩ := exit_of_argExit hg hargs hw hd hhere
  simp only [Resolution.ExitFilter.accepts, hvisible, hpassable, Bool.and_eq_true] at haccepts
  exact ⟨rfl, c, hc, .inr ⟨here, d, e, hroom, he, by simpa using haccepts.1.1.1.1,
    by simpa using haccepts.1.1.1.2, hthere⟩⟩

/-- A lock keeps a door from being opened, and nobody opens or closes a door that is hidden. -/
theorem allows_setDoorClosed {g : Grammar} {f : ExitFilter} (hvisible : f.visible = true)
    (hg : g.elements = [⟨.exit f, false⟩]) {params : List String}
    (hargs : inv.args = g.resolve w inv.actor params) (hw : w.Signposted) {d : Direction}
    (hd : argExit? inv 0 = some d) {room : RoomId} (hroom : w.characterRoom inv.actor = some room)
    {closed : Bool} (hlock : ¬(!closed &&
      (((w.room? room).bind (·.exit? d)).bind (·.door)).any (·.locked)) = true) :
    w.Allows inv.actor (.setDoorClosed room d closed) := by
  obtain ⟨c, e, hc, hhere, he, haccepts⟩ := exit_of_argExit hg hargs hw hd hroom
  simp only [Resolution.ExitFilter.accepts, hvisible, Bool.and_eq_true] at haccepts
  refine ⟨c, e, hc, hhere, he, by simpa using haccepts.1.1.1.1, fun hopening => ?_⟩
  have hdoor : ((w.room? room).bind (·.exit? d)).bind (·.door) = e.door := by
    change (w.exit? room d).bind (·.door) = e.door
    rw [he]
    rfl
  rw [hdoor, hopening] at hlock
  simpa using hlock

theorem tame_go {g : Grammar} (hg : g.elements = [⟨.exit ⟨true, true, false, false, false⟩, false⟩])
    {params : List String} (hargs : inv.args = g.resolve w inv.actor params)
    (hw : w.Signposted) : (go inv : Program S CommandOutcome).Tame inv.actor w := by
  have hrest (moved : Bool) (v : World) :
      (if moved then do
          send inv.actor "look"
          pure .handled
        else tellActor inv "You can't go that way." : Program S CommandOutcome).Tame
          inv.actor v := by
    cases moved with
    | true =>
      rw [if_pos rfl, tame_send_bind]
      exact ⟨rfl, tame_pure _⟩
    | false => exact tame_tellActor inv _ v
  unfold go
  dsimp only
  split
  · rename_i d hd
    have hmove : (moveActor inv.actor d : Program S Bool).Tame inv.actor w :=
      tame_moveActor fun _ _ hhere hthere =>
        allows_moveCharacter rfl rfl hg hargs hw hd hhere hthere
    exact hmove.bind hrest
  · exact hrest false w

theorem tame_setDoor {closed : Bool} {g : Grammar} {f : ExitFilter} (hf : f.visible = true)
    (hg : g.elements = [⟨.exit f, false⟩]) {params : List String}
    (hargs : inv.args = g.resolve w inv.actor params) (hw : w.Signposted) :
    (setDoor closed inv : Program S CommandOutcome).Tame inv.actor w := by
  unfold setDoor
  dsimp only
  rw [tame_world_bind]
  split
  · rename_i d room hd hroom
    split
    · exact tame_tellActor inv _ w
    · rename_i hlock
      have hallows := allows_setDoorClosed hf hg hargs hw hd hroom hlock
      refine tame_perform_bind hallows fun x v => ?_
      split
      · rw [tame_emit_bind, tame_emitRoom_bind]
        exact tame_pure _
      · exact tame_pure _
  · exact tame_tellActor inv _ w

theorem tame_goto (hadmin : ∀ c, w.character? inv.actor = some c → c.isAdmin = true)
    (hthere : (w.character? inv.actor).isSome) :
    (goto inv : Program S CommandOutcome).Tame inv.actor w := by
  unfold goto
  dsimp only
  rw [tame_world_bind]
  split
  · exact tame_tellActor inv _ w
  · rename_i room _
    obtain ⟨c, hc⟩ := Option.isSome_iff_exists.1 hthere
    refine tame_perform_bind ⟨rfl, c, hc, .inl (hadmin c hc)⟩ fun x v => ?_
    cases x with
    | error e => exact tame_tellActor inv _ v
    | ok _ =>
      dsimp only
      rw [tame_send_bind]
      exact ⟨rfl, tame_pure _⟩

/-- The standard commands with their grammars as they are compiled. -/
def standard : List (Definition (Handler S)) :=
  [(Definition.named "look" look).withAliases ["l"],
    { Definition.named "peek" peek with
      grammar := some ⟨"exit.visible.peekable",
        [⟨.exit ⟨true, false, true, false, false⟩, false⟩]⟩ },
    { (Definition.named "say" say).withAliases ["'"] with
      grammar := some ⟨"string", [⟨.rest, false⟩]⟩ },
    { Definition.named "tell" tell with
      grammar := some ⟨"char.zone.player.noself string",
        [⟨.character ⟨.zone, true, false, true⟩, false⟩, ⟨.rest, false⟩]⟩ },
    { (Definition.named "get" get).withAliases ["take"] with
      grammar := some ⟨"item.room", [⟨.item ⟨false, false, true⟩, false⟩]⟩ },
    { Definition.named "drop" drop with
      grammar := some ⟨"item.inv", [⟨.item ⟨true, false, false⟩, false⟩]⟩ },
    { Definition.named "give" give with
      grammar := some ⟨"item.inv [to] char.room.noself",
        [⟨.item ⟨true, false, false⟩, false⟩, ⟨.literal "to", true⟩,
          ⟨.character ⟨.room, true, false, false⟩, false⟩]⟩ },
    (Definition.named "inventory" inventory).withAliases ["i", "inv"],
    { (Definition.named "equip" equip).withAliases ["wear"] with
      grammar := some ⟨"item.inv [on] word",
        [⟨.item ⟨true, false, false⟩, false⟩, ⟨.literal "on", true⟩, ⟨.word, false⟩]⟩ },
    { Definition.named "go" go with
      grammar := some ⟨"exit.visible.passable",
        [⟨.exit ⟨true, true, false, false, false⟩, false⟩]⟩ }]
    ++ Direction.all.map walkDefinition
    ++ [{ Definition.named "open" (setDoor false) with
        grammar := some ⟨"exit.visible.openable",
          [⟨.exit ⟨true, false, false, false, true⟩, false⟩]⟩ },
      { Definition.named "close" (setDoor true) with
        grammar := some ⟨"exit.visible.closeable",
          [⟨.exit ⟨true, false, false, true, false⟩, false⟩]⟩ },
      (Definition.named "rest" rest).needingBalance, Definition.named "who" who,
      { (Definition.named "goto" goto).forAdmins with
        grammar := some ⟨"word", [⟨.word, false⟩]⟩ },
      Definition.named "commands" commands,
      { Definition.named "talk" talk with
        grammar := some ⟨"char.room.noself", [⟨.character ⟨.room, true, false, false⟩, false⟩]⟩ }]

/-- None of the grammars is malformed. -/
theorem definitions_eq :
    (definitions : Except Error (List (Definition (Handler S)))) = .ok standard := by
  rfl

/-- Each standard command is tame when it is run for an actor that may use it. -/
theorem tame_of_mem_standard {d : Definition (Handler S)} (hd : d ∈ standard) (hw : w.Signposted)
    {c : Character} (hc : w.character? inv.actor = some c)
    (hadmin : d.adminOnly = true → c.isAdmin = true) {params : List String}
    (hargs : ∀ g, d.grammar = some g → inv.args = g.resolve w inv.actor params) :
    (d.run inv).Tame inv.actor w := by
  simp only [standard, List.mem_append, List.mem_cons, List.mem_map, List.not_mem_nil,
    or_false] at hd
  rcases hd with (hd | ⟨direction, -, rfl⟩) | hd
  · rcases hd with rfl | rfl | rfl | rfl | rfl | rfl | rfl | rfl | rfl | rfl
    · exact tame_look inv w
    · exact tame_peek inv w
    · exact tame_say inv w
    · exact tame_tell inv w
    · exact tame_get inv w
    · exact tame_drop inv w
    · exact tame_give inv w
    · exact tame_inventory inv w
    · exact tame_equip inv w
    · exact tame_go rfl (hargs _ rfl) hw
  · exact tame_walk inv w
  · rcases hd with rfl | rfl | rfl | rfl | rfl | rfl | rfl
    · exact tame_setDoor rfl rfl (hargs _ rfl) hw
    · exact tame_setDoor rfl rfl (hargs _ rfl) hw
    · exact tame_rest inv w
    · exact tame_who inv w
    · refine tame_goto (fun c' hc' => ?_) (Option.isSome_of_eq_some hc)
      rw [hc] at hc'
      cases hc'
      exact hadmin rfl
    · exact tame_commands inv w
    · exact tame_talk inv w

end StandardCommands

end TextWorld

import TextWorld.Proofs.Command.Scope
import TextWorld.Proofs.Engine.Telling
import TextWorld.Proofs.Play.Authority

/-!
Whom the standard commands speak to. A line concerns its actor, those who are in the same room as
the actor before it and those who are afterwards, and one player further away if the actor tells it
something; nobody else hears of it.
-/

namespace TextWorld

variable {S : Setting}

open Grammar (Scope)

/-- A player somewhere in the zone of the actor. -/
def World.Fellow (w : World) (actor id : CharacterId) : Prop :=
  Scope.zone.Reaches w actor id ∧ ∃ c, w.character? id = some c ∧ c.isPlayer = true

/-- Whoever hears of a deed of the actor is in its room, before or afterwards, or is the only one
and the actor addresses it from afar; and each hears of it once, unless the actor has left a room
only to come back to it. -/
structure Concerned (w : World) (actor : CharacterId) (afar : Prop) (ops : List World.Op)
    (v : World) (others : List CharacterId) : Prop where
  near : ∀ x ∈ others, Scope.room.Reaches w actor x ∨ Scope.room.Reaches v actor x ∨
    afar ∧ others = [x] ∧ w.Fellow actor x
  once : others.Nodup ∨ ∃ room, ops = [.moveCharacter actor room] ∧
    w.characterRoom actor = some room ∧ v.characterRoom actor = some room

namespace Concerned

variable {w v : World} {actor : CharacterId} {afar : Prop} {ops : List World.Op}

theorem nobody : Concerned w actor afar ops v [] := ⟨List.forall_mem_nil _, .inl .nil⟩

theorem of_nothing {others : List CharacterId} (h : Report.Nothing w ops v others) :
    Concerned w actor afar ops v others := by
  obtain ⟨rfl, rfl, rfl⟩ := h
  exact nobody

theorem mono {afar' : Prop} {others : List CharacterId}
    (h : Concerned w actor afar ops v others) (hafar : afar → afar') :
    Concerned w actor afar' ops v others :=
  ⟨fun x hx => (h.near x hx).imp_right (Or.imp_right fun ⟨haf, hrest⟩ => ⟨hafar haf, hrest⟩),
    h.once⟩

/-- Those beside the actor in the end. -/
theorem company (hv : v.Seated) {room : RoomId} (hroom : v.characterRoom actor = some room) :
    Concerned w actor afar ops v ((v.attendance (.room room)).filter (· ≠ actor)) where
  near x hx := by
    obtain ⟨here, hhere, rfl⟩ := (hv.listed x _).1 (List.mem_filter.1 hx).1
    exact .inr (.inl ⟨_, hroom, hhere⟩)
  once := .inl ((hv.once _).filter _)

/-- Those left behind in one room and those met in the other. -/
theorem company_moved (hw : w.Reachable) {here there : RoomId}
    (hhere : w.characterRoom actor = some here)
    (hmoved : w.moveCharacter actor there = (.ok (), v)) :
    Concerned w actor afar [.moveCharacter actor there] v
      ((v.attendance (.room here)).filter (· ≠ actor) ++
        (v.attendance (.room there)).filter (· ≠ actor)) := by
  obtain ⟨hv, hlists⟩ := hw.seated.moveCharacter_spec hw.sound.toSkeleton actor there
  rw [hmoved] at hv hlists
  have hleft (roll : World.Roll) : (v.attendance roll).filter (· ≠ actor) =
      (w.attendance roll).filter (· ≠ actor) := by
    rw [hlists rfl, List.filter_append, List.filter_filter]
    split <;> simp
  have harrived : v.characterRoom actor = some there := by
    have hlisted : actor ∈ v.attendance (.room there) := by
      have hcovers : w.Covers there (.room there) := rfl
      rw [hlists rfl, if_pos hcovers]
      exact List.mem_append_right _ List.mem_cons_self
    obtain ⟨room, hroom, rfl⟩ := (hv.listed actor _).1 hlisted
    exact hroom
  have hseated := hw.seated
  constructor
  · intro x hx
    rcases List.mem_append.1 hx with hbehind | hmet
    · rw [hleft] at hbehind
      obtain ⟨room, hroom, rfl⟩ := (hseated.listed x _).1 (List.mem_filter.1 hbehind).1
      exact .inl ⟨_, hhere, hroom⟩
    · obtain ⟨room, hroom, rfl⟩ := (hv.listed x _).1 (List.mem_filter.1 hmet).1
      exact .inr (.inl ⟨_, harrived, hroom⟩)
  · by_cases hsame : here = there
    · subst hsame
      exact .inr ⟨here, rfl, hhere, harrived⟩
    · -- Nobody is in both rooms.
      refine .inl (List.nodup_append.2 ⟨(hv.once _).filter _, (hv.once _).filter _, ?_⟩)
      rintro x hbehind _ hmet rfl
      obtain ⟨room, hroom, rfl⟩ := (hv.listed x _).1 (List.mem_filter.1 hbehind).1
      obtain ⟨room', hroom', rfl⟩ := (hv.listed x _).1 (List.mem_filter.1 hmet).1
      exact hsame (Option.some.inj (hroom.symm.trans hroom'))

/-- Somebody who was beside the actor. -/
theorem beside {x : CharacterId} (h : Scope.room.Reaches w actor x) :
    Concerned w actor afar ops v ([x].filter (· ≠ actor)) where
  near y hy := by
    obtain rfl := List.mem_singleton.1 (List.mem_filter.1 hy).1
    exact .inl h
  once := .inl ((List.pairwise_singleton _ x).filter _)

/-- A player who is addressed from afar. -/
theorem fellow {x : CharacterId} (hafar : afar) (hother : x ≠ actor) (h : w.Fellow actor x) :
    Concerned w actor afar ops v ([x].filter (· ≠ actor)) where
  near y hy := by
    obtain rfl := List.mem_singleton.1 (List.mem_filter.1 hy).1
    exact .inr (.inr ⟨hafar, by simp [hother], h⟩)
  once := .inl ((List.pairwise_singleton _ x).filter _)

end Concerned

namespace StandardCommands

open Program Grammar

variable {w : World} {inv : Invocation} {Q : Report}

/-- A character that is named is one that its token asks for. -/
theorem admits_of_argCharacter (hw : w.Reachable) {g : Grammar} {i : Nat} {f : CharacterFilter}
    (htoken : (valuedTokens g.elements)[i]? = some (.character f)) {params : List String}
    (hargs : inv.args = g.resolve w inv.actor params) {target : CharacterId}
    (htarget : argCharacter? inv i = some target) : f.Admits w inv.actor target := by
  obtain ⟨arg, harg, htarget⟩ := Option.bind_eq_some_iff.1 htarget
  obtain ⟨args, hresolved, hith⟩ := Option.bind_eq_some_iff.1 harg
  rw [hargs] at hresolved
  obtain ⟨bs, rfl, htokens, -, hscope⟩ := resolve_in_scope hw hresolved
  rw [List.getElem?_map] at hith
  obtain ⟨b, hb, rfl⟩ := Option.map_eq_some_iff.1 hith
  have hbtoken : b.token = .character f := by
    have hith : (bs.map (·.token))[i]? = some b.token := by
      rw [List.getElem?_map, hb]
      rfl
    obtain ⟨rest, hrest⟩ := htokens
    rw [← hrest, List.getElem?_append_left (List.getElem?_eq_some_iff.1 hith).1, hith] at htoken
    exact Option.some.inj htoken
  have hin := hscope b (List.mem_of_getElem? hb)
  unfold Resolution.Binding.InScope at hin
  rw [hbtoken] at hin
  cases hargument : b.argument with
  | character id =>
    rw [hargument] at hin htarget
    cases htarget
    exact hin
  | _ => rw [hargument] at htarget; cases htarget

theorem speaks_tellActor {text : String} (h : Q [] w []) :
    (tellActor inv text : Program S CommandOutcome).Speaks inv.actor Q w :=
  speaks_emit_self_bind (speaks_pure h)

/-! Commands that speak to nobody else. -/

section

variable (hQ : ∀ ops v, Q ops v [])
include hQ

theorem speaks_look : (look inv : Program S CommandOutcome).Speaks inv.actor Q w :=
  speaks_world_bind (speaks_tellActor (hQ _ _))

theorem speaks_peek : (peek inv : Program S CommandOutcome).Speaks inv.actor Q w :=
  speaks_world_bind (speaks_tellActor (hQ _ _))

theorem speaks_talk : (talk inv : Program S CommandOutcome).Speaks inv.actor Q w :=
  speaks_world_bind (speaks_tellActor (hQ _ _))

theorem speaks_who : (who inv : Program S CommandOutcome).Speaks inv.actor Q w :=
  speaks_world_bind (speaks_tellActor (hQ _ _))

theorem speaks_commands : (commands inv : Program S CommandOutcome).Speaks inv.actor Q w :=
  speaks_world_bind (speaks_catalogue_bind fun _ => speaks_tellActor (hQ _ _))

theorem speaks_inventory : (inventory inv : Program S CommandOutcome).Speaks inv.actor Q w := by
  refine speaks_world_bind ?_
  split
  · exact speaks_pure (hQ _ _)
  · exact speaks_tellActor (hQ _ _)

theorem speaks_moveAndTell {item : ItemId} {target : ItemLocation} {done refused : String} :
    (moveAndTell inv item target done refused : Program S CommandOutcome).Speaks inv.actor Q w := by
  refine speaks_perform_bind (hQ _ _) fun x v _ => ?_
  cases x with
  | error e => exact speaks_tellActor (hQ _ _)
  | ok _ => exact speaks_tellActor (hQ _ _)

theorem speaks_get : (get inv : Program S CommandOutcome).Speaks inv.actor Q w := by
  unfold get
  split
  · exact speaks_tellActor (hQ _ _)
  · exact speaks_world_bind (speaks_moveAndTell hQ)

theorem speaks_drop : (drop inv : Program S CommandOutcome).Speaks inv.actor Q w := by
  refine speaks_world_bind ?_
  split
  · exact speaks_moveAndTell hQ
  · exact speaks_tellActor (hQ _ _)

theorem speaks_equip : (equip inv : Program S CommandOutcome).Speaks inv.actor Q w := by
  unfold equip
  split
  · exact speaks_world_bind (speaks_moveAndTell hQ)
  · exact speaks_tellActor (hQ _ _)

theorem speaks_walk : (walk inv : Program S CommandOutcome).Speaks inv.actor Q w := by
  unfold walk
  split
  · exact speaks_pure (hQ _ _)
  · exact speaks_send_bind (speaks_pure (hQ _ _))

theorem speaks_rest : (rest inv : Program S CommandOutcome).Speaks inv.actor Q w := by
  refine speaks_perform_bind (hQ _ _) fun x v _ => ?_
  cases x with
  | error e => exact speaks_pure (hQ _ _)
  | ok _ => exact speaks_tellActor (hQ _ _)

/-- Admins come and go by name without a word to those they leave or meet. -/
theorem speaks_goto : (goto inv : Program S CommandOutcome).Speaks inv.actor Q w := by
  unfold goto
  dsimp only
  refine speaks_world_bind ?_
  split
  · exact speaks_tellActor (hQ _ _)
  · refine speaks_perform_bind (hQ _ _) fun x v _ => ?_
    cases x with
    | error e => exact speaks_tellActor (hQ _ _)
    | ok _ => exact speaks_send_bind (speaks_pure (hQ _ _))

end

/-! Commands that others hear of. -/

variable {afar : Prop} {params : List String}

theorem speaks_tellOthers (hw : w.Seated) {text : String} :
    (tellOthers inv.actor text : Program S Unit).Speaks inv.actor (Concerned w inv.actor afar)
      w := by
  refine speaks_world_bind ?_
  split
  · rename_i room hroom
    refine speaks_emitRoom_bind (f := pure) (speaks_pure ?_)
    rw [List.append_nil]
    exact .company hw hroom
  · exact speaks_pure .nobody

theorem speaks_say (hw : w.Seated) : (say inv : Program S CommandOutcome).Speaks inv.actor
    (Concerned w inv.actor afar) w := by
  unfold say
  split
  · exact speaks_tellActor .nobody
  · exact speaks_world_bind
      ((speaks_tellOthers hw).bind fun _ _ => speaks_tellActor ⟨rfl, rfl, rfl⟩)

/-- Whom one tells something is a player in the same zone. -/
theorem speaks_tell (hafar : afar)
    (htarget : ∀ target, argCharacter? inv 0 = some target →
      target ≠ inv.actor ∧ w.Fellow inv.actor target) :
    (tell inv : Program S CommandOutcome).Speaks inv.actor (Concerned w inv.actor afar) w := by
  unfold tell
  split
  · rename_i target _ hnamed _
    obtain ⟨hother, hfellow⟩ := htarget target hnamed
    refine speaks_world_bind (speaks_emit_bind (speaks_tellActor ?_))
    rw [List.append_nil]
    exact .fellow hafar hother hfellow
  · exact speaks_tellActor .nobody

theorem speaks_give (htarget : ∀ target, argCharacter? inv 1 = some target →
      Scope.room.Reaches w inv.actor target) :
    (give inv : Program S CommandOutcome).Speaks inv.actor (Concerned w inv.actor afar) w := by
  unfold give
  split
  · rename_i item target _ hnamed
    refine speaks_world_bind (speaks_perform_bind .nobody fun x v _ => ?_)
    cases x with
    | error e => exact speaks_tellActor .nobody
    | ok _ =>
      refine speaks_emit_self_bind (speaks_emit_bind (speaks_pure ?_))
      rw [List.append_nil]
      exact .beside (htarget target hnamed)
  · exact speaks_tellActor .nobody

theorem speaks_moveActor (hw : w.Reachable) {d : Direction} :
    (moveActor inv.actor d : Program S Bool).Speaks inv.actor (Concerned w inv.actor afar) w := by
  refine speaks_world_bind ?_
  split
  · exact speaks_pure .nobody
  · rename_i here hhere
    split
    · exact speaks_pure .nobody
    · rename_i there _
      refine speaks_perform_bind .nobody fun x v hmoved => ?_
      cases x with
      | error e => exact speaks_pure .nobody
      | ok _ =>
        refine speaks_emitRoom_bind (speaks_emitRoom_bind (speaks_pure ?_))
        rw [List.append_nil]
        exact .company_moved hw hhere (Option.some.inj hmoved)

theorem speaks_go (hw : w.Reachable) :
    (go inv : Program S CommandOutcome).Speaks inv.actor (Concerned w inv.actor afar) w := by
  have hrest (moved : Bool) (v : World) : (if moved then do
        send inv.actor "look"
        pure .handled
      else tellActor inv "You can't go that way." : Program S CommandOutcome).Speaks inv.actor
        (.Nothing v) v := by
    cases moved with
    | true => exact speaks_send_bind (speaks_pure ⟨rfl, rfl, rfl⟩)
    | false => exact speaks_tellActor ⟨rfl, rfl, rfl⟩
  unfold go
  dsimp only
  split
  · exact (speaks_moveActor hw).bind hrest
  · exact (hrest false w).mono fun _ _ _ => .of_nothing

theorem speaks_setDoor (hw : w.Reachable) {closed : Bool} :
    (setDoor closed inv : Program S CommandOutcome).Speaks inv.actor
      (Concerned w inv.actor afar) w := by
  unfold setDoor
  dsimp only
  refine speaks_world_bind ?_
  split
  · rename_i d room _ hroom
    split
    · exact speaks_tellActor .nobody
    · refine speaks_perform_bind .nobody fun x v hset => ?_
      split
      · refine speaks_emit_self_bind (speaks_emitRoom_bind (speaks_pure ?_))
        rw [List.append_nil]
        -- A door moves nobody.
        have hseats := World.sameSeats_setDoorClosed w room d closed
        rw [Option.some.inj hset] at hseats
        exact .company (hw.seated.same hseats) ((hseats.characterRoom _).trans hroom)
      · exact speaks_pure .nobody
  · exact speaks_tellActor .nobody

/-- Each standard command speaks only to those it concerns, and to one who is further away only if
its word is `tell`. -/
theorem speaks_of_invoked (hw : w.Reachable) {command : Command}
    {registry : Registry (Handler S)} (hregistry : addTo .empty = .ok registry)
    {d : Definition (Handler S)} {actor : CharacterId}
    (h : Invoked registry command w actor d inv) :
    (d.run inv).Speaks actor (Concerned w actor (Text.lowercase command.word = "tell")) w := by
  have hword := h.word
  rw [lookup_standard hregistry] at hword
  have hanswers := List.find?_some hword
  have hd := List.mem_of_find?_eq_some hword
  have hargs := h.args_eq
  obtain rfl := h.actor_eq
  have hnobody (ops : List World.Op) (v : World) :
      Concerned w inv.actor (Text.lowercase command.word = "tell") ops v [] := .nobody
  simp only [standard, List.mem_append, List.mem_cons, List.mem_map, List.not_mem_nil,
    or_false] at hd
  rcases hd with (hd | ⟨direction, -, rfl⟩) | hd
  · rcases hd with rfl | rfl | rfl | rfl | rfl | rfl | rfl | rfl | rfl | rfl
    · exact speaks_look hnobody
    · exact speaks_peek hnobody
    · exact speaks_say hw.seated
    · refine speaks_tell ?_ fun target htarget => ?_
      · have hlower : Text.lowercase "tell" = "tell" := by decide
        simpa [Definition.answers, Definition.named, hlower] using hanswers
      · have hadmits := admits_of_argCharacter hw rfl (hargs _ rfl) htarget
        obtain ⟨c, hc, -, hplayer⟩ := hadmits.sort
        exact ⟨hadmits.other rfl, hadmits.near, c, hc, hplayer rfl⟩
    · exact speaks_get hnobody
    · exact speaks_drop hnobody
    · refine speaks_give fun target htarget => ?_
      exact (admits_of_argCharacter hw rfl (hargs _ rfl) htarget).near
    · exact speaks_inventory hnobody
    · exact speaks_equip hnobody
    · exact speaks_go hw
  · exact speaks_walk hnobody
  · rcases hd with rfl | rfl | rfl | rfl | rfl | rfl | rfl
    · exact speaks_setDoor hw
    · exact speaks_setDoor hw
    · exact speaks_rest hnobody
    · exact speaks_who hnobody
    · exact speaks_goto hnobody
    · exact speaks_commands hnobody
    · exact speaks_talk hnobody

end StandardCommands

open StandardCommands

theorem Command.lowercase_word (line : String) :
    Text.lowercase (Command.ofLine line).word = (Command.ofLine line).word := by
  unfold ofLine
  split
  · have hempty : Text.lowercase "" = "" := by decide
    exact hempty
  · exact Text.lowercase_lowercase _

namespace Rules.Standard

variable {rules : Rules S} {actor : CharacterId} {s : State S} (h : rules.Standard)
include h

section

variable (hquiet : activeConversation s.world s.forest actor = none)
include hquiet

/-- Looking around nobody else notices. -/
theorem discreet_look (depth : Nat) :
    (rules.dispatchLine depth actor "look").Discreet actor s := by
  refine tells_dispatchLine h.only hquiet ⟨rfl, rfl, rfl⟩ fun d inv hinv => ?_
  have hword : (Command.ofLine "look").word = "look" := by decide
  have hd := hinv.word
  rw [hword, lookup_look h.global] at hd
  cases hd
  obtain rfl := hinv.actor_eq
  exact Program.speaks_world_bind (speaks_tellActor ⟨rfl, rfl, rfl⟩)

/-- A direction by itself is not heard of before the actor goes there. -/
theorem discreet_walk (depth : Nat) {line : String} {direction : Direction}
    (hwalk : rules.registries.global.lookup (Command.ofLine line).word =
      some (walkDefinition direction)) :
    (rules.dispatchLine depth actor line).Discreet actor s := by
  refine tells_dispatchLine h.only hquiet ⟨rfl, rfl, rfl⟩ fun d inv hinv => ?_
  have hd := hinv.word
  rw [hwalk] at hd
  cases hd
  obtain rfl := hinv.actor_eq
  change (walk inv).Speaks inv.actor _ _
  unfold walk
  rw [hinv.data_eq]
  exact Program.speaks_send_bind (Program.speaks_pure ⟨rfl, rfl, rfl⟩)

/-- A line by itself speaks to those it concerns. -/
theorem tells_line (hw : s.world.Reachable) (depth : Nat) (line : String) :
    (rules.dispatchLine depth actor line).Tells actor
      (Concerned s.world actor ((Command.ofLine line).word = "tell")) s := by
  refine tells_dispatchLine h.only hquiet .nobody fun d inv hinv => ?_
  have hspeaks := speaks_of_invoked hw h.global hinv
  rwa [Command.lowercase_word] at hspeaks

theorem discreet_drain_look {depth : Nat}
    (hqueue : s.followUps.toList = [] ∨
      ∃ text, text = "look" ∧ s.followUps.toList = [⟨actor, text, depth⟩])
    (generations : Nat) : (rules.drainGenerations generations).Discreet actor s := by
  rcases hqueue with hempty | ⟨_, rfl, hlook⟩
  · exact discreet_drainGenerations hempty generations
  · have hquiet' : activeConversation ({ s with followUps := .empty } : State S).world
        ({ s with followUps := .empty } : State S).forest actor = none := hquiet
    refine tells_drainGenerations hlook ⟨rfl, rfl, rfl⟩ (h.discreet_look hquiet' depth) ?_
      generations
    intro generations
    exact (h.never_look hquiet' depth).ensures.mono fun _ t ht =>
      discreet_drainGenerations ht.2 generations

/-- What may follow a line that does one thing to the world is not heard by others. -/
theorem discreet_after {m : Run S DispatchOutcome} {depth : Nat}
    (hidle : s.followUps.toList = [])
    (hm : m.Once (s.world.Entitles actor)
      (fun _ t => t.forest = s.forest ∧ s.Queues actor depth (· = "look") t) s)
    (generations : Nat) :
    m.Ensures (fun _ t => (rules.drainGenerations generations).Discreet actor t) s := by
  refine hm.leaves.ensures.mono fun _ t ht => ?_
  obtain ⟨⟨hforest, hqueue⟩, hworld⟩ := ht
  refine h.discreet_drain_look ?_ (queued_cases hidle hqueue) generations
  rw [hforest]
  rcases hworld with hsame | ⟨op, hop, hafter⟩
  · rw [hsame]
    exact hquiet
  · rw [hafter, hop.allows.undisturbed.activeConversation_eq]
    exact hquiet

theorem tells_drain_go (hw : s.world.Reachable) {afar : Prop} {depth : Nat}
    (hqueue : s.followUps.toList = [] ∨
      ∃ text, steps.line text ∧ s.followUps.toList = [⟨actor, text, depth⟩])
    (generations : Nat) :
    (rules.drainGenerations generations).Tells actor (Concerned s.world actor afar) s := by
  rcases hqueue with hempty | ⟨_, ⟨d, rfl⟩, hgo⟩
  · exact (discreet_drainGenerations hempty generations).tells .nobody
  · have hline := h.tells_line (s := { s with followUps := .empty }) hquiet hw depth
      ("go " ++ d.name)
    have hword : (Command.ofLine ("go " ++ d.name)).word ≠ "tell" := by cases d <;> decide
    refine tells_drainGenerations hgo .nobody
      (hline.mono fun _ _ _ hsaid => hsaid.mono fun htell => absurd htell hword) ?_ generations
    exact h.discreet_after (s := { s with followUps := .empty }) hquiet rfl
      (h.once_go (s := { s with followUps := .empty }) hquiet depth hw.filed d)

end

/-- A line with all its follow-ups speaks to those it concerns. -/
theorem tells_dispatch (hw : s.world.Reachable) (hidle : s.followUps.toList = [])
    (hquiet : activeConversation s.world s.forest actor = none) (line : String) :
    (rules.dispatch actor line).Tells actor
      (Concerned s.world actor ((Command.ofLine line).word = "tell")) s := by
  by_cases hwalk : ∃ direction, rules.registries.global.lookup (Command.ofLine line).word =
      some (walkDefinition direction)
  · obtain ⟨direction, hwalk⟩ := hwalk
    refine Run.discreet_bind (h.discreet_walk hquiet 0 hwalk) .nobody ?_
    refine (h.never_walk hquiet 0 hwalk).ensures.mono fun outcome t ht hworld => ?_
    obtain ⟨hforest, hqueue⟩ := ht
    rw [← hforest, ← hworld] at hquiet
    rw [← hworld] at hw ⊢
    exact Run.tells_bind (h.tells_drain_go hquiet hw (queued_cases hidle hqueue)
      rules.config.maxFollowUpDepth) fun _ _ => Run.discreet_pure
  · have hdeed := h.once_deed hquiet 0 hw.filed (not_exists.1 hwalk)
    refine Run.tells_bind (h.tells_line hquiet hw 0 line) ?_
    refine (h.discreet_after hquiet hidle hdeed rules.config.maxFollowUpDepth).mono ?_
    exact fun outcome t ht => Run.discreet_seq ht fun _ _ => Run.discreet_pure

/-- Whatever somebody types who is in no conversation, and also if it breaks off, the messages go to
itself, to those in the room where it was and to those in the room where it is then; only by
`tell` may one message go to one other player in its zone. Nobody else gets more than one message,
unless the line has moved the actor from a room to that very room. -/
theorem speaks_to_concerned (hw : s.world.Reachable) (hidle : s.followUps.toList = [])
    (hquiet : activeConversation s.world s.forest actor = none) (line : String) :
    ∃ told, (rules.dispatch actor line s).state.mailbox.toList = s.mailbox.toList ++ told ∧
      (∀ m ∈ told, m.recipient = actor ∨
        Scope.room.Reaches s.world actor m.recipient ∨
        Scope.room.Reaches (rules.dispatch actor line s).state.world actor m.recipient ∨
        (Command.ofLine line).word = "tell" ∧ heard actor told = [m.recipient] ∧
          s.world.Fellow actor m.recipient) ∧
      ((∀ x, x ≠ actor → (told.filter (·.recipient = x)).length ≤ 1) ∨
        ∃ room, performed (rules.dispatch actor line s).sights = [.moveCharacter actor room] ∧
          s.world.characterRoom actor = some room ∧
          (rules.dispatch actor line s).state.world.characterRoom actor = some room) := by
  obtain ⟨told, hmail, hsaid⟩ := h.tells_dispatch hw hidle hquiet line
  refine ⟨told, hmail, fun m hm => ?_, hsaid.once.imp_left fun honce x hx => ?_⟩
  · by_cases hself : m.recipient = actor
    · exact .inl hself
    · have hheard : m.recipient ∈ heard actor told :=
        List.mem_filter.2 ⟨List.mem_map_of_mem hm, by simpa using hself⟩
      exact .inr (hsaid.near _ hheard)
  · rw [← count_heard hx]
    exact List.nodup_iff_count.1 honce x

end Rules.Standard

/-- The inn and its yard with another player, who is out in the yard. -/
def innWithMaid : List World.Op :=
  innWithYard ++ [.spawnCharacter ⟨3⟩ (.player "maid" "a maid" [])]

/-- The guest in the inn tells the maid in the yard something, and the cat beside it hears
nothing. -/
theorem Rules.Standard.speaks_to_concerned_maid :
    ∃ w told, World.empty.run innWithMaid = some w ∧
      (standardRules.dispatch ⟨4⟩ "tell maid hello" (.initial w ())).state.mailbox.toList = told ∧
      told.map (·.recipient) = [⟨8⟩, ⟨4⟩] ∧ ¬Scope.room.Reaches w ⟨4⟩ ⟨8⟩ ∧
      ∀ m ∈ told, m.recipient = ⟨4⟩ ∨
        Scope.room.Reaches w ⟨4⟩ m.recipient ∨
        Scope.room.Reaches (standardRules.dispatch ⟨4⟩ "tell maid hello"
          (.initial w ())).state.world ⟨4⟩ m.recipient ∨
        (Command.ofLine "tell maid hello").word = "tell" ∧ heard ⟨4⟩ told = [m.recipient] ∧
          w.Fellow ⟨4⟩ m.recipient := by
  have hruns : (World.empty.run innWithMaid).map (fun w =>
      (w.characterRoom ⟨4⟩, w.characterRoom ⟨8⟩,
        (standardRules.dispatch ⟨4⟩ "tell maid hello"
          (.initial w ())).state.mailbox.toList.map (·.recipient))) =
      some (some ⟨2⟩, some ⟨3⟩, [⟨8⟩, ⟨4⟩]) := by
    decide +kernel
  obtain ⟨w, hw, hruns⟩ := Option.map_eq_some_iff.1 hruns
  obtain ⟨hguest, hmaid, htold⟩ : _ ∧ _ ∧ _ := by simpa only [Prod.mk.injEq] using hruns
  obtain ⟨told, hmail, hconcerned, -⟩ := standard_standardRules.speaks_to_concerned
    (s := .initial w ()) ⟨innWithMaid, hw⟩ rfl (activeConversation_of_isEmpty rfl ⟨4⟩)
    "tell maid hello"
  refine ⟨w, told, hw, hmail, ?_, ?_, hconcerned⟩
  · rw [hmail] at htold
    exact htold
  · rintro ⟨room, hhere, hthere⟩
    rw [hguest] at hhere
    rw [hmaid, ← hhere] at hthere
    cases hthere

end TextWorld

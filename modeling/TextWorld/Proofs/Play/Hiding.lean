import TextWorld.Proofs.Engine.Heedless
import TextWorld.Proofs.Play.Authority

/-!
Closed secret doors leak nothing. Whatever is typed for whomever among those who have only the
standard commands, and however time passes, all goes as it would go if the exit with the door were
not there.
-/

namespace TextWorld

variable {S : Setting} {room : RoomId} {d : Direction} {e : Exit} {w : World}

/-- Whoever names an exit by this grammar sees it. -/
def Grammar.Overt (g : Grammar) : Prop :=
  ∀ f optional, ⟨.exit f, optional⟩ ∈ g.elements → f.visible = true

namespace Resolution

open Grammar

variable {actor : CharacterId} {param : String}

theorem characterCandidates_without (w : World) (room : RoomId) (d : Direction)
    (actor : CharacterId) (f : CharacterFilter) :
    characterCandidates (w.without room d) actor f = characterCandidates w actor f := by
  unfold characterCandidates
  cases f.scope with
  | room =>
    have hhere : (w.without room d).characterRoom actor = w.characterRoom actor := rfl
    rw [hhere]
    cases w.characterRoom actor with
    | none => rfl
    | some here =>
      rcases w.room?_without_cases room d here with ⟨h, h'⟩ | ⟨r, exits, h, h'⟩
      all_goals
        simp only [Option.bind_eq_bind, Option.bind_some, h, h']
        rfl
  | zone =>
    rw [World.characterZone_without]
    rfl

theorem itemCandidates_without (w : World) (room : RoomId) (d : Direction) (actor : CharacterId)
    (f : ItemFilter) : itemCandidates (w.without room d) actor f = itemCandidates w actor f := by
  have hcharacter : (w.without room d).character? actor = w.character? actor := rfl
  unfold itemCandidates
  rw [hcharacter]
  cases w.character? actor with
  | none => rfl
  | some c =>
    cases hhere : c.room with
    | none =>
      simp only [Option.bind_eq_bind, Option.bind_some, Option.bind_none, hhere]
      rfl
    | some here =>
      rcases w.room?_without_cases room d here with ⟨h, h'⟩ | ⟨r, exits, h, h'⟩
      all_goals
        simp only [Option.bind_eq_bind, Option.bind_some, hhere, h, h']
        rfl

/-- An exit that is hidden is not among those to choose from. -/
theorem exitNamed_without (h : w.Concealed room d e) {f : ExitFilter} (hf : f.visible = true) :
    exitNamed (w.without room d) actor f param = exitNamed w actor f param := by
  have hcharacter : (w.without room d).character? actor = w.character? actor := rfl
  unfold exitNamed
  rw [hcharacter]
  cases w.character? actor with
  | none => rfl
  | some c =>
    cases hhere : c.room with
    | none => simp only [Option.bind_eq_bind, Option.bind_some, hhere, Option.bind_none]
    | some here =>
      simp only [Option.bind_eq_bind, Option.bind_some, hhere]
      rw [World.room?_without]
      split
      · rename_i hroom
        subst hroom
        cases hr : w.room? room with
        | none => rfl
        | some r =>
          have hexits : (r.without d).exitList.filter (ExitFilter.accepts f c) =
              r.exitList.filter (ExitFilter.accepts f c) := by
            refine Table.filter_values_erase r.exits fun e' he' => ?_
            have hhidden : e'.isVisible = false := h.hidden (by rw [World.exit?, hr]; exact he')
            simp [ExitFilter.accepts, hf, hhidden]
          rw [Option.map_some, Option.bind_some, Option.bind_some, hexits]
      · rfl

theorem bindOne_without (h : w.Concealed room d e) {token : Token}
    (htoken : ∀ f, token = .exit f → f.visible = true) :
    bindOne (w.without room d) actor param token = bindOne w actor param token := by
  cases token with
  | character f => rw [bindOne, bindOne, characterCandidates_without]
  | item f => rw [bindOne, bindOne, itemCandidates_without]
  | exit f => rw [bindOne, bindOne, exitNamed_without h (htoken f rfl)]
  | _ => rfl

theorem bindAll_without (h : w.Concealed room d e) (lenient : Bool) {es : List Element}
    (hes : ∀ f optional, ⟨.exit f, optional⟩ ∈ es → f.visible = true) (params : List String) :
    bindAll (w.without room d) actor lenient es params = bindAll w actor lenient es params := by
  induction es generalizing lenient params with
  | nil => rfl
  | cons element es ih =>
    obtain ⟨token, optional⟩ := element
    have hrest (lenient : Bool) (params : List String) :=
      ih lenient (fun f optional hmem => hes f optional (List.mem_cons_of_mem _ hmem)) params
    have hone (p : String) : bindOne (w.without room d) actor p token = bindOne w actor p token :=
      bindOne_without h fun f htoken => hes f optional (htoken ▸ List.mem_cons_self)
    unfold bindAll
    simp only [hrest]
    cases params with
    | nil => cases token <;> rfl
    | cons p ps => cases token <;> simp only [hone]

end Resolution

/-- What is named by such a grammar is the same for somebody who does not see the exit. -/
theorem Grammar.Overt.resolve_without {g : Grammar} (hg : g.Overt) (h : w.Concealed room d e)
    (actor : CharacterId) (params : List String) :
    g.resolve (w.without room d) actor params = g.resolve w actor params :=
  Resolution.bindAll_without h false hg params

namespace StandardCommands

open Program Grammar

variable {inv : Invocation}

/-! None of the commands takes notice of an exit that is hidden. -/

theorem heedless_tellActor (inv : Invocation) (text : String) :
    (tellActor inv text : Program S CommandOutcome).Heedless room d w :=
  heedless_emit_bind (heedless_pure _)

theorem heedless_look (h : w.Concealed room d e) (inv : Invocation) :
    (look inv : Program S CommandOutcome).Heedless room d w := by
  refine heedless_world_bind ?_ (heedless_tellActor inv _)
  have hhere : (w.without room d).characterRoom inv.actor = w.characterRoom inv.actor := rfl
  simp only [hhere, World.describeRoom_without fun _ => h.hidden]

theorem heedless_say (inv : Invocation) :
    (say inv : Program S CommandOutcome).Heedless room d w := by
  unfold say
  split
  · exact heedless_tellActor inv _
  · refine heedless_world_bind rfl ?_
    have hothers (who : CharacterId) (text : String) :
        (tellOthers who text : Program S Unit).Heedless room d w := by
      refine heedless_world_bind rfl ?_
      split
      · exact heedless_emitRoom_bind (f := pure) (heedless_pure _)
      · exact heedless_pure _
    exact (hothers _ _).bind fun _ _ => heedless_tellActor inv _

theorem heedless_tell (inv : Invocation) :
    (tell inv : Program S CommandOutcome).Heedless room d w := by
  unfold tell
  split
  · exact heedless_world_bind rfl (heedless_emit_bind (heedless_tellActor inv _))
  · exact heedless_tellActor inv _

theorem heedless_talk (inv : Invocation) :
    (talk inv : Program S CommandOutcome).Heedless room d w :=
  heedless_world_bind rfl (heedless_tellActor inv _)

theorem heedless_moveAndTell (inv : Invocation) (item : ItemId) (target : ItemLocation)
    (done refused : String) :
    (moveAndTell inv item target done refused : Program S CommandOutcome).Heedless room d w := by
  refine heedless_perform_bind trivial fun x v => ?_
  cases x with
  | error e => exact heedless_tellActor inv _
  | ok _ => exact heedless_tellActor inv _

theorem heedless_get (inv : Invocation) :
    (get inv : Program S CommandOutcome).Heedless room d w := by
  unfold get
  split
  · exact heedless_tellActor inv _
  · exact heedless_world_bind rfl (heedless_moveAndTell inv _ _ _ _)

theorem heedless_drop (inv : Invocation) :
    (drop inv : Program S CommandOutcome).Heedless room d w := by
  refine heedless_world_bind rfl ?_
  split
  · exact heedless_moveAndTell inv _ _ _ _
  · exact heedless_tellActor inv _

theorem heedless_give (inv : Invocation) :
    (give inv : Program S CommandOutcome).Heedless room d w := by
  unfold give
  split
  · refine heedless_world_bind rfl (heedless_perform_bind trivial fun x v => ?_)
    cases x with
    | error e => exact heedless_tellActor inv _
    | ok _ => exact heedless_emit_bind (heedless_emit_bind (heedless_pure _))
  · exact heedless_tellActor inv _

theorem heedless_inventory (inv : Invocation) :
    (inventory inv : Program S CommandOutcome).Heedless room d w := by
  refine heedless_world_bind rfl ?_
  split
  · exact heedless_pure _
  · exact heedless_tellActor inv _

theorem heedless_equip (inv : Invocation) :
    (equip inv : Program S CommandOutcome).Heedless room d w := by
  unfold equip
  split
  · exact heedless_world_bind rfl (heedless_moveAndTell inv _ _ _ _)
  · exact heedless_tellActor inv _

theorem heedless_walk (inv : Invocation) :
    (walk inv : Program S CommandOutcome).Heedless room d w := by
  unfold walk
  split
  · exact heedless_pure _
  · exact heedless_send_bind (heedless_pure _)

theorem heedless_rest (inv : Invocation) :
    (rest inv : Program S CommandOutcome).Heedless room d w := by
  refine heedless_perform_bind trivial fun x v => ?_
  cases x with
  | error e => exact heedless_pure _
  | ok _ => exact heedless_tellActor inv _

theorem heedless_who (inv : Invocation) :
    (who inv : Program S CommandOutcome).Heedless room d w :=
  heedless_world_bind rfl (heedless_tellActor inv _)

theorem heedless_commands (inv : Invocation) :
    (commands inv : Program S CommandOutcome).Heedless room d w :=
  heedless_world_bind rfl (heedless_catalogue_bind fun _ => heedless_tellActor inv _)

theorem heedless_goto (inv : Invocation) :
    (goto inv : Program S CommandOutcome).Heedless room d w := by
  unfold goto
  dsimp only
  refine heedless_world_bind ?_ ?_
  · simp only [World.characterZone_without]
    rfl
  · split
    · exact heedless_tellActor inv _
    · refine heedless_perform_bind trivial fun x v => ?_
      cases x with
      | error e => exact heedless_tellActor inv _
      | ok _ => exact heedless_send_bind (heedless_pure _)

theorem heedless_moveActor {actor : CharacterId} {d' : Direction}
    (hother : ∀ here, w.characterRoom actor = some here → ¬(room = here ∧ d = d')) :
    (moveActor actor d' : Program S Bool).Heedless room d w := by
  have hhere : (w.without room d).characterRoom actor = w.characterRoom actor := rfl
  unfold moveActor
  refine heedless_world_bind ?_ ?_
  · rw [hhere]
    cases hc : w.characterRoom actor with
    | none => rfl
    | some here =>
      dsimp only
      rw [World.exitDestination_without (hother here hc)]
      rfl
  · split
    · exact heedless_pure _
    · split
      · exact heedless_pure _
      · refine heedless_perform_bind trivial fun x v => ?_
        cases x with
        | error e => exact heedless_pure _
        | ok _ => exact heedless_emitRoom_bind (heedless_emitRoom_bind (heedless_pure _))

section

variable {g : Grammar} {f : ExitFilter} (hf : f.visible = true)
  (hg : g.elements = [⟨.exit f, false⟩]) {params : List String}
  (hargs : inv.args = g.resolve w inv.actor params) (hw : w.Filed) (h : w.Concealed room d e)
include hf hg hargs hw h

/-- The exit that an argument stands for is another one. -/
theorem ne_of_argExit {d' : Direction} (hd : argExit? inv 0 = some d') {here : RoomId}
    (hhere : w.characterRoom inv.actor = some here) : ¬(room = here ∧ d = d') := by
  obtain ⟨c, e', -, -, he', haccepts⟩ := exit_of_argExit hg hargs hw.exit hd hhere
  simp only [Resolution.ExitFilter.accepts, hf, Bool.and_eq_true] at haccepts
  exact h.ne he' (by simpa using haccepts.1.1.1.1)

theorem heedless_peek : (peek inv : Program S CommandOutcome).Heedless room d w := by
  have hhere : (w.without room d).characterRoom inv.actor = w.characterRoom inv.actor := rfl
  refine heedless_world_bind ?_ (heedless_tellActor inv _)
  simp only [hhere, World.describeRoom_without fun _ => h.hidden]
  cases hd : argExit? inv 0 with
  | none => rfl
  | some d' =>
    cases hc : w.characterRoom inv.actor with
    | none => rfl
    | some here =>
      simp only [Option.bind_eq_bind, Option.bind_some,
        World.exitDestination_without (ne_of_argExit hf hg hargs hw h hd hc)]

theorem heedless_go : (go inv : Program S CommandOutcome).Heedless room d w := by
  have hrest (moved : Bool) (v : World) :
      (if moved then do
          send inv.actor "look"
          pure .handled
        else tellActor inv "You can't go that way." : Program S CommandOutcome).Heedless
          room d v := by
    cases moved with
    | true => exact heedless_send_bind (heedless_pure _)
    | false => exact heedless_tellActor inv _
  unfold go
  dsimp only
  split
  · rename_i d' hd
    have hmove : (moveActor inv.actor d' : Program S Bool).Heedless room d w :=
      heedless_moveActor fun here hhere => ne_of_argExit hf hg hargs hw h hd hhere
    exact hmove.bind hrest
  · exact hrest false w

theorem heedless_setDoor {closed : Bool} (hdoor : f.openable = true ∨ f.closeable = true) :
    (setDoor closed inv : Program S CommandOutcome).Heedless room d w := by
  have hhere : (w.without room d).characterRoom inv.actor = w.characterRoom inv.actor := rfl
  unfold setDoor
  dsimp only
  refine heedless_world_bind ?_ ?_
  · rw [hhere]
    cases hd : argExit? inv 0 with
    | none => rfl
    | some d' =>
      cases hc : w.characterRoom inv.actor with
      | none => rfl
      | some here =>
        have hexit : ((w.without room d).room? here).bind (·.exit? d') =
            (w.room? here).bind (·.exit? d') := by
          have hother := w.exit?_without room here d d'
          rwa [if_neg (ne_of_argExit hf hg hargs hw h hd hc)] at hother
        dsimp only
        rw [hexit]
        rfl
  · split
    · rename_i d' here hd hc
      split
      · exact heedless_tellActor inv _
      · -- The filter asks for an exit with a door, which is visible and so not the hidden one.
        have hspares : w.Spares (.setDoorClosed here d' closed) := by
          obtain ⟨c, e', -, -, he', haccepts⟩ := exit_of_argExit hg hargs hw.exit hd hc
          simp only [Resolution.ExitFilter.accepts, hf, Bool.and_eq_true] at haccepts
          obtain ⟨⟨⟨⟨hvisible, -⟩, -⟩, hcloseable⟩, hopenable⟩ := haccepts
          refine ⟨e', he', by simpa using hvisible, ?_⟩
          rcases hdoor with hf | hf
          · have hclosed : e'.isOpenable = true := by simpa [hf] using hopenable
            exact Option.isSome_of_any hclosed
          · have hopen : e'.isCloseable = true := by simpa [hf] using hcloseable
            exact Option.isSome_of_any hopen
        refine heedless_perform_bind hspares fun x v => ?_
        split
        · exact heedless_emit_bind (heedless_emitRoom_bind (heedless_pure _))
        · exact heedless_pure _
    · exact heedless_tellActor inv _

end

/-- Exits are named only by those who see them. -/
theorem overt_of_mem_standard {d : Definition (Handler S)} (hd : d ∈ standard) {g : Grammar}
    (hg : d.grammar = some g) : g.Overt := by
  -- Grammars are tables without handlers in them, so that they can be gone through.
  have hall : ((standard : List (Definition (Handler S))).filterMap (·.grammar)).all
      (fun g => g.elements.all fun element => match element.token with
        | .exit f => f.visible
        | _ => true) = true := by
    rfl
  intro f optional hmem
  have hgrammar := List.all_eq_true.1 hall g (List.mem_filterMap.2 ⟨d, hd, hg⟩)
  exact List.all_eq_true.1 hgrammar _ hmem

/-- Each standard command takes no notice of an exit with a closed secret door. -/
theorem heedless_of_invoked {registry : Registry (Handler S)}
    (hregistry : addTo .empty = .ok registry) {command : Command} (hw : w.Filed)
    (hconcealed : w.Concealed room d e) {definition : Definition (Handler S)}
    {actor : CharacterId} (h : Invoked registry command w actor definition inv) :
    (definition.run inv).Heedless room d w := by
  obtain rfl := h.actor_eq
  have hd := mem_standard_of_invoked hregistry h
  have hargs := h.args_eq
  simp only [standard, List.mem_append, List.mem_cons, List.mem_map, List.not_mem_nil,
    or_false] at hd
  rcases hd with (hd | ⟨direction, -, rfl⟩) | hd
  · rcases hd with rfl | rfl | rfl | rfl | rfl | rfl | rfl | rfl | rfl | rfl
    · exact heedless_look hconcealed inv
    · exact heedless_peek rfl rfl (hargs _ rfl) hw hconcealed
    · exact heedless_say inv
    · exact heedless_tell inv
    · exact heedless_get inv
    · exact heedless_drop inv
    · exact heedless_give inv
    · exact heedless_inventory inv
    · exact heedless_equip inv
    · exact heedless_go rfl rfl (hargs _ rfl) hw hconcealed
  · exact heedless_walk inv
  · rcases hd with rfl | rfl | rfl | rfl | rfl | rfl | rfl
    · exact heedless_setDoor rfl rfl (hargs _ rfl) hw hconcealed (.inl rfl)
    · exact heedless_setDoor rfl rfl (hargs _ rfl) hw hconcealed (.inr rfl)
    · exact heedless_rest inv
    · exact heedless_who inv
    · exact heedless_goto inv
    · exact heedless_commands inv
    · exact heedless_talk inv

end StandardCommands

namespace Rules.Standard

open Run StandardCommands

variable {rules : Rules S} {P : State S → Prop} {s t : State S} (h : rules.Standard)
include h

theorem mirroredAt_invoke (hst : s.Veils room d e t) {actor : CharacterId} {command : Command}
    {definition : Definition (Handler S)} {inv : Invocation}
    (hinv : Invoked rules.registries.global command s.world actor definition inv) (depth : Nat) :
    (do
      reach (.invoked definition inv)
      rules.execute depth (definition.run inv)).MirroredAt (State.Veils room d e) P
    (do
      reach (.invoked definition inv)
      rules.execute depth (definition.run inv)) s t :=
  mirroredAt_note_bind hst fun _ =>
    mirroredAt_run (heedless_of_invoked h.global hst.filed hst.concealed hinv) hst

/-- A registry answers in the same way in both worlds. -/
theorem mirroredAt_handle {level : Responder} {registry : Registry (Handler S)}
    (hregistry : rules.registry? level = some registry) (depth : Nat) (actor : CharacterId)
    (command : Command) (origin : Origin) (hst : s.Veils room d e t) :
    (rules.handle depth registry actor command origin).MirroredAt (State.Veils room d e) P
      (rules.handle depth registry actor command origin) s t := by
  have hworld : t.world = s.world.without room d := by rw [hst.eq]
  have hcharacter : t.world.character? actor = s.world.character? actor := by rw [hworld]; rfl
  refine mirroredAt_gets_bind ?_
  dsimp only
  rw [hcharacter, State.Veils.correspondence.now hst]
  cases hd : registry.lookup command.word with
  | none => exact mirroredAt_pure hst
  | some definition =>
    -- It is the one registry that knows any word.
    have hglobal : level = .global := by
      by_contra hlevel
      rw [h.only level registry hregistry hlevel] at hd
      cases hd
    subst hglobal
    obtain rfl : rules.registries.global = registry := Option.some.inj hregistry
    cases hc : s.world.character? actor with
    | none => exact mirroredAt_pure hst
    | some c =>
      dsimp only
      split
      · exact mirroredAt_pure hst
      · rename_i hadmin
        have hadmits : definition.adminOnly = true → c.isAdmin = true := fun honly => by
          simpa [honly] using hadmin
        split
        · refine mirroredAt_note_bind hst fun _ => mirroredAt_update_bind (mirroredAt_pure ?_)
          exact State.Veils.correspondence.emit hst _ _
        · cases hg : definition.grammar with
          | none =>
            refine h.mirroredAt_invoke hst ⟨hd, rfl, rfl, ⟨c, hc, hadmits⟩, fun g hg' => ?_⟩ depth
            rw [hg] at hg'
            cases hg'
          | some g =>
            have hmem : definition ∈ standard := by
              rw [lookup_standard h.global] at hd
              exact List.mem_of_find?_eq_some hd
            dsimp only
            rw [hworld, (overt_of_mem_standard hmem hg).resolve_without hst.concealed]
            refine h.mirroredAt_invoke hst ⟨hd, rfl, rfl, ⟨c, hc, hadmits⟩, fun g' hg' => ?_⟩ depth
            rw [hg] at hg'
            cases hg'
            rfl

omit h in
/-- A conversation that is not there does nothing at a tick. -/
theorem withTalk_of_isEmpty {α : Type} (hquiet : s.forest.isEmpty = true) (depth : Nat)
    (id : ConversationId) (occasion : Occasion) (body : S.Talk → Program S (α × S.Talk)) :
    rules.withTalk depth id occasion body s = ⟨[], .ok none, s⟩ := by
  have hgone : s.forest.get? id = none := by
    rw [Forest.get?, Std.ExtTreeMap.isEmpty_iff.1 hquiet]
    exact Std.ExtTreeMap.getElem?_empty
  have hcallback : rules.callback depth (rules.deliver depth rules.maxDeliveries) id occasion body
      s = ⟨[], .ok none, s⟩ := by
    rw [callback, get_bind, hgone]
    rfl
  rw [withTalk, bind_of_ok hcallback]
  rfl

/-- Without hooks and conversations all goes on in the same way in both worlds. -/
theorem mirror_veiled (hhooks : rules.hooks = []) :
    rules.Mirror (State.Veils room d e) P id rules where
  toCorrespondence := State.Veils.correspondence
  config := rfl
  hooks := rfl
  registry? level := by rw [Option.map_id_fun, id]
  handle hregistry depth actor command origin _ _ hst _ :=
    h.mirroredAt_handle hregistry depth actor command origin hst
  askConversation depth actor command s t hst := by
    have hquiet : t.forest.isEmpty = true := by
      rw [State.Veils.correspondence.forest hst]
      exact hst.quiet
    refine mirroredAt_get_bind ?_
    rw [activeConversation_of_isEmpty hst.quiet, activeConversation_of_isEmpty hquiet]
    exact mirroredAt_pure hst
  tickConversation id s t hst := by
    have hquiet : t.forest.isEmpty = true := by
      rw [State.Veils.correspondence.forest hst]
      exact hst.quiet
    refine mirroredAt_note_bind hst fun _ _ => ?_
    rw [discard_eq, discard_eq, withTalk_of_isEmpty hst.quiet, withTalk_of_isEmpty hquiet]
    exact ⟨.nil, rfl, hst⟩
  hook hook hmem := by
    rw [hhooks] at hmem
    cases hmem

/-- Where nothing but the standard commands is registered, an exit with a closed secret door goes
unnoticed: whatever is typed for whomever and however time passes, the outcomes and the messages are
those of the world without the exit, and what becomes of the two worlds differs in the exit only. -/
theorem secret_unnoticed (hhooks : rules.hooks = []) (hw : s.world.Reachable)
    (hquiet : s.forest.isEmpty = true) (hconcealed : s.world.Concealed room d e)
    (prompts : List Prompt) :
    let course := Prompt.answerAll rules prompts s
    let course' := Prompt.answerAll rules prompts { s with world := s.world.without room d }
    course'.result = course.result ∧ course'.state.mailbox = course.state.mailbox ∧
      course'.state.world = course.state.world.without room d ∧
      course.state.world.Concealed room d e := by
  have hst : s.Veils room d e { s with world := s.world.without room d } :=
    ⟨rfl, hquiet, hw.filed, hconcealed⟩
  have hrules : rules.Mirror (State.Veils room d e) (fun _ => True) id rules :=
    h.mirror_veiled hhooks
  -- Nothing more has to hold on the way: `Veils` carries all that the commands rely on.
  have hmirror := hrules.answerAll prompts s _ hst fun _ _ => trivial
  have heq := hmirror.state.eq
  exact ⟨hmirror.result, by rw [heq], by rw [heq], hmirror.state.concealed⟩

end Rules.Standard

/-- A way down to the yard that cannot be seen. -/
def trapdoor : Exit := ⟨.down, yardKey, some Door.shut.hide⟩

/-- The inn with the trapdoor in its floor. The way back up from the yard has no door. -/
def innWithTrapdoor : List World.Op :=
  innWithYard ++ [.addExit ⟨2⟩ trapdoor,
    .addExit ⟨3⟩ ⟨.up, harbourKey "inn" (by decide) (by decide), none⟩]

/-- The guest looks for a way down, goes around by the yard and is back in the inn. -/
def wayDown : List Prompt :=
  [.line ⟨4⟩ "look", .line ⟨4⟩ "open down", .line ⟨4⟩ "down", .line ⟨4⟩ "north", .line ⟨4⟩ "up",
    .time (.ofSeconds 1), .line ⟨4⟩ "peek down"]

theorem Rules.Standard.secret_unnoticed_trapdoor :
    ∃ w, World.empty.run innWithTrapdoor = some w ∧ w.Concealed ⟨2⟩ .down trapdoor ∧
      let course := Prompt.answerAll standardRules wayDown (.initial w ())
      let course' := Prompt.answerAll standardRules wayDown (.initial (w.without ⟨2⟩ .down) ())
      course.result.toOption.isSome = true ∧
        course.state.mailbox.toList.getLast? = some ⟨⟨4⟩, "You can't see that way."⟩ ∧
        course'.result = course.result ∧ course'.state.mailbox = course.state.mailbox ∧
        course'.state.world = course.state.world.without ⟨2⟩ .down ∧
        course.state.world.Concealed ⟨2⟩ .down trapdoor := by
  have hplaces : (World.empty.run innWithTrapdoor).map (fun w =>
      (w.exit? ⟨2⟩ .down, w.exitDestination ⟨2⟩ .down, (w.exit? ⟨3⟩ .up).map (·.door))) =
      some (some trapdoor, some ⟨3⟩, some none) := by
    decide +kernel
  have hruns : (World.empty.run innWithTrapdoor).map (fun w =>
      let course := Prompt.answerAll standardRules wayDown (.initial w ())
      (course.result.toOption.isSome, course.state.mailbox.toList.getLast?)) =
      some (true, some ⟨⟨4⟩, "You can't see that way."⟩) := by
    decide +kernel
  obtain ⟨w, hw, hplaces⟩ := Option.map_eq_some_iff.1 hplaces
  obtain ⟨hexit, hthere, hback⟩ : _ ∧ _ ∧ _ := by simpa only [Prod.mk.injEq] using hplaces
  rw [hw] at hruns
  obtain ⟨hends, htold⟩ := Prod.mk.inj (Option.some.inj hruns)
  have hconcealed : w.Concealed ⟨2⟩ .down trapdoor := by
    refine ⟨hexit, ⟨Door.shut.hide, rfl, rfl, rfl⟩, fun there back hdown hup _ => ?_⟩
    rw [hthere] at hdown
    cases hdown
    have hup : w.exit? ⟨3⟩ .up = some back := hup
    rw [hup] at hback
    exact Option.some.inj hback
  refine ⟨w, hw, hconcealed, hends, htold, ?_⟩
  exact standard_standardRules.secret_unnoticed (s := .initial w ()) rfl ⟨innWithTrapdoor, hw⟩ rfl
    hconcealed wayDown

end TextWorld

import TextWorld.Play.StandardCommands
import TextWorld.Proofs.Command.Registering
import TextWorld.Proofs.Engine.Structure

/-!
What the list of commands advertises. Of the commands for all it names those that the actor may use,
but of the commands of a room it names all, so somebody who is no admin reads the names of commands
for admins there.
-/

namespace TextWorld

variable {S : Setting}

/-- The registry has the definition under its name. -/
def Registry.Has {ρ : Type} (r : Registry ρ) (d : Definition ρ) : Prop := r.words[d.name]? = some d

/-- The registry of the room where a character is. -/
def Registries.here? {ρ : Type} (rs : Registries ρ) (w : World) (actor : CharacterId) :
    Option (Registry ρ) :=
  (w.characterRoom actor).bind rs.rooms.get?

/-- The definition is registered for all, or in the room where the character is. -/
def Registries.AtHand {ρ : Type} (rs : Registries ρ) (w : World) (actor : CharacterId)
    (d : Definition ρ) : Prop :=
  rs.global.Has d ∨ ∃ r ∈ rs.here? w actor, r.Has d

/-- Admins may use every definition, and others those that are not for admins only. -/
def World.MayUse {ρ : Type} (w : World) (actor : CharacterId) (d : Definition ρ) : Prop :=
  d.adminOnly = true → ∃ c ∈ w.character? actor, c.isAdmin = true

namespace StandardCommands

theorem mem_sortDistinct {texts : List String} {text : String} :
    text ∈ sortDistinct texts ↔ text ∈ texts := by
  rw [sortDistinct, Std.ExtTreeMap.mem_keys, Std.ExtTreeMap.mem_ofList]
  simp [Function.comp_def]

theorem ascending_sortDistinct (texts : List String) :
    (sortDistinct texts).Pairwise (· < ·) := by
  have hordered := Std.ExtTreeMap.ordered_keys (t := Table.ofList (texts.map fun t => (t, ())))
  exact hordered.imp fun h => compareOfLessAndEq_eq_lt.1 h

end StandardCommands

namespace Registry

variable {ρ μ : Type} {r : Registry ρ} {p : Definition Unit → Bool} {name : String}

theorem definitions_map (f : ρ → μ) (r : Registry ρ) :
    (r.map f).definitions = r.definitions.map (·.map f) := by
  rw [definitions, map, Std.ExtTreeMap.toList_map, List.filter_map, List.map_map, definitions,
    List.map_map]
  rfl

/-- A name that is listed without the handlers is that of a definition. -/
theorem mem_names_map :
    name ∈ (((r.map fun _ => ()).definitions.filter p).map (·.name)) ↔
      ∃ d, d.name = name ∧ r.Has d ∧ p (d.map fun _ => ()) = true := by
  rw [definitions_map, List.filter_map, List.map_map, List.mem_map]
  simp only [List.mem_filter, mem_definitions]
  exact exists_congr fun d => and_comm

end Registry

namespace StandardCommands

variable {rs : Registries (Handler S)} {w : World} {actor : CharacterId} {name : String}

theorem mayUse_iff {ρ : Type} {d : Definition ρ} :
    w.MayUse actor d ↔ ((w.character? actor).any (·.isAdmin) || !d.adminOnly) = true := by
  rw [World.MayUse, Bool.or_eq_true, Bool.not_eq_true', Option.any_eq_true]
  cases d.adminOnly with
  | true => simp
  | false => simp

theorem mem_commandNames {isAdmin : Bool} {room : Option RoomId} :
    name ∈ commandNames (rs.map fun _ => ()) isAdmin room ↔
      (∃ d, d.name = name ∧ rs.global.Has d ∧ (isAdmin || !d.adminOnly) = true) ∨
        ∃ d, d.name = name ∧ ∃ r ∈ room.bind rs.rooms.get?, r.Has d := by
  have hhere : room.bind (rs.map fun _ => ()).rooms.get? =
      (room.bind rs.rooms.get?).map (·.map fun _ => ()) := by
    cases room with
    | none => rfl
    | some room => exact Std.ExtTreeMap.getElem?_map
  rw [commandNames, mem_sortDistinct, List.mem_append, hhere]
  apply or_congr
  · exact Registry.mem_names_map
  · cases room.bind rs.rooms.get? with
    | none => simp
    | some r =>
      have hall : name ∈ ((r.map fun _ => ()).definitions.filter fun _ => true).map (·.name) ↔
          ∃ d, d.name = name ∧ r.Has d ∧ true = true := Registry.mem_names_map
      rw [List.filter_eq_self.2 fun _ _ => rfl] at hall
      simpa using hall

/-- The command lists these names for the actor. -/
def listed (rs : Registries (Handler S)) (w : World) (actor : CharacterId) : List String :=
  commandNames (rs.map fun _ => ()) ((w.character? actor).any (·.isAdmin)) (w.characterRoom actor)

theorem mem_listed :
    name ∈ listed rs w actor ↔ (∃ d, d.name = name ∧ rs.global.Has d ∧ w.MayUse actor d) ∨
      ∃ d, d.name = name ∧ ∃ r ∈ rs.here? w actor, r.Has d := by
  simp only [mayUse_iff]
  exact mem_commandNames

/-- A list that names the usable commands for all, and all commands of the room, names just the
usable ones if the others of the room are namesakes of usable ones. -/
theorem listed_usable_iff :
    (∀ name, name ∈ listed rs w actor ↔ ∃ d, d.name = name ∧ rs.AtHand w actor d ∧
      w.MayUse actor d) ↔
      ∀ r ∈ rs.here? w actor, ∀ d, r.Has d → ¬w.MayUse actor d →
        ∃ e, e.name = d.name ∧ rs.AtHand w actor e ∧ w.MayUse actor e := by
  constructor
  · intro hexact r hr d hd _
    exact (hexact d.name).1 (mem_listed.2 (.inr ⟨d, rfl, r, hr, hd⟩))
  · intro hnamesake name
    rw [mem_listed]
    constructor
    · rintro (⟨d, hname, hd, hmay⟩ | ⟨d, rfl, r, hr, hd⟩)
      · exact ⟨d, hname, .inl hd, hmay⟩
      · by_cases hmay : w.MayUse actor d
        · exact ⟨d, rfl, .inr ⟨r, hr, hd⟩, hmay⟩
        · exact hnamesake r hr d hd hmay
    · rintro ⟨d, hname, hd | ⟨r, hr, hd⟩, hmay⟩
      · exact .inl ⟨d, hname, hd, hmay⟩
      · exact .inr ⟨d, hname, r, hr, hd⟩

/-- The actor is told the names of the commands for all that it may use and of all commands of the
room, each once and in ascending order. These are the commands that it may use exactly if each
command of the room that it may not use has the name of another one that it may. -/
theorem commands_listed_iff (rules : Rules S) (depth : Nat) (inv : Invocation) (s : State S) :
    ∃ names : List String,
      (rules.execute depth (commands inv) s).result = .ok .handled ∧
      (rules.execute depth (commands inv) s).state =
        s.emit inv.actor ("Commands: " ++ ", ".intercalate names) ∧
      names.Pairwise (· < ·) ∧
      (∀ name, name ∈ names ↔
        (∃ d, d.name = name ∧ rules.registries.global.Has d ∧ s.world.MayUse inv.actor d) ∨
          ∃ d, d.name = name ∧ ∃ r ∈ rules.registries.here? s.world inv.actor, r.Has d) ∧
      ((∀ name, name ∈ names ↔ ∃ d, d.name = name ∧
          rules.registries.AtHand s.world inv.actor d ∧ s.world.MayUse inv.actor d) ↔
        ∀ r ∈ rules.registries.here? s.world inv.actor, ∀ d, r.Has d →
          ¬s.world.MayUse inv.actor d → ∃ e, e.name = d.name ∧
            rules.registries.AtHand s.world inv.actor e ∧ s.world.MayUse inv.actor e) :=
  ⟨listed rules.registries s.world inv.actor, rfl, rfl, ascending_sortDistinct _,
    fun _ => mem_listed, listed_usable_iff⟩

/-- An inn where admins can eject somebody. -/
def bouncers : Rules plainSetting :=
  { chatter with
    registries :=
      { global := Registry.empty.add (.named "commands" commands)
        rooms := Table.empty.insert ⟨2⟩
          (Registry.empty.add (Definition.named "eject" fun _ => pure .handled).forAdmins)
        characters := .empty } }

/-- The guest is no admin and reads of the command, but to try it is of no use. -/
theorem bouncers_listed :
    ∃ w, World.empty.run innWithGuest = some w ∧
      (bouncers.dispatch ⟨3⟩ "commands" (.initial w ())).state.mailbox.toList =
        [⟨⟨3⟩, "Commands: commands, eject"⟩] ∧
      (∀ d, bouncers.registries.AtHand w ⟨3⟩ d → d.name = "eject" → ¬w.MayUse ⟨3⟩ d) ∧
      (bouncers.dispatch ⟨3⟩ "eject" (.initial w ())).result = .ok .unknown := by
  have hrun : (World.empty.run innWithGuest).map (fun w =>
      ((bouncers.dispatch ⟨3⟩ "commands" (.initial w ())).state.mailbox.toList,
        (bouncers.dispatch ⟨3⟩ "eject" (.initial w ())).result,
        (w.character? ⟨3⟩).any (·.isAdmin))) =
      some ([⟨⟨3⟩, "Commands: commands, eject"⟩], .ok .unknown, false) := by rfl
  obtain ⟨w, hw, heq⟩ := Option.map_eq_some_iff.1 hrun
  simp only [Prod.mk.injEq] at heq
  obtain ⟨hlist, hunknown, hguest⟩ := heq
  have hempty {d : Definition (Handler plainSetting)} :
      (Registry.empty : Registry (Handler plainSetting)).words[d.name]? ≠ some d := by
    simp [Registry.empty]
  refine ⟨w, hw, hlist, ?_, hunknown⟩
  rintro d (hd | ⟨r, hr, hd⟩) hname hmay
  · obtain hnone | rfl := Registry.mem_add hd
    · exact hempty hnone
    · exact absurd hname (by decide)
  · obtain ⟨room, -, hroom⟩ := Option.bind_eq_some_iff.1 hr
    have honly : ∀ e, r.Has e → e.adminOnly = true := by
      refine Table.forall_insert (P := fun _ r => ∀ e, r.Has e → e.adminOnly = true) ?_ ?_ hroom
      · intro room r hnone
        simp at hnone
      · intro e he
        obtain hnone | rfl := Registry.mem_add he
        · exact absurd hnone hempty
        · rfl
    obtain ⟨c, hc, hadmin⟩ := hmay (honly d hd)
    rw [Option.mem_def] at hc
    simp [hc, hadmin] at hguest

end StandardCommands

end TextWorld

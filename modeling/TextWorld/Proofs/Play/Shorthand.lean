import TextWorld.Proofs.Engine.Yielding
import TextWorld.Proofs.Play.Authority

/-!
Directions as commands. The name of a direction only queues the line that goes there, and so what
follows is one generation further down. Nothing depends on that, as long as two generations of
follow-ups are admitted: whoever goes somewhere looks around at the end.
-/

namespace TextWorld

variable {S : Setting}

namespace StandardCommands

open Program

variable (rules : Rules S) {inv : Invocation} {s : State S} {d : Direction}

theorem lookup_walk {registry : Registry (Handler S)} (h : addTo .empty = .ok registry)
    {word : String} (hword : word = d.name ∨ word = d.short) :
    registry.lookup word = some (walkDefinition d) := by
  rw [lookup_standard h]
  rcases hword with rfl | rfl <;> cases d <;> rfl

theorem exists_steady_look (inv : Invocation) (s : State S) :
    ∃ t, (look inv).Steady rules inv.actor s .handled t [] :=
  ⟨_, (steady_world s).bind ((steady_emit _ _ s).bind (steady_pure _ _))⟩

theorem steady_walk (hdata : inv.data = some (.text d.name)) :
    (walk inv).Steady rules inv.actor s .handled s ["go " ++ d.name] := by
  unfold walk
  rw [hdata]
  exact (steady_send _ s).bind (steady_pure _ s)

/-- Moving disturbs nobody, and nothing is queued by it. -/
theorem exists_steady_moveActor (actor : CharacterId) (d : Direction) (s : State S) :
    ∃ moved t, (moveActor actor d).Steady rules actor s moved t [] ∧
      t.forest = s.forest ∧ s.world.Undisturbed t.world := by
  have hwithin : (moveActor actor d : Program S Bool).Within actor
      ⟨fun op => ∃ there, op = .moveCharacter actor there, fun _ => False⟩ s.world :=
    within_moveActor fun _ there _ _ => ⟨there, rfl⟩
  have hdone : ∀ op, (∃ there, op = .moveCharacter actor there) →
      (s.world.perform op).isSome := by
    rintro _ ⟨there, rfl⟩
    rfl
  obtain ⟨moved, t, lines, hsteady, hlines⟩ := hwithin.exists_steady rules hdone
  obtain rfl : lines = [] := List.eq_nil_iff_forall_not_mem.2 hlines
  obtain ⟨hforest, hworld⟩ := hsteady.leaves hwithin
  refine ⟨moved, t, hsteady, hforest, ?_⟩
  rcases hworld with hsame | ⟨_, ⟨there, rfl⟩, hmoved⟩
  · rw [hsame]
    exact .refl s.world
  · rw [hmoved]
    exact (World.undisturbed_moveCharacter s.world actor there).1

/-- Who went somewhere looks around; who did not is told. -/
theorem exists_steady_go (inv : Invocation) (s : State S) :
    ∃ t lines, (go inv).Steady rules inv.actor s .handled t lines ∧
      (lines = [] ∨ lines = ["look"]) ∧ t.forest = s.forest ∧ s.world.Undisturbed t.world := by
  have hrest (moved : Bool) (t : State S) : ∃ u lines, (if moved then do
        send inv.actor "look"
        pure .handled
      else tellActor inv "You can't go that way." : Program S CommandOutcome).Steady rules
        inv.actor t .handled u lines ∧
        (lines = [] ∨ lines = ["look"]) ∧ u.forest = t.forest ∧ u.world = t.world := by
    cases moved with
    | true =>
      exact ⟨t, ["look"], (steady_send "look" t).bind (steady_pure _ t), .inr rfl, rfl, rfl⟩
    | false =>
      exact ⟨_, [], (steady_emit inv.actor _ t).bind (steady_pure _ _), .inl rfl, rfl, rfl⟩
  unfold go
  dsimp only
  split
  · rename_i d _
    obtain ⟨moved, t, hmove, hforest, hworld⟩ := exists_steady_moveActor rules inv.actor d s
    obtain ⟨u, lines, hlast, hlines, hforest', hworld'⟩ := hrest moved t
    exact ⟨u, lines, hmove.bind hlast, hlines, hforest'.trans hforest, hworld' ▸ hworld⟩
  · obtain ⟨u, lines, hlast, hlines, hforest, hworld⟩ := hrest false s
    exact ⟨u, lines, hlast, hlines, hforest, hworld ▸ .refl s.world⟩

end StandardCommands

namespace Rules.Standard

open Run StandardCommands

variable {rules : Rules S} {actor : CharacterId} {s : State S} {d : Direction}
variable (h : rules.Standard) (hquiet : activeConversation s.world s.forest actor = none)
include h hquiet

/-- A line that nobody is there to carry out is answered as an unknown one. -/
theorem yields_missing (hnobody : s.world.character? actor = none) {line : String}
    (hblank : (Command.ofLine line).isBlank = false) (depth : Nat) :
    (rules.dispatchLine depth actor line).Yields s .unknown
      (s.emit actor rules.config.unknownCommand) :=
  yields_dispatchLine h.only hquiet hblank (yields_handle_missing hnobody)

section

variable (hthere : (s.world.character? actor).isSome)
include hthere

/-- A line comes to what the command does that its word stands for. -/
theorem yields_command {line : String} {definition : Definition (Handler S)} {t : State S}
    {lines : List String} (hword : rules.registries.global.lookup (Command.ofLine line).word =
      some definition) (hadmin : definition.adminOnly = false)
    (hbalance : definition.balanceGated = false)
    (hblank : (Command.ofLine line).isBlank = false)
    (hrun : (definition.run (definition.invocation s.world actor (.ofLine line) .global)).Steady
      rules actor s .handled t lines) (depth : Nat) (queue : Queue FollowUp) :
    (rules.dispatchLine depth actor line).Yields { s with followUps := queue } (.handled .global)
      { t with followUps := queue.pushLines actor (depth + 1) lines } :=
  yields_dispatchLine (s := { s with followUps := queue }) h.only hquiet hblank
    (yields_handle hword hadmin hbalance hthere (hrun depth queue))

theorem exists_yields_look : ∃ t : State S, ∀ (depth : Nat) (queue : Queue FollowUp),
    (rules.dispatchLine depth actor "look").Yields { s with followUps := queue } (.handled .global)
      { t with followUps := queue } := by
  obtain ⟨t, ht⟩ := exists_steady_look rules
    (lookDefinition.invocation (S := S) s.world actor (.ofLine "look") .global) s
  have hword : (Command.ofLine "look").word = "look" := by decide
  have hlookup : rules.registries.global.lookup (Command.ofLine "look").word =
      some lookDefinition := by
    rw [hword]
    exact lookup_look h.global
  exact ⟨t, h.yields_command hquiet hthere hlookup rfl rfl (by decide) ht⟩

theorem exists_yields_go (d : Direction) : ∃ (t : State S) (lines : List String),
    (lines = [] ∨ lines = ["look"]) ∧ t.forest = s.forest ∧ s.world.Undisturbed t.world ∧
      ∀ (depth : Nat) (queue : Queue FollowUp),
        (rules.dispatchLine depth actor ("go " ++ d.name)).Yields { s with followUps := queue }
          (.handled .global) { t with followUps := queue.pushLines actor (depth + 1) lines } := by
  obtain ⟨t, lines, ht, hlines, hforest, hworld⟩ := exists_steady_go rules
    (goDefinition.invocation (S := S) s.world actor (.ofLine ("go " ++ d.name)) .global) s
  have hword : (Command.ofLine ("go " ++ d.name)).word = "go" := by cases d <;> decide
  have hblank : (Command.ofLine ("go " ++ d.name)).isBlank = false := by cases d <;> decide
  have hlookup : rules.registries.global.lookup (Command.ofLine ("go " ++ d.name)).word =
      some goDefinition := by
    rw [hword]
    exact lookup_go h.global
  exact ⟨t, lines, hlines, hforest, hworld,
    h.yields_command hquiet hthere hlookup rfl rfl hblank ht⟩

/-- A direction queues the line that goes there. -/
theorem yields_walk {line : String} (hblank : (Command.ofLine line).isBlank = false)
    (hword : (Command.ofLine line).word = d.name ∨ (Command.ofLine line).word = d.short)
    (depth : Nat) (queue : Queue FollowUp) :
    (rules.dispatchLine depth actor line).Yields { s with followUps := queue } (.handled .global)
      { s with followUps := queue.pushLines actor (depth + 1) ["go " ++ d.name] } := by
  have hsteady : (walk ((walkDefinition d).invocation (S := S) s.world actor (.ofLine line)
      .global)).Steady rules actor s .handled s ["go " ++ d.name] := steady_walk rules rfl
  exact h.yields_command hquiet hthere (lookup_walk h.global hword) rfl rfl hblank hsteady depth
    queue

/-- Whoever is to look around does so, however many generations down, if they are admitted. -/
theorem exists_yields_drain {lines : List String} (hlines : lines = [] ∨ lines = ["look"]) :
    ∃ t : State S, ∀ depth generations, depth ≤ rules.config.maxFollowUpDepth →
      (rules.drainGenerations (generations + 1)).Yields
        { s with followUps := Queue.empty.pushLines actor depth lines } () t := by
  rcases hlines with rfl | rfl
  · refine ⟨{ s with followUps := .empty }, fun depth generations _ => ?_⟩
    exact yields_drain_idle rfl (generations + 1)
  · obtain ⟨t, ht⟩ := h.exists_yields_look hquiet hthere
    refine ⟨{ t with followUps := .empty }, fun depth generations hdepth => ?_⟩
    exact yields_drain_one rfl hdepth (ht depth .empty) (yields_drain_idle rfl generations)

/-- Going somewhere at once, or one generation later, comes to the same. -/
theorem exists_yields_both (hdepth : 2 ≤ rules.config.maxFollowUpDepth)
    (hidle : s.followUps = .empty) {line : String}
    (hblank : (Command.ofLine line).isBlank = false)
    (hword : (Command.ofLine line).word = d.name ∨ (Command.ofLine line).word = d.short) :
    ∃ t, (rules.dispatch actor line).Yields s (.handled .global) t ∧
      (rules.dispatch actor ("go " ++ d.name)).Yields s (.handled .global) t := by
  have hs : { s with followUps := .empty } = s := by rw [← hidle]
  obtain ⟨t, lines, hlines, hforest, hworld, hgo⟩ := h.exists_yields_go hquiet hthere d
  have hquiet' : activeConversation t.world t.forest actor = none := by
    rw [hforest, hworld.activeConversation_eq]
    exact hquiet
  have hthere' : (t.world.character? actor).isSome := by
    rw [hworld.alike.character_isSome]
    exact hthere
  obtain ⟨u, hdrain⟩ := h.exists_yields_drain hquiet' hthere' hlines
  have hwalked := h.yields_walk hquiet hthere hblank hword 0 .empty
  have hgone := hgo 0 .empty
  rw [hs] at hwalked hgone
  obtain ⟨n, hn⟩ := Nat.exists_eq_add_of_le' hdepth
  refine ⟨u, yields_dispatch hwalked ?_, yields_dispatch hgone ?_⟩
  · -- The line that goes there is one generation down, and looking around two.
    rw [hn]
    exact yields_drain_one rfl (Nat.le_of_succ_le hdepth) (hgo 1 .empty) (hdrain 2 n hdepth)
  · rw [hn]
    exact hdrain 1 (n + 1) (Nat.le_of_succ_le hdepth)

end

/-- A line that begins with a direction, in any case and whatever words come after it, comes to the
same as going there: the outcome is the same, and so is all that is left behind, messages and world
included. Nothing is queued when a line is typed, since every call drains what it has queued. -/
theorem direction_means_go (hdepth : 2 ≤ rules.config.maxFollowUpDepth)
    (hidle : s.followUps.toList = []) {line word : String} {params : List String}
    (hline : Text.words line = word :: params)
    (hword : Text.lowercase word = d.name ∨ Text.lowercase word = d.short) :
    ∃ outcome, (rules.dispatch actor line s).result = .ok outcome ∧
      (rules.dispatch actor ("go " ++ d.name) s).result = .ok outcome ∧
      (rules.dispatch actor line s).state = (rules.dispatch actor ("go " ++ d.name) s).state := by
  have hempty : s.followUps = .empty := Queue.eq_empty_of_toList hidle
  have hcommand : (Command.ofLine line).word = Text.lowercase word := by
    rw [Command.ofLine, hline]
  rw [← hcommand] at hword
  have hblank : (Command.ofLine line).isBlank = false := by
    rw [Command.isBlank]
    rcases hword with hword | hword <;> rw [hword] <;> cases d <;> rfl
  have hgoes : (Command.ofLine ("go " ++ d.name)).isBlank = false := by cases d <;> decide
  have hboth : ∃ outcome t, (rules.dispatch actor line).Yields s outcome t ∧
      (rules.dispatch actor ("go " ++ d.name)).Yields s outcome t := by
    cases hthere : s.world.character? actor with
    | none =>
      have hdrain : (rules.drainGenerations rules.config.maxFollowUpDepth).Yields _ () _ :=
        yields_drain_idle (s := s.emit actor rules.config.unknownCommand) hempty _
      exact ⟨_, _, yields_dispatch (h.yields_missing hquiet hthere hblank 0) hdrain,
        yields_dispatch (h.yields_missing hquiet hthere hgoes 0) hdrain⟩
    | some c =>
      exact ⟨_, h.exists_yields_both hquiet (Option.isSome_of_eq_some hthere) hdepth hempty hblank
        hword⟩
  obtain ⟨outcome, t, hline, hgo⟩ := hboth
  exact ⟨outcome, hline.result_eq, hgo.result_eq, hline.state_eq.trans hgo.state_eq.symm⟩

end Rules.Standard

/-- The guest goes to the yard, in capitals and with a word too many. -/
theorem Rules.Standard.direction_means_go_north :
    ∃ w outcome, World.empty.run innWithYard = some w ∧
      Text.words "NORTH please" = ["NORTH", "please"] ∧ Text.lowercase "NORTH" = "north" ∧
      2 ≤ standardRules.config.maxFollowUpDepth ∧
      (standardRules.dispatch ⟨4⟩ "NORTH please" (.initial w ())).result = .ok outcome ∧
      (standardRules.dispatch ⟨4⟩ "go north" (.initial w ())).result = .ok outcome ∧
      (standardRules.dispatch ⟨4⟩ "NORTH please" (.initial w ())).state.world.characterRoom ⟨4⟩ =
        some ⟨3⟩ ∧
      (standardRules.dispatch ⟨4⟩ "NORTH please" (.initial w ())).state =
        (standardRules.dispatch ⟨4⟩ "go north" (.initial w ())).state := by
  have hruns : (World.empty.run innWithYard).map (fun w =>
      (standardRules.dispatch ⟨4⟩ "NORTH please" (.initial w ())).state.world.characterRoom ⟨4⟩) =
      some (some ⟨3⟩) := by
    decide +kernel
  obtain ⟨w, hw, hgone⟩ := Option.map_eq_some_iff.1 hruns
  have hwords : Text.words "NORTH please" = ["NORTH", "please"] := by decide +kernel
  have hlower : Text.lowercase "NORTH" = "north" := by decide +kernel
  have hdepth : 2 ≤ standardRules.config.maxFollowUpDepth := by decide
  obtain ⟨outcome, hline, hgo, hstate⟩ := standard_standardRules.direction_means_go
    (s := .initial w ()) (d := .north) (activeConversation_of_isEmpty rfl ⟨4⟩) hdepth rfl hwords
    (.inl hlower)
  exact ⟨w, outcome, hw, hwords, hlower, hdepth, hline, hgo, hgone, hstate⟩

end TextWorld

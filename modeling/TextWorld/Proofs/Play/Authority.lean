import TextWorld.Proofs.Play.Repertoire

/-!
What a line can bring about where there are only the standard commands. With all its follow-ups it
does at most one thing to the world, and only what its actor is entitled to: it walks through one
exit that is open to it, or moves one thing that it has at hand.
-/

namespace TextWorld

variable {S : Setting}

open StandardCommands

namespace World

variable {w v : World} {actor : CharacterId} {op : Op}

theorem Allows.errand (h : w.Allows actor op) :
    w.after op = w ∨ Errand actor w (w.after op) := by
  cases hr : w.perform op with
  | none =>
    left
    rw [after, hr]
    rfl
  | some reply => exact .inr ⟨op, reply, h, hr, by rw [after, hr]; rfl⟩

theorem Allows.undisturbed (h : w.Allows actor op) : w.Undisturbed (w.after op) := by
  rcases h.errand with hsame | herrand
  · rw [hsame]
    exact .refl w
  · exact herrand.cases.1

/-- Who is in which conversation is the same as before. -/
theorem Undisturbed.activeConversation_eq (h : w.Undisturbed v) (f : Forest S.Talk S.Ending)
    (actor : CharacterId) : activeConversation v f actor = activeConversation w f actor := by
  have houter := h.alike.comp Character.conversation actor
  have hsame (u : World) : activeConversation u f actor =
      ((u.character? actor).map Character.conversation).bind fun outer => outer.bind fun id =>
        if f.contains id then some (f.innermostFor id actor) else none := by
    rw [Option.bind_map]
    rfl
  rw [hsame, hsame]
  exact congrArg (Option.bind · _) houter

theorem Entitles.handledBy_after (h : w.Entitles actor op) (hw : w.Consistent) :
    w.HandledBy actor (w.after op) := by
  unfold after
  cases hr : w.perform op with
  | none => exact .refl actor w
  | some reply => exact h.handledBy hw hr

/-- Whether a character that is in one room now went there through an exit of the room it was in,
one that was open to it. -/
def WalkedTo (w : World) (actor : CharacterId) (there : Option RoomId) : Prop :=
  ∃ c here d e, w.character? actor = some c ∧ c.room = some here ∧ w.exit? here d = some e ∧
    e.isVisible = true ∧ e.isPassableBy c = true ∧ there.isSome ∧
      there = w.exitDestination here d

/-- What somebody who is no admin may do by itself moves nobody else, and itself only through an
exit. -/
theorem Allows.characterRoom (h : w.Allows actor op)
    (hplain : ∀ c, w.character? actor = some c → c.isAdmin = false) :
    (∀ other, other ≠ actor →
        (w.after op).characterRoom other = w.characterRoom other) ∧
      ((w.after op).characterRoom actor = w.characterRoom actor ∨
        w.WalkedTo actor ((w.after op).characterRoom actor)) := by
  rcases h.errand with hsame | herrand
  · rw [hsame]
    exact ⟨fun _ _ => rfl, .inl rfl⟩
  · rcases herrand.cases.2 with ⟨-, hstays⟩ | ⟨-, there, hgoes, hmoved⟩ | ⟨hstays, -⟩
    · exact ⟨fun other _ => hstays other, .inl (hstays actor)⟩
    · refine ⟨fun other hother => ?_, .inr ?_⟩
      · rw [hmoved, if_neg (Ne.symm hother)]
      · obtain ⟨-, c, hc, hadmin | ⟨here, d, e, hhere, he, hvisible, hpassable, hthere⟩⟩ := hgoes
        · -- Admins may go anywhere.
          rw [hplain c hc] at hadmin
          cases hadmin
        · rw [hmoved, if_pos rfl]
          exact ⟨c, here, d, e, hc, hhere, he, hvisible, hpassable, rfl, hthere.symm⟩
    · exact ⟨fun other _ => hstays other, .inl (hstays actor)⟩

end World

namespace Rules.Standard

variable {rules : Rules S} {actor : CharacterId} {s : State S} (h : rules.Standard)
include h

section

variable (hquiet : activeConversation s.world s.forest actor = none) (depth : Nat)
include hquiet

/-- Looking around changes nothing and leads to nothing. -/
theorem never_look : (rules.dispatchLine depth actor "look").Never
    (fun _ t => t.forest = s.forest ∧ t.followUps.toList = s.followUps.toList) s := by
  refine once_dispatchLine h.only hquiet (fun _ _ ht => ht) ⟨rfl, rfl⟩ fun d inv hinv => ?_
  have hword : (Command.ofLine "look").word = "look" := by decide
  have hd := hinv.word
  rw [hword, lookup_look h.global] at hd
  cases hd
  obtain rfl := hinv.actor_eq
  have hwithin : (look inv : Program S CommandOutcome).Within inv.actor Licence.none s.world :=
    within_look inv
  refine (once_execute hwithin).mono (fun _ => id) fun _ t ht => ⟨ht.1, ht.2.elim id ?_⟩
  rintro ⟨_, hline, -⟩
  exact hline.elim

/-- Going in a direction is one thing to do, and may lead to looking around. -/
theorem once_go (hw : s.world.Filed) (d : Direction) :
    (rules.dispatchLine depth actor ("go " ++ d.name)).Once (s.world.Entitles actor)
      (fun _ t => t.forest = s.forest ∧ s.Queues actor (depth + 1) (· = "look") t) s := by
  refine once_dispatchLine h.only hquiet (fun _ _ ht => ht) ⟨rfl, .inl rfl⟩ fun d' inv hinv => ?_
  have hword : (Command.ofLine ("go " ++ d.name)).word = "go" := by cases d <;> decide
  have hd := hinv.word
  rw [hword, lookup_go h.global] at hd
  cases hd
  obtain rfl := hinv.actor_eq
  have hwithin : (go inv : Program S CommandOutcome).Within inv.actor (deeds s.world inv.actor)
      s.world := within_go (fun _ _ _ => entitles_go hw hinv.args_eq) rfl
  exact once_execute hwithin

/-- A direction by itself does nothing but to lead to going there. -/
theorem never_walk {line : String} {direction : Direction}
    (hwalk : rules.registries.global.lookup (Command.ofLine line).word =
      some (walkDefinition direction)) :
    (rules.dispatchLine depth actor line).Never
      (fun _ t => t.forest = s.forest ∧ s.Queues actor (depth + 1) steps.line t) s := by
  refine once_dispatchLine h.only hquiet (fun _ _ ht => ht) ⟨rfl, .inl rfl⟩ fun d inv hinv => ?_
  have hd := hinv.word
  rw [hwalk] at hd
  cases hd
  obtain rfl := hinv.actor_eq
  exact once_execute (within_walk hinv.data_eq)

/-- Any other line does at most one thing. -/
theorem once_deed (hw : s.world.Filed) {line : String}
    (hwalk : ∀ direction, rules.registries.global.lookup (Command.ofLine line).word ≠
      some (walkDefinition direction)) :
    (rules.dispatchLine depth actor line).Once (s.world.Entitles actor)
      (fun _ t => t.forest = s.forest ∧ s.Queues actor (depth + 1) (· = "look") t) s := by
  refine once_dispatchLine h.only hquiet (fun _ _ ht => ht) ⟨rfl, .inl rfl⟩ fun d inv hinv => ?_
  refine once_execute (within_of_invoked h.global hw hinv fun direction hd => ?_)
  exact hwalk direction (hd ▸ hinv.word)

/-- Any line does at most one thing, or leads to going in a direction. -/
theorem once_line (hw : s.world.Filed) (line : String) :
    (rules.dispatchLine depth actor line).Once (s.world.Entitles actor)
        (fun _ t => t.forest = s.forest ∧ s.Queues actor (depth + 1) (· = "look") t) s ∨
      (rules.dispatchLine depth actor line).Never
        (fun _ t => t.forest = s.forest ∧ s.Queues actor (depth + 1) steps.line t) s := by
  -- Only the names of the directions lead to a line that may change the world itself.
  by_cases hwalk : ∃ direction, rules.registries.global.lookup (Command.ofLine line).word =
      some (walkDefinition direction)
  · obtain ⟨direction, hwalk⟩ := hwalk
    exact .inr (h.never_walk hquiet depth hwalk)
  · exact .inl (h.once_deed hquiet depth hw (not_exists.1 hwalk))

end

omit h in
/-- What is queued when a line has been dispatched to which nothing was to follow before. -/
theorem queued_cases {t : State S} {depth : Nat} {line : String → Prop}
    (hidle : s.followUps.toList = []) (ht : s.Queues actor depth line t) :
    t.followUps.toList = [] ∨ ∃ text, line text ∧ t.followUps.toList = [⟨actor, text, depth⟩] := by
  rcases ht with hsame | ⟨text, htext, hmore⟩
  · exact .inl (hsame.trans hidle)
  · rw [hidle, List.nil_append] at hmore
    exact .inr ⟨text, htext, hmore⟩

theorem never_drain_look (hquiet : activeConversation s.world s.forest actor = none) {depth : Nat}
    (hqueue : s.followUps.toList = [] ∨
      ∃ text, text = "look" ∧ s.followUps.toList = [⟨actor, text, depth⟩])
    (generations : Nat) : (rules.drainGenerations generations).Never (fun _ _ => True) s := by
  rcases hqueue with hempty | ⟨_, rfl, hlook⟩
  · exact never_drainGenerations hempty generations
  · refine once_drainGenerations hlook (fun generations => ?_) generations
    have hnext := h.never_look (s := { s with followUps := .empty }) hquiet depth
    exact hnext.mono (fun _ => id) fun _ t ht => never_drainGenerations ht.2 generations

/-- After a line that does one thing to the world the actor at most looks around. -/
theorem once_bind_drain {m : Run S DispatchOutcome} {depth : Nat} (hidle : s.followUps.toList = [])
    (hquiet : activeConversation s.world s.forest actor = none)
    (hm : m.Once (s.world.Entitles actor)
      (fun _ t => t.forest = s.forest ∧ s.Queues actor depth (· = "look") t) s)
    (generations : Nat) :
    m.Once (s.world.Entitles actor)
      (fun _ t => (rules.drainGenerations generations).Never (fun _ _ => True) t) s := by
  refine hm.leaves.mono (fun _ => id) fun _ t ht => ?_
  obtain ⟨⟨hforest, hqueue⟩, hworld⟩ := ht
  refine h.never_drain_look ?_ (queued_cases hidle hqueue) generations
  -- What the line did has put nobody into a conversation.
  rw [hforest]
  rcases hworld with hsame | ⟨op, hop, hafter⟩
  · rw [hsame]
    exact hquiet
  · rw [hafter, hop.allows.undisturbed.activeConversation_eq]
    exact hquiet

theorem once_drain_go (hquiet : activeConversation s.world s.forest actor = none)
    (hw : s.world.Filed) {depth : Nat}
    (hqueue : s.followUps.toList = [] ∨
      ∃ text, steps.line text ∧ s.followUps.toList = [⟨actor, text, depth⟩])
    (generations : Nat) :
    (rules.drainGenerations generations).Once (s.world.Entitles actor) (fun _ _ => True) s := by
  rcases hqueue with hempty | ⟨_, ⟨d, rfl⟩, hgo⟩
  · exact (never_drainGenerations hempty generations).once
  · refine once_drainGenerations hgo (fun generations => ?_) generations
    have hnext := h.once_go (s := { s with followUps := .empty }) hquiet depth hw d
    exact h.once_bind_drain (s := { s with followUps := .empty }) rfl hquiet hnext generations

/-- A line with all its follow-ups does at most one thing to the world, which its actor is entitled
to. -/
theorem once_dispatch (hw : s.world.Filed) (hidle : s.followUps.toList = [])
    (hquiet : activeConversation s.world s.forest actor = none) (line : String) :
    (rules.dispatch actor line).Once (s.world.Entitles actor) (fun _ _ => True) s := by
  rcases h.once_line hquiet 0 hw line with hdone | hwalked
  · have hdrained := h.once_bind_drain hidle hquiet hdone rules.config.maxFollowUpDepth
    refine Run.once_bind (hdrained.mono (fun _ => id) fun outcome t ht => ?_)
    exact Run.never_bind (ht.mono (fun _ => id) fun _ _ _ => Run.never_pure trivial)
  · -- The one operation is left to the line that follows.
    refine Run.never_bind (hwalked.keep.mono (fun _ => id) fun outcome t ht => ?_)
    obtain ⟨⟨hforest, hqueue⟩, hworld⟩ := ht
    rw [← hforest, ← hworld] at hquiet
    rw [← hworld] at hw
    have hdrain := h.once_drain_go hquiet hw (queued_cases hidle hqueue)
      rules.config.maxFollowUpDepth
    rw [hworld] at hdrain
    exact Run.once_bind (hdrain.mono (fun _ => id) fun _ _ _ => Run.never_pure trivial)

section

-- Nothing is queued when a line is typed, since every call drains what it has queued.
variable (hw : s.world.Reachable) (hidle : s.followUps.toList = [])
variable (hquiet : activeConversation s.world s.forest actor = none)
include hw hidle hquiet

/-- Whatever somebody types who is no admin and in no conversation, others stay where they are, and
it stays as well or goes through one exit that it sees and can pass. -/
theorem movement_authorised
    (hplain : ∀ c, s.world.character? actor = some c → c.isAdmin = false) (line : String) :
    (∀ other, other ≠ actor →
        (rules.dispatch actor line s).state.world.characterRoom other =
          s.world.characterRoom other) ∧
      ((rules.dispatch actor line s).state.world.characterRoom actor =
          s.world.characterRoom actor ∨
        s.world.WalkedTo actor ((rules.dispatch actor line s).state.world.characterRoom actor)) ∧
      (performed (rules.dispatch actor line s).sights).length ≤ 1 := by
  have honce := (h.once_dispatch hw.filed hidle hquiet line).spends
  rcases honce with ⟨hnone, hsame⟩ | ⟨op, hop, hone, hafter⟩
  · rw [hsame, hnone]
    exact ⟨fun _ _ => rfl, .inl rfl, Nat.zero_le 1⟩
  · obtain ⟨hothers, hactor⟩ := hop.allows.characterRoom hplain
    rw [hafter, hone]
    exact ⟨hothers, hactor, Nat.le_refl 1⟩

/-- Whatever somebody types who is in no conversation, it moves one thing at most, which it has at
hand, and what is pushed out of its own slot by it. -/
theorem possession_authorised (line : String) :
    s.world.HandledBy actor (rules.dispatch actor line s).state.world := by
  rcases (h.once_dispatch hw.filed hidle hquiet line).spends with
    ⟨-, hsame⟩ | ⟨op, hop, -, hafter⟩
  · rw [hsame]
    exact .refl actor s.world
  · rw [hafter]
    exact hop.handledBy_after hw.sound.consistent

end

end Rules.Standard

/-- The key of a room at the harbour. -/
def harbourKey (room : String) (hroom : room ≠ "") (hbare : '@' ∉ room.toList) : ZonedKey :=
  ⟨room, "harbour", hroom, by decide, hbare, by decide⟩

def yardKey : ZonedKey := harbourKey "yard" (by decide) (by decide)

/-- An inn at the harbour with a door to the yard that can hardly be seen when it is closed. In the
inn are a guest with a hat on and a cap in the hand, and a cat. -/
def innWithYard : List World.Op :=
  [.addZone "harbour" "The Harbour", .addRoom ⟨1⟩ "inn" "The Inn" "",
    .addRoom ⟨1⟩ "yard" "The Yard" "",
    .addExit ⟨2⟩ ⟨.north, yardKey, some Door.opened.hide⟩,
    .spawnCharacter ⟨2⟩ (.player "guest" "a guest" []),
    .spawnCharacter ⟨2⟩ (.npc "cat" "a cat" []),
    .spawnItem (.equipped ⟨4⟩ "head") ⟨"hat", "a hat", []⟩,
    .spawnItem (.inventory ⟨4⟩) ⟨"cap", "a cap", []⟩]

theorem Rules.Standard.movement_authorised_north :
    ∃ w, World.empty.run innWithYard = some w ∧
      (w.characterRoom ⟨4⟩ = some ⟨2⟩ ∧
        (standardRules.dispatch ⟨4⟩ "n" (.initial w ())).state.world.characterRoom ⟨4⟩ =
          some ⟨3⟩) ∧
      (∀ other, other ≠ ⟨4⟩ →
        (standardRules.dispatch ⟨4⟩ "n" (.initial w ())).state.world.characterRoom other =
          w.characterRoom other) ∧
      w.WalkedTo ⟨4⟩ (some ⟨3⟩) := by
  have hruns : (World.empty.run innWithYard).map (fun w =>
      (w.characterRoom ⟨4⟩, (w.character? ⟨4⟩).map (·.isAdmin),
        (standardRules.dispatch ⟨4⟩ "n" (.initial w ())).state.world.characterRoom ⟨4⟩)) =
      some (some ⟨2⟩, some false, some ⟨3⟩) := by
    decide +kernel
  obtain ⟨w, hw, hruns⟩ := Option.map_eq_some_iff.1 hruns
  obtain ⟨hhere, hplain, hthere⟩ : _ ∧ _ ∧ _ := by simpa only [Prod.mk.injEq] using hruns
  have hguest : ∀ c, w.character? ⟨4⟩ = some c → c.isAdmin = false := by
    intro c hc
    rw [hc] at hplain
    exact Option.some.inj hplain
  obtain ⟨hothers, hactor, -⟩ := standard_standardRules.movement_authorised
    (s := .initial w ()) ⟨innWithYard, hw⟩ rfl (activeConversation_of_isEmpty rfl ⟨4⟩) hguest "n"
  refine ⟨w, hw, ⟨hhere, hthere⟩, hothers, ?_⟩
  rw [hthere] at hactor
  refine hactor.resolve_left fun hsame => ?_
  change some ⟨3⟩ = w.characterRoom ⟨4⟩ at hsame
  rw [hhere] at hsame
  cases hsame

/-- The cap pushes the hat off the head of the guest. -/
theorem Rules.Standard.possession_authorised_cap :
    ∃ w, World.empty.run innWithYard = some w ∧
      (w.locationOf ⟨6⟩ = some (.equipped ⟨4⟩ "head") ∧
        w.locationOf ⟨7⟩ = some (.inventory ⟨4⟩)) ∧
      ((standardRules.dispatch ⟨4⟩ "wear cap head" (.initial w ())).state.world.locationOf ⟨6⟩ =
          some (.inventory ⟨4⟩) ∧
        (standardRules.dispatch ⟨4⟩ "wear cap head" (.initial w ())).state.world.locationOf ⟨7⟩ =
          some (.equipped ⟨4⟩ "head")) ∧
      w.HandledBy ⟨4⟩
        (standardRules.dispatch ⟨4⟩ "wear cap head" (.initial w ())).state.world := by
  have hruns : (World.empty.run innWithYard).map (fun w =>
      ((w.locationOf ⟨6⟩, w.locationOf ⟨7⟩),
        let v := (standardRules.dispatch ⟨4⟩ "wear cap head" (.initial w ())).state.world
        (v.locationOf ⟨6⟩, v.locationOf ⟨7⟩))) =
      some ((some (.equipped ⟨4⟩ "head"), some (.inventory ⟨4⟩)),
        (some (.inventory ⟨4⟩), some (.equipped ⟨4⟩ "head"))) := by
    decide +kernel
  obtain ⟨w, hw, hruns⟩ := Option.map_eq_some_iff.1 hruns
  obtain ⟨hbefore, hafter⟩ := Prod.mk.inj hruns
  refine ⟨w, hw, Prod.mk.inj hbefore, Prod.mk.inj hafter, ?_⟩
  exact standard_standardRules.possession_authorised (s := .initial w ()) ⟨innWithYard, hw⟩ rfl
    (activeConversation_of_isEmpty rfl ⟨4⟩) "wear cap head"

end TextWorld

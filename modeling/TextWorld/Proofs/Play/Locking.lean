import TextWorld.Proofs.Engine.Firing
import TextWorld.Proofs.Play.Hiding

/-!
Locks hold. Where there are only the standard commands, a line does at most one thing to the world,
and what it does respects the locks; so a bolted door stays bolted, whatever is typed for whomever
and however time passes.
-/

namespace TextWorld

variable {S : Setting} {α : Type}

open StandardCommands

/-- Wherever commands are registered, they are standard commands. -/
def Rules.OnlyStandard (rules : Rules S) : Prop :=
  ∀ level registry, rules.registry? level = some registry →
    ∀ word d, registry.lookup word = some d → d ∈ standard

theorem Rules.Standard.onlyStandard {rules : Rules S} (h : rules.Standard) :
    rules.OnlyStandard := by
  intro level registry hregistry word d hd
  by_cases hlevel : level = .global
  · subst hlevel
    cases hregistry
    rw [lookup_standard h.global] at hd
    exact List.mem_of_find?_eq_some hd
  · rw [h.only level registry hregistry hlevel] at hd
    cases hd

/-- Each standard command does at most one thing, which respects the locks. -/
theorem StandardCommands.respectsLocks_of_invoked {w : World} {registry : Registry (Handler S)}
    {command : Command} (hw : w.Filed) {d : Definition (Handler S)} (hd : d ∈ standard)
    {actor : CharacterId} {inv : Invocation} (h : Invoked registry command w actor d inv) :
    (d.run inv).Within actor ⟨w.RespectsLocks, fun _ => True⟩ w := by
  by_cases hwalk : ∃ direction, d = walkDefinition direction
  · obtain ⟨direction, rfl⟩ := hwalk
    obtain rfl := h.actor_eq
    exact (within_walk h.data_eq).mono (fun _ hop => hop.elim) fun _ _ => trivial
  · exact (lawful_of_invoked hw hd h fun direction heq => hwalk ⟨direction, heq⟩).mono
      (fun _ hop => hop.2) fun _ _ => trivial

/-- No conversation is going on, and the world is as `J` says. -/
structure State.Still (J : World → Prop) (s : State S) : Prop where
  world : J s.world
  forest : s.forest.isEmpty = true

namespace Run

variable {J : World → Prop} {m : Run S α} {s : State S}

/-- The run leaves the world as `J` says, even if it breaks off; and no conversation is going on if
it comes to its end. -/
structure ShelteredAt (J : World → Prop) (m : Run S α) (s : State S) : Prop where
  world : J (m s).state.world
  ends : m.Ensures (fun _ => State.Still J) s

def Shelters (J : World → Prop) (m : Run S α) : Prop := ∀ s, s.Still J → m.ShelteredAt J s

theorem shelteredAt_of_still (h : (m s).state.Still J) : m.ShelteredAt J s :=
  ⟨h.world, fun _ _ => h⟩

/-- One operation is no danger that leaves the world as `J` says. -/
theorem Once.sheltered {ok : World.Op → Prop} (h : m.Once ok (fun _ t => t.forest = s.forest) s)
    (hs : s.Still J) (hok : ∀ op, ok op → J (s.world.after op)) : m.ShelteredAt J s := by
  have hworld : J (m s).state.world := by
    rcases h.spends with ⟨-, hsame⟩ | ⟨op, hop, -, hafter⟩
    · exact hsame.symm ▸ hs.world
    · exact hafter.symm ▸ hok op hop
  exact ⟨hworld, fun a ha => ⟨hworld, (h.ensures a ha).symm ▸ hs.forest⟩⟩

theorem shelters_compositional (J : World → Prop) : Compositional (S := S) (Shelters J) where
  pure _ _ hs := shelteredAt_of_still hs
  bind {_ _ m f} hm hf s hs := by
    obtain ⟨hworld, hends⟩ := hm s hs
    refine ⟨?_, ensures_bind (hends.mono fun a t ht => (hf a t ht).ends)⟩
    rcases hfirst : m s with ⟨seen, fault | a, t⟩
    · rw [bind_of_error hfirst]
      rwa [hfirst] at hworld
    · rw [bind_of_ok hfirst]
      have ht := hends a (by rw [hfirst])
      rw [hfirst] at ht
      exact (hf a t ht).world
  get _ hs := shelteredAt_of_still hs

theorem shelters_reach (stage : Stage S) : (reach stage).Shelters J :=
  fun _ hs => shelteredAt_of_still hs

end Run

/-- The world came about by operations, and the door is bolted. -/
def World.Fortified (a : Side) (w : World) : Prop := w.Reachable ∧ w.Bolted a

theorem World.Fortified.after {a : Side} {w : World} (h : w.Fortified a) {op : World.Op}
    (hop : w.RespectsLocks op) : (w.after op).Fortified a := by
  unfold World.after
  cases hr : w.perform op with
  | none => exact h
  | some reply => exact ⟨h.1.trans (.perform hr), h.2.perform h.1.charted hop hr⟩

namespace Rules.OnlyStandard

open Run

variable {rules : Rules S} {a : Side} (h : rules.OnlyStandard)
include h

theorem lineParts (depth : Nat) (actor : CharacterId) (command : Command) :
    LineParts rules depth actor command (Shelters (World.Fortified a)) where
  toCompositional := shelters_compositional _
  offered _ := shelters_reach _
  answered _ _ := shelters_reach _
  told _ _ hs := shelteredAt_of_still ⟨hs.world, hs.forest⟩
  conversation s hs := by
    have hnone : rules.askConversation depth actor command s = ⟨[], .ok none, s⟩ := by
      unfold Rules.askConversation
      rw [get_bind, activeConversation_of_isEmpty hs.forest]
      rfl
    exact shelteredAt_of_still (by rwa [hnone])
  handle {level registry} origin hregistry _ s hs := by
    have honce : (rules.handle depth registry actor command origin).Once s.world.RespectsLocks
        (fun _ t => t.forest = s.forest) s := by
      refine once_handle rfl (fun _ => rfl) fun d inv hinv => ?_
      have hd : d ∈ standard := h level registry hregistry _ d hinv.word
      have hwithin := respectsLocks_of_invoked hs.world.1.filed hd hinv
      exact (once_execute hwithin).mono (fun _ => id) fun _ _ ht => ht.1
    exact honce.sheltered hs fun _ => hs.world.after

theorem dispatchParts : DispatchParts rules (Shelters (World.Fortified a)) where
  toCompositional := shelters_compositional _
  line depth actor line := by
    have hparts := h.lineParts (a := a) depth actor (.ofLine line)
    refine hparts.bind (shelters_reach _) fun _ => hparts.bind hparts.respond fun _ => ?_
    exact hparts.bind (shelters_reach _) fun _ => hparts.pure _
  cleared _ hs := shelteredAt_of_still ⟨hs.world, hs.forest⟩

omit h in
theorem shelters_passTime (delta : Duration) :
    (Rules.passTime delta : Run S Unit).Shelters (World.Fortified a) := by
  intro s hs
  have hafter : (s.world.after (.advance delta)).Fortified a := hs.world.after trivial
  rw [World.after, World.perform, Option.map_map] at hafter
  apply shelteredAt_of_still
  cases hadvance : s.world.advance delta with
  | none =>
    rw [passTime_of_none hadvance]
    exact hs
  | some world =>
    rw [hadvance] at hafter
    rw [passTime_of_some hadvance]
    exact ⟨hafter, hs.forest⟩

theorem tick (hhooks : rules.hooks = []) (delta : Duration) :
    (rules.tick delta).Shelters (World.Fortified a) := by
  refine h.dispatchParts.tick (shelters_passTime delta) (fun through s hs => ?_)
    (fun id => (shelters_compositional _).bind (shelters_reach _) fun _ s hs => ?_) ?_
  · apply shelteredAt_of_still
    cases hpop : s.forest.scheduler.popNext s.world.now through with
    | none =>
      rw [takeDue_of_none hpop]
      exact hs
    | some due =>
      rw [takeDue_of_some hpop]
      exact ⟨hs.world, hs.forest⟩
  · apply shelteredAt_of_still
    rw [discard_eq, Rules.Standard.withTalk_of_isEmpty hs.forest]
    exact hs
  · rw [hhooks]
    exact h.dispatchParts.pure ()

theorem answerAll (hhooks : rules.hooks = []) (prompts : List Prompt) :
    (Prompt.answerAll rules prompts).Shelters (World.Fortified a) := by
  have hparts := h.dispatchParts (a := a)
  have hanswer (prompt : Prompt) : (prompt.answer rules).Shelters (World.Fortified a) := by
    cases prompt with
    | line actor text => exact hparts.bind (hparts.dispatch actor text) fun _ => hparts.pure _
    | time delta => exact hparts.bind (h.tick hhooks delta) fun _ => hparts.pure _
  induction prompts with
  | nil => exact hparts.pure []
  | cons prompt prompts ih =>
    exact hparts.bind (hanswer prompt) fun _ => hparts.bind ih fun _ => hparts.pure _

/-- Where nothing but standard commands is registered, a door that is closed and locked stays so, if
the one on the other side is closed and locked as well or missing: whatever is typed for anybody,
admin or not, and however time passes. -/
theorem locks_hold (hhooks : rules.hooks = []) {s : State S} (hw : s.world.Reachable)
    (hquiet : s.forest.isEmpty = true) (hbolted : s.world.Bolted a) (prompts : List Prompt) :
    (Prompt.answerAll rules prompts s).state.world.Bolted a :=
  (h.answerAll hhooks prompts s ⟨⟨hw, hbolted⟩, hquiet⟩).1.2

end Rules.OnlyStandard

/-- The inn with a locked hatch in place of its trapdoor. On the side of the yard it has no door. -/
def innWithHatch : List World.Op :=
  innWithTrapdoor ++ [.addExit ⟨2⟩ ⟨.down, yardKey, some Door.shut.lock⟩]

/-- The guest tries the hatch from within and from without, and comes back by it. -/
def hatchTried : List Prompt :=
  [.line ⟨4⟩ "open down", .line ⟨4⟩ "north", .line ⟨4⟩ "open up", .line ⟨4⟩ "close up",
    .time (.ofSeconds 1), .line ⟨4⟩ "up", .line ⟨4⟩ "down"]

theorem Rules.OnlyStandard.locks_hold_hatch :
    ∃ w, World.empty.run innWithHatch = some w ∧ w.Paired ⟨⟨2⟩, .down⟩ ⟨⟨3⟩, .up⟩ ∧
      w.Bolted ⟨⟨2⟩, .down⟩ ∧
      let course := Prompt.answerAll standardRules hatchTried (.initial w ())
      course.result.toOption.isSome = true ∧
        course.state.mailbox.toList.getLast? = some ⟨⟨4⟩, "You can't go that way."⟩ ∧
        course.state.world.characterRoom ⟨4⟩ = some ⟨2⟩ ∧
        course.state.world.Bolted ⟨⟨2⟩, .down⟩ := by
  have hplaces : (World.empty.run innWithHatch).map (fun w =>
      decide (w.Paired ⟨⟨2⟩, .down⟩ ⟨⟨3⟩, .up⟩ ∧ w.doorAt ⟨⟨2⟩, .down⟩ = some Door.shut.lock ∧
        w.doorAt ⟨⟨3⟩, .up⟩ = none)) = some true := by
    decide +kernel
  have hruns : (World.empty.run innWithHatch).map (fun w =>
      let course := Prompt.answerAll standardRules hatchTried (.initial w ())
      (course.result.toOption.isSome, course.state.mailbox.toList.getLast?,
        course.state.world.characterRoom ⟨4⟩)) =
      some (true, some ⟨⟨4⟩, "You can't go that way."⟩, some ⟨2⟩) := by
    decide +kernel
  obtain ⟨w, hw, hplaces⟩ := Option.map_eq_some_iff.1 hplaces
  obtain ⟨hpair, hnear, hfar⟩ := of_decide_eq_true hplaces
  rw [hw] at hruns
  obtain ⟨hends, htold, hback⟩ : _ ∧ _ ∧ _ := by
    simpa only [Prod.mk.injEq] using Option.some.inj hruns
  have hbolted : w.Bolted ⟨⟨2⟩, .down⟩ := by
    refine ⟨Option.isSome_of_eq_some hnear, ?_⟩
    rintro b (rfl | hb) x hx
    · rw [hnear] at hx
      cases hx
      exact ⟨rfl, rfl⟩
    · rw [hb.unique hpair, hfar] at hx
      cases hx
  refine ⟨w, hw, hpair, hbolted, hends, htold, hback, ?_⟩
  exact standard_standardRules.onlyStandard.locks_hold (s := .initial w ()) rfl
    ⟨innWithHatch, hw⟩ rfl hbolted hatchTried

end TextWorld

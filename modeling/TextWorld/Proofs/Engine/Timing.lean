import TextWorld.Proofs.Conversation.Due
import TextWorld.Proofs.Engine.Deliveries
import TextWorld.Proofs.Engine.Worldly

/-!
Pending lines and the clock, step by step. A pending line goes only by being fired, or by being
withdrawn in sight; and the clock moves only where time passes or a program advances it.
-/

namespace TextWorld

variable {S : Setting}

namespace Sight

/-- A line is scheduled, for a conversation that is there. -/
def Schedules (sight : Sight S) (line : ScheduledLine) : Prop :=
  ∃ delay, sight.event = .asked (.schedule line.conversation line.actor line.line delay) ∧
    sight.state.forest.contains line.conversation = true ∧
    sight.state.world.now.add? delay = some line.due

/-- The pending line of a conversation, if there is one, is cancelled or replaced by another, or
goes with the conversation when that is ended. -/
def Withdraws (sight : Sight S) (id : ConversationId) : Prop :=
  sight.event = .asked (.cancel id) ∨ (∃ line, sight.Schedules line ∧ line.conversation = id) ∨
    id ∈ sight.event.closed

/-- A program advances the clock. -/
def Advances (sight : Sight S) : Prop :=
  ∃ delta, sight.event = .asked (.perform (.advance delta))

end Sight

/-- A line leaves its slot, by being withdrawn or by being fired with those of no later number. -/
def Lost (seen : List (Sight S)) (slot : Slot) (line : ScheduledLine) : Prop :=
  ∃ sight ∈ seen, sight.Withdraws line.conversation ∨
    ∃ through fired, sight.event = .reached (.due through fired) ∧ slot.sequence ≤ through

namespace Scheduler

variable {s s' s'' : Scheduler} {gone gone' : Slot → ScheduledLine → Prop}

/-- The second is the first after some lines have gone and others have been scheduled. -/
structure Sheds (s : Scheduler) (gone : Slot → ScheduledLine → Prop) (s' : Scheduler) : Prop where
  kept : s'.Kept
  later : s.Later s'
  keeps : ∀ {slot : Slot} {line : ScheduledLine}, s.queue[slot]? = some line →
    s'.queue[slot]? = some line ∨ gone slot line

theorem Kept.sheds_refl (hk : s.Kept) : s.Sheds gone s := ⟨hk, .refl s, .inl⟩

theorem Sheds.trans (h : s.Sheds gone s') (h' : s'.Sheds gone s'') : s.Sheds gone s'' := by
  refine ⟨h'.kept, h.later.trans h'.later, fun hslot => ?_⟩
  rcases h.keeps hslot with hslot | hgone
  · exact h'.keeps hslot
  · exact .inr hgone

theorem Sheds.mono (hgone : ∀ slot line, gone slot line → gone' slot line)
    (h : s.Sheds gone s') : s.Sheds gone' s' :=
  ⟨h.kept, h.later, fun hslot => (h.keeps hslot).imp_right (hgone _ _)⟩

theorem Kept.sheds_cancel (hk : s.Kept) {id : ConversationId}
    (hgone : ∀ slot line, line.conversation = id → gone slot line) :
    s.Sheds gone (s.cancel id) := by
  refine ⟨hk.cancel id, .cancel s id, fun {slot line} hslot => ?_⟩
  by_cases hid : line.conversation = id
  · exact .inr (hgone slot line hid)
  · exact .inl (hk.keeps_cancel hslot hid)

theorem Kept.sheds_schedule (hk : s.Kept) {line : ScheduledLine}
    (hgone : ∀ slot l, l.conversation = line.conversation → gone slot l) :
    s.Sheds gone (s.schedule line) := by
  refine ⟨hk.schedule line, .schedule s line, fun {slot l} hslot => ?_⟩
  by_cases hid : l.conversation = line.conversation
  · exact .inr (hgone slot l hid)
  · exact .inl (hk.keeps_schedule hslot hid)

theorem Kept.sheds_takes (hk : s.Kept) {now : Duration} {through : Nat} {slot : Slot}
    {line : ScheduledLine} (h : s.Takes now through slot line s') (hgone : ∀ l, gone slot l) :
    s.Sheds gone s' := by
  refine ⟨hk.takes h, .takes h, fun {other l} hother => ?_⟩
  by_cases hslot : other = slot
  · rw [hslot]
    exact .inr (hgone l)
  · exact .inl (h.keeps hother hslot)

end Scheduler

open Scheduler

section

variable {allowed : Stage S → Prop} {generation : Option Nat} {s s' : State S}
variable {seen more : List (Sight S)}

theorem Lost.append_left {slot : Slot} {line : ScheduledLine} (h : Lost seen slot line) :
    Lost (seen ++ more) slot line := by
  obtain ⟨sight, hmem, hlost⟩ := h
  exact ⟨sight, List.mem_append_left _ hmem, hlost⟩

theorem Lost.append_right {slot : Slot} {line : ScheduledLine} (h : Lost more slot line) :
    Lost (seen ++ more) slot line := by
  obtain ⟨sight, hmem, hlost⟩ := h
  exact ⟨sight, List.mem_append_right _ hmem, hlost⟩

theorem State.scheduler_addConversation (s : State S) (c : Conversation S.Talk S.Ending) :
    (s.addConversation c).2.forest.scheduler = s.forest.scheduler :=
  Forest.scheduler_insert s.forest c

theorem State.scheduler_start (s : State S) (participants : List CharacterId) (talk : S.Talk)
    (ending : Option S.Ending) :
    (s.start participants talk ending).2.forest.scheduler = s.forest.scheduler := by
  rcases s.start_cases participants talk ending with hstart | ⟨c, hstart⟩
  · rw [hstart]
  · rw [hstart]
    exact scheduler_addConversation s c

theorem State.scheduler_startChild (s : State S) (parent : ConversationId)
    (participants : List CharacterId) (talk : S.Talk) :
    (s.startChild parent participants talk).2.forest.scheduler = s.forest.scheduler := by
  rcases s.startChild_cases parent participants talk with hstart | ⟨c, hstart⟩
  · rw [hstart]
  · rw [hstart]
    exact scheduler_addConversation s c

theorem State.sheds_close {gone : Slot → ScheduledLine → Prop} {s : State S}
    (hk : s.forest.scheduler.Kept) {id : ConversationId}
    (hgone : ∀ slot line, line.conversation = id → gone slot line) :
    s.forest.scheduler.Sheds gone (s.close id).forest.scheduler := by
  cases hc : s.forest.get? id with
  | none =>
    rw [close, hc]
    exact hk.sheds_refl
  | some c =>
    rw [close_eq hc]
    change s.forest.scheduler.Sheds gone (s.forest.remove id).scheduler
    rw [Forest.scheduler_remove hc]
    exact hk.sheds_cancel hgone

theorem State.sheds_closeAll {gone : Slot → ScheduledLine → Prop} {s : State S}
    (hk : s.forest.scheduler.Kept) {id : ConversationId}
    (hgone : ∀ slot line, line.conversation ∈ id :: s.forest.descendants id → gone slot line) :
    s.forest.scheduler.Sheds gone (s.closeAll id).forest.scheduler := by
  apply closeAll_keeps (P := fun t => s.forest.scheduler.Sheds gone t.forest.scheduler) _
    hk.sheds_refl
  intro t x hx ht
  apply ht.trans
  apply sheds_close ht.kept
  rintro slot line rfl
  exact hgone slot line hx

/-- What a step may lose is lost in sight. -/
theorem Step.sheds (h : Step allowed generation s seen s') (hk : s.forest.scheduler.Kept) :
    s.forest.scheduler.Sheds (Lost seen) s'.forest.scheduler := by
  have still (hsame : s'.forest.scheduler = s.forest.scheduler) :
      s.forest.scheduler.Sheds (Lost seen) s'.forest.scheduler := by
    rw [hsame]
    exact hk.sheds_refl
  have lost {sight : Sight S} {slot : Slot} {line : ScheduledLine}
      (hw : sight.Withdraws line.conversation) : Lost [sight] slot line :=
    ⟨sight, List.mem_singleton.2 rfl, .inl hw⟩
  -- Pending lines go on request, with an end, or by being fired; no other step touches them.
  cases h with
  | asked r depth hdepth =>
    cases r with
    | perform op =>
      apply still
      rw [State.granted]
      cases s.world.perform op <;> rfl
    | emitRoom room except text =>
      obtain ⟨mailbox, hemit⟩ := s.emitRoom_eq room except text
      apply still
      rw [State.granted, hemit]
    | start participants talk ending => exact still (State.scheduler_start s _ _ _)
    | startChild parent participants talk => exact still (State.scheduler_startChild s _ _ _)
    | cancel id =>
      apply hk.sheds_cancel
      rintro slot line rfl
      exact lost (.inl rfl)
    | schedule id actor line delay =>
      rw [State.granted]
      cases hreply : s.schedule id actor line delay with
      | none => exact hk.sheds_refl
      | some reply =>
        rw [State.schedule] at hreply
        split at hreply
        · cases hreply
          exact hk.sheds_refl
        · rename_i hcontains
          obtain ⟨due, hdue, rfl⟩ := Option.map_eq_some_iff.1 hreply
          apply hk.sheds_schedule
          intro slot l hl
          apply lost
          refine .inr (.inl ⟨⟨id, actor, line, due⟩, ⟨delay, rfl, ?_, hdue⟩, hl.symm⟩)
          simpa using hcontains
    | _ => exact still rfl
  | ended data hc =>
    apply State.sheds_closeAll hk
    exact fun slot line hmem => lost (.inr (.inr hmem))
  | takeBack htake =>
    obtain ⟨_, rest, -, -, rfl⟩ := Forest.takeHandedBack_eq htake
    exact still rfl
  | fired hstage hpop =>
    obtain ⟨slot, htakes⟩ := takes_of_popNext hpop
    apply hk.sheds_takes htakes
    exact fun l => ⟨_, List.mem_singleton.2 rfl, .inr ⟨_, _, rfl, htakes.old⟩⟩
  | _ => exact still rfl

theorem Walk.sheds (h : Walk allowed generation s seen s') (hk : s.forest.scheduler.Kept) :
    s.forest.scheduler.Sheds (Lost seen) s'.forest.scheduler := by
  induction h with
  | refl s => exact hk.sheds_refl
  | step hstep _ ih =>
    have hfirst := hstep.sheds hk
    have hrest := ih hfirst.kept
    exact (hfirst.mono fun _ _ => Lost.append_left).trans (hrest.mono fun _ _ => Lost.append_right)

/-- Where lines with such a number are not fired, they stay until they are withdrawn. -/
theorem Walk.stays (h : Walk allowed generation s seen s') (hk : s.forest.scheduler.Kept)
    {slot : Slot} {line : ScheduledLine}
    (hallowed : ∀ through fired, allowed (.due through fired) → through < slot.sequence)
    (hslot : s.forest.scheduler.queue[slot]? = some line) :
    s'.forest.scheduler.queue[slot]? = some line ∨
      ∃ sight ∈ seen, sight.Withdraws line.conversation := by
  rcases (h.sheds hk).keeps hslot with hstays | ⟨sight, hmem, hw | ⟨through, fired, hevent, hle⟩⟩
  · exact .inl hstays
  · exact .inr ⟨sight, hmem, hw⟩
  · exact absurd hle (Nat.not_le.2 (hallowed _ _ (h.reached_allowed hmem hevent)))

/-- What is scheduled in the middle of a walk in which only earlier lines are fired stays pending,
unless it is withdrawn later on. -/
theorem Walk.scheduled_stays {before after : List (Sight S)} {sight : Sight S}
    {line : ScheduledLine} (h : Walk allowed generation s (before ++ sight :: after) s')
    (hk : s.forest.scheduler.Kept)
    (hallowed : ∀ through fired, allowed (.due through fired) →
      through ≤ s.forest.scheduler.lastSequence)
    (hsight : sight.Schedules line)
    (hafter : ∀ later ∈ after, ¬later.Withdraws line.conversation) :
    s'.forest.scheduler.pending line.conversation = some line := by
  obtain ⟨t, t', hbefore, hstep, hrest⟩ := h.split
  have hsheds := hbefore.sheds hk
  have hkept' := (hstep.sheds hsheds.kept).kept
  obtain ⟨event, state⟩ := sight
  obtain ⟨delay, rfl, hcontains, hdue⟩ := hsight
  cases hstep with
  | asked r depth hdepth =>
    -- The line gets a number of its own.
    have hslot : (t.granted depth (.schedule line.conversation line.actor line.line
        delay)).forest.scheduler.queue[(⟨line.due, t.forest.scheduler.lastSequence + 1⟩ : Slot)]? =
          some line := by
      rw [State.granted, State.schedule, if_neg (by simpa using hcontains), hdue]
      exact queued_schedule t.forest.scheduler line
    -- Whatever is fired later on was scheduled before the walk, so it has an earlier number.
    have hstays := hrest.stays hkept' (fun through fired hfired => ?_) hslot
    · rcases hstays with hqueued | ⟨later, hmem, hw⟩
      · exact (hrest.sheds hkept').kept.pending_eq hqueued
      · exact absurd hw (hafter later hmem)
    · exact Nat.lt_succ_of_le
        (Nat.le_trans (hallowed through fired hfired) hsheds.later.lastSequence)

end

namespace World

theorem secluded_nothing : Secluded (fun _ _ => ()) () := by
  constructor
  · exact ⟨fun _ _ _ => rfl, fun _ _ => rfl, fun _ _ _ => rfl, fun _ _ _ _ => rfl⟩
  · exact fun _ _ _ => rfl

theorem now_advance {w v : World} {delta : Duration} (h : w.advance delta = some v) :
    w.now ≤ v.now := by
  obtain ⟨now, hnow, rfl⟩ := Option.map_eq_some_iff.1 h
  obtain ⟨-, rfl⟩ := Duration.add?_eq_some.1 hnow
  exact Nat.le_add_right _ _

end World

section

variable {allowed : Stage S → Prop} {generation : Option Nat} {s s' : State S}
variable {seen : List (Sight S)}

/-- The clock never goes back, and where time does not pass only programs advance it. -/
theorem Step.clock (h : Step allowed generation s seen s')
    (hallowed : ∀ delta, ¬allowed (.passing delta)) :
    s.world.now ≤ s'.world.now ∧
      (s'.world.now = s.world.now ∨ ∃ sight ∈ seen, sight.Advances) := by
  rcases h.world_cases with hretains | ⟨op, reply, rfl, hreply, hworld⟩ | ⟨delta, rfl, hworld⟩
  · have hnow := (hretains World.secluded_nothing).now
    exact ⟨Nat.le_of_eq (congrArg Duration.nanos hnow.symm), .inl hnow⟩
  · rw [hworld]
    -- Of the operations only one moves the clock.
    by_cases hop : ∃ delta, op = .advance delta
    · obtain ⟨delta, rfl⟩ := hop
      obtain ⟨v, hv, rfl⟩ := Option.map_eq_some_iff.1 hreply
      exact ⟨World.now_advance hv, .inr ⟨_, List.mem_singleton.2 rfl, delta, rfl⟩⟩
    · have hretains := World.retains_perform World.secluded_nothing.toAloof hreply
        (fun delta heq => hop ⟨delta, heq⟩) fun _ _ _ _ _ => rfl
      exact ⟨Nat.le_of_eq (congrArg Duration.nanos hretains.now.symm), .inl hretains.now⟩
  · have hpassing := (Walk.single h).reached_allowed (List.mem_singleton.2 rfl) rfl
    exact absurd hpassing (hallowed delta)

theorem Walk.clock (h : Walk allowed generation s seen s')
    (hallowed : ∀ delta, ¬allowed (.passing delta)) :
    s.world.now ≤ s'.world.now ∧
      (s'.world.now = s.world.now ∨ ∃ sight ∈ seen, sight.Advances) := by
  induction h with
  | refl s => exact ⟨Nat.le_refl _, .inl rfl⟩
  | step hstep _ ih =>
    obtain ⟨hle, hmoved⟩ := hstep.clock hallowed
    obtain ⟨hle', hmoved'⟩ := ih
    refine ⟨Nat.le_trans hle hle', ?_⟩
    rcases hmoved with hsame | ⟨sight, hmem, hadvances⟩
    · rcases hmoved' with hsame' | ⟨sight, hmem, hadvances⟩
      · exact .inl (hsame'.trans hsame)
      · exact .inr ⟨sight, List.mem_append_right _ hmem, hadvances⟩
    · exact .inr ⟨sight, List.mem_append_left _ hmem, hadvances⟩

end

end TextWorld

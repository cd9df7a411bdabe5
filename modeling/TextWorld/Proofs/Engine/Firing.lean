import TextWorld.Proofs.Engine.FollowUps
import TextWorld.Proofs.Engine.Timing

/-!
Lines that come due. Each is taken when its turn comes, if it is still pending then, and is
dispatched with all that it queues before the next is taken.
-/

namespace TextWorld

variable {S : Setting} {ι : Type}

/-- A part of a run: what is done, how things are before and after it, and what there is to see. -/
structure Leg (S : Setting) (ι : Type) where
  task : ι
  before : State S
  sights : List (Sight S)
  after : State S

/-- What there is to see of one part after another. -/
def Leg.seen (legs : List (Leg S ι)) : List (Sight S) := legs.flatMap (·.sights)

theorem Leg.seen_cons (leg : Leg S ι) (legs : List (Leg S ι)) :
    Leg.seen (leg :: legs) = leg.sights ++ Leg.seen legs :=
  List.flatMap_cons

/-- One part after another, each from where the one before it has led. -/
inductive Legs (does : ι → State S → List (Sight S) → State S → Prop) :
    State S → List (Leg S ι) → State S → Prop where
  | nil (s : State S) : Legs does s [] s
  | cons {leg : Leg S ι} {legs : List (Leg S ι)} {s : State S}
      (h : does leg.task leg.before leg.sights leg.after) (hrest : Legs does leg.after legs s) :
      Legs does leg.before (leg :: legs) s

namespace Legs

variable {does : ι → State S → List (Sight S) → State S → Prop} {s s' : State S}
variable {legs earlier later : List (Leg S ι)} {leg : Leg S ι}

theorem first {i : ι} {seen : List (Sight S)} {s'' : State S} (h : does i s seen s')
    (hrest : Legs does s' legs s'') : Legs does s (⟨i, s, seen, s'⟩ :: legs) s'' :=
  @Legs.cons S ι does ⟨i, s, seen, s'⟩ legs s'' h hrest

theorem split (h : Legs does s (earlier ++ leg :: later) s') :
    Legs does s earlier leg.before ∧ does leg.task leg.before leg.sights leg.after ∧
      Legs does leg.after later s' := by
  induction earlier generalizing s with
  | nil =>
    cases h with
    | cons hdoes hrest => exact ⟨.nil _, hdoes, hrest⟩
  | cons first earlier ih =>
    cases h with
    | cons hdoes hrest =>
      obtain ⟨hearlier, hleg, hlater⟩ := ih hrest
      exact ⟨.cons hdoes hearlier, hleg, hlater⟩

/-- What each part keeps is so before each part, and at the end. -/
theorem keeps {I : State S → Prop}
    (hdoes : ∀ {i s seen s'}, does i s seen s' → I s → I s') (h : Legs does s legs s') (hs : I s) :
    I s' ∧ ∀ leg ∈ legs, I leg.before := by
  induction h with
  | nil s => exact ⟨hs, fun leg hmem => by cases hmem⟩
  | @cons leg legs s hleg _ ih =>
    obtain ⟨hend, hrest⟩ := ih (hdoes hleg hs)
    refine ⟨hend, fun other hmem => ?_⟩
    rcases List.mem_cons.1 hmem with rfl | hmem
    · exact hs
    · exact hrest other hmem

theorem walk {allowed : Stage S → Prop} {generation : Option Nat}
    (hdoes : ∀ {i s seen s'}, does i s seen s' → Walk allowed generation s seen s')
    (h : Legs does s legs s') : Walk allowed generation s (Leg.seen legs) s' := by
  induction h with
  | nil s => exact .refl s
  | cons hleg _ ih => exact (hdoes hleg).append ih

end Legs

/-- Reached while lines that have come due are fired. -/
def Stage.OfFiring (through : Nat) : Stage S → Prop
  | .due through' _ => through' = through
  | stage => stage.OfDispatch

theorem Stage.OfDispatch.ofFiring {stage : Stage S} (h : stage.OfDispatch) (through : Nat) :
    stage.OfFiring through := by
  cases stage with
  | due through' line => cases h
  | _ => exact h

theorem Stage.not_passing_ofFiring (through : Nat) (delta : Duration) :
    ¬(Stage.passing delta : Stage S).OfFiring through := id

/-- A line is taken out of its slot, the first that is due and was scheduled no later than
`through`, and is dispatched with all its follow-ups. -/
inductive Rules.Fires (rules : Rules S) (through : Nat) :
    Slot × ScheduledLine → State S → List (Sight S) → State S → Prop where
  | taken {slot : Slot} {line : ScheduledLine} {s s' : State S} {scheduler : Scheduler}
      {seen : List (Sight S)} {outcome : DispatchOutcome}
      (hpop : s.forest.scheduler.popNext s.world.now through = some (line, scheduler))
      (htakes : s.forest.scheduler.Takes s.world.now through slot line scheduler)
      (hdispatch : rules.dispatch line.actor line.line { s with forest.scheduler := scheduler } =
        ⟨seen, .ok outcome, s'⟩) :
      Fires rules through (slot, line) s (⟨.reached (.due through line), s⟩ :: seen) s'

namespace Rules

variable {rules : Rules S} {through : Nat} {entry : Slot × ScheduledLine} {s s' : State S}
variable {seen : List (Sight S)}

theorem dispatch_walk {actor : CharacterId} {line : String} {outcome : DispatchOutcome}
    (h : rules.dispatch actor line s = ⟨seen, .ok outcome, s'⟩) :
    Walk Stage.OfDispatch none s seen s' := by
  have hwalk := ((dispatches_parts rules).dispatch actor line s).walk
  rwa [h] at hwalk

namespace Fires

theorem walk (h : rules.Fires through entry s seen s') :
    Walk (Stage.OfFiring through) none s seen s' := by
  cases h with
  | taken hpop htakes hdispatch =>
    have hrest := (dispatch_walk hdispatch).mono
      (fun _ hstage => Stage.OfDispatch.ofFiring hstage through) fun _ hg => hg
    exact Walk.step (.fired (Eq.refl through) hpop) hrest

theorem takes (h : rules.Fires through entry s seen s') :
    ∃ scheduler, s.forest.scheduler.Takes s.world.now through entry.1 entry.2 scheduler := by
  cases h with
  | taken hpop htakes hdispatch => exact ⟨_, htakes⟩

theorem kept (h : rules.Fires through entry s seen s') (hk : s.forest.scheduler.Kept) :
    s'.forest.scheduler.Kept :=
  (h.walk.sheds hk).kept

/-- What is pending afterwards and old enough was pending before, in a later slot. -/
theorem after (h : rules.Fires through entry s seen s') (hk : s.forest.scheduler.Kept)
    (hthrough : through ≤ s.forest.scheduler.lastSequence) {slot : Slot} {line : ScheduledLine}
    (hslot : s'.forest.scheduler.queue[slot]? = some line) (hold : slot.sequence ≤ through) :
    s.forest.scheduler.queue[slot]? = some line ∧ entry.1.Before slot := by
  cases h with
  | @taken first fired s s' scheduler seen outcome hpop htakes hdispatch =>
    have htaken := Scheduler.Later.takes htakes
    have hlater := ((dispatch_walk hdispatch).sheds (hk.takes htakes)).later
    have hleft : scheduler.queue[slot]? = some line :=
      hlater.old (Nat.le_trans hthrough htaken.lastSequence) hslot hold
    have hbefore := htaken.old hthrough hleft hold
    refine ⟨hbefore, ?_⟩
    rcases htakes.first hbefore hold with rfl | hearlier
    · rw [htakes.not_queued] at hleft
      cases hleft
    · exact hearlier

/-- Another line stays pending unless it is withdrawn. -/
theorem stays (h : rules.Fires through entry s seen s') (hk : s.forest.scheduler.Kept)
    {slot : Slot} {line : ScheduledLine} (hslot : s.forest.scheduler.queue[slot]? = some line)
    (hne : slot ≠ entry.1) :
    s'.forest.scheduler.queue[slot]? = some line ∨
      ∃ sight ∈ seen, sight.Withdraws line.conversation := by
  cases h with
  | taken hpop htakes hdispatch =>
    have hleft := htakes.keeps hslot hne
    have hstays := (dispatch_walk hdispatch).stays (hk.takes htakes)
      (fun _ _ hstage => absurd hstage id) hleft
    rcases hstays with hqueued | ⟨sight, hmem, hwithdraws⟩
    · exact .inl hqueued
    · exact .inr ⟨sight, List.mem_cons_of_mem _ hmem, hwithdraws⟩

/-- A line that is fired is a typed line with its follow-ups, and leaves none behind. -/
theorem in_full (h : rules.Fires through entry s seen s') (hs : s.followUps.toList = []) :
    ∃ outcome more, seen = ⟨.reached (.due through entry.2), s⟩ :: more ∧
      FirstInFirstOut rules [⟨entry.2.actor, entry.2.line, 0⟩]
        (⟨more, .ok outcome, s'⟩ : Course S DispatchOutcome) := by
  cases h with
  | @taken slot line s s' scheduler seen outcome hpop htakes hdispatch =>
    have hempty : { s with forest.scheduler := scheduler }.followUps.toList = [] := hs
    have hfifo := dispatch_firstInFirstOut rules hempty line.actor line.line
    rw [hdispatch] at hfifo
    exact ⟨outcome, seen, rfl, hfifo⟩

theorem emptied (h : rules.Fires through entry s seen s') (hs : s.followUps.toList = []) :
    s'.followUps.toList = [] := by
  obtain ⟨outcome, more, -, hfifo⟩ := h.in_full hs
  exact hfifo.emptied outcome rfl

end Fires

section

variable {firings : List (Leg S (Slot × ScheduledLine))}
variable (h : Legs (rules.Fires through) s firings s') (hk : s.forest.scheduler.Kept)
include h hk

/-- All that is fired was pending from the beginning. -/
theorem fires_pending (hthrough : through ≤ s.forest.scheduler.lastSequence) :
    ∀ f ∈ firings, s.forest.scheduler.queue[f.task.1]? = some f.task.2 := by
  intro f hmem
  obtain ⟨earlier, later, rfl⟩ := List.append_of_mem hmem
  obtain ⟨hearlier, hfires, -⟩ := h.split
  obtain ⟨scheduler, htakes⟩ := hfires.takes
  have hlater := ((hearlier.walk Fires.walk).sheds hk).later
  exact hlater.old hthrough htakes.queued htakes.old

theorem fires_ascending (hthrough : through ≤ s.forest.scheduler.lastSequence) :
    firings.Pairwise fun f g => f.task.1.Before g.task.1 := by
  -- What is fired after the first part was pending already, in a slot behind the first one.
  induction h with
  | nil s => exact .nil
  | @cons f firings s' hfires hrest ih =>
    have hsheds := hfires.walk.sheds hk
    have hthrough' := Nat.le_trans hthrough hsheds.later.lastSequence
    refine List.pairwise_cons.2 ⟨fun g hmem => ?_, ih hsheds.kept hthrough'⟩
    have hpending := fires_pending hrest hsheds.kept hthrough' g hmem
    obtain ⟨earlier, later, rfl⟩ := List.append_of_mem hmem
    obtain ⟨scheduler, htakes⟩ := hrest.split.2.1.takes
    exact (hfires.after hk hthrough hpending htakes.old).2

/-- A line that is not fired stays pending unless it is withdrawn. -/
theorem fires_stays {slot : Slot} {line : ScheduledLine}
    (hslot : s.forest.scheduler.queue[slot]? = some line) (hnot : ∀ f ∈ firings, slot ≠ f.task.1) :
    s'.forest.scheduler.queue[slot]? = some line ∨
      ∃ sight ∈ Leg.seen firings, sight.Withdraws line.conversation := by
  induction h with
  | nil s => exact .inl hslot
  | @cons f firings s' hfires hrest ih =>
    rw [Leg.seen_cons]
    have hrest' : ∀ g ∈ firings, slot ≠ g.task.1 :=
      fun g hmem => hnot g (List.mem_cons_of_mem _ hmem)
    rcases hfires.stays hk hslot (hnot f List.mem_cons_self) with hslot | ⟨sight, hmem, hw⟩
    · rcases ih (hfires.kept hk) hslot hrest' with hend | ⟨sight, hmem, hw⟩
      · exact .inl hend
      · exact .inr ⟨sight, List.mem_append_right _ hmem, hw⟩
    · exact .inr ⟨sight, List.mem_append_left _ hmem, hw⟩

end

theorem takeDue_of_none (h : s.forest.scheduler.popNext s.world.now through = none) :
    takeDue through s = ⟨[], .ok none, s⟩ := by
  rw [takeDue, Run.get_bind, h]
  rfl

theorem takeDue_of_some {line : ScheduledLine} {scheduler : Scheduler}
    (h : s.forest.scheduler.popNext s.world.now through = some (line, scheduler)) :
    takeDue through s = ⟨[⟨.reached (.due through line), s⟩], .ok (some line),
      { s with forest.scheduler := scheduler }⟩ := by
  rw [takeDue, Run.get_bind, h]
  rfl

/-- With each line that is fired one less is old enough. -/
theorem Fires.fewer (h : rules.Fires through entry s seen s') (hk : s.forest.scheduler.Kept)
    (hthrough : through ≤ s.forest.scheduler.lastSequence) :
    (s'.forest.scheduler.older through).length < (s.forest.scheduler.older through).length := by
  -- The slot is gone, and whatever is old enough afterwards was so before.
  obtain ⟨scheduler, htakes⟩ := h.takes
  have hnew : entry.1 ∉ s'.forest.scheduler.older through := by
    intro hmem
    obtain ⟨⟨line, hslot⟩, hold⟩ := Scheduler.mem_older.1 hmem
    exact (h.after hk hthrough hslot hold).2.ne rfl
  have hnodup : (entry.1 :: s'.forest.scheduler.older through).Nodup :=
    List.nodup_cons.2 ⟨hnew, Scheduler.nodup_older _ _⟩
  apply hnodup.length_le_of_subset
  intro slot hmem
  rw [Scheduler.mem_older]
  rcases List.mem_cons.1 hmem with rfl | hmem
  · exact ⟨⟨_, htakes.queued⟩, htakes.old⟩
  · obtain ⟨⟨line, hslot⟩, hold⟩ := Scheduler.mem_older.1 hmem
    exact ⟨⟨line, (h.after hk hthrough hslot hold).1⟩, hold⟩

/-- There are no more to fire than there are that are old enough, so in the end none of these is
due. -/
theorem fireDue_fires (rules : Rules S) (through count : Nat) {s : State S}
    (hk : s.forest.scheduler.Kept) (hthrough : through ≤ s.forest.scheduler.lastSequence)
    (hcount : (s.forest.scheduler.older through).length ≤ count)
    (hok : (rules.fireDue through count s).result = .ok ()) :
    ∃ firings s', Legs (rules.Fires through) s firings s' ∧
      s'.forest.scheduler.popNext s'.world.now through = none ∧
      rules.fireDue through count s = ⟨Leg.seen firings, .ok (), s'⟩ := by
  -- The count never runs out first, for with each line one less is old enough.
  induction count generalizing s with
  | zero =>
    have hempty := List.length_eq_zero_iff.1 (Nat.le_zero.1 hcount)
    exact ⟨[], s, .nil s, Scheduler.popNext_of_older hempty, rfl⟩
  | succ count ih =>
    rw [fireDue] at hok ⊢
    cases hpop : s.forest.scheduler.popNext s.world.now through with
    | none =>
      rw [Run.bind_of_ok (takeDue_of_none hpop)]
      exact ⟨[], s, .nil s, hpop, rfl⟩
    | some taken =>
      obtain ⟨line, scheduler⟩ := taken
      obtain ⟨slot, htakes⟩ := Scheduler.takes_of_popNext hpop
      rw [Run.bind_of_ok (takeDue_of_some hpop)] at hok ⊢
      dsimp only at hok ⊢
      rcases hdispatch : rules.dispatch line.actor line.line
        { s with forest.scheduler := scheduler } with ⟨seen, fault | outcome, s'⟩
      · rw [Run.bind_of_error (Run.discard_of_error hdispatch)] at hok
        cases hok
      · rw [Run.bind_of_ok (Run.discard_of_ok hdispatch)] at hok ⊢
        have hfires : rules.Fires through (slot, line) s (⟨.reached (.due through line), s⟩ :: seen)
            s' := .taken hpop htakes hdispatch
        -- The rest is fired as if from here on.
        have hsheds := hfires.walk.sheds hk
        have hfewer := hfires.fewer hk hthrough
        obtain ⟨firings, s'', hlegs, hend, hrest⟩ := ih hsheds.kept
          (Nat.le_trans hthrough hsheds.later.lastSequence) (by omega) hok
        refine ⟨_, s'', .first hfires hlegs, hend, ?_⟩
        rw [hrest, Leg.seen_cons]
        rfl

end Rules

/-- What is fired of the lines that are pending at first, and why the others are not. -/
structure FiringLaw (rules : Rules S) (start : State S)
    (firings : List (Leg S (Slot × ScheduledLine))) (fired : State S) : Prop where
  pending : ∀ f ∈ firings, start.forest.scheduler.queue[f.task.1]? = some f.task.2
  dated : ∀ f ∈ firings, f.task.1.due = f.task.2.due
  ascending : firings.Pairwise fun f g => f.task.1.Before g.task.1
  due : ∀ f ∈ firings, f.task.2.due ≤ f.before.world.now
  /-- When a line has its turn the clock is as at first, but for what programs have advanced it. -/
  clock : ∀ {earlier f later}, firings = earlier ++ f :: later →
    start.world.now ≤ f.before.world.now ∧
      (f.before.world.now = start.world.now ∨ ∃ sight ∈ Leg.seen earlier, sight.Advances)
  onward : start.world.now ≤ fired.world.now
  in_full : ∀ f ∈ firings, ∃ outcome more,
    f.sights =
      ⟨.reached (.due start.forest.scheduler.lastSequence f.task.2), f.before⟩ :: more ∧
      FirstInFirstOut rules [⟨f.task.2.actor, f.task.2.line, 0⟩]
        (⟨more, .ok outcome, f.after⟩ : Course S DispatchOutcome)
  /-- A line that comes before another one that is fired has been withdrawn before that. -/
  passed_over : ∀ {slot : Slot} {line : ScheduledLine},
    start.forest.scheduler.queue[slot]? = some line → (∀ f ∈ firings, slot ≠ f.task.1) →
      ∀ {earlier f later}, firings = earlier ++ f :: later → slot.Before f.task.1 →
        ∃ sight ∈ Leg.seen earlier, sight.Withdraws line.conversation
  /-- A line that has come due in the end has been withdrawn by then. -/
  withdrawn : ∀ {slot : Slot} {line : ScheduledLine},
    start.forest.scheduler.queue[slot]? = some line → (∀ f ∈ firings, slot ≠ f.task.1) →
      line.due ≤ fired.world.now → ∃ sight ∈ Leg.seen firings, sight.Withdraws line.conversation

theorem Legs.firingLaw {rules : Rules S} {start fired : State S}
    {firings : List (Leg S (Slot × ScheduledLine))}
    (h : Legs (rules.Fires start.forest.scheduler.lastSequence) start firings fired)
    (hk : start.forest.scheduler.Kept) (hdated : start.forest.scheduler.Dated)
    (hempty : start.followUps.toList = [])
    (hend : fired.forest.scheduler.popNext fired.world.now start.forest.scheduler.lastSequence =
      none) : FiringLaw rules start firings fired := by
  have hpending := Rules.fires_pending h hk (Nat.le_refl _)
  have hclock {legs : List (Leg S (Slot × ScheduledLine))} {s : State S}
      (hlegs : Legs (rules.Fires start.forest.scheduler.lastSequence) start legs s) :=
    (hlegs.walk Rules.Fires.walk).clock (Stage.not_passing_ofFiring _)
  have hold {slot : Slot} {line : ScheduledLine}
      (hslot : start.forest.scheduler.queue[slot]? = some line) :
      slot.sequence ≤ start.forest.scheduler.lastSequence :=
    hk.drawn (Option.isSome_of_eq_some hslot)
  refine ⟨hpending, fun f hmem => hdated _ _ (hpending f hmem),
    Rules.fires_ascending h hk (Nat.le_refl _), ?_, ?_, (hclock h).1, ?_, ?_, ?_⟩
  · intro f hmem
    rw [← hdated _ _ (hpending f hmem)]
    obtain ⟨earlier, later, rfl⟩ := List.append_of_mem hmem
    obtain ⟨scheduler, htakes⟩ := h.split.2.1.takes
    exact htakes.due
  · rintro earlier f later rfl
    exact hclock h.split.1
  · intro f hmem
    have hempty' : f.before.followUps.toList = [] :=
      (h.keeps (I := fun s => s.followUps.toList = []) Rules.Fires.emptied hempty).2 f hmem
    obtain ⟨earlier, later, rfl⟩ := List.append_of_mem hmem
    exact h.split.2.1.in_full hempty'
  · rintro slot line hslot hnot earlier f later rfl hbefore
    obtain ⟨hearlier, hfires, -⟩ := h.split
    have hnot' : ∀ g ∈ earlier, slot ≠ g.task.1 :=
      fun g hmem => hnot g (List.mem_append_left _ hmem)
    rcases Rules.fires_stays hearlier hk hslot hnot' with hstill | hwithdrawn
    · -- It would have been taken instead.
      obtain ⟨scheduler, htakes⟩ := hfires.takes
      rcases htakes.first hstill (hold hslot) with heq | hafter
      · exact absurd heq hbefore.ne
      · exact absurd hafter hbefore.asymm
    · exact hwithdrawn
  · intro slot line hslot hnot hdue
    rcases Rules.fires_stays h hk hslot hnot with hstill | hwithdrawn
    · rw [← hdated _ _ hslot] at hdue
      exact absurd hdue (Scheduler.not_due_of_popNext hend hstill (hold hslot))
    · exact hwithdrawn

end TextWorld

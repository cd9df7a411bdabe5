import TextWorld.Proofs.Engine.Dwindling

/-!
Lines that are queued for later. The first line queued is the first dispatched, and each is a
generation further from the line that started it all, so there are no more once they are too far.
-/

namespace TextWorld

variable {S : Setting} {α : Type}

/-- How far a task is from the line that started it all. -/
def Task.generation : Task S → Nat
  | .line f => f.depth
  | _ => 0

namespace Event

/-- The lines queued while something of a generation is handled are one generation below. -/
def queues (generation : Nat) : Event S → List FollowUp
  | .asked (.send actor line) => [⟨actor, line, generation + 1⟩]
  | _ => []

/-- The generation of what is handled from now on. -/
def generation (before : Nat) : Event S → Nat
  | .reached (.task t) => t.generation
  | _ => before

def line? : Event S → Option FollowUp
  | .reached (.task (.line f)) => some f
  | _ => none

end Event

/-- The lines that were dispatched, in that order. -/
def dispatched (seen : List (Sight S)) : List FollowUp := seen.filterMap (·.event.line?)

/-- The lines that were queued, in that order; what is handled at first is of the given
generation. -/
def queued (generation : Nat) : List (Sight S) → List FollowUp
  | [] => []
  | sight :: seen =>
    sight.event.queues generation ++ queued (sight.event.generation generation) seen

/-- The generation of what is handled in the end. -/
def generationAfter (generation : Nat) (seen : List (Sight S)) : Nat :=
  seen.foldl (fun generation sight => sight.event.generation generation) generation

theorem dispatched_append (seen more : List (Sight S)) :
    dispatched (seen ++ more) = dispatched seen ++ dispatched more :=
  List.filterMap_append

theorem generationAfter_append (generation : Nat) (seen more : List (Sight S)) :
    generationAfter generation (seen ++ more) =
      generationAfter (generationAfter generation seen) more :=
  List.foldl_append

theorem queued_append (generation : Nat) (seen more : List (Sight S)) :
    queued generation (seen ++ more) =
      queued generation seen ++ queued (generationAfter generation seen) more := by
  induction seen generalizing generation with
  | nil => rfl
  | cons sight seen ih =>
    rw [List.cons_append, queued, queued, ih, List.append_assoc]
    rfl

section

variable {allowed : Stage S → Prop} {s s' : State S} {depth : Nat} {seen : List (Sight S)}

@[simp] theorem State.followUps_start (s : State S) (participants : List CharacterId)
    (talk : S.Talk) (ending : Option S.Ending) :
    (s.start participants talk ending).2.followUps = s.followUps := by
  rcases s.start_cases participants talk ending with hstart | ⟨c, hstart⟩
  · rw [hstart]
  · rw [hstart]
    rfl

@[simp] theorem State.followUps_startChild (s : State S) (parent : ConversationId)
    (participants : List CharacterId) (talk : S.Talk) :
    (s.startChild parent participants talk).2.followUps = s.followUps := by
  rcases s.startChild_cases parent participants talk with hstart | ⟨c, hstart⟩
  · rw [hstart]
  · rw [hstart]
    rfl

@[simp] theorem State.followUps_close (s : State S) (id : ConversationId) :
    (s.close id).followUps = s.followUps := by
  rw [State.close]
  split <;> rfl

@[simp] theorem State.followUps_closeAll (s : State S) (id : ConversationId) :
    (s.closeAll id).followUps = s.followUps := by
  apply closeAll_keeps (P := fun t => t.followUps = s.followUps) _ rfl
  intro t x _ ht
  rw [followUps_close, ht]

theorem State.followUps_granted (s : State S) (depth : Nat) (r : Request S) :
    (s.granted depth r).followUps.toList =
      s.followUps.toList ++ (Event.asked r).queues depth := by
  cases r with
  | send actor line => exact Queue.toList_push _ _
  | perform op =>
    rw [granted]
    cases s.world.perform op <;> exact (List.append_nil _).symm
  | schedule id actor line delay =>
    rw [granted]
    cases hreply : s.schedule id actor line delay with
    | none => exact (List.append_nil _).symm
    | some reply =>
      obtain ⟨scheduler, hscheduled⟩ := schedule_eq hreply
      dsimp only
      rw [hscheduled]
      exact (List.append_nil _).symm
  | emitRoom room except text =>
    obtain ⟨mailbox, hemit⟩ := s.emitRoom_eq room except text
    rw [granted, hemit]
    exact (List.append_nil _).symm
  | emit recipient text => exact (List.append_nil _).symm
  | _ => simp [granted, Event.queues]

/-- What is done with something of a generation: no line is dispatched, and lines of the next
generation are queued. -/
structure Queues (depth : Nat) (s : State S) (seen : List (Sight S)) (s' : State S) : Prop where
  followUps_eq : s'.followUps.toList = s.followUps.toList ++ queued depth seen
  dispatched_eq : dispatched seen = []
  generation_eq : generationAfter depth seen = depth
  deeper : ∀ f ∈ queued depth seen, f.depth = depth + 1

theorem Step.queue (h : Step allowed (some depth) s seen s')
    (hallowed : ∀ t, allowed (.task t) → t.generation = depth ∧ ∀ f, t ≠ .line f) :
    Queues depth s seen s' := by
  have still {seen : List (Sight S)} {s' : State S} (hfollowUps : s'.followUps = s.followUps)
      (hdispatched : dispatched seen = []) (hgeneration : generationAfter depth seen = depth)
      (hqueued : queued depth seen = []) : Queues depth s seen s' := by
    refine ⟨?_, hdispatched, hgeneration, ?_⟩
    · rw [hqueued, hfollowUps, List.append_nil]
    · simp [hqueued]
  cases h with
  | asked r depth' hdepth =>
    rw [hdepth depth rfl]
    have hqueued : queued depth [⟨.asked r, s⟩] = (Event.asked r).queues depth :=
      List.append_nil _
    refine ⟨?_, rfl, rfl, ?_⟩
    · rw [State.followUps_granted, hqueued]
    · rw [hqueued]
      intro f hf
      cases r with
      | send actor line =>
        cases List.mem_singleton.1 hf
        rfl
      | _ => cases hf
  | reached hstage hw =>
    rename_i stage
    cases stage with
    | task t =>
      obtain ⟨hgeneration, hline⟩ := hallowed t hstage
      cases t with
      | line f => exact absurd rfl (hline f)
      | _ => exact still rfl rfl hgeneration rfl
    | _ => exact still rfl rfl rfl rfl
  | ended data hc => exact still (State.followUps_closeAll s _) rfl rfl rfl
  | cleared hnone => cases hnone
  | _ => exact still rfl rfl rfl rfl

theorem Walk.queue (h : Walk allowed (some depth) s seen s')
    (hallowed : ∀ t, allowed (.task t) → t.generation = depth ∧ ∀ f, t ≠ .line f) :
    Queues depth s seen s' := by
  induction h with
  | refl s => exact ⟨(List.append_nil _).symm, rfl, rfl, fun f hf => by cases hf⟩
  | step hstep _ ih =>
    have hfirst := hstep.queue hallowed
    refine ⟨?_, ?_, ?_, ?_⟩
    · rw [ih.followUps_eq, hfirst.followUps_eq, queued_append, hfirst.generation_eq,
        List.append_assoc]
    · rw [dispatched_append, hfirst.dispatched_eq, ih.dispatched_eq, List.append_nil]
    · rw [generationAfter_append, hfirst.generation_eq, ih.generation_eq]
    · rw [queued_append, hfirst.generation_eq]
      intro f hf
      rcases List.mem_append.1 hf with hf | hf
      · exact hfirst.deeper f hf
      · exact ih.deeper f hf

end

namespace Rules

variable {rules : Rules S}

/-- What a line does to the queue, whatever was handled before it. -/
theorem dispatchLine_queue (rules : Rules S) (f : FollowUp) (s : State S) (generation : Nat) :
    let course := rules.dispatchLine f.depth f.actor f.line s
    dispatched course.sights = [f] ∧
      course.state.followUps.toList =
        s.followUps.toList ++ queued generation course.sights ∧
      ∀ next ∈ queued generation course.sights, next.depth = f.depth + 1 := by
  rcases hrespond : rules.respond f.depth f.actor (.ofLine f.line) s with ⟨seen, result, s'⟩
  have hqueue : Queues f.depth s seen s' := by
    have hwalk := (respond_asks rules f.depth f.actor (.ofLine f.line) s).walk
    rw [hrespond] at hwalk
    exact hwalk.queue fun _ hstage => absurd hstage id
  rw [dispatchLine_course rules f.depth f.actor f.line s hrespond]
  have hdispatched : dispatched (closure result s') = [] := by cases result <;> rfl
  have hqueued (g : Nat) : queued g (closure result s') = [] := by cases result <;> rfl
  have hall : queued generation
      (⟨.reached (.task (.line f)), s⟩ :: (seen ++ closure result s')) = queued f.depth seen := by
    change queued f.depth (seen ++ closure result s') = queued f.depth seen
    rw [queued_append, hqueued, List.append_nil]
  refine ⟨?_, ?_, ?_⟩
  · change f :: dispatched (seen ++ closure result s') = [f]
    rw [dispatched_append, hqueue.dispatched_eq, hdispatched]
    rfl
  · rw [hall]
    exact hqueue.followUps_eq
  · rw [hall]
    exact hqueue.deeper

/-- The loop over the queue: the oldest line is taken, and dropped if it is too many generations
down. The lines taken over from the queue wait apart from those queued since. -/
inductive Drains (rules : Rules S) :
    List FollowUp → State S → Course S Unit → Prop where
  | idle {s : State S} (h : s.followUps.toList = []) : Drains rules [] s ⟨[], .ok (), s⟩
  | refill {s : State S} {course : Course S Unit} (h : s.followUps.toList ≠ [])
      (hrest : Drains rules s.followUps.toList { s with followUps := .empty } course) :
      Drains rules [] s course
  | dropped {f : FollowUp} {waiting : List FollowUp} {s : State S} {course : Course S Unit}
      (h : rules.config.maxFollowUpDepth < f.depth) (hrest : Drains rules waiting s course) :
      Drains rules (f :: waiting) s course
  | taken {f : FollowUp} {waiting : List FollowUp} {s s' : State S}
      {course : Course S Unit} {seen : List (Sight S)} {outcome : DispatchOutcome}
      (h : f.depth ≤ rules.config.maxFollowUpDepth)
      (hline : rules.dispatchLine f.depth f.actor f.line s = ⟨seen, .ok outcome, s'⟩)
      (hrest : Drains rules waiting s' course) :
      Drains rules (f :: waiting) s ⟨seen ++ course.sights, course.result, course.state⟩
  | broken {f : FollowUp} {waiting : List FollowUp} {s s' : State S} {seen : List (Sight S)}
      {fault : Fault} (h : f.depth ≤ rules.config.maxFollowUpDepth)
      (hline : rules.dispatchLine f.depth f.actor f.line s = ⟨seen, .error fault, s'⟩) :
      Drains rules (f :: waiting) s ⟨seen, .error fault, s'⟩

/-- The generations of the lines in a queue: the older ones first, and at most two. -/
def Banded (depth : Nat) (lines : List FollowUp) : Prop :=
  lines.Pairwise (·.depth ≤ ·.depth) ∧ ∀ f ∈ lines, depth ≤ f.depth ∧ f.depth ≤ depth + 1

namespace Banded

variable {depth : Nat} {f : FollowUp} {lines new : List FollowUp}

theorem tail (h : Banded depth (f :: lines)) : Banded f.depth lines := by
  obtain ⟨hsorted, hbounds⟩ := h
  rw [List.pairwise_cons] at hsorted
  refine ⟨hsorted.2, fun next hnext => ⟨hsorted.1 next hnext, ?_⟩⟩
  have hf := hbounds f List.mem_cons_self
  have hbound := hbounds next (List.mem_cons_of_mem _ hnext)
  omega

theorem append_next (h : Banded depth lines) (hnew : ∀ next ∈ new, next.depth = depth + 1) :
    Banded depth (lines ++ new) := by
  obtain ⟨hsorted, hbounds⟩ := h
  constructor
  · rw [List.pairwise_append]
    refine ⟨hsorted, ?_, fun x hx y hy => ?_⟩
    · refine List.pairwise_of_forall_mem_list fun x hx y hy => ?_
      exact Nat.le_of_eq (by rw [hnew x hx, hnew y hy])
    · rw [hnew y hy]
      exact (hbounds x hx).2
  · intro x hx
    rcases List.mem_append.1 hx with hx | hx
    · exact hbounds x hx
    · have hdepth := hnew x hx
      omega

/-- A queue that goes on with lines of no earlier generation is in order. -/
theorem ordered (h : Banded depth (f :: lines))
    (hall : (lines ++ new).Pairwise (·.depth ≤ ·.depth))
    (hnew : ∀ next ∈ new, f.depth ≤ next.depth) :
    (f :: lines ++ new).Pairwise (·.depth ≤ ·.depth) ∧ ∀ next ∈ new, depth ≤ next.depth := by
  have hf := (h.2 f List.mem_cons_self).1
  constructor
  · rw [List.cons_append, List.pairwise_cons]
    refine ⟨fun next hnext => ?_, hall⟩
    rcases List.mem_append.1 hnext with hnext | hnext
    · exact (List.pairwise_cons.1 h.1).1 next hnext
    · exact hnew next hnext
  · intro next hnext
    have hbound := hnew next hnext
    omega

end Banded

namespace Drains

variable {waiting : List FollowUp} {s : State S} {course : Course S Unit}

/-- The loop dispatches what waits, then what is in the queue, then what is queued meanwhile, all
but the lines that are too many generations down; if it comes to its end nothing is left. -/
theorem in_order (h : Drains rules waiting s course) (generation : Nat) :
    ∃ left, (waiting ++ s.followUps.toList ++ queued generation course.sights).filter
        (·.depth ≤ rules.config.maxFollowUpDepth) = dispatched course.sights ++ left ∧
      (course.result = .ok () → left = [] ∧ course.state.followUps.toList = []) := by
  -- By the rounds of the loop: what a line queues stands behind everything that still waits.
  induction h generalizing generation with
  | idle hempty =>
    refine ⟨[], ?_, fun _ => ⟨rfl, hempty⟩⟩
    rw [hempty]
    rfl
  | refill _ _ ih =>
    obtain ⟨left, hleft, hend⟩ := ih generation
    rw [Queue.toList_empty, List.append_nil] at hleft
    exact ⟨left, hleft, hend⟩
  | dropped hdeep _ ih =>
    obtain ⟨left, hleft, hend⟩ := ih generation
    refine ⟨left, ?_, hend⟩
    rw [List.cons_append, List.cons_append, List.filter_cons_of_neg, hleft]
    simpa using hdeep
  | @taken f waiting s s' course seen outcome hdepth hline _ ih =>
    have hqueue := dispatchLine_queue rules f s generation
    rw [hline] at hqueue
    obtain ⟨htaken, hfollowUps, -⟩ := hqueue
    obtain ⟨left, hleft, hend⟩ := ih (generationAfter generation seen)
    refine ⟨left, ?_, hend⟩
    dsimp only at htaken hfollowUps ⊢
    rw [hfollowUps] at hleft
    simp only [List.append_assoc] at hleft
    rw [dispatched_append, htaken, queued_append, List.cons_append, List.cons_append,
      List.filter_cons_of_pos (by simpa using hdepth), List.append_assoc, List.append_assoc, hleft]
    rfl
  | @broken f waiting s s' seen fault hdepth hline =>
    have hqueue := dispatchLine_queue rules f s generation
    rw [hline] at hqueue
    obtain ⟨htaken, -, -⟩ := hqueue
    refine ⟨(waiting ++ s.followUps.toList ++ queued generation seen).filter
      (·.depth ≤ rules.config.maxFollowUpDepth), ?_, fun hok => by cases hok⟩
    rw [htaken, List.cons_append, List.cons_append,
      List.filter_cons_of_pos (by simpa using hdepth)]
    rfl

/-- Nothing that is queued is of an earlier generation than what is queued before it. -/
theorem ordered (h : Drains rules waiting s course) (generation : Nat) {depth : Nat}
    (hband : Banded depth (waiting ++ s.followUps.toList)) :
    (waiting ++ s.followUps.toList ++ queued generation course.sights).Pairwise
        (·.depth ≤ ·.depth) ∧
      ∀ f ∈ queued generation course.sights, depth ≤ f.depth := by
  -- What waits is of at most two generations, of which the first line is of the older one.
  induction h generalizing generation depth with
  | idle hempty => exact ⟨by simpa [queued] using hband.1, fun f hf => by cases hf⟩
  | refill _ _ ih =>
    rw [Queue.toList_empty, List.append_nil] at ih
    exact ih generation hband
  | dropped _ _ ih =>
    rw [List.cons_append] at hband
    obtain ⟨hall, hlater⟩ := ih generation hband.tail
    exact hband.ordered hall hlater
  | @taken f waiting s s' course seen outcome hdepth hline _ ih =>
    have hqueue := dispatchLine_queue rules f s generation
    rw [hline] at hqueue
    obtain ⟨-, hfollowUps, hnext⟩ := hqueue
    rw [List.cons_append] at hband
    have hrest : Banded f.depth (waiting ++ s'.followUps.toList) := by
      rw [hfollowUps, ← List.append_assoc]
      exact hband.tail.append_next hnext
    obtain ⟨hall, hlater⟩ := ih (generationAfter generation seen) hrest
    rw [queued_append]
    apply hband.ordered
    · rwa [hfollowUps, ← List.append_assoc, List.append_assoc] at hall
    · intro next hmem
      rcases List.mem_append.1 hmem with hmem | hmem
      · exact Nat.le_of_lt (by rw [hnext next hmem]; exact Nat.lt_succ_self _)
      · exact hlater next hmem
  | @broken f waiting s s' seen fault hdepth hline =>
    have hqueue := dispatchLine_queue rules f s generation
    rw [hline] at hqueue
    obtain ⟨-, -, hnext⟩ := hqueue
    rw [List.cons_append] at hband
    apply hband.ordered
    · exact (hband.tail.append_next hnext).1
    · intro next hmem
      exact Nat.le_of_lt (by rw [hnext next hmem]; exact Nat.lt_succ_self _)

end Drains

/-- The loop goes on with what was queued while the waiting lines of one generation were
dispatched. -/
theorem dispatchQueued_drains {m : Run S Unit} {waiting : List FollowUp} (depth : Nat)
    (hm : ∀ s : State S, (∀ f ∈ s.followUps.toList, f.depth = depth + 1) →
      Drains rules [] s (m s))
    (hwaiting : ∀ f ∈ waiting, f.depth = depth) (s : State S)
    (hs : ∀ f ∈ s.followUps.toList, f.depth = depth + 1) :
    Drains rules waiting s ((rules.dispatchQueued waiting >>= fun _ => m) s) := by
  induction waiting generalizing s with
  | nil => exact hm s hs
  | cons f waiting ih =>
    have hf : f.depth = depth := hwaiting f List.mem_cons_self
    have hrest : ∀ next ∈ waiting, next.depth = depth :=
      fun next hnext => hwaiting next (List.mem_cons_of_mem _ hnext)
    rw [dispatchQueued]
    split
    · rename_i hdepth
      rcases hline : rules.dispatchLine f.depth f.actor f.line s with ⟨seen, fault | outcome, s'⟩
      · rw [bind_assoc, Run.bind_of_error (Run.discard_of_error hline)]
        exact .broken hdepth hline
      · rw [bind_assoc, Run.bind_of_ok (Run.discard_of_ok hline)]
        apply Drains.taken hdepth hline
        apply ih hrest
        have hqueue := dispatchLine_queue rules f s 0
        rw [hline] at hqueue
        obtain ⟨-, hfollowUps, hnext⟩ := hqueue
        intro next hmem
        rw [hfollowUps] at hmem
        rcases List.mem_append.1 hmem with hmem | hmem
        · exact hs next hmem
        · rw [hnext next hmem, hf]
    · exact .dropped (by omega) (ih hrest s hs)

/-- Lines that are too many generations down are dropped one after another. -/
theorem Drains.drop {waiting : List FollowUp} {s : State S} {course : Course S Unit}
    (hdeep : ∀ f ∈ waiting, rules.config.maxFollowUpDepth < f.depth)
    (h : Drains rules [] s course) : Drains rules waiting s course := by
  induction waiting with
  | nil => exact h
  | cons f waiting ih =>
    apply Drains.dropped (hdeep f List.mem_cons_self)
    exact ih fun next hnext => hdeep next (List.mem_cons_of_mem _ hnext)

/-- The loop comes to its end: with each round what is queued is a generation further down. -/
theorem drainGenerations_drains (rules : Rules S) (generations : Nat) (s : State S)
    (hs : ∀ f ∈ s.followUps.toList,
      f.depth + generations = rules.config.maxFollowUpDepth + 1) :
    Drains rules [] s (rules.drainGenerations generations s) := by
  induction generations generalizing s with
  | zero =>
    change Drains rules [] s ⟨[], .ok (), { s with followUps := .empty }⟩
    by_cases hempty : s.followUps.toList = []
    · rw [← Queue.eq_empty_of_toList hempty]
      exact .idle hempty
    · apply Drains.refill hempty
      apply Drains.drop
      · intro f hf
        have hdepth := hs f hf
        omega
      · exact .idle rfl
  | succ generations ih =>
    rw [drainGenerations, Run.get_bind]
    split
    · rename_i hempty
      exact .idle (Queue.isEmpty_iff.1 hempty)
    · rename_i hne
      apply Drains.refill (fun hempty => hne (Queue.isEmpty_iff.2 hempty))
      -- All that waits is of one generation.
      obtain ⟨first, hfirst⟩ := List.exists_mem_of_ne_nil _ fun hempty =>
        hne (Queue.isEmpty_iff.2 hempty)
      have hdepth := hs first hfirst
      apply dispatchQueued_drains first.depth
      · intro s' hs'
        apply ih
        intro f hf
        rw [hs' f hf]
        omega
      · intro f hf
        have hsame := hs f hf
        omega
      · intro f hf
        cases hf

theorem drain_drains (rules : Rules S) {s : State S}
    (hs : ∀ f ∈ s.followUps.toList, f.depth = 1) : Drains rules [] s (rules.drain s) := by
  apply drainGenerations_drains
  intro f hf
  rw [hs f hf, Nat.add_comm]

/-- However the loop ends, it leaves nothing behind. -/
theorem drainGenerations_emptied (rules : Rules S) (generations : Nat) (s : State S)
    (h : (rules.drainGenerations generations s).result = .ok ()) :
    (rules.drainGenerations generations s).state.followUps.toList = [] := by
  induction generations generalizing s with
  | zero => rfl
  | succ generations ih =>
    rw [drainGenerations, Run.get_bind] at h ⊢
    by_cases hempty : s.followUps.isEmpty = true
    · rw [if_pos hempty]
      exact Queue.isEmpty_iff.1 hempty
    · rw [if_neg hempty] at h ⊢
      obtain ⟨_, _, s', _, hrest, hcleared⟩ := Run.ok_of_bind h
      obtain ⟨_, _, s'', _, hlast, hqueued⟩ := Run.ok_of_bind hrest
      rw [hcleared, hqueued]
      exact ih s'' hlast

end Rules

/-- What comes of lines and of what they queue, if there is a first line and nothing waits. -/
structure FirstInFirstOut (rules : Rules S) (first : List FollowUp) (course : Course S α) :
    Prop where
  founded : ∀ fault, course.result = .error fault →
    Founded rules.maxDeliveries fault course.sights
  in_order : ∀ a, course.result = .ok a → dispatched course.sights =
    first ++ (queued 0 course.sights).filter (·.depth ≤ rules.config.maxFollowUpDepth)
  so_far : dispatched course.sights <+:
    first ++ (queued 0 course.sights).filter (·.depth ≤ rules.config.maxFollowUpDepth)
  ordered : (dispatched course.sights).Pairwise (·.depth ≤ ·.depth)
  emptied : ∀ a, course.result = .ok a → course.state.followUps.toList = []

namespace Rules

variable {rules : Rules S}

theorem ok_of_map {result : Except Fault Unit} {a b : α}
    (h : result.map (fun _ => a) = .ok b) : result = .ok () := by
  cases result with
  | error fault => cases h
  | ok _ => rfl

/-- Something that is done at once, and then whatever it queued. -/
theorem drain_firstInFirstOut {m : Run S α} {s : State S} {first : List FollowUp}
    (hm : Works rules.maxDeliveries s m) (hfirst : ∀ f ∈ first, f.depth = 0)
    (hdispatched : dispatched (m s).sights = first)
    (hqueue : (m s).state.followUps.toList = queued 0 (m s).sights)
    (hnext : ∀ f ∈ queued 0 (m s).sights, f.depth = 1) :
    FirstInFirstOut rules first ((m >>= fun a => rules.drain >>= fun _ => pure a) s) := by
  have hworks : Works rules.maxDeliveries s (m >>= fun a => rules.drain >>= fun _ => pure a) := by
    apply Run.goes_bind hm
    intro a _
    have hdrain := (dispatches_parts rules).drain (m s).state
    exact Run.goes_bind hdrain.works fun _ _ => Run.goes_pure a
  have hsorted : first.Pairwise (·.depth ≤ ·.depth) := by
    apply List.pairwise_of_forall_mem_list
    intro f hf next _
    rw [hfirst f hf]
    exact Nat.zero_le _
  have hfounded := hworks.founded
  rcases hcourse : m s with ⟨seen, fault | a, s'⟩
  · rw [hcourse] at hdispatched
    rw [Run.bind_of_error hcourse] at hfounded ⊢
    dsimp only at hdispatched
    refine ⟨hfounded, fun a ha => (by cases ha), ?_, ?_, fun a ha => (by cases ha)⟩
    · rw [hdispatched]
      exact List.prefix_append _ _
    · rwa [hdispatched]
  · rw [hcourse] at hdispatched hqueue hnext
    dsimp only at hdispatched hqueue hnext
    rw [Run.bind_of_ok hcourse] at hfounded ⊢
    have hdepths : ∀ f ∈ s'.followUps.toList, f.depth = 1 := by rwa [hqueue]
    have hloop := drain_drains rules hdepths
    -- What was queued at first waits for the loop, which then finds what is queued meanwhile.
    obtain ⟨left, hleft, hend⟩ := hloop.in_order (generationAfter 0 seen)
    have hband : Banded 1 ([] ++ s'.followUps.toList) := by
      refine ⟨List.pairwise_of_forall_mem_list fun f hf next hmem => ?_, fun f hf => ?_⟩
      · exact Nat.le_of_eq ((hdepths f hf).trans (hdepths next hmem).symm)
      · have hdepth := hdepths f hf
        omega
    have hordered := (hloop.ordered (generationAfter 0 seen) hband).1
    rw [List.nil_append, hqueue, ← queued_append] at hleft hordered
    have hall : dispatched (seen ++ (rules.drain s').sights) ++ left =
        first ++ (queued 0 (seen ++ (rules.drain s').sights)).filter
          (·.depth ≤ rules.config.maxFollowUpDepth) := by
      rw [dispatched_append, hdispatched, List.append_assoc, ← hleft]
    rw [Run.bind_const] at hfounded ⊢
    refine ⟨hfounded, fun b hb => ?_, ?_, ?_, fun b hb => ?_⟩
    · have hok := ok_of_map hb
      rw [← hall, (hend hok).1, List.append_nil]
    · rw [← hall]
      exact List.prefix_append _ _
    · -- What is dispatched is part of the first lines and of what is queued.
      have hwhole : (first ++ queued 0 (seen ++ (rules.drain s').sights)).Pairwise
          (·.depth ≤ ·.depth) := by
        rw [List.pairwise_append]
        refine ⟨hsorted, hordered, fun f hf next _ => ?_⟩
        rw [hfirst f hf]
        exact Nat.zero_le _
      apply List.Pairwise.sublist _ hwhole
      have hpart := (List.prefix_append
        (dispatched (seen ++ (rules.drain s').sights)) left).sublist
      rw [hall] at hpart
      exact hpart.trans (List.Sublist.append (List.Sublist.refl _) List.filter_sublist)
    · exact (hend (ok_of_map hb)).2

theorem dispatch_firstInFirstOut (rules : Rules S) {s : State S} (hs : s.followUps.toList = [])
    (actor : CharacterId) (line : String) :
    FirstInFirstOut rules [⟨actor, line, 0⟩] (rules.dispatch actor line s) := by
  obtain ⟨hdispatched, hqueue, hnext⟩ := dispatchLine_queue rules ⟨actor, line, 0⟩ s 0
  apply drain_firstInFirstOut
  · exact (dispatchLine_dispatches rules 0 actor line s).works
  · intro f hf
    rw [List.mem_singleton.1 hf]
  · exact hdispatched
  · rwa [hs, List.nil_append] at hqueue
  · exact hnext

theorem withContext_firstInFirstOut (rules : Rules S) {s : State S}
    (hs : s.followUps.toList = []) (p : Program S α) :
    FirstInFirstOut rules [] (rules.withContext p s) := by
  have hexecute := execute_acts rules 0 p s
  have hqueue : Queues 0 s (rules.execute 0 p s).sights (rules.execute 0 p s).state :=
    hexecute.walk.queue fun _ hstage => absurd hstage id
  have hcourse : (Run.reach (.task .program) >>= fun _ => rules.execute 0 p) s =
      ⟨⟨.reached (.task .program), s⟩ :: (rules.execute 0 p s).sights,
        (rules.execute 0 p s).result, (rules.execute 0 p s).state⟩ := rfl
  have hassoc : rules.withContext p = (Run.reach (.task .program) >>= fun _ =>
      rules.execute 0 p) >>= fun a => rules.drain >>= fun _ => pure a := by
    rw [bind_assoc]
    rfl
  rw [hassoc]
  apply drain_firstInFirstOut
  · exact Run.goes_bind_of_ok rfl (.reached s trivial trivial) hexecute.goes
  · intro f hf
    cases hf
  · rw [hcourse]
    exact hqueue.dispatched_eq
  · rw [hcourse]
    have hfollowUps := hqueue.followUps_eq
    rwa [hs, List.nil_append] at hfollowUps
  · rw [hcourse]
    exact hqueue.deeper

theorem tick_emptied (rules : Rules S) (s : State S) (delta : Duration)
    (h : (rules.tick delta s).result = .ok ()) :
    (rules.tick delta s).state.followUps.toList = [] := by
  obtain ⟨_, _, _, _, _, _, _, hooked, _, _, -, -, -, -, hdrain, hall⟩ := tick_split h
  have hemptied := drainGenerations_emptied rules _ hooked (congrArg Course.result hdrain)
  rw [hall]
  exact (congrArg (·.state.followUps.toList) hdrain).symm.trans hemptied

end Rules

theorem Call.run_emptied {rules : Rules S} {call : Call S} {s : State S}
    (hs : s.followUps.toList = []) (h : (call.run rules s).result = .ok ()) :
    (call.run rules s).state.followUps.toList = [] := by
  cases call with
  | dispatch actor line =>
    have hcourse : run rules (.dispatch actor line) s = _ :=
      Run.discard_eq (rules.dispatch actor line) s
    rw [hcourse] at h ⊢
    cases hresult : (rules.dispatch actor line s).result with
    | error fault =>
      rw [hresult] at h
      cases h
    | ok outcome =>
      exact (Rules.dispatch_firstInFirstOut rules hs actor line).emptied outcome hresult
  | tick delta => exact Rules.tick_emptied rules s delta h
  | withContext p => exact (Rules.withContext_firstInFirstOut rules hs p).emptied () h
  | perform op =>
    rw [run, carryOut, Run.note_bind, Run.get_bind]
    cases s.world.perform op <;> exact hs

theorem Call.runAll_emptied {calls : List (Rules S × Call S)} {s : State S}
    (hs : s.followUps.toList = []) (h : (runAll calls s).result = .ok ()) :
    (runAll calls s).state.followUps.toList = [] := by
  induction calls generalizing s with
  | nil => exact hs
  | cons call calls ih =>
    obtain ⟨seen, _, s', hcall, hrest, hall⟩ := Run.ok_of_bind h
    have hs' := run_emptied hs (congrArg Course.result hcall)
    rw [hcall] at hs'
    rw [runAll, hall]
    exact ih hs' hrest

/-- After a typed line, and after what a program for somebody outside does, the lines that were
queued and are not too many generations down are dispatched in the order they were queued. However
a call ends, unless it breaks off, nothing stays queued, so nothing waits when the next one comes.
What is queued does not keep a line or a program from coming to an end: deliveries without end do,
and nothing else. -/
theorem Rules.followUps_first_in_first_out (rules : Rules S) {s : State S}
    (hs : s.followUps.toList = []) :
    (∀ actor line, FirstInFirstOut rules [⟨actor, line, 0⟩] (rules.dispatch actor line s)) ∧
      (∀ {α : Type} (p : Program S α), FirstInFirstOut rules [] (rules.withContext p s)) ∧
      (∀ delta, (rules.tick delta s).result = .ok () →
        (rules.tick delta s).state.followUps.toList = []) ∧
      (∀ calls, (Call.runAll calls s).result = .ok () →
        (Call.runAll calls s).state.followUps.toList = []) ∧
      (∀ actor line, TerminationLaw rules (·.dispatch actor line) s) ∧
      ∀ {α : Type} (p : Program S α), TerminationLaw rules (·.withContext p) s :=
  ⟨fun actor line => dispatch_firstInFirstOut rules hs actor line,
    fun p => withContext_firstInFirstOut rules hs p, fun delta => tick_emptied rules s delta,
    fun _ => Call.runAll_emptied hs, fun actor line => dispatch_terminationLaw rules actor line s,
    fun p => withContext_terminationLaw rules p s⟩

/-- A conversation that starts a child and ends it at each turn is never done with a line: whatever
the room for deliveries, it is too small. -/
theorem Rules.dispatch_endless_bouncing :
    ∃ w s, World.empty.run innWithGuest = some w ∧
      s = (bouncing.withContext (Program.start [⟨3⟩] () none) (.initial w ())).state ∧
      s.followUps.toList = [] ∧
      ∀ n, ((bouncing.allowing n).dispatch ⟨3⟩ "hello" s).result =
        .error .endlessDeliveries := by
  have hrun : ((World.empty.run innWithGuest).map fun w =>
      let s := (bouncing.withContext (Program.start [⟨3⟩] () none) (.initial w ())).state
      (s.forest.get? ⟨1⟩, s.forest.lastIndex,
        (s.world.character? ⟨3⟩).bind (·.conversation), s.followUps.toList)) =
      some (some ⟨[⟨3⟩], none, none, some (), none, .empty⟩, 1, some ⟨1⟩, []) := by rfl
  obtain ⟨w, hw, hstate⟩ := Option.map_eq_some_iff.1 hrun
  simp only [Prod.mk.injEq] at hstate
  obtain ⟨hthere, hdrawn, hheld, hqueue⟩ := hstate
  have hhosts := Hosts.mk hthere (Nat.le_of_eq hdrawn.symm) hheld
  exact ⟨w, _, hw, rfl, hqueue, fun n => (endless_dispatch n hhosts (by decide)).result⟩

/-- Conversations that answer a line by two more, which may be answered by no more than these. -/
def echo : Rules plainSetting where
  config := { DispatchConfig.default with maxFollowUpDepth := 1 }
  registries := .empty
  hooks := []
  behaviour :=
    { chatter.behaviour with
      onInput := fun talk _ actor _ => do
        Program.send actor "one"
        Program.send actor "two"
        pure (.handled, talk) }
  maxDeliveries := 8

theorem Rules.followUps_first_in_first_out_echo :
    ∃ s : State plainSetting, s.followUps.toList = [] ∧
      dispatched (echo.dispatch ⟨3⟩ "zero" s).sights =
        [⟨⟨3⟩, "zero", 0⟩, ⟨⟨3⟩, "one", 1⟩, ⟨⟨3⟩, "two", 1⟩] ∧
      (queued 0 (echo.dispatch ⟨3⟩ "zero" s).sights).length = 6 ∧
      FirstInFirstOut echo [⟨⟨3⟩, "zero", 0⟩] (echo.dispatch ⟨3⟩ "zero" s) ∧
      echo.behaviour.Conclusive ∧
      ∃ n, ((echo.allowing n).dispatch ⟨3⟩ "zero" s).result ≠ .error .endlessDeliveries := by
  have hrun : ((World.empty.run innWithGuest).map fun w =>
      let s := (echo.withContext (Program.start [⟨3⟩] () none) (.initial w ())).state
      (s.followUps.toList, dispatched (echo.dispatch ⟨3⟩ "zero" s).sights,
        (queued 0 (echo.dispatch ⟨3⟩ "zero" s).sights).length)) =
      some ([], [⟨⟨3⟩, "zero", 0⟩, ⟨⟨3⟩, "one", 1⟩, ⟨⟨3⟩, "two", 1⟩], 6) := by rfl
  obtain ⟨w, -, hw⟩ := Option.map_eq_some_iff.1 hrun
  simp only [Prod.mk.injEq] at hw
  obtain ⟨hs, hdispatched, hqueued⟩ := hw
  obtain ⟨hline, -, -, -, hends, -⟩ := followUps_first_in_first_out echo hs
  have hconclusive : echo.behaviour.Conclusive := ⟨fun _ _ _ => trivial, fun _ _ => trivial⟩
  exact ⟨_, hs, hdispatched, hqueued, hline ⟨3⟩ "zero", hconclusive,
    (hends ⟨3⟩ "zero").ends_of_conclusive hconclusive⟩

end TextWorld

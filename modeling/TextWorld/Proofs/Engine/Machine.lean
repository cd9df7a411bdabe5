import TextWorld.Engine.Tick

/-!
The engine as a machine. Between two moves it either has its hands free or is about to bring
completion data to its receiver; below it lie the callbacks that are running. What a computation
of the engine lets see is always a history of this machine, whatever the programs ask for.
-/

namespace TextWorld

variable {S : Setting}

/-- What the engine is about to do. -/
inductive Mode (S : Setting) where
  | settled
  /-- A conversation is to be ended, if it is there. -/
  | closing (id : ConversationId) (data : Value)
  /-- Completion data of a child is on its way to the parent. -/
  | handing (parent : ConversationId) (data : Value)
  | concluding (id : ConversationId) (ending : S.Ending) (data : Value)
  /-- A callback is over, and what was handed back meanwhile comes next. -/
  | draining (id : ConversationId)

/-- The state, with what the engine is about to do and whose callbacks are running, the innermost
first. -/
structure Config (S : Setting) where
  state : State S
  mode : Mode S
  running : List ConversationId

/-- A change of the state that starts, ends and runs no callback. -/
inductive Change : State S → State S → Prop where
  | aside {s s' : State S} (hw : s'.world = s.world) (hf : s'.forest = s.forest) : Change s s'
  | perform {s : State S} {op : World.Op} {reply : World.Reply op.Result}
      (h : s.world.perform op = some reply) : Change s { s with world := reply.2 }
  | edit (s : State S) (e : World.Edit) : Change s { s with world := (s.world.edit e).2 }
  | start (s : State S) (participants : List CharacterId) (talk : S.Talk)
      (ending : Option S.Ending) : Change s (s.start participants talk ending).2
  | startChild (s : State S) (parent : ConversationId) (participants : List CharacterId)
      (talk : S.Talk) : Change s (s.startChild parent participants talk).2
  | schedule {s : State S} {id : ConversationId} {actor : CharacterId} {line : String}
      {delay : Duration} {reply : Except Error Unit × State S}
      (h : s.schedule id actor line delay = some reply) : Change s reply.2
  | cancel (s : State S) (id : ConversationId) :
      Change s { s with forest.scheduler := s.forest.scheduler.cancel id }
  | fire {s : State S} {through : Nat} {fired : ScheduledLine} {scheduler : Scheduler}
      (h : s.forest.scheduler.popNext s.world.now through = some (fired, scheduler)) :
      Change s { s with forest.scheduler := scheduler }

namespace Mode

/-- Whether a callback may begin: completion data comes when it is on its way, and whatever else
when nothing is. -/
def Admits (id : ConversationId) : Occasion → Mode S → Prop
  | .returned data, mode => mode = .handing id data
  | _, mode => mode = .settled

/-- What is to come after a request: most are granted out of sight. -/
def afterAsk : Request S → Mode S
  | .finish id data => .closing id data
  | _ => .settled

/-- What is to come after a conversation has been ended with completion data. -/
def afterEnd (id : ConversationId) (c : Conversation S.Talk S.Ending) (data : Value) : Mode S :=
  match c.parent, c.ending with
  | some parent, _ => .handing parent data
  | none, some ending => .concluding id ending data
  | none, none => .settled

variable {id : ConversationId} {c : Conversation S.Talk S.Ending} {data data' : Value}

theorem afterAsk_eq_closing {r : Request S} (h : (afterAsk r : Mode S) = .closing id data) :
    r = .finish id data := by
  cases r with
  | finish id' data' =>
    cases h
    rfl
  | _ => cases h

theorem afterEnd_eq_handing_iff {p : ConversationId} :
    (afterEnd id c data : Mode S) = .handing p data' ↔ c.parent = some p ∧ data = data' := by
  rw [afterEnd]
  cases c.parent with
  | some q => simp
  | none => cases c.ending <;> simp

theorem afterEnd_eq_concluding_iff {x : ConversationId} {ending : S.Ending} :
    (afterEnd id c data : Mode S) = .concluding x ending data' ↔
      id = x ∧ c.parent = none ∧ c.ending = some ending ∧ data = data' := by
  rw [afterEnd]
  cases c.parent with
  | some q => simp
  | none => cases c.ending <;> simp

theorem afterEnd_ne_draining {x : ConversationId} :
    (afterEnd id c data : Mode S) ≠ .draining x := by
  rw [afterEnd]
  cases c.parent with
  | some q => simp
  | none => cases c.ending <;> simp

theorem afterEnd_ne_closing {x : ConversationId} :
    (afterEnd id c data : Mode S) ≠ .closing x data' := by
  rw [afterEnd]
  cases c.parent with
  | some q => simp
  | none => cases c.ending <;> simp

end Mode

/-- A move that cannot be seen. -/
inductive Silent : Config S → Config S → Prop where
  | change {s s' : State S} {running : List ConversationId} (h : Change s s') :
      Silent ⟨s, .settled, running⟩ ⟨s', .settled, running⟩
  /-- Nothing is there to be ended. -/
  | refuse {s : State S} {running : List ConversationId} {id : ConversationId} {data : Value}
      (h : s.forest.get? id = none) :
      Silent ⟨s, .closing id data, running⟩ ⟨s, .settled, running⟩
  | defer {s : State S} {running : List ConversationId} {parent : ConversationId} {data : Value}
      (h : s.forest.isBusy parent = true) :
      Silent ⟨s, .handing parent data, running⟩ ⟨s.handBack parent data, .settled, running⟩
  /-- Nobody is there to get the data. -/
  | drop {s : State S} {running : List ConversationId} {parent : ConversationId} {data : Value}
      (h : s.forest.get? parent = none) :
      Silent ⟨s, .handing parent data, running⟩ ⟨s, .settled, running⟩
  | next {s : State S} {running : List ConversationId} {id : ConversationId} {data : Value}
      {forest : Forest S.Talk S.Ending} (h : s.forest.takeHandedBack id = some (data, forest)) :
      Silent ⟨s, .draining id, running⟩ ⟨{ s with forest }, .handing id data, running⟩
  | drained {s : State S} {running : List ConversationId} {id : ConversationId}
      (h : s.forest.takeHandedBack id = none) :
      Silent ⟨s, .draining id, running⟩ ⟨s, .settled, running⟩

/-- A move that can be seen. -/
inductive Visible : Config S → Event S → Config S → Prop where
  | asked (s : State S) (running : List ConversationId) (r : Request S) :
      Visible ⟨s, .settled, running⟩ (.asked r) ⟨s, .afterAsk r, running⟩
  | ended {s : State S} {running : List ConversationId} {id : ConversationId}
      {c : Conversation S.Talk S.Ending} (data : Value) (h : s.forest.get? id = some c) :
      Visible ⟨s, .closing id data, running⟩ (.ended id c (s.forest.descendants id) data)
        ⟨s.closeAll id, .afterEnd id c data, running⟩
  | began {s : State S} {mode : Mode S} {running : List ConversationId} {id : ConversationId}
      {occasion : Occasion} {talk : S.Talk} (hmode : mode.Admits id occasion)
      (h : (s.forest.get? id).bind (·.talk) = some talk) :
      Visible ⟨s, mode, running⟩ (.began id occasion) ⟨s.setTalk id none, .settled, id :: running⟩
  | stopped (s : State S) (running : List ConversationId) (id : ConversationId) (talk : S.Talk) :
      Visible ⟨s, .settled, id :: running⟩ (.stopped id)
        ⟨s.setTalk id (some talk), .draining id, running⟩
  | concluding (s : State S) (running : List ConversationId) (id : ConversationId)
      (ending : S.Ending) (data : Value) :
      Visible ⟨s, .concluding id ending data, running⟩ (.concluding id ending data)
        ⟨s, .settled, running⟩
  | reached (s : State S) (running : List ConversationId) (stage : Stage S) :
      Visible ⟨s, .settled, running⟩ (.reached stage) ⟨s, .settled, running⟩

/-- What there is to see while the machine moves from one configuration to another. -/
inductive History (c : Config S) : List (Sight S) → Config S → Prop where
  | refl : History c [] c
  | silent {seen : List (Sight S)} {d d' : Config S} (h : History c seen d) (hm : Silent d d') :
      History c seen d'
  | visible {seen : List (Sight S)} {d d' : Config S} {e : Event S} (h : History c seen d)
      (hm : Visible d e d') : History c (seen ++ [⟨e, d'.state⟩]) d'

theorem History.append {c d d' : Config S} {seen more : List (Sight S)} (h : History c seen d)
    (h' : History d more d') : History c (seen ++ more) d' := by
  induction h' with
  | refl =>
    rw [List.append_nil]
    exact h
  | silent _ hm ih => exact .silent ih hm
  | visible _ hm ih =>
    rw [← List.append_assoc]
    exact .visible ih hm

/-- Each sight is that of one move, with a history before it and one after it. -/
theorem History.split {c d : Config S} {before after : List (Sight S)} {sight : Sight S}
    (h : History c (before ++ sight :: after) d) :
    ∃ d₁ d₂, History c before d₁ ∧ Visible d₁ sight.event d₂ ∧ sight.state = d₂.state ∧
      History d₂ after d := by
  generalize hseen : before ++ sight :: after = seen at h
  induction h generalizing after with
  | refl => simp at hseen
  | silent _ hm ih =>
    obtain ⟨d₁, d₂, hbefore, hmove, hstate, hafter⟩ := ih hseen
    exact ⟨d₁, d₂, hbefore, hmove, hstate, .silent hafter hm⟩
  | @visible seen d d' e h hm ih =>
    -- The sight is the last one, or the history goes on after it.
    rcases after.eq_nil_or_concat with rfl | ⟨after, last, rfl⟩
    · obtain ⟨rfl, hlast⟩ := List.append_inj' hseen rfl
      cases hlast
      exact ⟨d, d', h, hm, rfl, .refl⟩
    · rw [List.concat_eq_append, ← List.cons_append, ← List.append_assoc] at hseen
      obtain ⟨hfirst, hlast⟩ := List.append_inj' hseen rfl
      cases hlast
      obtain ⟨d₁, d₂, hbefore, hmove, hstate, hafter⟩ := ih hfirst
      rw [List.concat_eq_append]
      exact ⟨d₁, d₂, hbefore, hmove, hstate, .visible hafter hm⟩

theorem History.earlier {c d : Config S} {before after : List (Sight S)}
    (h : History c (before ++ after) d) : ∃ d', History c before d' := by
  cases after with
  | nil =>
    rw [List.append_nil] at h
    exact ⟨d, h⟩
  | cons sight after =>
    obtain ⟨d', -, hbefore, -⟩ := h.split
    exact ⟨d', hbefore⟩

/-- Where no move is out of sight, nothing happens unseen. -/
theorem History.still {c d : Config S} {seen : List (Sight S)} (h : History c seen d)
    (hstill : ∀ d', ¬Silent c d') (hseen : seen = []) : d = c := by
  induction h with
  | refl => rfl
  | silent _ hm ih =>
    cases ih hseen
    exact absurd hm (hstill _)
  | visible _ hm ih => simp at hseen

/-- Where no move is out of sight, a history that goes on goes on with one that can be seen. -/
theorem History.next {c d : Config S} {seen : List (Sight S)} (h : History c seen d)
    (hstill : ∀ d', ¬Silent c d') (hmode : d.mode ≠ c.mode) :
    ∃ e c' later, seen = ⟨e, c'.state⟩ :: later ∧ Visible c e c' ∧ History c' later d := by
  cases seen with
  | nil =>
    have hd := h.still hstill rfl
    rw [hd] at hmode
    exact absurd rfl hmode
  | cons sight later =>
    have hsplit : History c ([] ++ sight :: later) d := h
    obtain ⟨c₁, c', hbefore, hmove, hstate, hafter⟩ := hsplit.split
    have hc := hbefore.still hstill rfl
    rw [hc] at hmove
    refine ⟨sight.event, c', later, ?_, hmove, hafter⟩
    rw [← hstate]

end TextWorld

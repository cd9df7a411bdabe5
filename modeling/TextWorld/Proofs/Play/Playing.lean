import TextWorld.Play.Session
import TextWorld.Proofs.Engine.Ensuring

/-!
Sessions as they are played. Lines are typed for the player or for anybody else and time passes, as
long as nothing breaks off.
-/

namespace TextWorld

namespace Session

variable {S : Setting}

/-- What a session is given. -/
inductive Input where
  | line (text : String)
  | lineAs (actor : CharacterId) (text : String)
  | time (delta : Duration)

namespace Input

/-- Who says something. -/
def actor? (player : CharacterId) : Input → Option CharacterId
  | line _ => some player
  | lineAs actor _ => some actor
  | time _ => none

def span : Input → Duration
  | time delta => delta
  | _ => .zero

end Input

/-- How long a session goes on with these inputs. -/
def total : List Input → Nat
  | [] => 0
  | input :: inputs => input.span.nanos + total inputs

def take (s : Session S) : Input → Except Fault (List String) × Session S
  | .line text => s.submit text
  | .lineAs actor text => s.submitAs actor text
  | .time delta => s.tick delta

/-- The session after all of the inputs, none of which has broken off. -/
def takeAll (s : Session S) : List Input → Except Fault (Session S)
  | [] => .ok s
  | input :: inputs =>
    match s.take input with
    | (.error fault, _) => .error fault
    | (.ok _, s) => s.takeAll inputs

variable {s t : Session S}

/-- The same session in another state, with whatever there was to read taken out. -/
structure Continues (s t : Session S) (Q : State S → Prop) : Prop where
  rules : t.rules = s.rules
  player : t.player = s.player
  state : ∃ u, Q u ∧ t.state = { u with mailbox := .empty }

theorem continues_submitAs {actor : CharacterId} {line : String} {texts : List String}
    {Q : State S → Prop} (h : s.submitAs actor line = (.ok texts, t))
    (hQ : (s.rules.dispatch actor line).Ensures (fun _ => Q) s.state) : s.Continues t Q := by
  unfold submitAs at h
  split at h
  · cases h
  · rename_i outcome state hrun
    cases h
    refine ⟨rfl, rfl, state, ?_, rfl⟩
    have hresult : (s.rules.dispatch actor line s.state).result = .ok outcome :=
      congrArg Prod.fst hrun
    have hstate : (s.rules.dispatch actor line s.state).state = state := congrArg Prod.snd hrun
    rw [← hstate]
    exact hQ outcome hresult

theorem continues_tick {delta : Duration} {texts : List String} {Q : State S → Prop}
    (h : s.tick delta = (.ok texts, t))
    (hQ : (s.rules.tick delta).Ensures (fun _ => Q) s.state) : s.Continues t Q := by
  unfold tick at h
  split at h
  · cases h
  · rename_i state hrun
    cases h
    refine ⟨rfl, rfl, state, ?_, rfl⟩
    have hresult : (s.rules.tick delta s.state).result = .ok () := congrArg Prod.fst hrun
    have hstate : (s.rules.tick delta s.state).state = state := congrArg Prod.snd hrun
    rw [← hstate]
    exact hQ () hresult

/-! A line or a tick breaks off exactly if the engine does. -/

theorem submitAs_eq_error {actor : CharacterId} {line : String} {fault : Fault} :
    (s.submitAs actor line).1 = .error fault ↔
      (s.rules.dispatch actor line s.state).result = .error fault := by
  change _ ↔ ((s.rules.dispatch actor line).run.run s.state).1 = .error fault
  unfold submitAs
  split
  · rename_i broken _ hrun
    rw [hrun]
    simp
  · rename_i outcome _ hrun
    rw [hrun]
    simp

theorem tick_eq_error {delta : Duration} {fault : Fault} :
    (s.tick delta).1 = .error fault ↔ (s.rules.tick delta s.state).result = .error fault := by
  change _ ↔ ((s.rules.tick delta).run.run s.state).1 = .error fault
  unfold tick
  split
  · rename_i broken _ hrun
    rw [hrun]
    simp
  · rename_i hrun
    rw [hrun]
    simp

/-! Inputs one after another. -/

theorem takeAll_of_error {fault : Fault} (input : Input) (inputs : List Input)
    (h : s.take input = (.error fault, t)) : s.takeAll (input :: inputs) = .error fault := by
  rw [Session.takeAll, h]

theorem takeAll_of_ok {texts : List String} (input : Input) (inputs : List Input)
    (h : s.take input = (.ok texts, t)) : s.takeAll (input :: inputs) = t.takeAll inputs := by
  rw [Session.takeAll, h]

/-- Inputs are all taken if the first of them is taken and then the others are. -/
theorem takeAll_cons_eq_ok {input : Input} {inputs : List Input} :
    s.takeAll (input :: inputs) = .ok t ↔
      ∃ texts u, s.take input = (.ok texts, u) ∧ u.takeAll inputs = .ok t := by
  cases htake : s.take input with
  | mk result u =>
    cases result with
    | error fault =>
      rw [takeAll_of_error input _ htake]
      simp
    | ok texts =>
      rw [takeAll_of_ok input _ htake]
      constructor
      · exact fun h => ⟨texts, u, rfl, h⟩
      · rintro ⟨_, _, ⟨⟩, h⟩
        exact h

theorem takeAll_append (s : Session S) (first others : List Input) :
    s.takeAll (first ++ others) = (s.takeAll first).bind (·.takeAll others) := by
  induction first generalizing s with
  | nil => rfl
  | cons input first ih =>
    rw [List.cons_append]
    cases htake : s.take input with
    | mk result t =>
      cases result with
      | error fault =>
        rw [takeAll_of_error input _ htake, takeAll_of_error input _ htake]
        rfl
      | ok texts => rw [takeAll_of_ok input _ htake, takeAll_of_ok input _ htake, ih]

theorem player_take {input : Input} {texts : List String} (h : s.take input = (.ok texts, t)) :
    t.player = s.player := by
  have hany {α : Type} (m : Run S α) : m.Ensures (fun _ _ => True) s.state := fun _ _ => trivial
  cases input with
  | line text => exact (continues_submitAs h (hany _)).player
  | lineAs actor text => exact (continues_submitAs h (hany _)).player
  | time delta => exact (continues_tick h (hany _)).player

theorem player_takeAll {inputs : List Input} (h : s.takeAll inputs = .ok t) :
    t.player = s.player := by
  induction inputs generalizing s with
  | nil =>
    cases h
    rfl
  | cons input inputs ih =>
    obtain ⟨texts, u, hfirst, hrest⟩ := takeAll_cons_eq_ok.1 h
    exact (ih hrest).trans (player_take hfirst)

theorem total_append (first others : List Input) :
    total (first ++ others) = total first + total others := by
  induction first with
  | nil => rw [List.nil_append, total, Nat.zero_add]
  | cons input first ih => rw [List.cons_append, total, total, ih, Nat.add_assoc]

/-- The player is in the world, whatever is typed and however time passes. -/
def Stays (s : Session S) : Prop :=
  ∀ inputs t, s.takeAll inputs = .ok t → t.checkPlayer = .ok ()

theorem Stays.takeAll (hs : s.Stays) {inputs : List Input} (h : s.takeAll inputs = .ok t) :
    t.Stays := by
  intro later u hu
  refine hs (inputs ++ later) u ?_
  rw [takeAll_append, h]
  exact hu

end Session

end TextWorld

import TextWorld.Proofs.Conversation.Closing
import TextWorld.Proofs.Engine.Following

/-!
The structure of the conversations under way. It is there whenever a program looks, also in the
middle of callbacks, and when nothing runs.
-/

namespace TextWorld

variable {S : Setting}

/-- Parents, children, participants and pending lines belong together. -/
structure State.Structured (s : State S) : Prop where
  child_iff : ∀ p c, s.forest.child? p = some c ↔ s.forest.parent? c = some p
  parent_active : ∀ {p c}, s.forest.parent? c = some p →
    s.forest.contains p = true ∧ p.index < c.index
  held_by_active : ∀ {x c id}, s.world.character? x = some c → c.conversation = some id →
    s.forest.lists id x = true
  held_above : ∀ {id x c}, s.forest.lists id x = true → s.world.character? x = some c →
    ∃ o, c.conversation = some o ∧ s.forest.Under id o
  on_one_chain : ∀ {a b x}, s.forest.lists a x = true → s.forest.lists b x = true →
    (s.world.character? x).isSome → s.forest.Under a b ∨ s.forest.Under b a
  scheduled_active : ∀ {line}, s.forest.scheduler.Holds line →
    s.forest.contains line.conversation = true

theorem State.Coherent.structured {s : State S} (h : s.Coherent) : s.Structured where
  child_iff := h.linked.child_iff
  parent_active hpc := by
    obtain ⟨hthere, hlt⟩ := h.linked.parent_there hpc
    exact ⟨Forest.contains_iff.2 hthere, hlt⟩
  held_by_active := h.held
  held_above := h.holder
  on_one_chain {a b x} ha hb hx := by
    obtain ⟨c, hc⟩ := Option.isSome_iff_exists.1 hx
    -- Both lie below the conversation that holds the participant.
    obtain ⟨o, ho, hao⟩ := h.holder ha hc
    obtain ⟨o', ho', hbo⟩ := h.holder hb hc
    rw [ho] at ho'
    cases ho'
    exact hao.comparable h.linked hbo
  scheduled_active hline := Forest.contains_iff.2 (h.scheduled hline)

variable {c d : Config S}

theorem Change.coherent {s s' : State S} (hm : Change s s') (h : s.Coherent) : s'.Coherent := by
  cases hm with
  | aside hw hf =>
    obtain ⟨w, f, _, _, _⟩ := s
    obtain ⟨w', f', _, _, _⟩ := s'
    cases hw
    cases hf
    exact ⟨h.linked, h.kept, h.held, h.holder, h.scheduled, h.character_drawn, h.listed_drawn⟩
  | perform hr => exact h.world (World.company_perform hr)
  | edit e => exact h.world (World.company_edit s.world e)
  | start participants talk ending => exact h.start participants talk ending
  | startChild parent participants talk => exact h.startChild parent participants talk
  | schedule hr => exact h.schedule hr
  | cancel id => exact h.cancel id
  | fire hpop => exact h.fire hpop

theorem Silent.coherent (hm : Silent c d) (h : c.state.Coherent) : d.state.Coherent := by
  cases hm with
  | change hchange => exact hchange.coherent h
  | refuse hgone => exact h
  | defer hbusy => exact h.handBack _ _
  | drop hgone => exact h
  | next htake => exact h.takeHandedBack htake
  | drained hnone => exact h

theorem Visible.coherent {e : Event S} (hm : Visible c e d) (h : c.state.Coherent) :
    d.state.Coherent := by
  cases hm with
  | asked s running r => exact h
  | ended data hc => exact (State.without_closeAll h hc).coherent
  | began hmode htalk => exact h.setTalk _ _
  | stopped s running id talk => exact h.setTalk _ _
  | concluding s running id ending data => exact h
  | reached s running stage => exact h

/-- What each move keeps is so at every moment of a history. -/
theorem History.coherent {seen : List (Sight S)} (hh : History c seen d)
    (h : c.state.Coherent) : d.state.Coherent ∧ ∀ sight ∈ seen, sight.state.Coherent := by
  induction hh with
  | refl => exact ⟨h, by simp⟩
  | silent _ hm ih => exact ⟨hm.coherent ih.1, ih.2⟩
  | visible _ hm ih =>
    have hd := hm.coherent ih.1
    refine ⟨hd, fun sight hsight => ?_⟩
    rcases List.mem_append.1 hsight with hsight | hsight
    · exact ih.2 sight hsight
    · rw [List.mem_singleton] at hsight
      rw [hsight]
      exact hd

theorem coherent_throughout {w : World} (hw : w.Reachable) (memory : S.Memory)
    (calls : List (Rules S × Call S)) :
    (∀ sight ∈ (Call.runAll calls (.initial w memory)).sights, sight.state.Coherent) ∧
      (Call.runAll calls (.initial w memory)).state.Coherent := by
  obtain ⟨d, hhistory, hstate, -⟩ := Call.runAll_settles calls (.initial w memory) []
  obtain ⟨hlast, hsights⟩ := hhistory.coherent (State.coherent_initial hw memory)
  rw [hstate] at hlast
  exact ⟨hsights, hlast⟩

/-- From a world that has come about by operations, whatever is called and whatever the programs
do: the conversations are structured at every moment that a program can look, and at the end. -/
theorem structured_throughout {w : World} (hw : w.Reachable) (memory : S.Memory)
    (calls : List (Rules S × Call S)) :
    (∀ sight ∈ (Call.runAll calls (.initial w memory)).sights, sight.state.Structured) ∧
      (Call.runAll calls (.initial w memory)).state.Structured := by
  obtain ⟨d, hhistory, hstate, -⟩ := Call.runAll_settles calls (.initial w memory) []
  obtain ⟨hlast, hsights⟩ := hhistory.coherent (State.coherent_initial hw memory)
  rw [hstate] at hlast
  exact ⟨fun sight hsight => (hsights sight hsight).structured, hlast.structured⟩

/-- A room with somebody in it. -/
def innWithGuest : List World.Op :=
  [.addZone "village" "The Village", .addRoom ⟨1⟩ "inn" "The Inn" "",
    .spawnCharacter ⟨2⟩ (.player "guest" "a guest" [])]

/-- A room with two people in it. -/
def innWithTwo : List World.Op :=
  innWithGuest ++ [.spawnCharacter ⟨2⟩ (.player "cook" "a cook" [])]

def plainSetting : Setting := ⟨Unit, Unit, Unit⟩

/-- Conversations that answer a line by a child which ends at once. -/
def chatter : Rules plainSetting where
  config := .default
  registries := .empty
  hooks := []
  behaviour :=
    { onInput := fun talk id actor _ => do
        match ← Program.startChild id [actor] () with
        | .ok child =>
          let _ ← Program.finish child (.int 1)
          pure (.handled, talk)
        | .error _ => pure (.notHandled, talk)
      onReturn := fun talk _ _ => pure talk
      onTick := fun talk _ => pure talk
      onEnd := fun _ _ => pure () }
  maxDeliveries := 8

/-- A conversation with the guest, and below it another one with a line to come. -/
def talkInInn : Program plainSetting Unit := do
  let _ ← Program.start [⟨3⟩] () none
  let _ ← Program.startChild ⟨1⟩ [⟨3⟩] ()
  let _ ← Program.schedule ⟨2⟩ ⟨3⟩ "bye" (.ofSeconds 1)
  pure ()

theorem structured_throughout_talkInInn :
    ∃ w, World.empty.run innWithGuest = some w ∧
      (Call.runAll [(chatter, .withContext talkInInn)] (.initial w ())).state.forest.child? ⟨1⟩ =
        some ⟨2⟩ ∧
      (Call.runAll [(chatter, .withContext talkInInn)] (.initial w ())).state.Structured := by
  have hrun : (World.empty.run innWithGuest).isSome := by decide
  obtain ⟨w, hw⟩ := Option.isSome_iff_exists.1 hrun
  have hchild : (World.empty.run innWithGuest).map (fun w =>
      (Call.runAll [(chatter, .withContext talkInInn)] (.initial w ())).state.forest.child? ⟨1⟩) =
      some (some ⟨2⟩) := by decide
  rw [hw] at hchild
  have hall := structured_throughout (S := plainSetting) ⟨innWithGuest, hw⟩ ()
    [(chatter, .withContext talkInInn)]
  exact ⟨w, hw, Option.some.inj hchild, hall.2⟩

end TextWorld

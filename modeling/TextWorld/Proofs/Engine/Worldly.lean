import TextWorld.Proofs.Engine.Going
import TextWorld.Proofs.World.Retaining

/-!
What the steps of the engine do to the world. A conversation only lays hold of characters and lets
go of them; whatever else happens to the world is an operation or an edit somebody asks for, or a
tick.
-/

namespace TextWorld

variable {S : Setting} {β : Type}

/-- A view of characters that does not show their conversations either. -/
structure Secluded (view : CharacterId → Character → β) (new : β) : Prop
    extends Aloof view new where
  conversation : ∀ x c conversation, view x { c with conversation } = view x c

variable {view : CharacterId → Character → β} {new : β} {s s' : State S}

namespace State

open World (Retains)

theorem retains_modifyAll (hv : Secluded view new) (f : Character → Option ConversationId)
    (participants : List CharacterId) (w : World) :
    Retains view new w { w with
      characters := participants.foldl
        (fun cs p => cs.modify p fun c => { c with conversation := f c }) w.characters } := by
  induction participants generalizing w with
  | nil => exact .refl w
  | cons p participants ih =>
    have hfirst : Retains view new w
        { w with characters := w.characters.modify p fun c => { c with conversation := f c } } :=
      .modifyCharacter w p fun c => hv.conversation p c (f c)
    exact hfirst.trans (ih _)

theorem retains_addConversation (hv : Secluded view new) (s : State S)
    (c : Conversation S.Talk S.Ending) :
    Retains view new s.world (s.addConversation c).2.world :=
  retains_modifyAll hv _ c.participants s.world

theorem retains_start (hv : Secluded view new) (s : State S) (participants : List CharacterId)
    (talk : S.Talk) (ending : Option S.Ending) :
    Retains view new s.world (s.start participants talk ending).2.world := by
  rcases s.start_cases participants talk ending with hstart | ⟨c, hstart⟩
  · rw [hstart]
    exact .refl _
  · rw [hstart]
    exact retains_addConversation hv s c

theorem retains_startChild (hv : Secluded view new) (s : State S) (parent : ConversationId)
    (participants : List CharacterId) (talk : S.Talk) :
    Retains view new s.world (s.startChild parent participants talk).2.world := by
  rcases s.startChild_cases parent participants talk with hstart | ⟨c, hstart⟩
  · rw [hstart]
    exact .refl _
  · rw [hstart]
    exact retains_addConversation hv s c

theorem retains_close (hv : Secluded view new) (s : State S) (id : ConversationId) :
    Retains view new s.world (s.close id).world := by
  rw [close]
  split
  · exact .refl _
  · rename_i c _
    exact retains_modifyAll hv _ c.participants s.world

theorem retains_closeAll (hv : Secluded view new) (s : State S) (id : ConversationId) :
    Retains view new s.world (s.closeAll id).world :=
  closeAll_keeps (P := fun t => Retains view new s.world t.world)
    (fun t x _ ht => ht.trans (retains_close hv t x)) (.refl _)

end State

open World (Retains)

variable {allowed : Stage S → Prop} {generation : Option Nat} {seen : List (Sight S)}

/-- A step leaves the characters and the clock alone, but for an operation or the passing of
time. -/
theorem Step.world_cases (h : Step allowed generation s seen s') :
    (∀ {β : Type} {view : CharacterId → Character → β} {new : β}, Secluded view new →
      Retains view new s.world s'.world) ∨
    (∃ op reply, seen = [⟨.asked (.perform op), s⟩] ∧ s.world.perform op = some reply ∧
      s'.world = reply.2) ∨
    ∃ delta, seen = [⟨.reached (.passing delta), s⟩] ∧
      s.world.advance delta = some s'.world := by
  -- By the kinds of steps; whatever only touches conversations shows in no such view.
  cases h with
  | asked r depth hdepth =>
    cases r with
    | perform op =>
      rw [State.granted]
      cases hreply : s.world.perform op with
      | none => exact .inl fun _ => .refl _
      | some reply => exact .inr (.inl ⟨op, reply, rfl, hreply, rfl⟩)
    | edit e => exact .inl fun hv => World.retains_edit hv.toAloof s.world e
    | emitRoom room except text =>
      left
      intro β view new _
      obtain ⟨mailbox, hemit⟩ := s.emitRoom_eq room except text
      rw [State.granted, hemit]
      exact .refl _
    | start participants talk ending => exact .inl fun hv => State.retains_start hv s _ _ _
    | startChild parent participants talk =>
      exact .inl fun hv => State.retains_startChild hv s _ _ _
    | schedule id actor line delay =>
      left
      intro β view new _
      rw [State.granted]
      cases hreply : s.schedule id actor line delay with
      | none => exact .refl _
      | some reply =>
        obtain ⟨scheduler, hscheduled⟩ := State.schedule_eq hreply
        dsimp only
        rw [hscheduled]
        exact .refl _
    | _ => exact .inl fun _ => .refl _
  | ended data hc => exact .inl fun hv => State.retains_closeAll hv s _
  | passed hallowed hworld => exact .inr (.inr ⟨_, rfl, hworld⟩)
  | _ => exact .inl fun _ => .refl _

end TextWorld

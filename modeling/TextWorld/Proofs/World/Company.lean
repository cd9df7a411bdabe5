import TextWorld.Proofs.World.Retaining
import TextWorld.Proofs.World.Reachable

/-!
Conversations and the world. No operation brings anyone into a conversation or out of one: those
who stay in the world keep theirs, and those who come into it have none and a fresh id.
-/

namespace TextWorld

namespace World

variable {w v : World}

/-- Whoever is in the second world was in the first with the same conversation, or has come with
a fresh id and without one. -/
structure SameCompany (w v : World) : Prop where
  company : ∀ {x c}, v.character? x = some c →
    (∃ d, w.character? x = some d ∧ d.conversation = c.conversation) ∨
      c.conversation = none ∧ w.lastIndex < x.index ∧ x.index ≤ v.lastIndex
  lastIndex : w.lastIndex ≤ v.lastIndex

theorem aloof_conversation : Aloof (fun _ c => c.conversation) none where
  room _ _ _ := rfl
  bare _ _ := rfl
  isAdmin _ _ _ := rfl
  new _ _ hnone _ := hnone

theorem Retains.sameCompany (h : Retains (fun _ c => c.conversation) none w v) :
    w.SameCompany v :=
  ⟨h.retained, h.lastIndex⟩

theorem company_perform {op : Op} {reply : Reply op.Result} (hr : w.perform op = some reply) :
    w.SameCompany reply.2 := by
  by_cases hadvance : ∃ delta, op = .advance delta
  · obtain ⟨delta, rfl⟩ := hadvance
    obtain ⟨v, hv, rfl⟩ := Option.map_eq_some_iff.1 hr
    obtain ⟨now, -, rfl⟩ := Option.map_eq_some_iff.1 hv
    exact ⟨fun {x c} hc => .inl ⟨c, hc, rfl⟩, Nat.le_refl _⟩
  · apply Retains.sameCompany
    exact retains_perform aloof_conversation hr (fun delta heq => hadvance ⟨delta, heq⟩)
      fun _ _ _ _ _ => rfl

theorem company_edit (w : World) (e : Edit) : w.SameCompany (w.edit e).2 :=
  (retains_edit aloof_conversation w e).sameCompany

/-- Nobody is in a conversation in a world that has only come about by operations. -/
theorem Reachable.no_company (h : w.Reachable) {x : CharacterId} {c : Character}
    (hc : w.character? x = some c) : c.conversation = none ∧ x.index ≤ w.lastIndex := by
  -- The bound on the ids is what tells new characters from old ones.
  have hnone : ∀ {x c}, w.character? x = some c →
      c.conversation = none ∧ x.index ≤ w.lastIndex := by
    apply Reaches.keeps (P := fun w => ∀ {x c}, w.character? x = some c →
      c.conversation = none ∧ x.index ≤ w.lastIndex) _ h
    · intro x c hc
      simp [character?_eq, empty] at hc
    · intro w op reply hw hr x c hc
      have hcompany := company_perform hr
      rcases hcompany.company hc with ⟨d, hd, hdc⟩ | ⟨hnone, -, hle⟩
      · obtain ⟨hnone, hle⟩ := hw hd
        exact ⟨hdc.symm.trans hnone, Nat.le_trans hle hcompany.lastIndex⟩
      · exact ⟨hnone, hle⟩
  exact hnone hc

end World

end TextWorld

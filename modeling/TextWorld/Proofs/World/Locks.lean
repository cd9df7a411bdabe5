import TextWorld.Proofs.World.Doors

/-!
Locked doors. A lock counts on the side from which a door is handled, so a door stays closed if it
is locked on both sides, or if there is no door on the other side by which it could be handled.
-/

namespace TextWorld

namespace World

/-- There is a door, and it is closed and locked, as is the one on the other side if there is
one. -/
structure Bolted (w : World) (a : Side) : Prop where
  doored : (w.doorAt a).isSome
  fast : ∀ b, w.Across a b → ∀ x, w.doorAt b = some x → x.closed = true ∧ x.locked = true

/-- Whether an operation respects the lock of the door that it is about: it opens only a door that
is there, closed and not locked. Walls and doors are not altered otherwise. -/
def RespectsLocks (w : World) : Op → Prop
  | .setDoorClosed room d closed => closed = false →
    ∃ x, w.doorAt ⟨room, d⟩ = some x ∧ x.closed = true ∧ x.locked = false
  | .moveCharacter .. | .moveItem .. | .putOffBalance .. | .advance .. => True
  | _ => False

variable {w v : World} {a c : Side} {closed : Bool}

theorem Bolted.shut (h : w.Bolted a) :
    ∃ x, w.doorAt a = some x ∧ x.closed = true ∧ x.locked = true := by
  obtain ⟨x, hx⟩ := Option.isSome_iff_exists.1 h.doored
  exact ⟨x, hx, h.fast a (.inl rfl) x hx⟩

theorem Bolted.same (h : w.Bolted a) (hwalls : w.SameWalls v)
    (hexits : ∀ room d, v.exit? room d = w.exit? room d) : v.Bolted a := by
  have hdoor (b : Side) : v.doorAt b = w.doorAt b := by
    rw [doorAt, doorAt, exitAt, exitAt, hexits]
  refine ⟨(congrArg Option.isSome (hdoor a)).trans h.doored, fun b hb x hx => ?_⟩
  exact h.fast b (hwalls.across_iff.1 hb) x ((hdoor b).symm.trans hx)

/-- A bolted door may be closed once more, but not be opened, from whatever side. -/
theorem Bolted.setDoorClosed (h : w.Bolted a) (hw : w.Charted)
    (hop : w.RespectsLocks (.setDoorClosed c.room c.direction closed)) :
    (w.setDoorClosed c.room c.direction closed).2.Bolted a := by
  cases hroom : w.room? c.room with
  | none =>
    rw [setDoorClosed_missing hroom]
    exact h
  | some here =>
    have honly : w.OnlyDoors _ (w.Across c) closed := hw.onlyDoors (Option.isSome_of_eq_some hroom)
    have hwalls := sameWalls_setDoorClosed w c.room c.direction closed
    constructor
    · by_cases ha : w.Across c a
      · rw [honly.doorAt_set ha, Option.isSome_map]
        exact h.doored
      · rw [honly.doorAt_same ha]
        exact h.doored
    · intro b hb x hx
      rw [hwalls.across_iff] at hb
      by_cases hc : w.Across c b
      · rw [honly.doorAt_set hc] at hx
        obtain ⟨y, hy, rfl⟩ := Option.map_eq_some_iff.1 hx
        have hfast := h.fast b hb y hy
        cases closed with
        | true => exact ⟨rfl, hfast.2⟩
        | false =>
          -- The side from which the door would be opened is one of those that are locked.
          obtain ⟨z, hz, -, hunlocked⟩ := hop rfl
          have hside : w.Across a c := by
            rcases hc with rfl | hpair
            · exact hb
            · exact hpair.across_iff.2 hb
          have hlocked : z.locked = true := (h.fast c hside z hz).2
          rw [hunlocked] at hlocked
          cases hlocked
      · rw [honly.doorAt_same hc] at hx
        exact h.fast b hb x hx

/-- Whatever respects the locks leaves a bolted door as it is. -/
theorem Bolted.perform (h : w.Bolted a) (hw : w.Charted) {op : Op} (hop : w.RespectsLocks op)
    {reply : Reply op.Result} (hr : w.perform op = some reply) : reply.2.Bolted a := by
  cases op with
  | moveCharacter id there =>
    cases hr
    obtain ⟨hall, hexits⟩ := undisturbed_moveCharacter w id there
    exact h.same hall.toSameWalls hexits
  | moveItem id target =>
    cases hr
    have hr := rearranged_moveItem w id target
    exact h.same hr.undisturbed.toSameWalls hr.exit?_eq
  | putOffBalance id duration =>
    obtain ⟨hall, hexits⟩ := undisturbed_putOffBalance hr
    exact h.same hall.toSameWalls hexits
  | advance delta =>
    obtain ⟨v, hv, rfl⟩ := Option.map_eq_some_iff.1 hr
    obtain ⟨now, -, rfl⟩ := Option.map_eq_some_iff.1 hv
    exact h.same (.of_exits rfl fun _ _ => rfl) fun _ _ => rfl
  | setDoorClosed room d closed =>
    cases hr
    exact Bolted.setDoorClosed (c := ⟨room, d⟩) h hw hop
  | _ => exact absurd hop (by rintro ⟨⟩)

end World

end TextWorld

import Mathlib.Data.List.Induction
import TextWorld.Proofs.World.Placement

/-!
Items in items. Moving an item is refused only if it would go directly into itself, so an item can
be put into something it already holds; this is the one way in which chains of containers close.
-/

namespace TextWorld

namespace World

variable {w v : World} {id parent x y z : ItemId}

/-- From the item, through whatever holds it, one comes to a room or a character. -/
inductive Grounded (w : World) : ItemId → Prop where
  | outside {x : ItemId} {place : ItemLocation} (hx : w.locationOf x = some place)
      (hplace : ∀ p, place ≠ .inside p) : Grounded w x
  | inside {x y : ItemId} (hx : w.locationOf x = some (.inside y)) (hy : Grounded w y) :
      Grounded w x

/-- The first item is in the second one, directly or in something in it. -/
inductive Within (w : World) : ItemId → ItemId → Prop where
  | direct {x y : ItemId} (hx : w.locationOf x = some (.inside y)) : Within w x y
  | deeper {x y z : ItemId} (hx : w.locationOf x = some (.inside y)) (hy : Within w y z) :
      Within w x z

/-- Every item ends up in a room or with a character, and none is within itself. -/
structure Contained (w : World) : Prop where
  grounded : ∀ {id}, (w.item? id).isSome → w.Grounded id
  not_within : ∀ id, ¬w.Within id id

/-- The operation puts an item into something that is within it. -/
def Swallows (w : World) (op : Op) : Prop :=
  ∃ id parent, op = .moveItem id (.inside parent) ∧ w.Within parent id

theorem Within.step (h : w.Within x y) (hy : w.locationOf y = some (.inside z)) :
    w.Within x z := by
  induction h with
  | direct hx => exact .deeper hx (.direct hy)
  | deeper hx _ ih => exact .deeper hx (ih hy)

theorem Within.item_isSome (hw : w.Sound) (h : w.Within x y) : (w.item? y).isSome := by
  induction h with
  | direct hx =>
    have hmem := (hw.consistent _ _).2 hx
    exact hasPlace_of_mem hmem
  | deeper _ _ ih => exact ih

theorem Grounded.not_within (h : w.Grounded x) : ¬w.Within x x := by
  induction h with
  | outside hx hplace =>
    intro hcycle
    cases hcycle with
    | direct hin | deeper hin =>
      rw [hx] at hin
      exact hplace _ (Option.some.inj hin)
  | @inside x y hx hy ih =>
    -- A cycle through an item is one through what holds it.
    intro hcycle
    apply ih
    cases hcycle with
    | direct hin =>
      rw [hx] at hin
      cases hin
      exact .direct hx
    | deeper hin hback =>
      rw [hx] at hin
      cases hin
      exact hback.step hx

theorem Grounded.locationOf_isSome (h : w.Grounded x) : (w.locationOf x).isSome := by
  cases h with
  | outside hx => exact Option.isSome_of_eq_some hx
  | inside hx => exact Option.isSome_of_eq_some hx

theorem contained_of_grounded
    (hg : ∀ {id}, (w.item? id).isSome → w.Grounded id) : w.Contained := by
  refine ⟨hg, fun id hcycle => ?_⟩
  have hid : (w.item? id).isSome := by
    cases hcycle with
    | direct hx | deeper hx => exact isSome_of_locationOf hx
  exact (hg hid).not_within hcycle

/-- Whatever is somewhere else in the second world is in a room or with a character there. -/
def Outward (w v : World) : Prop :=
  ∀ x, v.locationOf x = w.locationOf x ∨
    ∃ place, v.locationOf x = some place ∧ ∀ p, place ≠ .inside p

/-- In the second world the item has been put into another one, and nothing else has moved. -/
def Tucked (w v : World) (id parent : ItemId) : Prop :=
  ∀ x, v.locationOf x = if id = x then some (.inside parent) else w.locationOf x

theorem Grounded.outward (hout : w.Outward v) (h : w.Grounded x) : v.Grounded x := by
  induction h with
  | outside hx hplace =>
    rcases hout _ with hsame | ⟨place, hx', hplace'⟩
    · exact .outside (hsame.trans hx) hplace
    · exact .outside hx' hplace'
  | inside hx _ ih =>
    rcases hout _ with hsame | ⟨place, hx', hplace'⟩
    · exact .inside (hsame.trans hx) ih
    · exact .outside hx' hplace'

/-- What is not within the item that is put away is where it was. -/
theorem Grounded.apart (htucked : w.Tucked v id parent) (h : w.Grounded x) (hne : id ≠ x)
    (hapart : ¬w.Within x id) : v.Grounded x := by
  induction h with
  | outside hx hplace => exact .outside (by rw [htucked, if_neg hne, hx]) hplace
  | @inside x y hx hy ih =>
    have hy' : id ≠ y := by
      rintro rfl
      exact hapart (.direct hx)
    have hgrounded : v.Grounded y := ih hy' fun hin => hapart (.deeper hx hin)
    exact .inside (by rw [htucked, if_neg hne, hx]) hgrounded

theorem Grounded.tucked (htucked : w.Tucked v id parent) (hparent : v.Grounded parent)
    (h : w.Grounded x) : v.Grounded x := by
  have hid : v.Grounded id := .inside (by rw [htucked, if_pos rfl]) hparent
  induction h with
  | @outside x place hx hplace =>
    by_cases hne : id = x
    · exact hne ▸ hid
    · exact .outside (by rw [htucked, if_neg hne, hx]) hplace
  | @inside x y hx _ ih =>
    by_cases hne : id = x
    · exact hne ▸ hid
    · exact .inside (by rw [htucked, if_neg hne, hx]) ih

theorem Within.tucked (htucked : w.Tucked v id parent) (hid : ¬w.Within id id)
    (h : w.Within x id) : v.Within x id := by
  have hsame : ∀ y, w.Within y id → v.locationOf y = w.locationOf y := by
    intro y hy
    have hne : id ≠ y := by
      rintro rfl
      exact hid hy
    rw [htucked, if_neg hne]
  induction h with
  | direct hx => exact .direct ((hsame _ (.direct hx)).trans hx)
  | deeper hx hy ih => exact .deeper ((hsame _ (.deeper hx hy)).trans hx) (ih htucked hid hsame)

/-- Putting an item somewhere else than into another item moves nothing into any item. -/
theorem outward_whereAfter {target : ItemLocation} (htarget : ∀ p, target ≠ .inside p)
    (hv : ∀ x, v.locationOf x = w.whereAfter id target x) : w.Outward v := by
  intro x
  rw [hv]
  unfold whereAfter
  split
  · exact .inr ⟨target, rfl, htarget⟩
  · split
    · split
      · exact .inr ⟨_, rfl, fun p hp => by cases hp⟩
      · exact .inl rfl
    · exact .inl rfl

/-- An operation moves nothing into an item, or it makes an item there, or moves one there. -/
theorem containment_perform (h : w.Sound) {op : Op} {reply : Reply op.Result}
    (hr : w.perform op = some reply) :
    w.Outward reply.2 ∨
      ∃ id parent, (op = .moveItem id (.inside parent) ∧ id ≠ parent ∨ w.locationOf id = none) ∧
        (w.item? parent).isSome ∧ w.Tucked reply.2 id parent := by
  by_cases hop : op.handlesItems = false
  · refine .inl fun x => .inl ?_
    rw [locationOf, locationOf, item?_eq, item?_eq, items_perform hop hr]
  · cases op with
    | despawnCharacter who =>
      cases hr
      refine .inl fun x => ?_
      rcases (despawnCharacter_spec h who).2 x with hsame | ⟨room, hroom⟩
      · exact .inl hsame
      · exact .inr ⟨_, hroom, fun p hp => by cases hp⟩
    | spawnItem place t =>
      cases hr
      rcases spawnItem_spec h place t with
        ⟨e, v, hv, -, hitems⟩ | ⟨id, v, hv, -, hnew, hplace, hloc⟩
      · refine .inl fun x => .inl ?_
        rw [hv, locationOf, locationOf, item?_eq, item?_eq, hitems]
      · rw [hv]
        cases place with
        | inside parent =>
          refine .inr ⟨id, parent, .inr ?_, hplace, hloc⟩
          rw [locationOf, hnew]
          rfl
        | _ => exact .inl (outward_whereAfter (fun p hp => by cases hp) hloc)
    | moveItem item target =>
      cases hr
      rcases moveItem_spec h.consistent item target with
        ⟨e, he⟩ | ⟨v, hv, -, hself, hplace, -, hloc⟩
      · rw [he]
        exact .inl fun x => .inl rfl
      · rw [hv]
        cases target with
        | inside parent =>
          refine .inr ⟨item, parent, .inl ⟨rfl, ?_⟩, hplace, hloc⟩
          rintro rfl
          exact hself rfl
        | _ => exact .inl (outward_whereAfter (fun p hp => by cases hp) hloc)
    | _ => exact absurd rfl hop

theorem contained_of_not_swallows (h : w.Sound) (hc : w.Contained) {op : Op}
    {reply : Reply op.Result} (hr : w.perform op = some reply) (hop : ¬w.Swallows op) :
    reply.2.Contained := by
  have hsound := sound_perform h hr
  refine contained_of_grounded fun {x} hx => ?_
  obtain ⟨place, hplace⟩ := Option.isSome_iff_exists.1 (hsound.located hx)
  have hold : (w.locationOf x).isSome → w.Grounded x := by
    intro hloc
    obtain ⟨place, hplace⟩ := Option.isSome_iff_exists.1 hloc
    exact hc.grounded (isSome_of_locationOf hplace)
  rcases containment_perform h hr with hout | ⟨id, parent, hid, hparent, htucked⟩
  · rcases hout x with hsame | ⟨place', hx', hplace'⟩
    · have hloc : (w.locationOf x).isSome := by
        rw [← hsame, hplace]
        rfl
      exact (hold hloc).outward hout
    · exact .outside hx' hplace'
  · -- What the item is put into is not within it, so it stays where it is.
    have hapart : id ≠ parent ∧ ¬w.Within parent id := by
      rcases hid with ⟨rfl, hne⟩ | hnone
      · exact ⟨hne, fun hin => hop ⟨id, parent, rfl, hin⟩⟩
      · have hparent' := (hc.grounded hparent).locationOf_isSome
        refine ⟨?_, fun hin => ?_⟩
        · rintro rfl
          rw [hnone] at hparent'
          cases hparent'
        · have hsome := h.located (hin.item_isSome h)
          rw [hnone] at hsome
          cases hsome
    have hgrounded : reply.2.Grounded parent :=
      (hc.grounded hparent).apart htucked hapart.1 hapart.2
    by_cases hne : id = x
    · subst hne
      exact .inside (by rw [htucked, if_pos rfl]) hgrounded
    · have hloc : (w.locationOf x).isSome := by
        have hx' := htucked x
        rw [if_neg hne, hplace] at hx'
        rw [← hx']
        rfl
      exact hgrounded.tucked htucked (hold hloc)

/-- Putting an item into something within it is not refused, and closes the chain between them. -/
theorem not_contained_of_swallows (h : w.Sound) (hc : w.Contained) {op : Op}
    {reply : Reply op.Result} (hr : w.perform op = some reply) (hop : w.Swallows op) :
    ¬reply.2.Contained := by
  obtain ⟨id, parent, rfl, hin⟩ := hop
  have hid : (w.item? id).isSome := hin.item_isSome h
  have hparent : (w.item? parent).isSome := by
    cases hin with
    | direct hx | deeper hx => exact isSome_of_locationOf hx
  have hself : ItemLocation.inside parent ≠ .inside id := by
    intro heq
    cases heq
    exact hc.not_within id hin
  obtain ⟨p, hp⟩ := Option.isSome_iff_exists.1 hparent
  have hzone : w.locationZoneKey (.inside parent) = .ok p.key.zone := by
    rw [locationZoneKey, hp]
  obtain ⟨v, hv, -, hloc⟩ := moveItem_ok h.consistent hid hself hzone
  have htucked : w.Tucked v id parent := hloc
  cases hr
  rw [hv]
  intro hcontained
  have hback : v.Within parent id := hin.tucked htucked (hc.not_within id)
  -- The chain from the parent to the item is still there, and the item now leads to its start.
  have hcycle : v.Within id id := .deeper (by rw [htucked, if_pos rfl]) hback
  exact hcontained.not_within id hcycle

theorem contained_perform_iff (h : w.Sound) (hc : w.Contained) {op : Op}
    {reply : Reply op.Result} (hr : w.perform op = some reply) :
    reply.2.Contained ↔ ¬w.Swallows op :=
  ⟨fun hcontained hop => not_contained_of_swallows h hc hr hop hcontained,
    contained_of_not_swallows h hc hr⟩

theorem contained_empty : empty.Contained :=
  contained_of_grounded fun h => by cases h

/-- All the way through a run every item ends up in a room or with a character, and none is within
itself, exactly if no operation puts an item into something that is within it. -/
theorem contained_throughout_iff (ops : List Op) :
    (∀ before w, before <+: ops → empty.run before = some w → w.Contained) ↔
      ∀ before op w, before ++ [op] <+: ops → empty.run before = some w → ¬w.Swallows op := by
  constructor
  · intro hall before op w hprefix hrun hop
    have hw : w.Contained := hall before w ((List.prefix_append _ _).trans hprefix) hrun
    have hsound : w.Sound := Reachable.sound ⟨before, hrun⟩
    obtain ⟨id, parent, rfl, hin⟩ := hop
    have hr : w.perform (.moveItem id (.inside parent)) =
        some (w.moveItem id (.inside parent)) := rfl
    -- The run up to and with this operation would not be contained.
    apply not_contained_of_swallows hsound hw hr ⟨id, parent, rfl, hin⟩
    apply hall (before ++ [.moveItem id (.inside parent)]) _ hprefix
    rw [run_concat, hrun, Option.bind_some, hr, Option.map_some]
  · intro hnever before
    induction before using List.reverseRecOn with
    | nil =>
      intro w _ hrun
      cases hrun
      exact contained_empty
    | append_singleton before op ih =>
      intro w hprefix hrun
      rw [run_concat] at hrun
      obtain ⟨u, hu, hlast⟩ := Option.bind_eq_some_iff.1 hrun
      obtain ⟨reply, hr, rfl⟩ := Option.map_eq_some_iff.1 hlast
      have hcontained : u.Contained := ih u ((List.prefix_append _ _).trans hprefix) hu
      have hsound : u.Sound := Reachable.sound ⟨before, hu⟩
      exact (contained_perform_iff hsound hcontained hr).2 (hnever before op u hprefix hu)

/-- A box in a chest, and then the chest in the box. -/
def nestedBoxes : List Op :=
  [.addZone "attic" "The Attic", .addRoom ⟨1⟩ "loft" "The Loft" "",
    .spawnItem (.room ⟨2⟩) ⟨"chest", "a chest", []⟩,
    .spawnItem (.inside ⟨3⟩) ⟨"box", "a box", []⟩, .moveItem ⟨3⟩ (.inside ⟨4⟩)]

/-- Every operation of this run succeeds, and then the chest is within itself and in no room. -/
theorem nestedBoxes_not_contained :
    ∃ w, empty.run nestedBoxes = some w ∧ (w.item? ⟨3⟩).isSome ∧ w.Within ⟨3⟩ ⟨3⟩ ∧
      ¬w.Grounded ⟨3⟩ := by
  have hrun : (empty.run nestedBoxes).isSome := by decide
  obtain ⟨w, hw⟩ := Option.isSome_iff_exists.1 hrun
  have hchest : (empty.run nestedBoxes).map (·.locationOf ⟨3⟩) = some (some (.inside ⟨4⟩)) := by
    decide
  have hbox : (empty.run nestedBoxes).map (·.locationOf ⟨4⟩) = some (some (.inside ⟨3⟩)) := by
    decide
  rw [hw] at hchest hbox
  have hcycle : w.Within ⟨3⟩ ⟨3⟩ :=
    .deeper (Option.some.inj hchest) (.direct (Option.some.inj hbox))
  exact ⟨w, hw, isSome_of_locationOf (Option.some.inj hchest), hcycle,
    fun hgrounded => hgrounded.not_within hcycle⟩

end World

end TextWorld

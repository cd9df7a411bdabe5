import TextWorld.Proofs.World.Errands
import TextWorld.Proofs.World.Placement

/-!
Whose things are moved, and where to. A character moves what it has at hand, to where it reaches,
and what others have stays theirs.
-/

namespace TextWorld

namespace World

variable {w v : World} {actor : CharacterId} {id : ItemId} {place target p : ItemLocation}

/-- Places that an item neither leaves nor comes to list what they listed, in the same order. -/
theorem listing_moveItem_of_ne (w : World) (hleft : w.locationOf id ≠ some p) (hp : p ≠ target)
    (hpushed : ∀ owner slot, target = .equipped owner slot → p ≠ .inventory owner) :
    (w.moveItem id target).2.listing p = w.listing p := by
  have hdetach : (w.detach id).listing p = w.listing p := by
    unfold detach
    split
    · rfl
    · rename_i location hlocation
      rw [listing_unlist_of_ne, listing_locate]
      rintro rfl
      exact hleft hlocation
  unfold moveItem
  split
  · rfl
  · split
    · rfl
    · split
      · rfl
      · unfold attach
        split
        · exact hdetach
        · rename_i hu
          dsimp only
          rw [listing_locate, listing_enlist_of_ne hu hp fun _ => hpushed, hdetach]

/-! What characters may do with things. -/

/-- Whether a character can lay its hand on an item: it carries it, or it lies in its room. -/
def AtHand (w : World) (actor : CharacterId) (item : ItemId) : Prop :=
  item ∈ w.listing (.inventory actor) ∨
    ∃ room, w.characterRoom actor = some room ∧ item ∈ w.listing (.room room)

/-- Where a character puts items: on the floor of its room, in the inventory of anybody, and in its
own slots. -/
def WithinReach (w : World) (actor : CharacterId) : ItemLocation → Prop
  | .room room => w.characterRoom actor = some room
  | .inventory _ => True
  | .equipped owner _ => owner = actor
  | .inside _ => False

/-- What a character may do to the world by a line: it walks and handles doors as it may, moves what
is at hand to where it reaches, and rests. -/
def Entitles (w : World) (actor : CharacterId) : Op → Prop
  | .moveItem item target => w.AtHand actor item ∧ w.WithinReach actor target
  | .putOffBalance id _ => id = actor
  | .spawnItem .. => False
  | op => w.Allows actor op

theorem Entitles.allows {op : Op} (h : w.Entitles actor op) : w.Allows actor op := by
  cases op with
  | moveItem item target => trivial
  | putOffBalance id duration => trivial
  | spawnItem place t => exact h.elim
  | _ => exact h

/-- What may become of things when a character acts. -/
structure HandledBy (actor : CharacterId) (w v : World) : Prop where
  /-- Nothing is made, and nothing is lost. -/
  items : ∀ id, (v.item? id).isSome = (w.item? id).isSome
  contents : ∀ parent, v.listing (.inside parent) = w.listing (.inside parent)
  /-- Others may be given something. -/
  inventory : ∀ owner, owner ≠ actor → w.listing (.inventory owner) ⊆ v.listing (.inventory owner)
  equipment : ∀ owner slot, owner ≠ actor →
    v.listing (.equipped owner slot) = w.listing (.equipped owner slot)
  floor : ∀ room, w.characterRoom actor ≠ some room →
    v.listing (.room room) = w.listing (.room room)
  /-- One thing at hand is moved at most, and one pushed out of a slot by it. -/
  moved : ∃ moved displaced : Option ItemId, (∀ id ∈ moved, w.AtHand actor id) ∧
    (∀ id ∈ displaced, (∃ slot, w.locationOf id = some (.equipped actor slot)) ∧
      v.locationOf id = some (.inventory actor)) ∧
    ∀ id, id ∉ moved → id ∉ displaced → v.locationOf id = w.locationOf id

theorem SameItems.refl (w : World) : w.SameItems w := ⟨rfl, fun _ => rfl⟩

theorem SameItems.handledBy (h : w.SameItems v) (actor : CharacterId) : HandledBy actor w v where
  items id := by rw [item?_eq, h.items, item?_eq]
  contents _ := h.listing _
  inventory owner _ := by rw [h.listing]; exact List.Subset.refl _
  equipment _ _ _ := h.listing _
  floor _ _ := h.listing _
  moved := by
    refine ⟨none, none, by simp, by simp, fun id _ _ => ?_⟩
    rw [locationOf, item?_eq, h.items]
    rfl

theorem HandledBy.refl (actor : CharacterId) (w : World) : HandledBy actor w w :=
  (SameItems.refl w).handledBy actor

theorem AtHand.location (hw : w.Consistent) (h : w.AtHand actor id) :
    w.locationOf id = some (.inventory actor) ∨
      ∃ room, w.characterRoom actor = some room ∧ w.locationOf id = some (.room room) := by
  rcases h with hcarried | ⟨room, hroom, hlying⟩
  · exact .inl ((hw id _).1 hcarried)
  · exact .inr ⟨room, hroom, (hw id _).1 hlying⟩

theorem AtHand.location_ne (hw : w.Consistent) (h : w.AtHand actor id)
    (hcarried : p ≠ .inventory actor)
    (hlying : ∀ room, w.characterRoom actor = some room → p ≠ .room room) :
    w.locationOf id ≠ some p := by
  intro hp
  rcases h.location hw with hhere | ⟨room, hroom, hhere⟩
  · rw [hhere] at hp
    exact hcarried (Option.some.inj hp).symm
  · rw [hhere] at hp
    exact hlying room hroom (Option.some.inj hp).symm

/-- Besides the item only one that is pushed out of a slot is somewhere else afterwards. -/
theorem whereAfter_cases (w : World) (id : ItemId) (target : ItemLocation) (x : ItemId) :
    w.whereAfter id target x = w.locationOf x ∨ x = id ∨
      ∃ owner slot, target = .equipped owner slot ∧ w.locationOf x = some target ∧
        w.whereAfter id target x = some (.inventory owner) := by
  unfold whereAfter
  split
  · rename_i hx
    exact .inr (.inl hx.symm)
  · split
    · rename_i owner slot
      split
      · rename_i hworn
        exact .inr (.inr ⟨owner, slot, rfl, hworn, rfl⟩)
      · exact .inl rfl
    · exact .inl rfl

theorem handledBy_moveItem (hw : w.Consistent) (hitem : w.AtHand actor id)
    (hreach : w.WithinReach actor target) : HandledBy actor w (w.moveItem id target).2 := by
  have hr := rearranged_moveItem w id target
  -- Inventories are left out: a container, a slot or a floor gets nothing that is pushed out.
  have hlisting {p : ItemLocation} (hplace : ∀ owner, p ≠ .inventory owner)
      (hlying : ∀ room, w.characterRoom actor = some room → p ≠ .room room) (hp : p ≠ target) :
      (w.moveItem id target).2.listing p = w.listing p :=
    listing_moveItem_of_ne w (hitem.location_ne hw (hplace actor) hlying) hp
      fun owner _ _ => hplace owner
  rcases moveItem_spec hw id target with ⟨e, he⟩ | ⟨v, hv, -, -, -, hcons, hloc⟩
  · rw [he]
    exact .refl actor w
  rw [hv] at hr hlisting ⊢
  constructor
  case items => exact hr.item_isSome
  case contents =>
    intro parent
    refine hlisting (fun _ => nofun) (fun _ _ => nofun) ?_
    rintro rfl
    exact hreach
  case inventory =>
    intro owner howner x hx
    rw [hcons, hloc]
    rw [hw] at hx
    rcases whereAfter_cases w id target x with hsame | rfl | ⟨_, _, rfl, hworn, -⟩
    · exact hsame.trans hx
    · refine absurd hx (hitem.location_ne hw ?_ fun _ _ => nofun)
      rintro ⟨⟩
      exact howner rfl
    · rw [hworn] at hx
      cases hx
  case equipment =>
    intro owner slot howner
    refine hlisting (fun _ => nofun) (fun _ _ => nofun) ?_
    rintro rfl
    exact howner hreach
  case floor =>
    intro room hroom
    refine hlisting (fun _ => nofun) ?_ ?_
    · rintro here hhere ⟨⟩
      exact hroom hhere
    · rintro rfl
      exact hroom hreach
  case moved =>
    -- Whatever else is worn in the slot that the item comes to goes to the inventory.
    by_cases hpushed : ∃ x slot, x ≠ id ∧ target = .equipped actor slot ∧
        w.locationOf x = some target
    · obtain ⟨x, slot, hx, rfl, hworn⟩ := hpushed
      refine ⟨some id, some x, ?_, ?_, ?_⟩
      · rintro _ ⟨⟩
        exact hitem
      · rintro _ ⟨⟩
        refine ⟨⟨slot, hworn⟩, ?_⟩
        rw [hloc, whereAfter, if_neg (Ne.symm hx)]
        simp [hworn]
      · intro y hmoved hdisplaced
        rw [hloc]
        rcases whereAfter_cases w id (.equipped actor slot) y with
          hsame | rfl | ⟨_, _, _, hthere, -⟩
        · exact hsame
        · exact absurd rfl hmoved
        · refine absurd (congrArg some ?_) hdisplaced
          exact eq_of_mem_equipped ((hw x _).2 hworn) ((hw y _).2 hthere)
    · refine ⟨some id, none, ?_, by simp, ?_⟩
      · rintro _ ⟨⟩
        exact hitem
      · intro y hmoved _
        rw [hloc]
        rcases whereAfter_cases w id target y with hsame | rfl | ⟨owner, slot, rfl, hthere, -⟩
        · exact hsame
        · exact absurd rfl hmoved
        · obtain rfl : owner = actor := hreach
          exact absurd ⟨y, slot, fun h => hmoved (h ▸ rfl), rfl, hthere⟩ hpushed

theorem sameItems_moveCharacter (w : World) (id : CharacterId) (there : RoomId) :
    w.SameItems (w.moveCharacter id there).2 := by
  unfold moveCharacter
  split
  · exact .refl w
  · split
    · exact .refl w
    · exact (sameGround_unplace w id).toSameItems.trans (sameGround_place _ id there).toSameItems

theorem sameItems_setDoorClosed (w : World) (room : RoomId) (d : Direction) (closed : Bool) :
    w.SameItems (w.setDoorClosed room d closed).2 := by
  unfold setDoorClosed
  split
  · exact .refl w
  · dsimp only
    have hnear := sameItems_modifyRoom w room
      (f := fun r => { r with exits := r.exits.modify d (Exit.setClosed closed) }) fun _ => rfl
    split
    · exact hnear.trans (sameItems_modifyRoom _ _ fun _ => rfl)
    · exact hnear

/-- What a character is entitled to leaves the things of others alone. -/
theorem Entitles.handledBy {op : Op} {reply : Reply op.Result} (h : w.Entitles actor op)
    (hw : w.Consistent) (hr : w.perform op = some reply) : HandledBy actor w reply.2 := by
  cases op with
  | moveItem item target =>
    cases hr
    exact handledBy_moveItem hw h.1 h.2
  | moveCharacter id there =>
    cases hr
    exact (sameItems_moveCharacter w id there).handledBy actor
  | setDoorClosed room d closed =>
    cases hr
    exact (sameItems_setDoorClosed w room d closed).handledBy actor
  | putOffBalance id duration =>
    obtain ⟨deadline, -, rfl⟩ := Option.map_eq_some_iff.1 hr
    split
    · exact .refl actor w
    · have hbalance := sameItems_modifyCharacter w id
        (f := fun c => { c with balanceUntil := some deadline }) (fun _ => rfl) fun _ => rfl
      exact hbalance.handledBy actor
  | _ => exact absurd h (by rintro ⟨⟩)

end World

end TextWorld

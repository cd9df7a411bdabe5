import TextWorld.Proofs.World.Rearranging

/-!
Places and what they list. An item is written down twice, with the place that holds it and with
itself; a world is consistent when the two agree.
-/

namespace TextWorld

namespace World

/-- The items that a place lists: those of a room, of an inventory, in a slot or in an item. -/
def listing (w : World) : ItemLocation → List ItemId
  | .room room => ((w.room? room).map fun r => r.items.items).getD []
  | .inventory owner => ((w.character? owner).map fun c => c.inventory.items).getD []
  | .equipped owner slot => ((w.character? owner).bind fun c => c.equipment.get? slot).toList
  | .inside parent => ((w.item? parent).map fun p => p.contents.items).getD []

def locationOf (w : World) (id : ItemId) : Option ItemLocation := (w.item? id).bind (·.location)

/-- Whether the room, the character or the item that a location names is there. -/
def HasPlace (w : World) : ItemLocation → Prop
  | .room room => (w.room? room).isSome
  | .inventory owner => (w.character? owner).isSome
  | .equipped owner _ => (w.character? owner).isSome
  | .inside parent => (w.item? parent).isSome

/-- A place lists an item exactly if the item says it is there. -/
def Consistent (w : World) : Prop :=
  ∀ id place, id ∈ w.listing place ↔ w.locationOf id = some place

/-- Whether a location is a slot with something in it. -/
def Taken (w : World) (place : ItemLocation) : Prop :=
  ∃ owner slot, place = .equipped owner slot ∧ w.listing place ≠ []

theorem taken_of_slot {w : World} {owner : CharacterId} {c : Character} {slot : String}
    {id : ItemId} (hc : w.character? owner = some c) (hid : c.equipment.get? slot = some id) :
    w.Taken (.equipped owner slot) := by
  refine ⟨owner, slot, rfl, ?_⟩
  rw [listing, hc, Option.bind_some, hid]
  simp

theorem nodup_listing (w : World) (place : ItemLocation) : (w.listing place).Nodup := by
  cases place with
  | room room =>
    rw [listing]
    cases w.room? room with
    | none => exact .nil
    | some r => exact r.items.nodup
  | inventory owner =>
    rw [listing]
    cases w.character? owner with
    | none => exact .nil
    | some c => exact c.inventory.nodup
  | equipped owner slot =>
    rw [listing]
    cases (w.character? owner).bind fun c => c.equipment.get? slot with
    | none => exact .nil
    | some item => simp
  | inside parent =>
    rw [listing]
    cases w.item? parent with
    | none => exact .nil
    | some p => exact p.contents.nodup

theorem hasPlace_of_mem {w : World} {id : ItemId} {place : ItemLocation}
    (h : id ∈ w.listing place) : w.HasPlace place := by
  cases place with
  | room room =>
    rw [listing] at h
    rw [HasPlace]
    cases hr : w.room? room with
    | none => simp [hr] at h
    | some r => rfl
  | inventory owner =>
    rw [listing] at h
    rw [HasPlace]
    cases hc : w.character? owner with
    | none => simp [hc] at h
    | some c => rfl
  | equipped owner slot =>
    rw [listing] at h
    rw [HasPlace]
    cases hc : w.character? owner with
    | none => simp [hc] at h
    | some c => rfl
  | inside parent =>
    rw [listing] at h
    rw [HasPlace]
    cases hp : w.item? parent with
    | none => simp [hp] at h
    | some p => rfl

theorem Rearranged.hasPlace_iff {w v : World} (h : w.Rearranged v) (place : ItemLocation) :
    v.HasPlace place ↔ w.HasPlace place := by
  cases place with
  | room room => rw [HasPlace, HasPlace, h.room_isSome]
  | inventory owner => rw [HasPlace, HasPlace, h.character_isSome]
  | equipped owner slot => rw [HasPlace, HasPlace, h.character_isSome]
  | inside parent => rw [HasPlace, HasPlace, h.item_isSome]

theorem eq_of_mem_equipped {w : World} {a b : ItemId} {owner : CharacterId} {slot : String}
    (ha : a ∈ w.listing (.equipped owner slot)) (hb : b ∈ w.listing (.equipped owner slot)) :
    a = b := by
  rw [listing, Option.mem_toList] at ha hb
  exact Option.some.inj (ha.symm.trans hb)

theorem isSome_of_locationOf {w : World} {id : ItemId} {place : ItemLocation}
    (h : w.locationOf id = some place) : (w.item? id).isSome := by
  rw [locationOf] at h
  cases hi : w.item? id with
  | none => simp [hi] at h
  | some i => rfl

theorem locationOf_locate (w : World) (id x : ItemId) (location : Option ItemLocation) :
    (w.locate id location).locationOf x =
      if id = x then (w.item? x).bind fun _ => location else w.locationOf x := by
  rw [locationOf, locationOf, locate, item?_eq, item?_eq, Table.getElem?_modify]
  split
  · cases w.items[x]? <;> rfl
  · rfl

theorem listing_locate (w : World) (id : ItemId) (location : Option ItemLocation)
    (place : ItemLocation) : (w.locate id location).listing place = w.listing place := by
  cases place with
  | inside parent =>
    rw [listing, listing, locate, item?_eq, item?_eq, Table.getElem?_modify]
    split
    · cases w.items[parent]? <;> rfl
    · rfl
  | _ => rfl

theorem locationOf_unlist (w : World) (id x : ItemId) (place : ItemLocation) :
    (w.unlist id place).locationOf x = w.locationOf x := by
  cases place with
  | inside parent =>
    rw [locationOf, locationOf, unlist, item?_eq, item?_eq, Table.getElem?_modify]
    split
    · cases w.items[x]? <;> rfl
    · rfl
  | _ => rfl

theorem listing_modifyRoom (w : World) (room : RoomId) (f : Room → Room) (p : ItemLocation) :
    listing { w with rooms := w.rooms.modify room f } p =
      if p = .room room then ((w.room? room).map fun r => (f r).items.items).getD []
      else w.listing p := by
  cases p with
  | room r =>
    rw [listing, listing, room?_eq, room?_eq, room?_eq, Table.getElem?_modify]
    by_cases h : room = r
    · subst h
      simp [Option.map_map, Function.comp_def]
    · rw [if_neg h, if_neg (by simpa using Ne.symm h)]
  | _ => rfl

theorem listing_modifyItem (w : World) (parent : ItemId) (f : Item → Item) (p : ItemLocation) :
    listing { w with items := w.items.modify parent f } p =
      if p = .inside parent then ((w.item? parent).map fun i => (f i).contents.items).getD []
      else w.listing p := by
  cases p with
  | inside q =>
    rw [listing, listing, item?_eq, item?_eq, item?_eq, Table.getElem?_modify]
    by_cases h : parent = q
    · subst h
      simp [Option.map_map, Function.comp_def]
    · rw [if_neg h, if_neg (by simpa using Ne.symm h)]
  | _ => rfl

/-- A change to a character shows in its inventory and in its slots. -/
theorem listing_modifyCharacter (w : World) (owner : CharacterId) (f : Character → Character)
    (p : ItemLocation) :
    listing { w with characters := w.characters.modify owner f } p =
      if p = .inventory owner then ((w.character? owner).map fun c => (f c).inventory.items).getD []
      else match p with
        | .equipped o slot =>
          if o = owner then ((w.character? owner).bind fun c => (f c).equipment.get? slot).toList
          else w.listing p
        | _ => w.listing p := by
  cases p with
  | inventory o =>
    rw [listing, listing, character?_eq, character?_eq, character?_eq, Table.getElem?_modify]
    by_cases h : owner = o
    · subst h
      simp [Option.map_map, Function.comp_def]
    · rw [if_neg h, if_neg (by simpa using Ne.symm h)]
  | equipped o slot =>
    rw [listing, listing, character?_eq, character?_eq, character?_eq, Table.getElem?_modify]
    by_cases h : owner = o
    · subst h
      simp only [reduceIte, reduceCtorEq, Option.bind_map, Function.comp_def]
    · simp [h, Ne.symm h]
  | _ => rfl

/-- A place lists the same if the character shows the same there. -/
theorem listing_modifyCharacter_same (w : World) {owner : CharacterId} {f : Character → Character}
    {p : ItemLocation} (hinventory : p = .inventory owner → ∀ c, (f c).inventory = c.inventory)
    (hslots : ∀ slot, p = .equipped owner slot →
      ∀ c, (f c).equipment.get? slot = c.equipment.get? slot) :
    listing { w with characters := w.characters.modify owner f } p = w.listing p := by
  rw [listing_modifyCharacter]
  split
  · rename_i hp
    simp only [hinventory hp, hp, listing]
  · cases p with
    | equipped o slot =>
      dsimp only
      split
      · rename_i ho
        subst ho
        simp only [hslots slot rfl, listing]
      · rfl
    | _ => rfl

/-- A place that an item does not leave lists what it listed, in the same order. -/
theorem listing_unlist_of_ne (w : World) (id : ItemId) {place p : ItemLocation} (hp : p ≠ place) :
    (w.unlist id place).listing p = w.listing p := by
  cases place with
  | room room => rw [unlist, listing_modifyRoom, if_neg hp]
  | inside parent => rw [unlist, listing_modifyItem, if_neg hp]
  | inventory owner =>
    exact listing_modifyCharacter_same w (fun h => absurd h hp) fun _ _ _ => rfl
  | equipped owner slot =>
    refine listing_modifyCharacter_same w (fun _ _ => rfl) fun s hs c => ?_
    -- It is another slot of the same character.
    have hslot : slot ≠ s := fun h => hp (h ▸ hs)
    simp [Table.getElem?_erase, hslot]

/-- Striking an item off a place takes it from there and from nowhere else. -/
theorem mem_listing_unlist {w : World} {id : ItemId} {place : ItemLocation}
    (hid : id ∈ w.listing place) (x : ItemId) (p : ItemLocation) :
    x ∈ (w.unlist id place).listing p ↔ x ∈ w.listing p ∧ ¬(x = id ∧ p = place) := by
  by_cases hp : p = place
  · subst hp
    cases p with
    | room room =>
      rw [unlist, listing_modifyRoom, if_pos rfl, listing]
      cases w.room? room <;> simp [Container.mem_remove, and_comm]
    | inventory owner =>
      rw [unlist, listing_modifyCharacter, if_pos rfl, listing]
      cases w.character? owner <;> simp [Container.mem_remove, and_comm]
    | equipped owner slot =>
      -- The slot is emptied whatever is in it, so it matters that it holds the item.
      have honly (hx : x ∈ w.listing (.equipped owner slot)) : x = id := eq_of_mem_equipped hx hid
      rw [unlist, listing_modifyCharacter]
      cases hc : w.character? owner with
      | none => simp [listing, hc]
      | some c => simpa [Table.getElem?_erase] using honly
    | inside parent =>
      rw [unlist, listing_modifyItem, if_pos rfl, listing]
      cases w.item? parent <;> simp [Container.mem_remove, and_comm]
  · rw [listing_unlist_of_ne w id hp]
    simp [hp]

theorem locationOf_detach (w : World) (id x : ItemId) :
    (w.detach id).locationOf x = if id = x then none else w.locationOf x := by
  rw [detach]
  split
  · rename_i hnone
    split
    · rename_i h
      rwa [← h, locationOf]
    · rfl
  · rw [locationOf_unlist, locationOf_locate]
    simp

theorem consistent_detach {w : World} (h : w.Consistent) (id : ItemId) :
    (w.detach id).Consistent := by
  intro x p
  rw [locationOf_detach, detach]
  split
  · rename_i hnone
    rw [h x p]
    split
    · rename_i hx
      rw [← hx, locationOf, hnone]
    · rfl
  · rename_i location hloc
    have hid : id ∈ (w.locate id none).listing location := by
      rw [listing_locate]
      exact (h id location).2 hloc
    rw [mem_listing_unlist hid, listing_locate, h x p]
    by_cases hx : id = x
    · subst hx
      rw [locationOf, hloc]
      simp [eq_comm]
    · simp [hx, Ne.symm hx]

theorem exists_enlist {w : World} {place : ItemLocation} (h : w.HasPlace place) (id : ItemId) :
    ∃ v, w.enlist id place = .ok v := by
  cases place with
  | room room =>
    obtain ⟨r, hr⟩ := Option.isSome_iff_exists.1 h
    simp [enlist, hr]
  | inventory owner =>
    obtain ⟨c, hc⟩ := Option.isSome_iff_exists.1 h
    simp [enlist, hc]
  | equipped owner slot =>
    obtain ⟨c, hc⟩ := Option.isSome_iff_exists.1 h
    cases hs : c.equipment[slot]? <;> simp [enlist, hc, hs]
  | inside parent =>
    obtain ⟨p, hp⟩ := Option.isSome_iff_exists.1 h
    simp [enlist, hp]

/-- A place that an item does not come to lists what it listed, in the same order; but what is
pushed out of a slot comes to the inventory of the wearer. -/
theorem listing_enlist_of_ne {w v : World} {id : ItemId} {place p : ItemLocation}
    (h : w.enlist id place = .ok v) (hp : p ≠ place)
    (hpushed : w.Taken place → ∀ owner slot, place = .equipped owner slot → p ≠ .inventory owner) :
    v.listing p = w.listing p := by
  cases place with
  | room room =>
    simp only [enlist] at h
    split at h <;> cases h
    rw [listing_modifyRoom, if_neg hp]
  | inside parent =>
    simp only [enlist] at h
    split at h <;> cases h
    rw [listing_modifyItem, if_neg hp]
  | inventory owner =>
    simp only [enlist] at h
    split at h <;> cases h
    exact listing_modifyCharacter_same w (fun hp' => absurd hp' hp) fun _ _ _ => rfl
  | equipped owner slot =>
    have hworn (s : String) (hs : p = .equipped owner s) (c : Character) :
        (c.equipment.insert slot id).get? s = c.equipment.get? s := by
      have hslot : slot ≠ s := fun h => hp (h ▸ hs)
      simp [Table.getElem?_insert, hslot]
    simp only [enlist] at h
    split at h
    · cases h
    · rename_i c hc
      split at h
      · cases h
        exact listing_modifyCharacter_same w (fun _ _ => rfl) hworn
      · rename_i previous hprevious
        cases h
        have hcarried := hpushed (taken_of_slot hc hprevious) owner slot rfl
        -- What is pushed out changes its own location, which no listing shows.
        exact (listing_locate _ previous _ p).trans
          (listing_modifyCharacter_same w (fun h => absurd h hcarried) hworn)

/-- Listing an item at a place that is not a slot in use adds it there and changes nothing else. -/
theorem mem_listing_enlist {w v : World} {id : ItemId} {place : ItemLocation}
    (hfree : ¬w.Taken place) (h : w.enlist id place = .ok v) (x : ItemId) (p : ItemLocation) :
    x ∈ v.listing p ↔ x ∈ w.listing p ∨ x = id ∧ p = place := by
  by_cases hp : p = place
  · subst hp
    cases p with
    | room room =>
      simp only [enlist] at h
      split at h
      · cases h
      · rename_i r hr
        cases h
        rw [listing_modifyRoom]
        simp [listing, hr, Container.mem_add]
    | inventory owner =>
      simp only [enlist] at h
      split at h
      · cases h
      · rename_i c hc
        cases h
        rw [listing_modifyCharacter]
        simp [listing, hc, Container.mem_add]
    | equipped owner slot =>
      simp only [enlist] at h
      split at h
      · cases h
      · rename_i c hc
        split at h
        · rename_i hempty
          cases h
          rw [listing_modifyCharacter]
          simp only [Std.ExtTreeMap.get?_eq_getElem?] at hempty
          simp [listing, hc, hempty, eq_comm]
        · rename_i previous hprevious
          exact absurd (taken_of_slot hc hprevious) hfree
    | inside parent =>
      simp only [enlist] at h
      split at h
      · cases h
      · rename_i i hi
        cases h
        rw [listing_modifyItem]
        simp [listing, hi, Container.mem_add]
  · rw [listing_enlist_of_ne h hp fun htaken => absurd htaken hfree]
    simp [hp]

theorem locationOf_enlist {w v : World} {id : ItemId} {place : ItemLocation}
    (hfree : ¬w.Taken place) (h : w.enlist id place = .ok v) (x : ItemId) :
    v.locationOf x = w.locationOf x := by
  cases place with
  | room room =>
    simp only [enlist] at h
    split at h <;> cases h
    rfl
  | inventory owner =>
    simp only [enlist] at h
    split at h <;> cases h
    rfl
  | equipped owner slot =>
    simp only [enlist] at h
    split at h
    · cases h
    · rename_i c hc
      split at h
      · cases h
        rfl
      · rename_i previous hprevious
        exact absurd (taken_of_slot hc hprevious) hfree
  | inside parent =>
    simp only [enlist] at h
    split at h
    · cases h
    · cases h
      rw [locationOf, locationOf, item?_eq, item?_eq, Table.getElem?_modify]
      split
      · cases w.items[x]? <;> rfl
      · rfl

end World

end TextWorld

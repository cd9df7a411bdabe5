import TextWorld.Proofs.World.Moving

/-!
The ground that items lie on. Most operations add rooms and characters, or move characters, and
keep every item where it is; what items rely on is that rooms have zones, that characters stand in
rooms, and that the next index names nothing yet.
-/

namespace TextWorld

namespace World

/-- What items can rely on: rooms lie in zones that are there, characters stand in rooms that are
there, and the next index has not been drawn yet. -/
structure Skeleton (w : World) : Prop where
  zone_there : ∀ {id r}, w.room? id = some r → (w.zone? r.zone).isSome
  room_there : ∀ {id c}, w.character? id = some c →
    ∃ room, c.room = some room ∧ (w.room? room).isSome
  room_drawn : ∀ {id}, (w.room? id).isSome → id.index ≤ w.lastIndex
  character_drawn : ∀ {id}, (w.character? id).isSome → id.index ≤ w.lastIndex
  item_drawn : ∀ {id}, (w.item? id).isSome → id.index ≤ w.lastIndex

variable {w v : World}

theorem Skeleton.rearranged (h : w.Skeleton) (hr : w.Rearranged v) : v.Skeleton where
  zone_there {id r} hroom := by
    obtain ⟨r₀, hr₀, hbare⟩ := hr.exists_room hroom
    have hzone : r₀.zone = r.zone := (congrArg Room.zone hbare :)
    rw [zone?_eq, hr.zones, ← hzone]
    exact h.zone_there hr₀
  room_there {id c} hc := by
    obtain ⟨c₀, hc₀, hbare⟩ := hr.exists_character hc
    obtain ⟨room, hroom, hthere⟩ := h.room_there hc₀
    have hsame : c₀.room = c.room := (congrArg Character.room hbare :)
    exact ⟨room, hsame ▸ hroom, by rw [hr.room_isSome]; exact hthere⟩
  room_drawn {id} hroom := by
    rw [hr.room_isSome] at hroom
    rw [hr.lastIndex]
    exact h.room_drawn hroom
  character_drawn {id} hc := by
    rw [hr.character_isSome] at hc
    rw [hr.lastIndex]
    exact h.character_drawn hc
  item_drawn {id} hi := by
    rw [hr.item_isSome] at hi
    rw [hr.lastIndex]
    exact h.item_drawn hi

/-- A room of a sound world has a zone, so things can be dropped in it. -/
theorem Skeleton.roomZoneKey (h : w.Skeleton) {room : RoomId} (hroom : (w.room? room).isSome) :
    ∃ zone, w.roomZoneKey room = .ok zone := by
  obtain ⟨r, hr⟩ := Option.isSome_iff_exists.1 hroom
  obtain ⟨z, hz⟩ := Option.isSome_iff_exists.1 (h.zone_there hr)
  exact ⟨z.key, by rw [World.roomZoneKey, hr]; simp [hz]⟩

/-- The items and what each place lists are the same in both worlds. -/
structure SameItems (w v : World) : Prop where
  items : v.items = w.items
  listing : ∀ place, v.listing place = w.listing place

theorem SameItems.trans {u : World} (h : w.SameItems v) (h' : v.SameItems u) : w.SameItems u :=
  ⟨h'.items.trans h.items, fun place => (h'.listing place).trans (h.listing place)⟩

/-- An index that has not been drawn yet names no room, no character and no item. -/
theorem Skeleton.fresh (h : w.Skeleton) :
    w.room? ⟨w.lastIndex + 1⟩ = none ∧ w.character? ⟨w.lastIndex + 1⟩ = none ∧
      w.item? ⟨w.lastIndex + 1⟩ = none := by
  refine ⟨?_, ?_, ?_⟩
  · cases hroom : w.room? ⟨w.lastIndex + 1⟩ with
    | none => rfl
    | some r => exact absurd (h.room_drawn (Option.isSome_of_eq_some hroom)) (by simp)
  · cases hc : w.character? ⟨w.lastIndex + 1⟩ with
    | none => rfl
    | some c => exact absurd (h.character_drawn (Option.isSome_of_eq_some hc)) (by simp)
  · cases hi : w.item? ⟨w.lastIndex + 1⟩ with
    | none => rfl
    | some i => exact absurd (h.item_drawn (Option.isSome_of_eq_some hi)) (by simp)

theorem sameItems_modifyRoom (w : World) (room : RoomId) {f : Room → Room}
    (hf : ∀ r, (f r).items = r.items) : w.SameItems { w with rooms := w.rooms.modify room f } := by
  refine ⟨rfl, fun place => ?_⟩
  rw [listing_modifyRoom]
  split
  · rename_i hp
    simp [hp, hf, World.listing]
  · rfl

theorem sameItems_modifyCharacter (w : World) (id : CharacterId) {f : Character → Character}
    (hi : ∀ c, (f c).inventory = c.inventory) (he : ∀ c, (f c).equipment = c.equipment) :
    w.SameItems { w with characters := w.characters.modify id f } := by
  refine ⟨rfl, fun place => ?_⟩
  rw [listing_modifyCharacter]
  split
  · rename_i hp
    simp [hp, hi, World.listing]
  · split
    · split
      · rename_i hp
        simp [hp, he, World.listing]
      · rfl
    · rfl

/-- The same rooms in zones that are still there, with the same items; characters may differ. -/
structure SameGround (w v : World) : Prop extends SameItems w v where
  zones : ∀ id, (w.zone? id).isSome → (v.zone? id).isSome
  rooms : ∀ id, (v.room? id).map Room.zone = (w.room? id).map Room.zone
  lastIndex : w.lastIndex ≤ v.lastIndex

namespace SameGround

theorem refl (w : World) : w.SameGround w :=
  ⟨⟨rfl, fun _ => rfl⟩, fun _ h => h, fun _ => rfl, Nat.le_refl _⟩

theorem trans {u : World} (h : w.SameGround v) (h' : v.SameGround u) : w.SameGround u where
  toSameItems := h.toSameItems.trans h'.toSameItems
  zones id hid := h'.zones id (h.zones id hid)
  rooms id := (h'.rooms id).trans (h.rooms id)
  lastIndex := Nat.le_trans h.lastIndex h'.lastIndex

theorem room_isSome (h : w.SameGround v) (id : RoomId) :
    (v.room? id).isSome = (w.room? id).isSome := by
  simpa using congrArg Option.isSome (h.rooms id)

theorem modifyRoom (w : World) (room : RoomId) {f : Room → Room}
    (hi : ∀ r, (f r).items = r.items) (hz : ∀ r, (f r).zone = r.zone) :
    w.SameGround { w with rooms := w.rooms.modify room f } where
  toSameItems := sameItems_modifyRoom w room hi
  zones _ h := h
  rooms id := by
    rw [room?_eq, room?_eq, Table.getElem?_modify]
    split
    · simp [Option.map_map, Function.comp_def, hz]
    · rfl
  lastIndex := Nat.le_refl _

theorem modifyCharacter (w : World) (id : CharacterId) {f : Character → Character}
    (hi : ∀ c, (f c).inventory = c.inventory) (he : ∀ c, (f c).equipment = c.equipment) :
    w.SameGround { w with characters := w.characters.modify id f } :=
  ⟨sameItems_modifyCharacter w id hi he, fun _ h => h, fun _ => rfl, Nat.le_refl _⟩

theorem modifyZone (w : World) (id : ZoneId) (f : Zone → Zone) :
    w.SameGround { w with zones := w.zones.modify id f } := by
  refine ⟨⟨rfl, fun place => by cases place <;> rfl⟩, fun x hx => ?_, fun _ => rfl, Nat.le_refl _⟩
  rw [zone?_eq, Table.getElem?_modify]
  split
  · rwa [Option.isSome_map]
  · exact hx

/-- A character that comes without belongings brings no items. -/
theorem insertCharacter {id : CharacterId} {c : Character} (hnew : w.character? id = none)
    (hi : c.inventory = .empty) (he : c.equipment = .empty) :
    w.SameGround { w with characters := w.characters.insert id c } := by
  refine ⟨⟨rfl, fun place => ?_⟩, fun _ h => h, fun _ => rfl, Nat.le_refl _⟩
  cases place with
  | inventory owner =>
    rw [World.listing, World.listing, character?_eq, Table.getElem?_insert]
    split
    · rename_i howner
      subst howner
      rw [hnew, Option.map_some, hi]
      rfl
    · rfl
  | equipped owner slot =>
    rw [World.listing, World.listing, character?_eq, Table.getElem?_insert]
    split
    · rename_i howner
      subst howner
      rw [hnew, Option.bind_some, he]
      simp
    · rfl
  | _ => rfl

/-- A character that has nothing leaves no items behind. -/
theorem eraseCharacter {id : CharacterId} (hi : w.listing (.inventory id) = [])
    (he : ∀ slot, w.listing (.equipped id slot) = []) :
    w.SameGround { w with characters := w.characters.erase id } := by
  refine ⟨⟨rfl, fun place => ?_⟩, fun _ h => h, fun _ => rfl, Nat.le_refl _⟩
  cases place with
  | inventory owner =>
    by_cases howner : id = owner
    · subst howner
      rw [hi, World.listing, character?_eq, Table.getElem?_erase, if_pos rfl]
      rfl
    · rw [World.listing, World.listing, character?_eq, Table.getElem?_erase, if_neg howner]
      rfl
  | equipped owner slot =>
    by_cases howner : id = owner
    · subst howner
      rw [he, World.listing, character?_eq, Table.getElem?_erase, if_pos rfl]
      rfl
    · rw [World.listing, World.listing, character?_eq, Table.getElem?_erase, if_neg howner]
      rfl
  | _ => rfl

theorem allocate (w : World) : w.SameGround w.allocate.2 :=
  ⟨⟨rfl, fun place => by cases place <;> rfl⟩, fun _ h => h, fun _ => rfl, Nat.le_succ _⟩

end SameGround

theorem room_isSome_of_roomZoneKey {room : RoomId} {zone : String}
    (h : w.roomZoneKey room = .ok zone) : (w.room? room).isSome := by
  have hplace : w.locationZoneKey (.room room) = .ok zone := h
  exact hasPlace_of_locationZoneKey hplace

theorem sameGround_place (w : World) (id : CharacterId) (room : RoomId) :
    w.SameGround (w.place id room) := by
  unfold place
  split
  · exact .refl w
  · rename_i r hr
    have hroom := SameGround.modifyRoom w room
      (f := fun r => { r with occupants := r.occupants.push id }) (fun _ => rfl) fun _ => rfl
    have hzone := hroom.trans (.modifyZone _ r.zone fun z =>
      { z with population := z.population.push id })
    exact hzone.trans (.modifyCharacter _ id (fun _ => rfl) fun _ => rfl)

theorem sameGround_unplace (w : World) (id : CharacterId) : w.SameGround (w.unplace id) := by
  unfold unplace
  split
  · exact .refl w
  · rename_i room hroom
    have hcharacter := SameGround.modifyCharacter w id
      (f := fun c => { c with room := none }) (fun _ => rfl) fun _ => rfl
    dsimp only
    split
    · exact hcharacter
    · rename_i r hr
      have hroom := hcharacter.trans (.modifyRoom _ room
        (f := fun r => { r with occupants := r.occupants.filter (· ≠ id) }) (fun _ => rfl)
        fun _ => rfl)
      exact hroom.trans (.modifyZone _ r.zone fun z =>
        { z with population := z.population.filter (· ≠ id) })

theorem character?_place {room : RoomId} (hroom : (w.room? room).isSome) (id x : CharacterId) :
    (w.place id room).character? x =
      if id = x then (w.character? x).map fun c => { c with room := some room }
      else w.character? x := by
  obtain ⟨r, hr⟩ := Option.isSome_iff_exists.1 hroom
  rw [place, hr, character?_eq, Table.getElem?_modify]
  rfl

theorem character?_unplace (w : World) (id x : CharacterId) :
    (w.unplace id).character? x =
      if id = x then (w.character? x).map fun c => { c with room := none }
      else w.character? x := by
  unfold unplace
  split
  · rename_i hnone
    split
    · rename_i hx
      subst hx
      rw [characterRoom] at hnone
      cases hc : w.character? id with
      | none => rfl
      | some c =>
        have hroom : c.room = none := by simpa [hc] using hnone
        rw [Option.map_some, ← hroom]
    · rfl
  · dsimp only
    split
    · rw [character?_eq, Table.getElem?_modify]
      rfl
    · rw [character?_eq, Table.getElem?_modify]
      rfl

end World

end TextWorld

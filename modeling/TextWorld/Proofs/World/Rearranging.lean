import TextWorld.World.Operation

/-!
What the moving of items leaves alone. All that changes is what rooms, characters and items hold,
and where items say they are.
-/

namespace TextWorld

def Room.bare (r : Room) : Room := { r with items := .empty }

def Character.bare (c : Character) : Character :=
  { c with inventory := .empty, equipment := .empty }

def Item.bare (i : Item) : Item := { i with location := none, contents := .empty }

namespace World

theorem room?_eq (w : World) (id : RoomId) : w.room? id = w.rooms[id]? := rfl

theorem character?_eq (w : World) (id : CharacterId) : w.character? id = w.characters[id]? := rfl

theorem item?_eq (w : World) (id : ItemId) : w.item? id = w.items[id]? := rfl

theorem zone?_eq (w : World) (id : ZoneId) : w.zone? id = w.zones[id]? := rfl

/-- The second world is the first with its items moved around. -/
structure Rearranged (w v : World) : Prop where
  zones : v.zones = w.zones
  zoneIndex : v.zoneIndex = w.zoneIndex
  roomIndex : v.roomIndex = w.roomIndex
  lastIndex : v.lastIndex = w.lastIndex
  now : v.now = w.now
  rooms : ∀ id, (v.room? id).map Room.bare = (w.room? id).map Room.bare
  characters : ∀ id, (v.character? id).map Character.bare = (w.character? id).map Character.bare
  items : ∀ id, (v.item? id).map Item.bare = (w.item? id).map Item.bare

namespace Rearranged

variable {w v u : World}

theorem refl (w : World) : w.Rearranged w :=
  ⟨rfl, rfl, rfl, rfl, rfl, fun _ => rfl, fun _ => rfl, fun _ => rfl⟩

theorem trans (h : w.Rearranged v) (h' : v.Rearranged u) : w.Rearranged u where
  zones := h'.zones.trans h.zones
  zoneIndex := h'.zoneIndex.trans h.zoneIndex
  roomIndex := h'.roomIndex.trans h.roomIndex
  lastIndex := h'.lastIndex.trans h.lastIndex
  now := h'.now.trans h.now
  rooms id := (h'.rooms id).trans (h.rooms id)
  characters id := (h'.characters id).trans (h.characters id)
  items id := (h'.items id).trans (h.items id)

theorem modifyRoom (w : World) (id : RoomId) {f : Room → Room} (hf : ∀ r, (f r).bare = r.bare) :
    w.Rearranged { w with rooms := w.rooms.modify id f } := by
  refine ⟨rfl, rfl, rfl, rfl, rfl, fun x => ?_, fun _ => rfl, fun _ => rfl⟩
  rw [room?_eq, room?_eq, Table.getElem?_modify]
  split
  · simp [Option.map_map, Function.comp_def, hf]
  · rfl

theorem modifyCharacter (w : World) (id : CharacterId) {f : Character → Character}
    (hf : ∀ c, (f c).bare = c.bare) :
    w.Rearranged { w with characters := w.characters.modify id f } := by
  refine ⟨rfl, rfl, rfl, rfl, rfl, fun _ => rfl, fun x => ?_, fun _ => rfl⟩
  rw [character?_eq, character?_eq, Table.getElem?_modify]
  split
  · simp [Option.map_map, Function.comp_def, hf]
  · rfl

theorem modifyItem (w : World) (id : ItemId) {f : Item → Item} (hf : ∀ i, (f i).bare = i.bare) :
    w.Rearranged { w with items := w.items.modify id f } := by
  refine ⟨rfl, rfl, rfl, rfl, rfl, fun _ => rfl, fun _ => rfl, fun x => ?_⟩
  rw [item?_eq, item?_eq, Table.getElem?_modify]
  split
  · simp [Option.map_map, Function.comp_def, hf]
  · rfl

theorem room_isSome (h : w.Rearranged v) (id : RoomId) :
    (v.room? id).isSome = (w.room? id).isSome := by
  simpa using congrArg Option.isSome (h.rooms id)

theorem character_isSome (h : w.Rearranged v) (id : CharacterId) :
    (v.character? id).isSome = (w.character? id).isSome := by
  simpa using congrArg Option.isSome (h.characters id)

theorem item_isSome (h : w.Rearranged v) (id : ItemId) :
    (v.item? id).isSome = (w.item? id).isSome := by
  simpa using congrArg Option.isSome (h.items id)

theorem exists_room (h : w.Rearranged v) {id : RoomId} {r : Room} (hr : v.room? id = some r) :
    ∃ r₀, w.room? id = some r₀ ∧ r₀.bare = r.bare := by
  have hmap := h.rooms id
  rw [hr, Option.map_some, eq_comm] at hmap
  exact Option.map_eq_some_iff.1 hmap

theorem exists_character (h : w.Rearranged v) {id : CharacterId} {c : Character}
    (hc : v.character? id = some c) : ∃ c₀, w.character? id = some c₀ ∧ c₀.bare = c.bare := by
  have hmap := h.characters id
  rw [hc, Option.map_some, eq_comm] at hmap
  exact Option.map_eq_some_iff.1 hmap

end Rearranged

theorem rearranged_locate (w : World) (id : ItemId) (location : Option ItemLocation) :
    w.Rearranged (w.locate id location) :=
  .modifyItem w id fun _ => rfl

theorem rearranged_unlist (w : World) (id : ItemId) (place : ItemLocation) :
    w.Rearranged (w.unlist id place) := by
  cases place with
  | room room => exact .modifyRoom w room fun _ => rfl
  | inventory owner => exact .modifyCharacter w owner fun _ => rfl
  | equipped owner slot => exact .modifyCharacter w owner fun _ => rfl
  | inside parent => exact .modifyItem w parent fun _ => rfl

theorem rearranged_detach (w : World) (id : ItemId) : w.Rearranged (w.detach id) := by
  unfold detach
  split
  · exact .refl w
  · exact (rearranged_locate w id none).trans (rearranged_unlist _ _ _)

theorem rearranged_enlist {w v : World} {id : ItemId} {place : ItemLocation}
    (h : w.enlist id place = .ok v) : w.Rearranged v := by
  cases place with
  | room room =>
    simp only [enlist] at h
    split at h
    · cases h
    · cases h
      exact .modifyRoom w room fun _ => rfl
  | inventory owner =>
    simp only [enlist] at h
    split at h
    · cases h
    · cases h
      exact .modifyCharacter w owner fun _ => rfl
  | equipped owner slot =>
    simp only [enlist] at h
    split at h
    · cases h
    · split at h
      · cases h
        exact .modifyCharacter w owner fun _ => rfl
      · rename_i previous _
        cases h
        have hworn := Rearranged.modifyCharacter w owner
          (f := fun c =>
            { c with
              equipment := c.equipment.insert slot id
              inventory := c.inventory.add previous }) fun _ => rfl
        exact hworn.trans (.modifyItem _ _ fun _ => rfl)
  | inside parent =>
    simp only [enlist] at h
    split at h
    · cases h
    · cases h
      exact .modifyItem w parent fun _ => rfl

theorem rearranged_attach (w : World) (id : ItemId) (place : ItemLocation) :
    w.Rearranged (w.attach id place).2 := by
  unfold attach
  split
  · exact .refl w
  · rename_i h
    exact (rearranged_enlist h).trans (rearranged_locate _ _ _)

theorem rearranged_moveItem (w : World) (id : ItemId) (target : ItemLocation) :
    w.Rearranged (w.moveItem id target).2 := by
  unfold moveItem
  split
  · exact .refl w
  · split
    · exact .refl w
    · split
      · exact .refl w
      · exact (rearranged_detach w id).trans (rearranged_attach _ _ _)

theorem rearranged_dropAll (w : World) (room : RoomId) (items : List ItemId) :
    w.Rearranged (w.dropAll room items).2 := by
  induction items generalizing w with
  | nil => exact .refl w
  | cons item items ih =>
    have hmove := rearranged_moveItem w item (.room room)
    unfold dropAll
    split
    · rename_i h
      rwa [h] at hmove
    · rename_i v h
      rw [h] at hmove
      exact hmove.trans (ih v)

/-- Whoever is to leave the world drops everything first, and stays if that fails. -/
theorem despawnCharacter_cases (w : World) (id : CharacterId) :
    ∃ v, w.Rearranged v ∧ ((∃ e, w.despawnCharacter id = (.error e, v)) ∨
      w.despawnCharacter id =
        (.ok (), { v.unplace id with characters := (v.unplace id).characters.erase id })) := by
  unfold despawnCharacter
  split
  · exact ⟨w, .refl w, .inl ⟨_, rfl⟩⟩
  · rename_i c _
    cases c.room with
    | none => exact ⟨w, .refl w, .inr rfl⟩
    | some room =>
      have hdrop := rearranged_dropAll w room c.belongings
      dsimp only
      rcases hreply : w.dropAll room c.belongings with ⟨e | _, v⟩ <;> rw [hreply] at hdrop
      · exact ⟨v, hdrop, .inl ⟨e, rfl⟩⟩
      · exact ⟨v, hdrop, .inr rfl⟩

end World

end TextWorld

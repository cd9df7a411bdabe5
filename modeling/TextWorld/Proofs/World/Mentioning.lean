import TextWorld.Proofs.World.Charting

/-!
Where ids are written down. Zones, rooms, characters and items hold the ids of one another, in
lists and in single fields. What an operation writes down is what it makes, and what the world held
before.
-/

namespace TextWorld

/-- The id of a zone, a room, a character or an item. -/
inductive ThingId where
  | zone (id : ZoneId)
  | room (id : RoomId)
  | character (id : CharacterId)
  | item (id : ItemId)
  deriving DecidableEq, Repr

def ThingId.index : ThingId → Nat
  | .zone id => id.index
  | .room id => id.index
  | .character id => id.index
  | .item id => id.index

def ItemLocation.holder : ItemLocation → ThingId
  | .room id => .room id
  | .inventory owner | .equipped owner _ => .character owner
  | .inside parent => .item parent

/-- All ids that are written down in a zone. -/
def Zone.mentions (z : Zone) : List ThingId :=
  .zone z.id :: (z.rooms.map .room ++ z.characters.map .character)

/-- All ids that are written down in a room. -/
def Room.mentions (r : Room) : List ThingId :=
  .room r.id :: .zone r.zone :: (r.characters.map .character ++ r.items.items.map .item)

/-- All ids of things that are written down with a character. -/
def Character.mentions (c : Character) : List ThingId :=
  .character c.id :: (c.room.toList.map .room ++ c.belongings.map .item)

/-- All ids that are written down with an item. -/
def Item.mentions (i : Item) : List ThingId :=
  .item i.id :: (i.location.toList.map ItemLocation.holder ++ i.contents.items.map .item)

section

variable {P : ThingId → Prop}

theorem Zone.forall_mentions {z : Zone} : (∀ x ∈ z.mentions, P x) ↔
    P (.zone z.id) ∧ (∀ r ∈ z.rooms, P (.room r)) ∧ ∀ c ∈ z.characters, P (.character c) := by
  simp [mentions, or_imp, forall_and]

theorem Room.forall_mentions {r : Room} : (∀ x ∈ r.mentions, P x) ↔
    P (.room r.id) ∧ P (.zone r.zone) ∧ (∀ c ∈ r.characters, P (.character c)) ∧
      ∀ i ∈ r.items.items, P (.item i) := by
  simp [mentions, or_imp, forall_and]

theorem Character.forall_mentions {c : Character} : (∀ x ∈ c.mentions, P x) ↔
    P (.character c.id) ∧ (∀ r, c.room = some r → P (.room r)) ∧
      (∀ i ∈ c.inventory.items, P (.item i)) ∧ ∀ i ∈ c.equipment.values, P (.item i) := by
  simp [mentions, belongings, or_imp, forall_and]

theorem Item.forall_mentions {i : Item} : (∀ x ∈ i.mentions, P x) ↔
    P (.item i.id) ∧ (∀ place, i.location = some place → P place.holder) ∧
      ∀ j ∈ i.contents.items, P (.item j) := by
  simp [mentions, or_imp, forall_and]

end

theorem Container.forall_mem_remove {p : ItemId → Prop} {c : Container} {item : ItemId}
    (h : ∀ i ∈ c.items, p i) : ∀ i ∈ (c.remove item).items, p i :=
  fun i hi => h i (mem_remove.1 hi).2

theorem Container.forall_mem_add {p : ItemId → Prop} {c : Container} {item : ItemId}
    (hitem : p item) (h : ∀ i ∈ c.items, p i) : ∀ i ∈ (c.add item).items, p i := by
  intro i hi
  obtain hold | rfl := mem_add.1 hi
  · exact h i hold
  · exact hitem

namespace World

/-- The id is written down somewhere in the world. -/
inductive Mentions (w : World) (x : ThingId) : Prop
  | zone {id : ZoneId} {z : Zone} (h : w.zone? id = some z) (hx : x = .zone id ∨ x ∈ z.mentions)
  | room {id : RoomId} {r : Room} (h : w.room? id = some r) (hx : x = .room id ∨ x ∈ r.mentions)
  | character {id : CharacterId} {c : Character} (h : w.character? id = some c)
      (hx : x = .character id ∨ x ∈ c.mentions)
  | item {id : ItemId} {i : Item} (h : w.item? id = some i) (hx : x = .item id ∨ x ∈ i.mentions)
  | zoneIndex {key : String} {id : ZoneId} (h : w.zoneIndex[key]? = some id) (hx : x = .zone id)
  | roomIndex {key : ZonedKey} {id : RoomId} (h : w.roomIndex[key]? = some id) (hx : x = .room id)

/-- All ids in the world have a property. -/
structure Confined (P : ThingId → Prop) (w : World) : Prop where
  zone : ∀ {id : ZoneId} {z : Zone}, w.zones[id]? = some z →
    P (.zone id) ∧ ∀ x ∈ z.mentions, P x
  room : ∀ {id : RoomId} {r : Room}, w.rooms[id]? = some r →
    P (.room id) ∧ ∀ x ∈ r.mentions, P x
  character : ∀ {id : CharacterId} {c : Character}, w.characters[id]? = some c →
    P (.character id) ∧ ∀ x ∈ c.mentions, P x
  item : ∀ {id : ItemId} {i : Item}, w.items[id]? = some i →
    P (.item id) ∧ ∀ x ∈ i.mentions, P x
  zoneIndex : ∀ {key : String} {id : ZoneId}, w.zoneIndex[key]? = some id → P (.zone id)
  roomIndex : ∀ {key : ZonedKey} {id : RoomId}, w.roomIndex[key]? = some id → P (.room id)

variable {P : ThingId → Prop} {w v : World}

theorem confined_iff : Confined P w ↔ ∀ x, w.Mentions x → P x := by
  constructor
  · rintro h x (⟨hz, rfl | hx⟩ | ⟨hr, rfl | hx⟩ | ⟨hc, rfl | hx⟩ | ⟨hi, rfl | hx⟩ | ⟨hk, rfl⟩ |
      ⟨hk, rfl⟩)
    · exact (h.zone hz).1
    · exact (h.zone hz).2 x hx
    · exact (h.room hr).1
    · exact (h.room hr).2 x hx
    · exact (h.character hc).1
    · exact (h.character hc).2 x hx
    · exact (h.item hi).1
    · exact (h.item hi).2 x hx
    · exact h.zoneIndex hk
    · exact h.roomIndex hk
  · intro h
    exact {
      zone := fun hz => ⟨h _ (.zone hz (.inl rfl)), fun x hx => h x (.zone hz (.inr hx))⟩
      room := fun hr => ⟨h _ (.room hr (.inl rfl)), fun x hx => h x (.room hr (.inr hx))⟩
      character := fun hc =>
        ⟨h _ (.character hc (.inl rfl)), fun x hx => h x (.character hc (.inr hx))⟩
      item := fun hi => ⟨h _ (.item hi (.inl rfl)), fun x hx => h x (.item hi (.inr hx))⟩
      zoneIndex := fun hk => h _ (.zoneIndex hk rfl)
      roomIndex := fun hk => h _ (.roomIndex hk rfl) }

namespace Confined

variable {id : CharacterId} {room : RoomId} {item : ItemId}

theorem modifyZone (h : Confined P w) (zone : ZoneId) {f : Zone → Zone}
    (hf : ∀ z, (∀ x ∈ z.mentions, P x) → ∀ x ∈ (f z).mentions, P x) :
    Confined P { w with zones := w.zones.modify zone f } :=
  { h with zone := Table.forall_modify h.zone fun _ hz => ⟨hz.1, hf _ hz.2⟩ }

theorem modifyRoom (h : Confined P w) (room : RoomId) {f : Room → Room}
    (hf : ∀ r, (∀ x ∈ r.mentions, P x) → ∀ x ∈ (f r).mentions, P x) :
    Confined P { w with rooms := w.rooms.modify room f } :=
  { h with room := Table.forall_modify h.room fun _ hr => ⟨hr.1, hf _ hr.2⟩ }

theorem modifyCharacter (h : Confined P w) (id : CharacterId) {f : Character → Character}
    (hf : ∀ c, (∀ x ∈ c.mentions, P x) → ∀ x ∈ (f c).mentions, P x) :
    Confined P { w with characters := w.characters.modify id f } :=
  { h with character := Table.forall_modify h.character fun _ hc => ⟨hc.1, hf _ hc.2⟩ }

theorem modifyItem (h : Confined P w) (item : ItemId) {f : Item → Item}
    (hf : ∀ i, (∀ x ∈ i.mentions, P x) → ∀ x ∈ (f i).mentions, P x) :
    Confined P { w with items := w.items.modify item f } :=
  { h with item := Table.forall_modify h.item fun _ hi => ⟨hi.1, hf _ hi.2⟩ }

/-- What a room holds may change to what else may be written down. -/
theorem modifyRoomItems (h : Confined P w) (room : RoomId) {f : Container → Container}
    (hf : ∀ c, (∀ i ∈ c.items, P (.item i)) → ∀ i ∈ (f c).items, P (.item i)) :
    Confined P { w with rooms := w.rooms.modify room fun r => { r with items := f r.items } } := by
  refine h.modifyRoom room fun r hr => ?_
  rw [Room.forall_mentions] at hr ⊢
  obtain ⟨hself, hzone, hoccupants, hitems⟩ := hr
  exact ⟨hself, hzone, hoccupants, hf _ hitems⟩

@[inherit_doc modifyRoomItems]
theorem modifyInventory (h : Confined P w) (owner : CharacterId) {f : Container → Container}
    (hf : ∀ c, (∀ i ∈ c.items, P (.item i)) → ∀ i ∈ (f c).items, P (.item i)) :
    Confined P { w with
      characters := w.characters.modify owner fun c => { c with inventory := f c.inventory } } := by
  refine h.modifyCharacter owner fun c hc => ?_
  rw [Character.forall_mentions] at hc ⊢
  obtain ⟨hself, hroom, hinventory, hworn⟩ := hc
  exact ⟨hself, hroom, hf _ hinventory, hworn⟩

@[inherit_doc modifyRoomItems]
theorem modifyContents (h : Confined P w) (parent : ItemId) {f : Container → Container}
    (hf : ∀ c, (∀ i ∈ c.items, P (.item i)) → ∀ i ∈ (f c).items, P (.item i)) :
    Confined P { w with
      items := w.items.modify parent fun i => { i with contents := f i.contents } } := by
  refine h.modifyItem parent fun i hi => ?_
  rw [Item.forall_mentions] at hi ⊢
  obtain ⟨hself, hlocation, hcontents⟩ := hi
  exact ⟨hself, hlocation, hf _ hcontents⟩

theorem hasPlace (h : Confined P w) {place : ItemLocation} (hplace : w.HasPlace place) :
    P place.holder := by
  cases place with
  | room room =>
    obtain ⟨r, hr⟩ := Option.isSome_iff_exists.1 hplace
    exact (h.room hr).1
  | inventory owner | equipped owner slot =>
    obtain ⟨c, hc⟩ := Option.isSome_iff_exists.1 hplace
    exact (h.character hc).1
  | inside parent =>
    obtain ⟨i, hi⟩ := Option.isSome_iff_exists.1 hplace
    exact (h.item hi).1

/-- Putting a character in a room writes down its id and that of the room. -/
theorem place (h : Confined P w) (hid : P (.character id)) (room : RoomId) :
    Confined P (w.place id room) := by
  unfold World.place
  split
  · exact h
  · rename_i r hr
    have hroom := h.modifyRoom room (f := fun r => { r with occupants := r.occupants.push id })
      fun r hr => by
        rw [Room.forall_mentions] at hr ⊢
        obtain ⟨hself, hzone, hoccupants, hitems⟩ := hr
        refine ⟨hself, hzone, ?_, hitems⟩
        simpa [Room.characters, or_imp, forall_and] using ⟨hoccupants, hid⟩
    have hzone := hroom.modifyZone r.zone
      (f := fun z => { z with population := z.population.push id }) fun z hz => by
        rw [Zone.forall_mentions] at hz ⊢
        obtain ⟨hself, hrooms, hpopulation⟩ := hz
        refine ⟨hself, hrooms, ?_⟩
        simpa [Zone.characters, or_imp, forall_and] using ⟨hpopulation, hid⟩
    refine hzone.modifyCharacter id fun c hc => ?_
    rw [Character.forall_mentions] at hc ⊢
    obtain ⟨hself, -, hbelongings⟩ := hc
    refine ⟨hself, ?_, hbelongings⟩
    rintro _ ⟨⟩
    exact (h.room hr).1

theorem unplace (h : Confined P w) (id : CharacterId) : Confined P (w.unplace id) := by
  unfold World.unplace
  split
  · exact h
  · rename_i room _
    have hcharacter := h.modifyCharacter id (f := fun c => { c with room := none }) fun c hc => by
      rw [Character.forall_mentions] at hc ⊢
      exact ⟨hc.1, nofun, hc.2.2⟩
    dsimp only
    split
    · exact hcharacter
    · rename_i r _
      have hroom := hcharacter.modifyRoom room
        (f := fun r => { r with occupants := r.occupants.filter (· ≠ id) }) fun r hr => by
          rw [Room.forall_mentions] at hr ⊢
          obtain ⟨hself, hzone, hoccupants, hitems⟩ := hr
          refine ⟨hself, hzone, fun c hc => hoccupants c ?_, hitems⟩
          rw [Room.characters, Queue.toList_filter] at hc
          exact (List.mem_filter.1 hc).1
      refine hroom.modifyZone r.zone fun z hz => ?_
      rw [Zone.forall_mentions] at hz ⊢
      obtain ⟨hself, hrooms, hpopulation⟩ := hz
      refine ⟨hself, hrooms, fun c hc => hpopulation c ?_⟩
      rw [Zone.characters, Queue.toList_filter] at hc
      exact (List.mem_filter.1 hc).1

theorem locate (h : Confined P w) (item : ItemId) {location : Option ItemLocation}
    (hlocation : ∀ place, location = some place → P place.holder) :
    Confined P (w.locate item location) := by
  refine h.modifyItem item fun i hi => ?_
  rw [Item.forall_mentions] at hi ⊢
  exact ⟨hi.1, hlocation, hi.2.2⟩

theorem unlist (h : Confined P w) (item : ItemId) (place : ItemLocation) :
    Confined P (w.unlist item place) := by
  cases place with
  | room room =>
    exact h.modifyRoomItems room (f := (·.remove item)) fun _ hc => Container.forall_mem_remove hc
  | inventory owner =>
    exact h.modifyInventory owner (f := (·.remove item)) fun _ hc => Container.forall_mem_remove hc
  | equipped owner slot =>
    refine h.modifyCharacter owner fun c hc => ?_
    rw [Character.forall_mentions] at hc ⊢
    obtain ⟨hself, hroom, hinventory, hworn⟩ := hc
    exact ⟨hself, hroom, hinventory, Table.forall_mem_values_erase hworn⟩
  | inside parent =>
    exact h.modifyContents parent (f := (·.remove item)) fun _ hc =>
      Container.forall_mem_remove hc

theorem detach (h : Confined P w) (item : ItemId) : Confined P (w.detach item) := by
  unfold World.detach
  split
  · exact h
  · have hnowhere : Confined P (w.locate item none) := h.locate item nofun
    exact hnowhere.unlist item _

theorem enlist (h : Confined P w) (hitem : P (.item item)) {place : ItemLocation}
    (hv : w.enlist item place = .ok v) : Confined P v := by
  cases place with
  | room room =>
    simp only [World.enlist] at hv
    split at hv
    · cases hv
    · cases hv
      exact h.modifyRoomItems room (f := (·.add item)) fun _ hc => Container.forall_mem_add hitem hc
  | inventory owner =>
    simp only [World.enlist] at hv
    split at hv
    · cases hv
    · cases hv
      exact h.modifyInventory owner (f := (·.add item))
        fun _ hc => Container.forall_mem_add hitem hc
  | equipped owner slot =>
    simp only [World.enlist] at hv
    split at hv
    · cases hv
    · rename_i c hc
      obtain ⟨howner, hmentions⟩ := h.character hc
      split at hv
      · cases hv
        refine h.modifyCharacter owner fun c hc => ?_
        rw [Character.forall_mentions] at hc ⊢
        obtain ⟨hself, hroom, hinventory, hworn⟩ := hc
        exact ⟨hself, hroom, hinventory, Table.forall_mem_values_insert hitem hworn⟩
      · rename_i previous hprevious
        cases hv
        -- What was worn before is still with its wearer.
        have hbefore : P (.item previous) := by
          obtain ⟨-, -, -, hworn⟩ := Character.forall_mentions.1 hmentions
          exact hworn previous (Table.mem_values.2 ⟨slot, hprevious⟩)
        have hworn := h.modifyCharacter owner
          (f := fun c =>
            { c with
              equipment := c.equipment.insert slot item
              inventory := c.inventory.add previous }) fun c hc => by
            rw [Character.forall_mentions] at hc ⊢
            obtain ⟨hself, hroom, hinventory, hworn⟩ := hc
            exact ⟨hself, hroom, Container.forall_mem_add hbefore hinventory,
              Table.forall_mem_values_insert hitem hworn⟩
        refine hworn.modifyItem previous fun i hi => ?_
        rw [Item.forall_mentions] at hi ⊢
        obtain ⟨hself, -, hcontents⟩ := hi
        refine ⟨hself, ?_, hcontents⟩
        rintro _ ⟨⟩
        exact howner
  | inside parent =>
    simp only [World.enlist] at hv
    split at hv
    · cases hv
    · cases hv
      exact h.modifyContents parent (f := (·.add item)) fun _ hc =>
        Container.forall_mem_add hitem hc

theorem attach (h : Confined P w) (hitem : P (.item item)) {place : ItemLocation}
    (hplace : P place.holder) : Confined P (w.attach item place).2 := by
  unfold World.attach
  split
  · exact h
  · rename_i hv
    refine (h.enlist hitem hv).locate item ?_
    rintro _ ⟨⟩
    exact hplace

theorem moveItem (h : Confined P w) (item : ItemId) (target : ItemLocation) :
    Confined P (w.moveItem item target).2 := by
  unfold World.moveItem
  split
  · exact h
  · rename_i hthere
    have hitem : P (.item item) := by
      have hsome : (w.items[item]?).isSome := by simpa using hthere
      obtain ⟨i, hi⟩ := Option.isSome_iff_exists.1 hsome
      exact (h.item hi).1
    split
    · exact h
    · split
      · exact h
      · rename_i hzone
        have hplace := h.hasPlace (hasPlace_of_locationZoneKey hzone)
        exact (h.detach item).attach hitem hplace

theorem dropAll (h : Confined P w) (room : RoomId) (items : List ItemId) :
    Confined P (w.dropAll room items).2 := by
  induction items generalizing w with
  | nil => exact h
  | cons item items ih =>
    have hmove := h.moveItem item (.room room)
    unfold World.dropAll
    split
    · rename_i heq
      rwa [heq] at hmove
    · rename_i v heq
      rw [heq] at hmove
      exact ih hmove

theorem despawnCharacter (h : Confined P w) (id : CharacterId) :
    Confined P (w.despawnCharacter id).2 := by
  have hleave {u : World} (hu : Confined P u) : Confined P
      { u.unplace id with characters := (u.unplace id).characters.erase id } := by
    have hout := hu.unplace id
    exact { hout with character := Table.forall_erase hout.character }
  unfold World.despawnCharacter
  split
  · exact h
  · rename_i c _
    cases c.room with
    | none => exact hleave h
    | some room =>
      have hdrop := h.dropAll room c.belongings
      dsimp only
      split
      all_goals
        rename_i u heq
        rw [heq] at hdrop
      · exact hdrop
      · exact hleave hdrop

theorem moveCharacter (h : Confined P w) (id : CharacterId) (room : RoomId) :
    Confined P (w.moveCharacter id room).2 := by
  unfold World.moveCharacter
  split
  · exact h
  · split
    · exact h
    · rename_i hthere
      have hsome : (w.characters[id]?).isSome := by simpa using hthere
      obtain ⟨c, hc⟩ := Option.isSome_iff_exists.1 hsome
      exact (h.unplace id).place (h.character hc).1 room

theorem setDoorClosed (h : Confined P w) (room : RoomId) (d : Direction) (closed : Bool) :
    Confined P (w.setDoorClosed room d closed).2 := by
  unfold World.setDoorClosed
  split
  · exact h
  · dsimp only
    have hnear := h.modifyRoom room
      (f := fun r => { r with exits := r.exits.modify d (Exit.setClosed closed) }) fun _ hr => hr
    split
    · exact hnear.modifyRoom _ fun _ hr => hr
    · exact hnear

/-- A world in which a number has been drawn holds the same ids. -/
theorem allocate (h : Confined P w) : Confined P w.allocate.2 := { h with }

end Confined

theorem Confined.addZone (h : Confined P w) {key name : String}
    (hnew : ∀ id, (w.addZone key name).1 = .ok id → P (.zone id)) :
    Confined P (w.addZone key name).2 := by
  revert hnew
  unfold World.addZone
  split
  · exact fun _ => h
  · split
    · exact fun _ => h
    · intro hnew
      have hid := hnew _ rfl
      exact { h with
        zone := Table.forall_insert h.zone
          ⟨hid, Zone.forall_mentions.2 ⟨hid, by simp, by simp [Zone.characters]⟩⟩
        zoneIndex := Table.forall_insert h.zoneIndex hid }

theorem Confined.addRoom (h : Confined P w) {zone : ZoneId} {key title description : String}
    (hnew : ∀ id, (w.addRoom zone key title description).1 = .ok id → P (.room id)) :
    Confined P (w.addRoom zone key title description).2 := by
  revert hnew
  unfold World.addRoom
  split
  · exact fun _ => h
  · rename_i z hz
    split
    · exact fun _ => h
    · split
      · exact fun _ => h
      · intro hnew
        have hid := hnew _ rfl
        have hmade : P (.room ⟨w.lastIndex + 1⟩) ∧ P (.zone zone) ∧
            (∀ c ∈ (Queue.empty : Queue CharacterId).toList, P (.character c)) ∧
              ∀ i ∈ Container.empty.items, P (.item i) :=
          ⟨hid, (h.zone hz).1, by simp, by simp [Container.items, Container.empty]⟩
        refine { h with
          room := Table.forall_insert h.room ⟨hid, Room.forall_mentions.2 hmade⟩
          roomIndex := Table.forall_insert h.roomIndex hid
          zone := Table.forall_modify h.zone fun _ hz => ⟨hz.1, ?_⟩ }
        have hold := hz.2
        rw [Zone.forall_mentions] at hold ⊢
        obtain ⟨hself, hrooms, hpopulation⟩ := hold
        refine ⟨hself, ?_, hpopulation⟩
        simpa [or_imp, forall_and] using ⟨hrooms, hid⟩

theorem Confined.spawnCharacter (h : Confined P w) {room : RoomId} {t : CharacterTemplate}
    (hnew : ∀ id, (w.spawnCharacter room t).1 = .ok id → P (.character id)) :
    Confined P (w.spawnCharacter room t).2 := by
  revert hnew
  unfold World.spawnCharacter
  split
  · exact fun _ => h
  · dsimp only
    split
    · exact fun _ => h.allocate
    · rename_i c hc
      intro hnew
      have hid := hnew _ rfl
      obtain ⟨hself, hroom, hinventory, hequipment, -⟩ := CharacterTemplate.of_build hc
      have hc : ∀ x ∈ c.mentions, P x := by
        rw [Character.forall_mentions, hself, hroom, hinventory, hequipment]
        refine ⟨hid, nofun, by simp [Container.items, Container.empty], by simp [Table.mem_values]⟩
      have hmade : Confined P { w.allocate.2 with
          characters := w.allocate.2.characters.insert ⟨w.allocate.1⟩ c } :=
        { h.allocate with character := Table.forall_insert h.character ⟨hid, hc⟩ }
      exact hmade.place hid room

theorem Confined.spawnItem (h : Confined P w) {location : ItemLocation} {t : ItemTemplate}
    (hnew : ∀ id, (w.spawnItem location t).1 = .ok id → P (.item id)) :
    Confined P (w.spawnItem location t).2 := by
  revert hnew
  unfold World.spawnItem
  split
  · exact fun _ => h
  · rename_i hzone
    dsimp only
    split
    · exact fun _ => h.allocate
    · rename_i i hi
      -- The location is there, so the new item finds its place.
      have hplace : w.allocate.2.HasPlace location := by
        have hthere := hasPlace_of_locationZoneKey hzone
        cases location <;> exact hthere
      obtain ⟨v, hv⟩ := exists_enlist (hasPlace_insertItem hplace ⟨w.allocate.1⟩ i) ⟨w.allocate.1⟩
      rw [World.attach, hv]
      intro hnew
      have hid := hnew _ rfl
      obtain ⟨hself, hlocation, hcontents⟩ := ItemTemplate.of_build hi
      have hmentions : ∀ x ∈ i.mentions, P x := by
        rw [Item.forall_mentions, hself, hlocation, hcontents]
        exact ⟨hid, by simp, by simp [Container.items, Container.empty]⟩
      have hmade : Confined P { w.allocate.2 with
          items := w.allocate.2.items.insert ⟨w.allocate.1⟩ i } :=
        { h.allocate with item := Table.forall_insert h.item ⟨hid, hmentions⟩ }
      refine (hmade.enlist hid hv).locate _ ?_
      rintro _ ⟨⟩
      exact h.hasPlace (hasPlace_of_locationZoneKey hzone)

end World

end TextWorld

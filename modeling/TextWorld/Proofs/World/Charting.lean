import TextWorld.Proofs.World.Filing
import TextWorld.Proofs.World.Occupancy

/-!
The indexes of a world. In every world that comes about by operations a key leads to the zone or
the room that has it and to nothing else, zones list their own rooms in the order in which these
were added, and what is in a table says itself under which id.
-/

namespace TextWorld

namespace Table

variable {κ ι ν : Type} [Ord κ] [Std.TransOrd κ] [Std.LawfulEqOrd κ] [DecidableEq κ]
  [Ord ι] [Std.TransOrd ι] [Std.LawfulEqOrd ι] [DecidableEq ι]

/-- An index stays exact when something new is entered under a new key. -/
theorem index_insert {index : Table κ ι} {table : Table ι ν} {key : ν → κ}
    (h : ∀ (k : κ) (i : ι), index[k]? = some i ↔ table[i]?.map key = some k) {i : ι} {k₀ : κ}
    {v : ν} (hv : key v = k₀) (hkey : index[k₀]? = none) (hi : table[i]? = none) (k : κ) (j : ι) :
    (index.insert k₀ i)[k]? = some j ↔ (table.insert i v)[j]?.map key = some k := by
  subst hv
  rw [getElem?_insert, getElem?_insert]
  by_cases hk : key v = k <;> by_cases hj : i = j
  · simp [hk, hj]
  · -- Nothing else has the new key.
    have hnot : table[j]?.map key ≠ some k := by
      rw [Ne, ← h, ← hk, hkey]
      exact nofun
    simp [hk, hj, hnot]
  · -- No other key leads to the new entry.
    have hnot : index[k]? ≠ some j := by
      rw [Ne, h, ← hj, hi]
      exact nofun
    simp [hk, hj, hnot]
  · simp [hk, hj, h]

end Table

/-- What the indexes rely on in a zone. -/
def Zone.plan (z : Zone) : ZoneId × String × List RoomId := (z.id, z.key, z.rooms)

/-- What the indexes rely on in a room. -/
def Room.plan (r : Room) : RoomId × ZonedKey × ZoneId := (r.id, r.key, r.zone)

namespace World

/-- The indexes lead to what has the key, and zones list their rooms. -/
structure Charted (w : World) : Prop where
  zoneIndex : ∀ (key : String) (id : ZoneId),
    w.zoneIndex[key]? = some id ↔ w.zones[id]?.map Zone.key = some key
  bare : ∀ {id : ZoneId} {z : Zone}, w.zone? id = some z → z.key ≠ "" ∧ '@' ∉ z.key.toList
  roomIndex : ∀ (key : ZonedKey) (id : RoomId),
    w.roomIndex[key]? = some id ↔ w.rooms[id]?.map Room.key = some key
  mem_rooms : ∀ {zone : ZoneId} {z : Zone}, w.zone? zone = some z →
    ∀ room, room ∈ z.rooms ↔ (w.room? room).map Room.zone = some zone
  ascending : ∀ {zone : ZoneId} {z : Zone}, w.zone? zone = some z →
    z.rooms.Pairwise (·.index < ·.index)
  zone_id : ∀ {id : ZoneId} {z : Zone}, w.zone? id = some z → z.id = id
  room_id : ∀ {id : RoomId} {r : Room}, w.room? id = some r → r.id = id
  character_id : ∀ {id : CharacterId} {c : Character}, w.character? id = some c → c.id = id

/-- The same zones and rooms with the same keys; nobody has come, and nobody goes by another
id. -/
structure SameChart (w v : World) : Prop where
  zoneIndex : v.zoneIndex = w.zoneIndex
  roomIndex : v.roomIndex = w.roomIndex
  zones : ∀ id, (v.zone? id).map Zone.plan = (w.zone? id).map Zone.plan
  rooms : ∀ id, (v.room? id).map Room.plan = (w.room? id).map Room.plan
  characters : ∀ {id : CharacterId} {c : Character}, v.character? id = some c →
    ∃ d, w.character? id = some d ∧ d.id = c.id

variable {w v u : World}

namespace SameChart

theorem of_characters (hzones : v.zones = w.zones) (hzoneIndex : v.zoneIndex = w.zoneIndex)
    (hrooms : v.rooms = w.rooms) (hroomIndex : v.roomIndex = w.roomIndex)
    (hcharacters : ∀ {id : CharacterId} {c : Character}, v.character? id = some c →
      ∃ d, w.character? id = some d ∧ d.id = c.id) : w.SameChart v where
  zoneIndex := hzoneIndex
  roomIndex := hroomIndex
  zones id := by rw [zone?_eq, zone?_eq, hzones]
  rooms id := by rw [room?_eq, room?_eq, hrooms]
  characters := hcharacters

theorem refl (w : World) : w.SameChart w := of_characters rfl rfl rfl rfl fun hc => ⟨_, hc, rfl⟩

theorem trans (h : w.SameChart v) (h' : v.SameChart u) : w.SameChart u where
  zoneIndex := h'.zoneIndex.trans h.zoneIndex
  roomIndex := h'.roomIndex.trans h.roomIndex
  zones id := (h'.zones id).trans (h.zones id)
  rooms id := (h'.rooms id).trans (h.rooms id)
  characters {id c} hc := by
    obtain ⟨d, hd, hdc⟩ := h'.characters hc
    obtain ⟨e, he, hed⟩ := h.characters hd
    exact ⟨e, he, hed.trans hdc⟩

theorem rearranged (h : w.Rearranged v) : w.SameChart v where
  zoneIndex := h.zoneIndex
  roomIndex := h.roomIndex
  zones id := by rw [zone?_eq, zone?_eq, h.zones]
  rooms id := by
    have hroom := congrArg (Option.map Room.plan) (h.rooms id)
    rwa [Option.map_map, Option.map_map] at hroom
  characters {id c} hc := by
    obtain ⟨d, hd, hbare⟩ := h.exists_character hc
    exact ⟨d, hd, (congrArg Character.id hbare :)⟩

theorem modifyZone (w : World) (zone : ZoneId) {f : Zone → Zone}
    (hf : ∀ z, (f z).plan = z.plan) :
    w.SameChart { w with zones := w.zones.modify zone f } := by
  refine ⟨rfl, rfl, fun id => ?_, fun _ => rfl, fun hc => ⟨_, hc, rfl⟩⟩
  rw [zone?_eq, zone?_eq, Table.getElem?_modify]
  split
  · simp only [Option.map_map, Function.comp_def, hf]
  · rfl

theorem modifyRoom (w : World) (room : RoomId) {f : Room → Room}
    (hf : ∀ r, (f r).plan = r.plan) :
    w.SameChart { w with rooms := w.rooms.modify room f } := by
  refine ⟨rfl, rfl, fun _ => rfl, fun id => ?_, fun hc => ⟨_, hc, rfl⟩⟩
  rw [room?_eq, room?_eq, Table.getElem?_modify]
  split
  · simp only [Option.map_map, Function.comp_def, hf]
  · rfl

theorem modifyCharacter (w : World) (id : CharacterId) {f : Character → Character}
    (hf : ∀ c, (f c).id = c.id) :
    w.SameChart { w with characters := w.characters.modify id f } := by
  refine of_characters rfl rfl rfl rfl fun {x c} hc => ?_
  rw [character?_eq, Table.getElem?_modify] at hc
  split at hc
  · obtain ⟨d, hd, rfl⟩ := Option.map_eq_some_iff.1 hc
    exact ⟨d, hd, (hf d).symm⟩
  · exact ⟨c, hc, rfl⟩

theorem eraseCharacter (w : World) (id : CharacterId) :
    w.SameChart { w with characters := w.characters.erase id } := by
  refine of_characters rfl rfl rfl rfl fun {x c} hc => ?_
  rw [character?_eq, Table.getElem?_erase] at hc
  split at hc
  · cases hc
  · exact ⟨c, hc, rfl⟩

theorem place (w : World) (id : CharacterId) (room : RoomId) : w.SameChart (w.place id room) := by
  unfold World.place
  split
  · exact .refl w
  · rename_i r _
    have hroom := SameChart.modifyRoom w room
      (f := fun r => { r with occupants := r.occupants.push id }) fun _ => rfl
    have hzone := hroom.trans (.modifyZone _ r.zone
      (f := fun z => { z with population := z.population.push id }) fun _ => rfl)
    exact hzone.trans (.modifyCharacter _ id fun _ => rfl)

theorem unplace (w : World) (id : CharacterId) : w.SameChart (w.unplace id) := by
  unfold World.unplace
  split
  · exact .refl w
  · rename_i room _
    have hcharacter := SameChart.modifyCharacter w id
      (f := fun c => { c with room := none }) fun _ => rfl
    dsimp only
    split
    · exact hcharacter
    · rename_i r _
      have hroom := hcharacter.trans (.modifyRoom _ room
        (f := fun r => { r with occupants := r.occupants.filter (· ≠ id) }) fun _ => rfl)
      exact hroom.trans (.modifyZone _ r.zone fun _ => rfl)

theorem moveCharacter (w : World) (id : CharacterId) (room : RoomId) :
    w.SameChart (w.moveCharacter id room).2 := by
  unfold World.moveCharacter
  split
  · exact .refl w
  · split
    · exact .refl w
    · exact (SameChart.unplace w id).trans (.place _ id room)

theorem despawnCharacter (w : World) (id : CharacterId) :
    w.SameChart (w.despawnCharacter id).2 := by
  have hleave (u : World) : u.SameChart
      { u.unplace id with characters := (u.unplace id).characters.erase id } :=
    (SameChart.unplace u id).trans (.eraseCharacter _ id)
  obtain ⟨v, hdrop, ⟨e, hreply⟩ | hreply⟩ := despawnCharacter_cases w id
  · rw [hreply]
    exact .rearranged hdrop
  · rw [hreply]
    exact (SameChart.rearranged hdrop).trans (hleave v)

theorem spawnItem (w : World) (place : ItemLocation) (t : ItemTemplate) :
    w.SameChart (w.spawnItem place t).2 := by
  unfold World.spawnItem
  split
  · exact .refl w
  · dsimp only
    split
    · exact of_characters rfl rfl rfl rfl fun hc => ⟨_, hc, rfl⟩
    · rename_i i _
      have hinsert : w.SameChart { w.allocate.2 with
          items := w.allocate.2.items.insert ⟨w.allocate.1⟩ i } :=
        of_characters rfl rfl rfl rfl fun hc => ⟨_, hc, rfl⟩
      have hattach := hinsert.trans (.rearranged (rearranged_attach _ ⟨w.allocate.1⟩ place))
      split
      all_goals
        rename_i heq
        rw [heq] at hattach
        exact hattach

theorem setDoorClosed (w : World) (room : RoomId) (d : Direction) (closed : Bool) :
    w.SameChart (w.setDoorClosed room d closed).2 := by
  unfold World.setDoorClosed
  split
  · exact .refl w
  · dsimp only
    have hnear := SameChart.modifyRoom w room
      (f := fun r => { r with exits := r.exits.modify d (Exit.setClosed closed) }) fun _ => rfl
    split
    · exact hnear.trans (.modifyRoom _ _ fun _ => rfl)
    · exact hnear

end SameChart

theorem Charted.same (h : w.Charted) (hs : w.SameChart v) : v.Charted := by
  have hzone {id : ZoneId} {z : Zone} (hz : v.zone? id = some z) :
      ∃ z₀, w.zone? id = some z₀ ∧ z₀.plan = z.plan := by
    have hmap := hs.zones id
    rw [hz, Option.map_some, eq_comm] at hmap
    exact Option.map_eq_some_iff.1 hmap
  have hroom (id : RoomId) {α : Type} (f : RoomId × ZonedKey × ZoneId → α) :
      (v.room? id).map (fun r => f r.plan) = (w.room? id).map fun r => f r.plan := by
    have hmap := congrArg (Option.map f) (hs.rooms id)
    rwa [Option.map_map, Option.map_map] at hmap
  constructor
  · intro key id
    have hkey : v.zones[id]?.map Zone.key = w.zones[id]?.map Zone.key := by
      have hmap := congrArg (Option.map fun p => p.2.1) (hs.zones id)
      rwa [Option.map_map, Option.map_map] at hmap
    rw [hs.zoneIndex, hkey]
    exact h.zoneIndex key id
  · intro id z hz
    obtain ⟨z₀, hz₀, hplan⟩ := hzone hz
    have hkey : z₀.key = z.key := congrArg (fun p => p.2.1) hplan
    rw [← hkey]
    exact h.bare hz₀
  · intro key id
    rw [hs.roomIndex, h.roomIndex]
    exact (hroom id fun p => p.2.1) ▸ Iff.rfl
  · intro zone z hz room
    obtain ⟨z₀, hz₀, hplan⟩ := hzone hz
    have hrooms : z₀.rooms = z.rooms := congrArg (fun p => p.2.2) hplan
    rw [← hrooms, h.mem_rooms hz₀]
    exact (hroom room fun p => p.2.2) ▸ Iff.rfl
  · intro zone z hz
    obtain ⟨z₀, hz₀, hplan⟩ := hzone hz
    have hrooms : z₀.rooms = z.rooms := congrArg (fun p => p.2.2) hplan
    rw [← hrooms]
    exact h.ascending hz₀
  · intro id z hz
    obtain ⟨z₀, hz₀, hplan⟩ := hzone hz
    exact (congrArg Prod.fst hplan).symm.trans (h.zone_id hz₀)
  · intro id r hr
    have hmap := hs.rooms id
    rw [hr, Option.map_some, eq_comm] at hmap
    obtain ⟨r₀, hr₀, hplan⟩ := Option.map_eq_some_iff.1 hmap
    exact (congrArg Prod.fst hplan).symm.trans (h.room_id hr₀)
  · intro id c hc
    obtain ⟨d, hd, hdc⟩ := hs.characters hc
    exact hdc.symm.trans (h.character_id hd)

theorem charted_empty : empty.Charted where
  zoneIndex key id := by simp [empty]
  bare h := by cases h
  roomIndex key id := by simp [empty]
  mem_rooms h := by cases h
  ascending h := by cases h
  zone_id h := by cases h
  room_id h := by cases h
  character_id h := by cases h

/-- A new zone has a bare key that is free, and no rooms yet. -/
theorem Charted.addZone (h : w.Charted) (hw : w.Skeleton) (hseated : w.Seated)
    (key name : String) : (w.addZone key name).2.Charted := by
  unfold World.addZone
  split
  · exact h
  · rename_i hbare
    rw [not_or] at hbare
    split
    · exact h
    · rename_i hfree
      rw [Std.ExtTreeMap.contains_eq_isSome_getElem?, Option.not_isSome_iff_eq_none] at hfree
      have hnew : w.zone? ⟨w.lastIndex + 1⟩ = none := by
        refine Option.not_isSome_iff_eq_none.1 fun hthere => ?_
        exact Nat.not_succ_le_self _ (hseated.zone_drawn hthere)
      dsimp only [allocate]
      constructor
      · intro k id
        exact Table.index_insert h.zoneIndex (by rfl) hfree hnew k id
      · exact Table.forall_insert h.bare hbare
      · exact h.roomIndex
      · refine Table.forall_insert h.mem_rooms fun room => ?_
        -- No room lies in a zone that was not there.
        have hnone : (w.room? room).map Room.zone ≠ some ⟨w.lastIndex + 1⟩ := by
          intro hzone
          obtain ⟨r, hr, hrz⟩ := Option.map_eq_some_iff.1 hzone
          have hthere := hw.zone_there hr
          rw [hrz, hnew] at hthere
          cases hthere
        exact ⟨nofun, fun hroom => absurd hroom hnone⟩
      · exact Table.forall_insert h.ascending .nil
      · exact Table.forall_insert h.zone_id (by rfl)
      · exact h.room_id
      · exact h.character_id

/-- A new room has a key that is free, and is listed last by its zone. -/
theorem Charted.addRoom (h : w.Charted) (hw : w.Skeleton) (zone : ZoneId)
    (key title description : String) : (w.addRoom zone key title description).2.Charted := by
  unfold World.addRoom
  split
  · exact h
  · split
    · exact h
    · rename_i key _
      split
      · exact h
      · rename_i hfree
        rw [Std.ExtTreeMap.contains_eq_isSome_getElem?, Option.not_isSome_iff_eq_none] at hfree
        have hnew := hw.fresh.1
        dsimp only [allocate]
        have hzone {id : ZoneId} {z : Zone} (hz : (w.zones.modify zone fun z =>
            { z with rooms := z.rooms ++ [⟨w.lastIndex + 1⟩] })[id]? = some z) :
            ∃ z₀, w.zone? id = some z₀ ∧
              z.rooms = if zone = id then z₀.rooms ++ [⟨w.lastIndex + 1⟩] else z₀.rooms := by
          rw [Table.getElem?_modify] at hz
          split at hz
          · rename_i hid
            obtain ⟨z₀, hz₀, rfl⟩ := Option.map_eq_some_iff.1 hz
            exact ⟨z₀, hz₀, (if_pos hid).symm⟩
          · rename_i hid
            exact ⟨z, hz, (if_neg hid).symm⟩
        have hlisted {id : ZoneId} {z : Zone} (hz : w.zone? id = some z) :
            ∀ room ∈ z.rooms, (w.room? room).isSome := by
          intro room hroom
          have hmap := (h.mem_rooms hz room).1 hroom
          obtain ⟨r, hr, -⟩ := Option.map_eq_some_iff.1 hmap
          exact Option.isSome_of_eq_some hr
        constructor
        · intro k id
          have hkey : (w.zones.modify zone fun z =>
              { z with rooms := z.rooms ++ [⟨w.lastIndex + 1⟩] })[id]?.map Zone.key =
              w.zones[id]?.map Zone.key := by
            rw [Table.getElem?_modify]
            split
            · exact Option.map_map ..
            · rfl
          rw [hkey]
          exact h.zoneIndex k id
        · exact Table.forall_modify h.bare (by exact fun _ hbare => hbare)
        · intro k id
          exact Table.index_insert h.roomIndex (by rfl) hfree hnew k id
        · intro id z hz room
          obtain ⟨z₀, hz₀, hrooms⟩ := hzone hz
          rw [hrooms, room?_eq, Table.getElem?_insert]
          by_cases hroom : ⟨w.lastIndex + 1⟩ = room
          · -- No zone has listed the new room before.
            have hunlisted : room ∉ z₀.rooms := by
              intro hmem
              have hthere := hlisted hz₀ room hmem
              rw [← hroom, hnew] at hthere
              cases hthere
            by_cases hid : zone = id <;> simp [hroom, hid, hunlisted]
          · have hold := h.mem_rooms hz₀ room
            rw [room?_eq] at hold
            by_cases hid : zone = id <;> simpa [hroom, hid, Ne.symm hroom] using hold
        · refine Table.forall_modify h.ascending fun {z} hz hrooms => ?_
          refine List.pairwise_append.2 ⟨hrooms, List.pairwise_singleton _ _, ?_⟩
          intro room hroom new hnew'
          rw [List.mem_singleton.1 hnew']
          exact Nat.lt_succ_of_le (hw.room_drawn (hlisted hz room hroom))
        · exact Table.forall_modify h.zone_id (by exact fun _ hid => hid)
        · exact Table.forall_insert h.room_id (by rfl)
        · exact h.character_id

theorem Charted.spawnCharacter (h : w.Charted) (room : RoomId) (t : CharacterTemplate) :
    (w.spawnCharacter room t).2.Charted := by
  have hallocate : w.allocate.2.Charted :=
    h.same (.of_characters rfl rfl rfl rfl fun hc => ⟨_, hc, rfl⟩)
  unfold World.spawnCharacter
  split
  · exact h
  · dsimp only
    split
    · exact hallocate
    · rename_i c hc
      have hmade : Charted { w.allocate.2 with
          characters := w.allocate.2.characters.insert ⟨w.allocate.1⟩ c } :=
        { hallocate with
          character_id := Table.forall_insert h.character_id (CharacterTemplate.of_build hc).1 }
      exact hmade.same (.place _ _ room)

theorem Charted.perform (h : w.Charted) (hw : w.Skeleton) (hseated : w.Seated) {op : Op}
    {reply : Reply op.Result} (hr : w.perform op = some reply) : reply.2.Charted := by
  cases op with
  | addZone key name =>
    cases hr
    exact h.addZone hw hseated key name
  | addRoom zone key title description =>
    cases hr
    exact h.addRoom hw zone key title description
  | addExit room e =>
    cases hr
    dsimp only [addExit]
    split
    · exact h
    · exact h.same (.modifyRoom w room fun _ => rfl)
  | spawnCharacter room t =>
    cases hr
    exact h.spawnCharacter room t
  | moveCharacter id room =>
    cases hr
    exact h.same (.moveCharacter w id room)
  | despawnCharacter id =>
    cases hr
    exact h.same (.despawnCharacter w id)
  | spawnItem place t =>
    cases hr
    exact h.same (.spawnItem w place t)
  | moveItem id target =>
    cases hr
    exact h.same (.rearranged (rearranged_moveItem w id target))
  | setDoorClosed room d closed =>
    cases hr
    exact h.same (.setDoorClosed w room d closed)
  | putOffBalance id duration =>
    obtain ⟨deadline, -, rfl⟩ := Option.map_eq_some_iff.1 hr
    split
    · exact h
    · exact h.same (.modifyCharacter w id fun _ => rfl)
  | advance delta =>
    obtain ⟨v, hv, rfl⟩ := Option.map_eq_some_iff.1 hr
    obtain ⟨now, -, rfl⟩ := Option.map_eq_some_iff.1 hv
    exact h.same (.of_characters rfl rfl rfl rfl fun hc => ⟨_, hc, rfl⟩)

theorem Reachable.charted (h : w.Reachable) : w.Charted := by
  have hkept : ∀ (u : World) (op : Op) (reply : Reply op.Result),
      u.Sound ∧ u.Seated ∧ u.Charted → u.perform op = some reply →
        reply.2.Sound ∧ reply.2.Seated ∧ reply.2.Charted := by
    rintro u op reply ⟨hsound, hseated, hcharted⟩ hr
    have hw := hsound.toSkeleton
    exact ⟨sound_perform hsound hr, hseated.perform hw hr, hcharted.perform hw hseated hr⟩
  exact (Reaches.keeps hkept h ⟨sound_empty, seated_empty, charted_empty⟩).2.2

theorem Charted.lookupZone_eq_some (h : w.Charted) {key : String} {id : ZoneId} :
    w.lookupZone key = some id ↔ ∃ z, w.zone? id = some z ∧ z.key = key := by
  have hindex := h.zoneIndex key id
  rwa [Option.map_eq_some_iff] at hindex

theorem Charted.lookupRoom_eq_some (h : w.Charted) {key defaultZone : String} {id : RoomId} :
    w.lookupRoom key defaultZone = some id ↔
      ∃ r, w.room? id = some r ∧ ZonedKey.resolve key defaultZone = .ok r.key := by
  unfold lookupRoom
  split
  · rename_i k hk
    have hindex := h.roomIndex k id
    rw [Option.map_eq_some_iff] at hindex
    constructor
    · intro hid
      obtain ⟨r, hr, rfl⟩ := hindex.1 hid
      exact ⟨r, hr, hk⟩
    · rintro ⟨r, hr, hkey⟩
      exact hindex.2 ⟨r, hr, Except.ok.inj (hkey.symm.trans hk)⟩
  · rename_i hk
    simp [hk]

end World

end TextWorld

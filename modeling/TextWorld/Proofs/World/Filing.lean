import TextWorld.Proofs.World.Errands

/-!
How things are filed. A room is found by its key, an exit under the direction that it says, and an
item under the id that it says. No operation ever changes what things are filed by.
-/

namespace TextWorld

/-- What a room and its exits are filed by. -/
def Room.label (r : Room) : ZonedKey × Table Direction Direction :=
  (r.key, r.exits.map fun _ e => e.direction)

theorem Room.direction_of_label {r r₀ : Room} (h : r₀.label = r.label) (d : Direction) :
    (r₀.exit? d).map Exit.direction = (r.exit? d).map Exit.direction := by
  have hexits := congrArg (fun label => (Prod.snd label).get? d) h
  simpa [Room.label, Room.exit?] using hexits

theorem Room.label_modifyExit (r : Room) (d : Direction) {f : Exit → Exit}
    (hf : ∀ e, (f e).direction = e.direction) :
    Room.label { r with exits := r.exits.modify d f } = r.label := by
  refine congrArg (Prod.mk r.key) (Std.ExtTreeMap.ext_getElem? fun d' => ?_)
  rw [Std.ExtTreeMap.getElem?_map, Std.ExtTreeMap.getElem?_map, Table.getElem?_modify]
  split
  · rw [Option.map_map]
    congr 1
    funext e
    exact hf e
  · rfl

namespace World

/-- Rooms, exits and items are filed under what they say themselves. -/
structure Filed (w : World) : Prop where
  room : ∀ {id r}, w.room? id = some r → w.roomIndex.get? r.key = some id
  exit : ∀ {room d e}, w.exit? room d = some e → e.direction = d
  item : ∀ {id i}, w.item? id = some i → i.id = id

/-- The same things are filed in the same way. -/
structure SameFiling (w v : World) : Prop where
  roomIndex : v.roomIndex = w.roomIndex
  rooms : ∀ id, (v.room? id).map Room.label = (w.room? id).map Room.label
  items : ∀ id, (v.item? id).map Item.id = (w.item? id).map Item.id

variable {w v u : World}

namespace SameFiling

theorem refl (w : World) : w.SameFiling w := ⟨rfl, fun _ => rfl, fun _ => rfl⟩

theorem trans (h : w.SameFiling v) (h' : v.SameFiling u) : w.SameFiling u where
  roomIndex := h'.roomIndex.trans h.roomIndex
  rooms id := (h'.rooms id).trans (h.rooms id)
  items id := (h'.items id).trans (h.items id)

theorem rearranged (h : w.Rearranged v) : w.SameFiling v where
  roomIndex := h.roomIndex
  rooms id := by
    have hroom := congrArg (Option.map Room.label) (h.rooms id)
    rwa [Option.map_map, Option.map_map] at hroom
  items id := by
    have hitem := congrArg (Option.map Item.id) (h.items id)
    rwa [Option.map_map, Option.map_map] at hitem

theorem modifyRoom (w : World) (id : RoomId) {f : Room → Room}
    (hf : ∀ r, (f r).label = r.label) :
    w.SameFiling { w with rooms := w.rooms.modify id f } := by
  refine ⟨rfl, fun room => ?_, fun _ => rfl⟩
  rw [room?_eq, room?_eq, Table.getElem?_modify]
  split
  · simp only [Option.map_map, Function.comp_def, hf]
  · rfl

theorem place (w : World) (id : CharacterId) (room : RoomId) : w.SameFiling (w.place id room) := by
  unfold World.place
  split
  · exact .refl w
  · have hroom := SameFiling.modifyRoom w room
      (f := fun r => { r with occupants := r.occupants.push id }) fun _ => rfl
    exact ⟨rfl, hroom.rooms, fun _ => rfl⟩

theorem unplace (w : World) (id : CharacterId) : w.SameFiling (w.unplace id) := by
  unfold World.unplace
  split
  · exact .refl w
  · rename_i room _
    dsimp only
    split
    · exact ⟨rfl, fun _ => rfl, fun _ => rfl⟩
    · have hroom := SameFiling.modifyRoom w room
        (f := fun r => { r with occupants := r.occupants.filter (· ≠ id) }) fun _ => rfl
      exact ⟨rfl, hroom.rooms, fun _ => rfl⟩

theorem setDoorClosed (w : World) (room : RoomId) (d : Direction) (closed : Bool) :
    w.SameFiling (w.setDoorClosed room d closed).2 := by
  unfold World.setDoorClosed
  split
  · exact .refl w
  · dsimp only
    have hnear := SameFiling.modifyRoom w room
      (f := fun r => { r with exits := r.exits.modify d (Exit.setClosed closed) }) fun r =>
        r.label_modifyExit d fun _ => rfl
    split
    · refine hnear.trans (.modifyRoom _ _ fun r => r.label_modifyExit d.opposite fun e => ?_)
      split <;> rfl
    · exact hnear

end SameFiling

theorem Filed.same (h : w.Filed) (hs : w.SameFiling v) : v.Filed where
  room {id r} hr := by
    have hmap := hs.rooms id
    rw [hr, Option.map_some, eq_comm] at hmap
    obtain ⟨r₀, hr₀, hlabel⟩ := Option.map_eq_some_iff.1 hmap
    have hkey : r₀.key = r.key := congrArg Prod.fst hlabel
    rw [hs.roomIndex, ← hkey]
    exact h.room hr₀
  exit {room d e} he := by
    obtain ⟨r, hr, he⟩ := Option.bind_eq_some_iff.1 he
    have hmap := hs.rooms room
    rw [hr, Option.map_some, eq_comm] at hmap
    obtain ⟨r₀, hr₀, hlabel⟩ := Option.map_eq_some_iff.1 hmap
    have hdirection := Room.direction_of_label hlabel d
    rw [he, Option.map_some] at hdirection
    obtain ⟨e₀, he₀, hsame⟩ := Option.map_eq_some_iff.1 hdirection
    rw [← hsame]
    have hexit₀ : w.exit? room d = some e₀ := by
      rw [exit?, hr₀]
      exact he₀
    exact h.exit hexit₀
  item {id i} hi := by
    have hmap := hs.items id
    rw [hi, Option.map_some, eq_comm] at hmap
    obtain ⟨i₀, hi₀, hid⟩ := Option.map_eq_some_iff.1 hmap
    rw [← hid]
    exact h.item hi₀

theorem filed_empty : empty.Filed where
  room h := by simp [room?, empty] at h
  exit h := by simp [exit?, room?, empty] at h
  item h := by simp [item?, empty] at h

/-- A new room has a key that is free. -/
theorem Filed.addRoom (h : w.Filed) (zone : ZoneId) (key title description : String) :
    (w.addRoom zone key title description).2.Filed := by
  unfold World.addRoom
  split
  · exact h
  · split
    · exact h
    · rename_i key _
      split
      · exact h
      · rename_i hfree
        rw [Std.ExtTreeMap.contains_eq_isSome_getElem?, Option.not_isSome_iff_eq_none] at hfree
        dsimp only [allocate]
        refine ⟨fun {id r} hr => ?_, fun {room d e} he => ?_, h.item⟩
        · rw [room?_eq, Table.getElem?_insert] at hr
          rw [Std.ExtTreeMap.get?_eq_getElem?, Table.getElem?_insert]
          split at hr
          · rename_i hid
            cases hr
            rw [if_pos rfl, hid]
          · -- Any other room has another key, since the new one was free.
            have hindex := h.room hr
            rw [if_neg]
            · exact hindex
            · rintro rfl
              rw [Std.ExtTreeMap.get?_eq_getElem?, hfree] at hindex
              cases hindex
        · rw [exit?, room?_eq, Table.getElem?_insert] at he
          split at he
          · -- A new room has no exits.
            simp [Room.exit?] at he
          · exact h.exit he

theorem Filed.addExit (h : w.Filed) (room : RoomId) (e : Exit) : (w.addExit room e).2.Filed := by
  unfold World.addExit
  split
  · exact h
  · refine ⟨fun {id r} hr => ?_, fun {room' d e'} he => ?_, h.item⟩
    · rw [room?_eq, Table.getElem?_modify] at hr
      split at hr
      · obtain ⟨r₀, hr₀, rfl⟩ := Option.map_eq_some_iff.1 hr
        have hindex := h.room hr₀
        exact hindex
      · exact h.room hr
    · rw [exit?, room?_eq, Table.getElem?_modify] at he
      split at he
      · obtain ⟨r, hr, he⟩ := Option.bind_eq_some_iff.1 he
        obtain ⟨r₀, hr₀, rfl⟩ := Option.map_eq_some_iff.1 hr
        rw [Room.exit?, Std.ExtTreeMap.get?_eq_getElem?, Table.getElem?_insert] at he
        split at he
        · rename_i hd
          cases he
          exact hd
        · have hexit : w.exit? room' d = some e' := by
            rw [exit?, room?_eq, hr₀]
            exact he
          exact h.exit hexit
      · exact h.exit he

theorem Filed.spawnItem (h : w.Filed) (place : ItemLocation) (t : ItemTemplate) :
    (w.spawnItem place t).2.Filed := by
  unfold World.spawnItem
  split
  · exact h
  · dsimp only
    split
    · exact ⟨h.room, h.exit, h.item⟩
    · rename_i i hi
      have hnew : Filed { w.allocate.2 with
          items := w.allocate.2.items.insert ⟨w.allocate.1⟩ i } := by
        refine ⟨h.room, h.exit, fun {id i'} hi' => ?_⟩
        rw [item?_eq, Table.getElem?_insert] at hi'
        split at hi'
        · rename_i hid
          cases hi'
          rw [← hid]
          exact (ItemTemplate.of_build hi).1
        · exact h.item hi'
      have hattach := hnew.same (.rearranged (rearranged_attach _ ⟨w.allocate.1⟩ place))
      split
      all_goals
        rename_i hres
        rw [hres] at hattach
        exact hattach

theorem sameFiling_spawnCharacter (w : World) (room : RoomId) (t : CharacterTemplate) :
    w.SameFiling (w.spawnCharacter room t).2 := by
  unfold World.spawnCharacter
  split
  · exact .refl w
  · dsimp only
    split
    · exact ⟨rfl, fun _ => rfl, fun _ => rfl⟩
    · rename_i c _
      have hmade : w.SameFiling { w.allocate.2 with
          characters := w.allocate.2.characters.insert ⟨w.allocate.1⟩ c } :=
        ⟨rfl, fun _ => rfl, fun _ => rfl⟩
      exact hmade.trans (.place _ _ room)

theorem sameFiling_moveCharacter (w : World) (id : CharacterId) (room : RoomId) :
    w.SameFiling (w.moveCharacter id room).2 := by
  unfold World.moveCharacter
  split
  · exact .refl w
  · split
    · exact .refl w
    · exact (SameFiling.unplace w id).trans (.place _ id room)

theorem sameFiling_despawnCharacter (w : World) (id : CharacterId) :
    w.SameFiling (w.despawnCharacter id).2 := by
  have hleave (u : World) : u.SameFiling
      { u.unplace id with characters := (u.unplace id).characters.erase id } :=
    (SameFiling.unplace u id).trans ⟨rfl, fun _ => rfl, fun _ => rfl⟩
  obtain ⟨v, hdrop, ⟨e, hreply⟩ | hreply⟩ := despawnCharacter_cases w id
  · rw [hreply]
    exact .rearranged hdrop
  · rw [hreply]
    exact (SameFiling.rearranged hdrop).trans (hleave v)

theorem Filed.perform (h : w.Filed) {op : Op} {reply : Reply op.Result}
    (hr : w.perform op = some reply) : reply.2.Filed := by
  cases op with
  | addZone key name =>
    cases hr
    dsimp only [addZone]
    split
    · exact h
    · split
      · exact h
      · exact ⟨h.room, h.exit, h.item⟩
  | addRoom zone key title description =>
    cases hr
    exact h.addRoom zone key title description
  | addExit room e =>
    cases hr
    exact h.addExit room e
  | spawnCharacter room t =>
    cases hr
    exact h.same (sameFiling_spawnCharacter w room t)
  | moveCharacter id room =>
    cases hr
    exact h.same (sameFiling_moveCharacter w id room)
  | despawnCharacter id =>
    cases hr
    exact h.same (sameFiling_despawnCharacter w id)
  | spawnItem place t =>
    cases hr
    exact h.spawnItem place t
  | moveItem id target =>
    cases hr
    exact h.same (.rearranged (rearranged_moveItem w id target))
  | setDoorClosed room d closed =>
    cases hr
    exact h.same (.setDoorClosed w room d closed)
  | putOffBalance id duration =>
    obtain ⟨deadline, -, rfl⟩ := Option.map_eq_some_iff.1 hr
    split
    · exact h
    · exact ⟨h.room, h.exit, h.item⟩
  | advance delta =>
    obtain ⟨v, hv, rfl⟩ := Option.map_eq_some_iff.1 hr
    obtain ⟨now, -, rfl⟩ := Option.map_eq_some_iff.1 hv
    exact ⟨h.room, h.exit, h.item⟩

theorem Reachable.filed (h : w.Reachable) : w.Filed :=
  Reaches.keeps (fun _ _ _ hu hr => hu.perform hr) h filed_empty

end World

end TextWorld

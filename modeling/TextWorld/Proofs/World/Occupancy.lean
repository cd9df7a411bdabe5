import TextWorld.Proofs.World.Placement

/-!
Who is where. Where a character stands is written down three times: with the character, with its
room and with the zone of the room. In every world that comes about by operations the three agree,
and a character that comes to a room is listed last there.
-/

namespace TextWorld

namespace World

/-- What lists characters: a room, or a zone. -/
inductive Roll where
  | room (id : RoomId)
  | zone (id : ZoneId)
  deriving DecidableEq, Repr

/-- The characters on a roll, in the order they came. -/
def attendance (w : World) : Roll → List CharacterId
  | .room room => ((w.room? room).map Room.characters).getD []
  | .zone zone => ((w.zone? zone).map Zone.characters).getD []

/-- Whether a roll is for those who stand in a room: it is the room's own or that of its zone. -/
def Covers (w : World) (room : RoomId) : Roll → Prop
  | .room id => id = room
  | .zone id => (w.room? room).map Room.zone = some id

instance (w : World) (room : RoomId) : DecidablePred (w.Covers room)
  | .room id => inferInstanceAs (Decidable (id = room))
  | .zone id => inferInstanceAs (Decidable ((w.room? room).map Room.zone = some id))

/-- The characters on a roll are those who stand in a room that it covers, each once. -/
structure Seated (w : World) : Prop where
  zone_drawn : ∀ {id}, (w.zone? id).isSome → id.index ≤ w.lastIndex
  listed : ∀ id roll, id ∈ w.attendance roll ↔
    ∃ room, w.characterRoom id = some room ∧ w.Covers room roll
  once : ∀ roll, (w.attendance roll).Nodup

variable {w v : World} {id : CharacterId} {room : RoomId}

/-- Nobody has moved, and the rooms where characters stand are in the same zones. -/
structure SameSeats (w v : World) : Prop where
  attendance : ∀ roll, v.attendance roll = w.attendance roll
  characterRoom : ∀ id, v.characterRoom id = w.characterRoom id
  zone : ∀ {id room}, w.characterRoom id = some room →
    (v.room? room).map Room.zone = (w.room? room).map Room.zone
  zone_drawn : ∀ {id}, (v.zone? id).isSome → (w.zone? id).isSome ∨ id.index ≤ v.lastIndex
  lastIndex : w.lastIndex ≤ v.lastIndex

theorem covers_congr (h : (v.room? room).map Room.zone = (w.room? room).map Room.zone)
    (roll : Roll) : v.Covers room roll ↔ w.Covers room roll := by
  cases roll with
  | room id => exact Iff.rfl
  | zone id => rw [Covers, Covers, h]

theorem Seated.same (h : w.Seated) (hs : w.SameSeats v) : v.Seated where
  zone_drawn {id} hid := by
    rcases hs.zone_drawn hid with hold | hnew
    · exact Nat.le_trans (h.zone_drawn hold) hs.lastIndex
    · exact hnew
  listed id roll := by
    rw [hs.attendance, h.listed, hs.characterRoom]
    refine exists_congr fun room => and_congr_right fun hroom => ?_
    exact (covers_congr (hs.zone hroom) roll).symm
  once roll := by
    rw [hs.attendance]
    exact h.once roll

theorem SameSeats.of_characters (hzones : v.zones = w.zones) (hlast : w.lastIndex ≤ v.lastIndex)
    (hrooms : ∀ room, (v.room? room).map (fun r => (r.characters, r.zone)) =
      (w.room? room).map fun r => (r.characters, r.zone))
    (hcharacters : ∀ id, v.characterRoom id = w.characterRoom id) : w.SameSeats v where
  attendance roll := by
    cases roll with
    | room room =>
      have hroom := congrArg (Option.map Prod.fst) (hrooms room)
      rw [Option.map_map, Option.map_map] at hroom
      exact congrArg (·.getD []) hroom
    | zone zone => rw [World.attendance, World.attendance, zone?_eq, zone?_eq, hzones]
  characterRoom := hcharacters
  zone {_ room} _ := by
    have hroom := congrArg (Option.map Prod.snd) (hrooms room)
    rwa [Option.map_map, Option.map_map] at hroom
  zone_drawn hid := by
    rw [zone?_eq, hzones] at hid
    exact .inl hid
  lastIndex := hlast

theorem characterRoom_eq (w : World) (id : CharacterId) :
    w.characterRoom id = (w.character? id).bind (·.room) := rfl

theorem Rearranged.sameSeats (h : w.Rearranged v) : w.SameSeats v := by
  refine .of_characters h.zones (Nat.le_of_eq h.lastIndex.symm) (fun room => ?_) fun id => ?_
  · have hroom := congrArg (Option.map fun r => (r.characters, r.zone)) (h.rooms room)
    rw [Option.map_map, Option.map_map] at hroom
    exact hroom
  · have hcharacter := congrArg (Option.bind · Character.room) (h.characters id)
    simp only [Option.bind_map] at hcharacter
    exact hcharacter

theorem SameSeats.modifyRoom (w : World) (id : RoomId) {f : Room → Room}
    (hf : ∀ r, ((f r).characters, (f r).zone) = (r.characters, r.zone)) :
    w.SameSeats { w with rooms := w.rooms.modify id f } := by
  refine .of_characters rfl (Nat.le_refl _) (fun room => ?_) fun _ => rfl
  rw [room?_eq, room?_eq, Table.getElem?_modify]
  split
  · simp only [Option.map_map, Function.comp_def, hf]
  · rfl

theorem SameSeats.trans {u : World} (h : w.SameSeats v) (h' : v.SameSeats u) : w.SameSeats u where
  attendance roll := (h'.attendance roll).trans (h.attendance roll)
  characterRoom id := (h'.characterRoom id).trans (h.characterRoom id)
  zone {id room} hroom := by
    have hstill : v.characterRoom id = some room := (h.characterRoom id).trans hroom
    exact (h'.zone hstill).trans (h.zone hroom)
  zone_drawn hid := by
    rcases h'.zone_drawn hid with hv | hnew
    · rcases h.zone_drawn hv with hw | hnew
      · exact .inl hw
      · exact .inr (Nat.le_trans hnew h'.lastIndex)
    · exact .inr hnew
  lastIndex := Nat.le_trans h.lastIndex h'.lastIndex

theorem SameSeats.refl (w : World) : w.SameSeats w :=
  .of_characters rfl (Nat.le_refl _) (fun _ => rfl) fun _ => rfl

theorem characterRoom_place (hroom : (w.room? room).isSome) (id x : CharacterId) :
    (w.place id room).characterRoom x =
      if id = x then (w.character? x).map fun _ => room else w.characterRoom x := by
  rw [characterRoom_eq, character?_place hroom]
  split
  · cases w.character? x <;> rfl
  · rfl

theorem characterRoom_unplace (w : World) (id x : CharacterId) :
    (w.unplace id).characterRoom x = if id = x then none else w.characterRoom x := by
  rw [characterRoom_eq, character?_unplace]
  split
  · cases w.character? x <;> rfl
  · rfl

/-- Whoever is put in a room is listed last by the room and by its zone. -/
theorem attendance_place (hskeleton : ∀ {id r}, w.room? id = some r → (w.zone? r.zone).isSome)
    (hroom : (w.room? room).isSome) (id : CharacterId) (roll : Roll) :
    (w.place id room).attendance roll =
      w.attendance roll ++ if w.Covers room roll then [id] else [] := by
  obtain ⟨r, hr⟩ := Option.isSome_iff_exists.1 hroom
  obtain ⟨z, hz⟩ := Option.isSome_iff_exists.1 (hskeleton hr)
  rw [place, hr]
  cases roll with
  | room other =>
    rw [attendance, attendance, room?_eq, Table.getElem?_modify, ← room?_eq]
    by_cases hother : room = other
    · subst hother
      simp [hr, Covers, Room.characters]
    · simp [hother, Covers, Ne.symm hother]
  | zone other =>
    rw [attendance, attendance, zone?_eq, Table.getElem?_modify, ← zone?_eq]
    by_cases hother : r.zone = other
    · subst hother
      simp [hz, hr, Covers, Zone.characters]
    · simp [hother, hr, Covers]

theorem filter_eq_self_of_not_mem {ids : List CharacterId} (h : id ∉ ids) :
    ids.filter (· ≠ id) = ids := by
  refine List.filter_eq_self.2 fun x hx => ?_
  rw [decide_eq_true_eq]
  exact fun heq => h (heq ▸ hx)

/-- Whoever is taken from where it stands is struck off all rolls, and nobody else is. -/
theorem Seated.attendance_unplace (h : w.Seated) (hw : w.Skeleton) (id : CharacterId)
    (roll : Roll) : (w.unplace id).attendance roll = (w.attendance roll).filter (· ≠ id) := by
  unfold unplace
  split
  · rename_i hnone
    rw [filter_eq_self_of_not_mem]
    rw [h.listed, hnone]
    simp
  · rename_i room hroom
    obtain ⟨c, hc, hstands⟩ := Option.bind_eq_some_iff.1 hroom
    obtain ⟨room', hroom', hthere⟩ := hw.room_there hc
    obtain rfl : room = room' := Option.some.inj (hstands.symm.trans hroom')
    obtain ⟨r, hr⟩ := Option.isSome_iff_exists.1 hthere
    have hr' : World.room? { w with
        characters := w.characters.modify id fun c => { c with room := none } } room = some r := hr
    dsimp only
    rw [hr']
    -- Only the rolls of its room list the character, so on the others there is nothing to strike.
    have helsewhere (roll : Roll) (hnot : ¬w.Covers room roll) :
        (w.attendance roll).filter (· ≠ id) = w.attendance roll := by
      refine filter_eq_self_of_not_mem fun hmem => ?_
      obtain ⟨other, hother, hcovers⟩ := (h.listed id roll).1 hmem
      obtain rfl : room = other := Option.some.inj (hroom.symm.trans hother)
      exact hnot hcovers
    cases roll with
    | room other =>
      rw [attendance, room?_eq, Table.getElem?_modify, ← room?_eq]
      by_cases hother : room = other
      · subst hother
        simp [attendance, hr, Room.characters]
      · have hnot : ¬w.Covers room (.room other) := Ne.symm hother
        rw [if_neg hother, helsewhere _ hnot]
        rfl
    | zone other =>
      rw [attendance, zone?_eq, Table.getElem?_modify, ← zone?_eq]
      by_cases hother : r.zone = other
      · subst hother
        rw [if_pos rfl, attendance]
        cases w.zone? r.zone with
        | none => rfl
        | some z => simp [Zone.characters]
      · rw [if_neg hother, helsewhere _ (by simpa [Covers, hr] using hother)]
        rfl

theorem Seated.unplace (h : w.Seated) (hw : w.Skeleton) (id : CharacterId) :
    (w.unplace id).Seated where
  zone_drawn {zone} hzone := by
    have hlast := (sameGround_unplace w id).lastIndex
    refine Nat.le_trans (h.zone_drawn ?_) hlast
    unfold World.unplace at hzone
    split at hzone
    · exact hzone
    · dsimp only at hzone
      split at hzone
      · exact hzone
      · rw [zone?_eq, Table.getElem?_modify] at hzone
        split at hzone
        · rwa [Option.isSome_map] at hzone
        · exact hzone
  listed x roll := by
    rw [h.attendance_unplace hw, List.mem_filter, h.listed, characterRoom_unplace]
    by_cases hx : id = x
    · subst hx
      simp
    · have hcovers (room : RoomId) : (w.unplace id).Covers room roll ↔ w.Covers room roll :=
        covers_congr ((sameGround_unplace w id).rooms room) roll
      simp only [hcovers, if_neg hx, ne_eq, Ne.symm hx, not_false_eq_true, decide_true, and_true]
  once roll := by
    rw [h.attendance_unplace hw]
    exact (h.once roll).filter _

/-- Somebody who stands nowhere can be put in any room that is there. -/
theorem Seated.place (h : w.Seated)
    (hskeleton : ∀ {id r}, w.room? id = some r → (w.zone? r.zone).isSome)
    (hroom : (w.room? room).isSome) (hthere : (w.character? id).isSome)
    (hnowhere : w.characterRoom id = none) : (w.place id room).Seated where
  zone_drawn {zone} hzone := by
    have hlast := (sameGround_place w id room).lastIndex
    refine Nat.le_trans (h.zone_drawn ?_) hlast
    obtain ⟨r, hr⟩ := Option.isSome_iff_exists.1 hroom
    rw [World.place, hr, zone?_eq, Table.getElem?_modify] at hzone
    split at hzone
    · rwa [Option.isSome_map] at hzone
    · exact hzone
  listed x roll := by
    have hcovers (room' : RoomId) : (w.place id room).Covers room' roll ↔ w.Covers room' roll :=
      covers_congr ((sameGround_place w id room).rooms room') roll
    rw [attendance_place hskeleton hroom, List.mem_append, h.listed, characterRoom_place hroom]
    by_cases hx : id = x
    · subst hx
      obtain ⟨c, hc⟩ := Option.isSome_iff_exists.1 hthere
      rw [hnowhere, if_pos rfl, hc, Option.map_some]
      simp only [hcovers, Option.some.injEq, exists_eq_left', reduceCtorEq, false_and,
        exists_false, false_or]
      split
      · rename_i hcov
        simpa using hcov
      · rename_i hcov
        simpa using hcov
    · simp only [hcovers, if_neg hx]
      have hnot : x ∉ if w.Covers room roll then [id] else [] := by
        split
        · simpa using Ne.symm hx
        · exact List.not_mem_nil
      simp only [hnot, or_false]
  once roll := by
    rw [attendance_place hskeleton hroom]
    split
    · refine List.nodup_append.2 ⟨h.once roll, by simp, fun x hx y hy => ?_⟩
      rw [List.mem_singleton] at hy
      subst hy
      rintro rfl
      obtain ⟨other, hother, -⟩ := (h.listed x roll).1 hx
      rw [hnowhere] at hother
      cases hother
    · rw [List.append_nil]
      exact h.once roll

theorem seated_empty : empty.Seated where
  zone_drawn h := by cases h
  listed id roll := by cases roll <;> simp [attendance, characterRoom, room?_eq, zone?_eq,
    character?_eq, empty]
  once roll := by cases roll <;> exact .nil

theorem sameSeats_allocate (w : World) : w.SameSeats w.allocate.2 :=
  .of_characters rfl (Nat.le_succ _) (fun _ => rfl) fun _ => rfl

theorem Seated.sameSeats_addZone (h : w.Seated) (key name : String) :
    w.SameSeats (w.addZone key name).2 := by
  unfold addZone
  split
  · exact .refl w
  · split
    · exact .refl w
    · dsimp only [allocate]
      -- The new zone replaces none, and lists nobody.
      have hnew : w.zone? ⟨w.lastIndex + 1⟩ = none := by
        refine Option.not_isSome_iff_eq_none.1 fun hthere => ?_
        exact Nat.not_succ_le_self _ (h.zone_drawn hthere)
      refine ⟨fun roll => ?_, fun _ => rfl, fun _ => rfl, fun {id} hid => ?_, Nat.le_succ _⟩
      · cases roll with
        | room room => rfl
        | zone zone =>
          rw [World.attendance, World.attendance, zone?_eq, Table.getElem?_insert]
          split
          · rename_i hzone
            subst hzone
            rw [hnew]
            rfl
          · rfl
      · rw [zone?_eq, Table.getElem?_insert] at hid
        split at hid
        · rename_i hzone
          exact .inr (Nat.le_of_eq (congrArg Id.index hzone).symm)
        · exact .inl hid

theorem sameSeats_addRoom (hw : w.Skeleton) (zone : ZoneId) (key title description : String) :
    w.SameSeats (w.addRoom zone key title description).2 := by
  unfold addRoom
  split
  · exact .refl w
  · split
    · exact .refl w
    · split
      · exact .refl w
      · dsimp only [allocate]
        have hnew := hw.fresh.1
        refine ⟨fun roll => ?_, fun _ => rfl, fun {id room} hroom => ?_, fun {id} hid => ?_,
          Nat.le_succ _⟩
        · cases roll with
          | room room =>
            rw [World.attendance, World.attendance, room?_eq, Table.getElem?_insert]
            split
            · rename_i hroom
              subst hroom
              rw [hnew]
              rfl
            · rfl
          | zone other =>
            rw [World.attendance, World.attendance, zone?_eq, zone?_eq, Table.getElem?_modify]
            split
            · rw [Option.map_map]
              rfl
            · rfl
        · -- Nobody stands in the new room yet.
          obtain ⟨c, hc, hstands⟩ := Option.bind_eq_some_iff.1 hroom
          obtain ⟨room', hroom', hthere⟩ := hw.room_there hc
          obtain rfl : room = room' := Option.some.inj (hstands.symm.trans hroom')
          rw [room?_eq, Table.getElem?_insert, if_neg]
          · rfl
          · rintro rfl
            rw [hnew] at hthere
            cases hthere
        · rw [zone?_eq, Table.getElem?_modify] at hid
          split at hid
          · rw [Option.isSome_map] at hid
            exact .inl hid
          · exact .inl hid

theorem sameSeats_setDoorClosed (w : World) (room : RoomId) (d : Direction) (closed : Bool) :
    w.SameSeats (w.setDoorClosed room d closed).2 := by
  unfold setDoorClosed
  split
  · exact .refl w
  · dsimp only
    have hnear := SameSeats.modifyRoom w room
      (f := fun r => { r with exits := r.exits.modify d (Exit.setClosed closed) }) fun _ => rfl
    split
    · exact hnear.trans (.modifyRoom _ _ fun _ => rfl)
    · exact hnear

theorem sameSeats_putOffBalance {duration : Duration} {reply : Reply Unit}
    (hr : w.putOffBalance id duration = some reply) : w.SameSeats reply.2 := by
  unfold putOffBalance at hr
  obtain ⟨deadline, -, rfl⟩ := Option.map_eq_some_iff.1 hr
  split
  · exact .refl w
  · refine .of_characters rfl (Nat.le_refl _) (fun _ => rfl) fun x => ?_
    rw [characterRoom_eq, characterRoom_eq, character?_eq, Table.getElem?_modify]
    split
    · cases hc : w.characters[x]? <;> simp [character?_eq, hc]
    · rfl

theorem sameSeats_spawnItem (w : World) (place : ItemLocation) (t : ItemTemplate) :
    w.SameSeats (w.spawnItem place t).2 := by
  unfold spawnItem
  split
  · exact .refl w
  · dsimp only
    split
    · exact sameSeats_allocate w
    · rename_i i _
      have hinsert : w.SameSeats { w.allocate.2 with
          items := w.allocate.2.items.insert ⟨w.allocate.1⟩ i } :=
        .of_characters rfl (Nat.le_succ _) (fun _ => rfl) fun _ => rfl
      have hattach := hinsert.trans (rearranged_attach _ ⟨w.allocate.1⟩ place).sameSeats
      split
      all_goals
        rename_i hres
        rw [hres] at hattach
        exact hattach

/-- A character that is made is nobody who was there before, and comes last where it appears. -/
theorem Seated.spawnCharacter_spec (h : w.Seated) (hw : w.Skeleton) (room : RoomId)
    (t : CharacterTemplate) :
    (w.spawnCharacter room t).2.Seated ∧
      ∀ id, (w.spawnCharacter room t).1 = .ok id → w.character? id = none ∧
        ∀ roll, (w.spawnCharacter room t).2.attendance roll =
          w.attendance roll ++ if w.Covers room roll then [id] else [] := by
  unfold spawnCharacter
  split
  · exact ⟨h, fun _ hid => by cases hid⟩
  · rename_i zone hzone
    dsimp only
    split
    · exact ⟨h.same (sameSeats_allocate w), fun _ hid => by cases hid⟩
    · rename_i c hc
      obtain ⟨-, hnowhere, -⟩ := CharacterTemplate.of_build hc
      have hnew : w.character? ⟨w.allocate.1⟩ = none := hw.fresh.2.1
      have hroom := room_isSome_of_roomZoneKey hzone
      -- The character is made nowhere, and then put in the room.
      have hmade : w.SameSeats { w.allocate.2 with
          characters := w.allocate.2.characters.insert ⟨w.allocate.1⟩ c } := by
        refine .of_characters rfl (Nat.le_succ _) (fun _ => rfl) fun x => ?_
        rw [characterRoom_eq, characterRoom_eq, character?_eq, Table.getElem?_insert]
        split
        · rename_i hx
          subst hx
          rw [hnew, Option.bind_some, hnowhere]
          rfl
        · rfl
      have hthere : World.characterRoom { w.allocate.2 with
          characters := w.allocate.2.characters.insert ⟨w.allocate.1⟩ c } ⟨w.allocate.1⟩ =
            none := by
        rw [hmade.characterRoom, characterRoom_eq, hnew]
        rfl
      constructor
      · refine (h.same hmade).place hw.zone_there hroom ?_ hthere
        rw [character?_eq, Table.getElem?_insert, if_pos rfl]
        rfl
      · rintro id ⟨⟩
        refine ⟨hnew, fun roll => ?_⟩
        rw [attendance_place (w := { w.allocate.2 with
          characters := w.allocate.2.characters.insert ⟨w.allocate.1⟩ c }) hw.zone_there hroom,
          hmade.attendance]
        rfl

/-- A character that is moved comes last in the room and the zone it comes to, also if it was
there before, and leaves the others in their order. -/
theorem Seated.moveCharacter_spec (h : w.Seated) (hw : w.Skeleton) (id : CharacterId)
    (room : RoomId) :
    (w.moveCharacter id room).2.Seated ∧
      ((w.moveCharacter id room).1 = .ok () →
        ∀ roll, (w.moveCharacter id room).2.attendance roll =
          (w.attendance roll).filter (· ≠ id) ++ if w.Covers room roll then [id] else []) := by
  unfold moveCharacter
  split
  · exact ⟨h, fun hok => by cases hok⟩
  · rename_i hroom
    split
    · exact ⟨h, fun hok => by cases hok⟩
    · rename_i hthere
      have hground := sameGround_unplace w id
      have hroom' : ((w.unplace id).room? room).isSome := by
        rw [hground.room_isSome]
        simpa [room?_eq] using hroom
      have hthere' : ((w.unplace id).character? id).isSome := by
        rw [character?_unplace, if_pos rfl, Option.isSome_map]
        simpa [character?_eq] using hthere
      have hnowhere : (w.unplace id).characterRoom id = none := by
        rw [characterRoom_unplace, if_pos rfl]
      have hzones {id' : RoomId} {r : Room} (hr : (w.unplace id).room? id' = some r) :
          ((w.unplace id).zone? r.zone).isSome := by
        have hmap := hground.rooms id'
        rw [hr, Option.map_some, eq_comm] at hmap
        obtain ⟨r₀, hr₀, hzone⟩ := Option.map_eq_some_iff.1 hmap
        rw [← hzone]
        exact hground.zones _ (hw.zone_there hr₀)
      refine ⟨(h.unplace hw id).place hzones hroom' hthere' hnowhere, fun _ roll => ?_⟩
      have hcovers := covers_congr (hground.rooms room) roll
      rw [attendance_place hzones hroom', h.attendance_unplace hw]
      simp only [hcovers]

/-- A character that leaves the world is struck off all rolls. -/
theorem Seated.despawnCharacter_spec (h : w.Seated) (hw : w.Skeleton) (id : CharacterId) :
    (w.despawnCharacter id).2.Seated ∧
      ((w.despawnCharacter id).1 = .ok () → ∀ roll,
        (w.despawnCharacter id).2.attendance roll = (w.attendance roll).filter (· ≠ id)) := by
  have hleave {u : World} (hu : w.Rearranged u) :
      Seated { u.unplace id with characters := (u.unplace id).characters.erase id } ∧
        ∀ roll, attendance { u.unplace id with
          characters := (u.unplace id).characters.erase id } roll =
            (w.attendance roll).filter (· ≠ id) := by
    have hseated := h.same hu.sameSeats
    have hskeleton := hw.rearranged hu
    have herase : (u.unplace id).SameSeats
        { u.unplace id with characters := (u.unplace id).characters.erase id } := by
      refine .of_characters rfl (Nat.le_refl _) (fun _ => rfl) fun x => ?_
      have hgone := characterRoom_unplace u id x
      rw [characterRoom_eq, character?_eq, Table.getElem?_erase]
      split
      · rename_i hx
        rw [hgone, if_pos hx]
        rfl
      · rfl
    refine ⟨(hseated.unplace hskeleton id).same herase, fun roll => ?_⟩
    rw [herase.attendance, hseated.attendance_unplace hskeleton, hu.sameSeats.attendance]
  obtain ⟨v, hdrop, ⟨e, hreply⟩ | hreply⟩ := despawnCharacter_cases w id
  · rw [hreply]
    exact ⟨h.same hdrop.sameSeats, fun hok => by cases hok⟩
  · rw [hreply]
    exact ⟨(hleave hdrop).1, fun _ => (hleave hdrop).2⟩

theorem Seated.perform (h : w.Seated) (hw : w.Skeleton) {op : Op} {reply : Reply op.Result}
    (hr : w.perform op = some reply) : reply.2.Seated := by
  cases op with
  | putOffBalance id duration => exact h.same (sameSeats_putOffBalance hr)
  | advance delta =>
    obtain ⟨v, hv, rfl⟩ := Option.map_eq_some_iff.1 hr
    obtain ⟨now, -, rfl⟩ := Option.map_eq_some_iff.1 hv
    exact h.same (.of_characters rfl (Nat.le_refl _) (fun _ => rfl) fun _ => rfl)
  | addZone key name =>
    cases hr
    exact h.same (h.sameSeats_addZone key name)
  | addRoom zone key title description =>
    cases hr
    exact h.same (sameSeats_addRoom hw zone key title description)
  | addExit room e =>
    cases hr
    dsimp only [addExit]
    split
    · exact h
    · exact h.same (.modifyRoom w room fun _ => rfl)
  | spawnCharacter room t =>
    cases hr
    exact (h.spawnCharacter_spec hw room t).1
  | moveCharacter id room =>
    cases hr
    exact (h.moveCharacter_spec hw id room).1
  | despawnCharacter id =>
    cases hr
    exact (h.despawnCharacter_spec hw id).1
  | spawnItem place t =>
    cases hr
    exact h.same (sameSeats_spawnItem w place t)
  | moveItem id target =>
    cases hr
    exact h.same (rearranged_moveItem w id target).sameSeats
  | setDoorClosed room d closed =>
    cases hr
    exact h.same (sameSeats_setDoorClosed w room d closed)

theorem Reachable.seated (h : w.Reachable) : w.Seated := by
  have hkept : ∀ (u : World) (op : Op) (reply : Reply op.Result), u.Sound ∧ u.Seated →
      u.perform op = some reply → reply.2.Sound ∧ reply.2.Seated :=
    fun u op reply hu hr => ⟨sound_perform hu.1 hr, hu.2.perform hu.1.toSkeleton hr⟩
  exact (Reaches.keeps hkept h ⟨sound_empty, seated_empty⟩).2

/-- Each character stands in one room of one zone, which list it once; no other room and no other
zone lists it, and nothing else is listed anywhere. -/
structure Occupied (w : World) : Prop where
  somewhere : ∀ {id}, (w.character? id).isSome → ∃ room zone,
    w.characterRoom id = some room ∧ w.characterZone id = some zone ∧
      ∀ roll, (w.attendance roll).count id =
        if roll = .room room ∨ roll = .zone zone then 1 else 0
  live : ∀ {id roll}, id ∈ w.attendance roll → (w.character? id).isSome

theorem Seated.occupied (h : w.Seated) (hw : w.Skeleton) : w.Occupied where
  somewhere {id} hid := by
    obtain ⟨c, hc⟩ := Option.isSome_iff_exists.1 hid
    obtain ⟨room, hroom, hthere⟩ := hw.room_there hc
    obtain ⟨r, hr⟩ := Option.isSome_iff_exists.1 hthere
    have hstands : w.characterRoom id = some room := by
      rw [characterRoom_eq, hc]
      exact hroom
    have hcovers (roll : Roll) : w.Covers room roll ↔ roll = .room room ∨ roll = .zone r.zone := by
      cases roll with
      | room other => simp [Covers]
      | zone other => simp [Covers, hr, eq_comm]
    refine ⟨room, r.zone, hstands, ?_, fun roll => ?_⟩
    · simp [characterZone, hstands, hr]
    · have hmem : id ∈ w.attendance roll ↔ w.Covers room roll := by
        rw [h.listed, hstands]
        simp
      rw [(h.once roll).count]
      simp only [hmem, hcovers]
  live {id roll} hmem := by
    obtain ⟨room, hroom, -⟩ := (h.listed id roll).1 hmem
    obtain ⟨c, hc, -⟩ := Option.bind_eq_some_iff.1 hroom
    exact Option.isSome_of_eq_some hc

/-- In a world that comes about by operations everybody stands where rooms and zones say. Whoever
is made or moved comes last where it arrives and leaves the order of the others alone; whoever is
removed is only struck off. -/
theorem Reachable.occupancy_consistent (h : w.Reachable) :
    w.Occupied ∧
      (∀ room t id v, w.spawnCharacter room t = (.ok id, v) → w.character? id = none ∧
        ∀ roll, v.attendance roll =
          w.attendance roll ++ if w.Covers room roll then [id] else []) ∧
      (∀ id room v, w.moveCharacter id room = (.ok (), v) → ∀ roll, v.attendance roll =
        (w.attendance roll).filter (· ≠ id) ++ if w.Covers room roll then [id] else []) ∧
      ∀ id v, w.despawnCharacter id = (.ok (), v) → ∀ roll,
        v.attendance roll = (w.attendance roll).filter (· ≠ id) := by
  have hw := h.sound.toSkeleton
  have hseated := h.seated
  refine ⟨hseated.occupied hw, fun room t id v hv => ?_, fun id room v hv => ?_,
    fun id v hv => ?_⟩
  · have hspawn := (hseated.spawnCharacter_spec hw room t).2
    rw [hv] at hspawn
    exact hspawn id rfl
  · have hmove := (hseated.moveCharacter_spec hw id room).2
    rw [hv] at hmove
    exact hmove rfl
  · have hdespawn := (hseated.despawnCharacter_spec hw id).2
    rw [hv] at hdespawn
    exact hdespawn rfl

/-- A villager and a guard stand in the square; the villager moves to where it already is. -/
def villagerTurned : List Op :=
  [.addZone "village" "The Village", .addRoom ⟨1⟩ "square" "Village Square" "",
    .spawnCharacter ⟨2⟩ (.npc "villager" "a villager" []),
    .spawnCharacter ⟨2⟩ (.npc "guard" "a guard" [])]

theorem occupancy_consistent_villagerTurned :
    ∃ w v, empty.run villagerTurned = some w ∧ w.attendance (.room ⟨2⟩) = [⟨3⟩, ⟨4⟩] ∧
      w.Occupied ∧ w.moveCharacter ⟨3⟩ ⟨2⟩ = (.ok (), v) ∧
      v.attendance (.room ⟨2⟩) = [⟨4⟩, ⟨3⟩] := by
  have hrun : (empty.run villagerTurned).isSome := by decide
  obtain ⟨w, hw⟩ := Option.isSome_iff_exists.1 hrun
  have hbefore : (empty.run villagerTurned).map (·.attendance (.room ⟨2⟩)) =
      some [⟨3⟩, ⟨4⟩] := by decide
  have hmoved : (empty.run villagerTurned).map
      (fun w => (w.moveCharacter ⟨3⟩ ⟨2⟩).1.toOption) = some (some ()) := by decide
  rw [hw, Option.map_some, Option.some.injEq] at hbefore hmoved
  obtain ⟨hoccupied, -, hmove, -⟩ := Reachable.occupancy_consistent ⟨villagerTurned, hw⟩
  have hok : w.moveCharacter ⟨3⟩ ⟨2⟩ = (.ok (), (w.moveCharacter ⟨3⟩ ⟨2⟩).2) := by
    cases hreply : w.moveCharacter ⟨3⟩ ⟨2⟩ with
    | mk result v =>
      rw [hreply] at hmoved
      cases result with
      | error e => cases hmoved
      | ok done => rfl
  refine ⟨w, _, hw, hbefore, hoccupied, hok, ?_⟩
  have hafter := hmove ⟨3⟩ ⟨2⟩ _ hok (.room ⟨2⟩)
  have hcovers : w.Covers ⟨2⟩ (.room ⟨2⟩) := rfl
  rw [hbefore, if_pos hcovers] at hafter
  exact hafter

end World

end TextWorld

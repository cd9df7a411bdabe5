import TextWorld.Proofs.World.Ground
import TextWorld.Proofs.World.Reachable

/-!
Items are where they say they are. In every world that comes about by operations each item is in
exactly one place, which is there and lists it once, and no place lists anything else.
-/

namespace TextWorld

namespace World

/-- Every item is in one place, and every place lists the items that are in it. -/
structure Sound (w : World) : Prop extends Skeleton w where
  consistent : w.Consistent
  located : ∀ {id}, (w.item? id).isSome → (w.locationOf id).isSome

variable {w v : World}

theorem Sound.sameItems (h : w.Sound) (hs : w.SameItems v) (hv : v.Skeleton) : v.Sound where
  toSkeleton := hv
  consistent id place := by
    rw [hs.listing, locationOf, item?_eq, hs.items]
    exact h.consistent id place
  located {id} hi := by
    rw [item?_eq, hs.items] at hi
    rw [locationOf, item?_eq, hs.items]
    exact h.located hi

/-- A sound world stays sound as long as its characters stand in rooms that are there. -/
theorem Sound.sameGround (h : w.Sound) (hg : w.SameGround v)
    (hc : ∀ {id c}, v.character? id = some c →
      (∃ room, c.room = some room ∧ (w.room? room).isSome) ∧ id.index ≤ v.lastIndex) :
    v.Sound := by
  refine h.sameItems hg.toSameItems ⟨?_, ?_, ?_, ?_, ?_⟩
  · intro id r hr
    have hmap := hg.rooms id
    rw [hr, Option.map_some, eq_comm] at hmap
    obtain ⟨r₀, hr₀, hzone⟩ := Option.map_eq_some_iff.1 hmap
    rw [← hzone]
    exact hg.zones _ (h.zone_there hr₀)
  · intro id c hid
    obtain ⟨⟨room, hroom, hthere⟩, _⟩ := hc hid
    exact ⟨room, hroom, by rw [hg.room_isSome]; exact hthere⟩
  · intro id hid
    rw [hg.room_isSome] at hid
    exact Nat.le_trans (h.room_drawn hid) hg.lastIndex
  · intro id hid
    obtain ⟨c, hid⟩ := Option.isSome_iff_exists.1 hid
    exact (hc hid).2
  · intro id hid
    rw [item?_eq, hg.items] at hid
    exact Nat.le_trans (h.item_drawn hid) hg.lastIndex

theorem Sound.character (h : w.Sound) {id : CharacterId} {c : Character}
    (hc : w.character? id = some c) :
    (∃ room, c.room = some room ∧ (w.room? room).isSome) ∧ id.index ≤ w.lastIndex :=
  ⟨h.room_there hc, h.character_drawn (Option.isSome_of_eq_some hc)⟩

theorem sound_empty : empty.Sound where
  zone_there h := by cases h
  room_there h := by cases h
  room_drawn h := by cases h
  character_drawn h := by cases h
  item_drawn h := by cases h
  consistent id place := by cases place <;> simp [World.listing, locationOf, room?_eq,
    character?_eq, item?_eq, empty]
  located h := by cases h

theorem sound_addZone (h : w.Sound) (key name : String) : (w.addZone key name).2.Sound := by
  unfold addZone
  split
  · exact h
  · split
    · exact h
    · refine h.sameGround ⟨⟨rfl, fun place => by cases place <;> rfl⟩, fun id hid => ?_,
        fun _ => rfl, Nat.le_succ _⟩ fun {id c} hc => ?_
      · dsimp only [allocate]
        rw [zone?_eq, Table.getElem?_insert]
        split
        · rfl
        · exact hid
      · obtain ⟨hroom, hdrawn⟩ := h.character hc
        exact ⟨hroom, Nat.le_succ_of_le hdrawn⟩

theorem sound_addExit (h : w.Sound) (room : RoomId) (e : Exit) : (w.addExit room e).2.Sound := by
  unfold addExit
  split
  · exact h
  · exact h.sameGround (.modifyRoom w room (fun _ => rfl) fun _ => rfl) fun hc => h.character hc

theorem sound_addRoom (h : w.Sound) (zone : ZoneId) (key title description : String) :
    (w.addRoom zone key title description).2.Sound := by
  unfold addRoom
  split
  · exact h
  · rename_i z hz
    split
    · exact h
    · split
      · exact h
      · dsimp only [allocate]
        -- The new room replaces none, and lists nothing.
        have hnew := h.fresh.1
        refine h.sameItems ⟨rfl, fun place => ?_⟩ ⟨?_, ?_, ?_, ?_, ?_⟩
        · cases place with
          | room room =>
            rw [World.listing, World.listing, room?_eq, Table.getElem?_insert]
            split
            · rename_i hroom
              subst hroom
              rw [hnew]
              rfl
            · rfl
          | _ => rfl
        · intro id r hr
          rw [room?_eq, Table.getElem?_insert] at hr
          rw [zone?_eq, Table.getElem?_modify]
          have hzone : (w.zone? r.zone).isSome := by
            split at hr
            · cases hr
              rw [hz]
              rfl
            · exact h.zone_there hr
          split
          · rw [Option.isSome_map]
            exact hzone
          · exact hzone
        · intro id c hc
          obtain ⟨room, hroom, hthere⟩ := h.room_there hc
          refine ⟨room, hroom, ?_⟩
          rw [room?_eq, Table.getElem?_insert]
          split
          · rfl
          · exact hthere
        · intro id hid
          rw [room?_eq, Table.getElem?_insert] at hid
          split at hid
          · rename_i hroom
            exact Nat.le_of_eq (congrArg Id.index hroom).symm
          · exact Nat.le_succ_of_le (h.room_drawn hid)
        · exact fun hid => Nat.le_succ_of_le (h.character_drawn hid)
        · exact fun hid => Nat.le_succ_of_le (h.item_drawn hid)

theorem sound_allocate (h : w.Sound) : w.allocate.2.Sound :=
  h.sameGround (.allocate w) fun {id c} hc => by
    obtain ⟨hroom, hdrawn⟩ := h.character hc
    exact ⟨hroom, Nat.le_succ_of_le hdrawn⟩

/-- A world stays sound when a character is put in a room that is there, wherever it was. -/
theorem Sound.place (h : w.Sound) (hg : w.SameGround v) {id : CharacterId} {room : RoomId}
    (hroom : (w.room? room).isSome)
    (hc : ∀ {x c}, v.character? x = some c → x.index ≤ v.lastIndex ∧
      (x ≠ id → ∃ room, c.room = some room ∧ (w.room? room).isSome)) :
    (v.place id room).Sound := by
  have hplace := sameGround_place v id room
  refine h.sameGround (hg.trans hplace) fun {x c} hx => ?_
  rw [character?_place (by rw [hg.room_isSome]; exact hroom)] at hx
  split at hx
  · obtain ⟨c₀, hc₀, rfl⟩ := Option.map_eq_some_iff.1 hx
    exact ⟨⟨room, rfl, hroom⟩, Nat.le_trans (hc hc₀).1 hplace.lastIndex⟩
  · rename_i hne
    exact ⟨(hc hx).2 (Ne.symm hne), Nat.le_trans (hc hx).1 hplace.lastIndex⟩

theorem sound_spawnCharacter (h : w.Sound) (room : RoomId) (t : CharacterTemplate) :
    (w.spawnCharacter room t).2.Sound := by
  unfold spawnCharacter
  split
  · exact h
  · rename_i zone hzone
    dsimp only
    split
    · exact sound_allocate h
    · rename_i c hc
      obtain ⟨-, -, hi, he, -⟩ := CharacterTemplate.of_build hc
      have hnew : w.allocate.2.character? ⟨w.allocate.1⟩ = none := h.fresh.2.1
      refine h.place ((SameGround.allocate w).trans (.insertCharacter hnew hi he))
        (room_isSome_of_roomZoneKey hzone) fun {x d} hd => ?_
      rw [character?_eq, Table.getElem?_insert] at hd
      split at hd
      · rename_i hx
        subst hx
        exact ⟨Nat.le_refl _, fun hne => absurd rfl hne⟩
      · obtain ⟨hd, hdrawn⟩ := h.character hd
        exact ⟨Nat.le_succ_of_le hdrawn, fun _ => hd⟩

theorem sound_moveCharacter (h : w.Sound) (id : CharacterId) (room : RoomId) :
    (w.moveCharacter id room).2.Sound := by
  unfold moveCharacter
  split
  · exact h
  · rename_i hroom
    split
    · exact h
    · have hunplace := sameGround_unplace w id
      refine h.place hunplace (by simpa [room?_eq] using hroom) fun {x c} hc => ?_
      rw [character?_unplace] at hc
      split at hc
      · rename_i hx
        subst hx
        obtain ⟨c₀, hc₀, rfl⟩ := Option.map_eq_some_iff.1 hc
        exact ⟨Nat.le_trans (h.character hc₀).2 hunplace.lastIndex, fun hne => absurd rfl hne⟩
      · obtain ⟨hstand, hdrawn⟩ := h.character hc
        exact ⟨Nat.le_trans hdrawn hunplace.lastIndex, fun _ => hstand⟩

theorem sound_setDoorClosed (h : w.Sound) (room : RoomId) (d : Direction) (closed : Bool) :
    (w.setDoorClosed room d closed).2.Sound := by
  unfold setDoorClosed
  split
  · exact h
  · dsimp only
    have hnear := SameGround.modifyRoom w room
      (f := fun r => { r with exits := r.exits.modify d (Exit.setClosed closed) }) (fun _ => rfl)
      fun _ => rfl
    split
    · exact h.sameGround (hnear.trans (.modifyRoom _ _ (fun _ => rfl) fun _ => rfl)) fun hc =>
        h.character hc
    · exact h.sameGround hnear fun hc => h.character hc

theorem sound_putOffBalance (h : w.Sound) {id : CharacterId} {duration : Duration}
    {reply : Reply Unit} (hr : w.putOffBalance id duration = some reply) : reply.2.Sound := by
  unfold putOffBalance at hr
  obtain ⟨deadline, -, rfl⟩ := Option.map_eq_some_iff.1 hr
  split
  · exact h
  · refine h.sameGround (.modifyCharacter w id (fun _ => rfl) fun _ => rfl) fun {x c} hc => ?_
    dsimp only at hc ⊢
    rw [character?_eq, Table.getElem?_modify] at hc
    split at hc
    · obtain ⟨c₀, hc₀, rfl⟩ := Option.map_eq_some_iff.1 hc
      have hstand := h.character hc₀
      exact hstand
    · exact h.character hc

theorem sound_advance (h : w.Sound) {delta : Duration} (hv : w.advance delta = some v) :
    v.Sound := by
  unfold advance at hv
  obtain ⟨now, -, rfl⟩ := Option.map_eq_some_iff.1 hv
  exact h.sameGround ⟨⟨rfl, fun place => by cases place <;> rfl⟩, fun _ h => h, fun _ => rfl,
    Nat.le_refl _⟩ fun hc => h.character hc

theorem isSome_whereAfter {id : ItemId} {target : ItemLocation} {x : ItemId}
    (h : id = x ∨ (w.locationOf x).isSome) : (w.whereAfter id target x).isSome := by
  unfold whereAfter
  split
  · rfl
  · rename_i hne
    have hx := h.resolve_left hne
    split
    · split
      · rfl
      · exact hx
    · exact hx

/-- A sound world whose items have been moved around is sound if it is consistent and every item
is somewhere. -/
theorem Sound.rearranged (h : w.Sound) (hr : w.Rearranged v) (hcons : v.Consistent)
    (hloc : ∀ x, (w.locationOf x).isSome → (v.locationOf x).isSome) : v.Sound where
  toSkeleton := h.toSkeleton.rearranged hr
  consistent := hcons
  located {id} hid := by
    rw [hr.item_isSome] at hid
    exact hloc id (h.located hid)

theorem sound_moveItem (h : w.Sound) (id : ItemId) (target : ItemLocation) :
    (w.moveItem id target).2.Sound := by
  have hr := rearranged_moveItem w id target
  rcases moveItem_spec h.consistent id target with ⟨e, he⟩ | ⟨v, hv, -, -, -, hcons, hloc⟩
  · rw [he]
    exact h
  · rw [hv] at hr ⊢
    refine h.rearranged hr hcons fun x hx => ?_
    rw [hloc]
    exact isSome_whereAfter (.inr hx)

/-- Dropping items in a room never stops halfway, and moves these items and no others. -/
theorem dropAll_spec (h : w.Sound) {room : RoomId} (hroom : (w.room? room).isSome)
    {items : List ItemId} (hitems : ∀ x ∈ items, (w.item? x).isSome) :
    ∃ v, w.dropAll room items = (.ok (), v) ∧ v.Sound ∧
      ∀ x, v.locationOf x = if x ∈ items then some (.room room) else w.locationOf x := by
  induction items generalizing w with
  | nil => exact ⟨w, rfl, h, fun x => by simp⟩
  | cons item items ih =>
    obtain ⟨zone, hzone⟩ := h.toSkeleton.roomZoneKey hroom
    have htarget : w.locationZoneKey (.room room) = .ok zone := hzone
    obtain ⟨u, hu, -, huloc⟩ := moveItem_ok h.consistent (hitems item (by simp)) (by simp) htarget
    have hr := rearranged_moveItem w item (.room room)
    have hsound := sound_moveItem h item (.room room)
    rw [hu] at hr hsound
    obtain ⟨v, hv, hvsound, hvloc⟩ := ih hsound (by rw [hr.room_isSome]; exact hroom)
      fun x hx => by
        rw [hr.item_isSome]
        exact hitems x (List.mem_cons_of_mem _ hx)
    refine ⟨v, by rw [dropAll, hu]; exact hv, hvsound, fun x => ?_⟩
    rw [hvloc, huloc]
    by_cases hx : item = x
    · subst hx
      simp [whereAfter]
    · simp [whereAfter, hx, Ne.symm hx]

/-- Once everything a character has is dropped, it has nothing. -/
theorem listing_after_dropAll (h : w.Sound) (hv : v.Sound) {id : CharacterId} {c : Character}
    (hc : w.character? id = some c) {room : RoomId}
    (hloc : ∀ x, v.locationOf x =
      if x ∈ c.belongings then some (.room room) else w.locationOf x) :
    v.listing (.inventory id) = [] ∧ ∀ slot, v.listing (.equipped id slot) = [] := by
  have hgone : ∀ place x, (∀ x, x ∈ w.listing place → x ∈ c.belongings) →
      place ≠ .room room → x ∉ v.listing place := by
    intro place x hown hne hx
    rw [hv.consistent, hloc] at hx
    split at hx
    · exact hne (Option.some.inj hx).symm
    · rename_i hnot
      exact hnot (hown x ((h.consistent x place).2 hx))
  constructor
  · refine List.eq_nil_iff_forall_not_mem.2 fun x => hgone _ x (fun x hx => ?_) (by simp)
    rw [World.listing, hc] at hx
    exact List.mem_append_left _ hx
  · refine fun slot => List.eq_nil_iff_forall_not_mem.2 fun x => hgone _ x (fun x hx => ?_)
      (by simp)
    rw [World.listing, hc, Option.bind_some, Option.mem_toList] at hx
    exact List.mem_append_right _ (Table.mem_values.2 ⟨slot, hx⟩)

theorem Sound.belongings_there (h : w.Sound) {id : CharacterId} {c : Character}
    (hc : w.character? id = some c) : ∀ x ∈ c.belongings, (w.item? x).isSome := by
  intro x hx
  rcases List.mem_append.1 hx with hx | hx
  · refine isSome_of_locationOf ((h.consistent x (.inventory id)).1 ?_)
    rw [World.listing, hc]
    exact hx
  · obtain ⟨slot, hx⟩ := Table.mem_values.1 hx
    refine isSome_of_locationOf ((h.consistent x (.equipped id slot)).1 ?_)
    rw [World.listing, hc, Option.bind_some, Option.mem_toList]
    exact hx

/-- Despawning keeps a world sound and leaves each item where it is or in a room. -/
theorem despawnCharacter_spec (h : w.Sound) (id : CharacterId) :
    (w.despawnCharacter id).2.Sound ∧
      ∀ x, (w.despawnCharacter id).2.locationOf x = w.locationOf x ∨
        ∃ room, (w.despawnCharacter id).2.locationOf x = some (.room room) := by
  unfold despawnCharacter
  split
  · exact ⟨h, fun _ => .inl rfl⟩
  · rename_i c hc
    obtain ⟨room, hroom, hthere⟩ := h.room_there hc
    -- All that the character has is dropped, and then it can go without leaving anything behind.
    obtain ⟨v, hv, hvsound, hvloc⟩ := dropAll_spec h hthere (h.belongings_there hc)
    obtain ⟨hinventory, hslots⟩ := listing_after_dropAll h hvsound hc hvloc
    have hunplace := sameGround_unplace v id
    have herase : v.SameGround
        { v.unplace id with characters := (v.unplace id).characters.erase id } :=
      hunplace.trans (.eraseCharacter (by rw [hunplace.listing, hinventory])
        fun slot => by rw [hunplace.listing, hslots])
    simp only [hroom, hv]
    constructor
    · refine hvsound.sameGround herase fun {x d} hd => ?_
      rw [character?_eq, Table.getElem?_erase] at hd
      split at hd
      · cases hd
      · rename_i hne
        rw [← character?_eq, character?_unplace, if_neg hne] at hd
        obtain ⟨hstand, hdrawn⟩ := hvsound.character hd
        exact ⟨hstand, Nat.le_trans hdrawn herase.lastIndex⟩
    · intro x
      have hsame : locationOf { v.unplace id with
          characters := (v.unplace id).characters.erase id } x = v.locationOf x := by
        rw [locationOf, locationOf, item?_eq, item?_eq, herase.items]
      rw [hsame, hvloc]
      split
      · exact .inr ⟨room, rfl⟩
      · exact .inl rfl

/-- A new item that is nowhere yet and holds nothing changes nothing for the others. -/
theorem consistent_insertItem (h : w.Consistent) {id : ItemId} {i : Item}
    (hnew : w.item? id = none) (hi : i.location = none) (he : i.contents = .empty) :
    ({ w with items := w.items.insert id i } : World).Consistent ∧
      ∀ x, ({ w with items := w.items.insert id i } : World).locationOf x = w.locationOf x := by
  have hloc : ∀ x, ({ w with items := w.items.insert id i } : World).locationOf x =
      w.locationOf x := by
    intro x
    rw [locationOf, locationOf, item?_eq, Table.getElem?_insert]
    split
    · rename_i hx
      subst hx
      rw [hnew, Option.bind_some, hi]
      rfl
    · rfl
  refine ⟨fun x place => ?_, hloc⟩
  rw [hloc, ← h x place]
  cases place with
  | inside parent =>
    rw [World.listing, World.listing, item?_eq, Table.getElem?_insert]
    split
    · rename_i hparent
      subst hparent
      rw [hnew, Option.map_some, he]
      rfl
    · rfl
  | _ => rfl

theorem hasPlace_insertItem {place : ItemLocation} (h : w.HasPlace place) (id : ItemId)
    (i : Item) : ({ w with items := w.items.insert id i } : World).HasPlace place := by
  cases place with
  | inside parent =>
    rw [HasPlace, item?_eq, Table.getElem?_insert]
    split
    · rfl
    · exact h
  | _ => exact h

theorem spawnItem_spec (h : w.Sound) (place : ItemLocation) (t : ItemTemplate) :
    (∃ e v, w.spawnItem place t = (.error e, v) ∧ v.Sound ∧ v.items = w.items) ∨
      ∃ id v, w.spawnItem place t = (.ok id, v) ∧ v.Sound ∧ w.item? id = none ∧
        w.HasPlace place ∧ ∀ x, v.locationOf x = w.whereAfter id place x := by
  unfold spawnItem
  split
  · rename_i e _
    exact .inl ⟨e, w, rfl, h, rfl⟩
  · rename_i zone hzone
    dsimp only
    split
    · rename_i e _
      exact .inl ⟨e, _, rfl, sound_allocate h, rfl⟩
    · rename_i i hi
      obtain ⟨-, hnowhere, hempty⟩ := ItemTemplate.of_build hi
      have hsound := sound_allocate h
      have hnew : w.allocate.2.item? ⟨w.allocate.1⟩ = none := h.fresh.2.2
      -- The item is made nowhere, and then put at its place.
      obtain ⟨hcons, hloc⟩ := consistent_insertItem hsound.consistent hnew hnowhere hempty
      have hskeleton : Skeleton { w.allocate.2 with
          items := w.allocate.2.items.insert ⟨w.allocate.1⟩ i } := by
        refine ⟨hsound.zone_there, hsound.room_there, hsound.room_drawn, hsound.character_drawn,
          fun {x} hx => ?_⟩
        rw [item?_eq, Table.getElem?_insert] at hx
        split at hx
        · rename_i hid
          subst hid
          exact Nat.le_refl _
        · exact hsound.item_drawn hx
      have hloose : locationOf { w.allocate.2 with
          items := w.allocate.2.items.insert ⟨w.allocate.1⟩ i } ⟨w.allocate.1⟩ = none := by
        rw [hloc, locationOf, hnew]
        rfl
      have hplace := hasPlace_of_locationZoneKey hzone
      obtain ⟨v, hv, hvcons, hvloc⟩ := attach_spec hcons hloose
        (by rw [item?_eq, Table.getElem?_insert, if_pos rfl]; rfl)
        (hasPlace_insertItem hplace _ _)
      have hr := rearranged_attach { w.allocate.2 with
        items := w.allocate.2.items.insert ⟨w.allocate.1⟩ i } ⟨w.allocate.1⟩ place
      rw [hv] at hr ⊢
      refine .inr ⟨⟨w.allocate.1⟩, v, rfl, ⟨hskeleton.rearranged hr, hvcons, fun {x} hx => ?_⟩,
        hnew, hplace, fun x => ?_⟩
      · rw [hvloc]
        refine isSome_whereAfter ?_
        rw [hr.item_isSome, item?_eq, Table.getElem?_insert] at hx
        split at hx
        · rename_i hid
          exact .inl hid
        · exact .inr (by rw [hloc]; exact hsound.located hx)
      · rw [hvloc]
        unfold whereAfter
        simp only [hloc]
        rfl

theorem sound_spawnItem (h : w.Sound) (place : ItemLocation) (t : ItemTemplate) :
    (w.spawnItem place t).2.Sound := by
  rcases spawnItem_spec h place t with ⟨e, v, hv, hsound, -⟩ | ⟨id, v, hv, hsound, -⟩
  · rw [hv]
    exact hsound
  · rw [hv]
    exact hsound

theorem sound_perform (h : w.Sound) {op : Op} {reply : Reply op.Result}
    (hr : w.perform op = some reply) : reply.2.Sound := by
  cases op with
  | putOffBalance id duration => exact sound_putOffBalance h hr
  | advance delta =>
    obtain ⟨v, hv, rfl⟩ := Option.map_eq_some_iff.1 hr
    exact sound_advance h hv
  | addZone key name =>
    cases hr
    exact sound_addZone h key name
  | addRoom zone key title description =>
    cases hr
    exact sound_addRoom h zone key title description
  | addExit room e =>
    cases hr
    exact sound_addExit h room e
  | spawnCharacter room t =>
    cases hr
    exact sound_spawnCharacter h room t
  | moveCharacter id room =>
    cases hr
    exact sound_moveCharacter h id room
  | despawnCharacter id =>
    cases hr
    exact (despawnCharacter_spec h id).1
  | spawnItem place t =>
    cases hr
    exact sound_spawnItem h place t
  | moveItem id target =>
    cases hr
    exact sound_moveItem h id target
  | setDoorClosed room d closed =>
    cases hr
    exact sound_setDoorClosed h room d closed

theorem Reaches.sound (h : w.Reaches v) (hw : w.Sound) : v.Sound :=
  h.keeps (fun _ _ _ hu hr => sound_perform hu hr) hw

theorem Reachable.sound (h : w.Reachable) : w.Sound := Reaches.sound h sound_empty

theorem item_isSome_spawnItem {id : ItemId} (h : (w.item? id).isSome) (place : ItemLocation)
    (t : ItemTemplate) : ((w.spawnItem place t).2.item? id).isSome := by
  unfold spawnItem
  split
  · exact h
  · dsimp only
    split
    · exact h
    · rename_i i _
      have hr := rearranged_attach { w.allocate.2 with
        items := w.allocate.2.items.insert ⟨w.allocate.1⟩ i } ⟨w.allocate.1⟩ place
      have hold : (({ w.allocate.2 with
          items := w.allocate.2.items.insert ⟨w.allocate.1⟩ i } : World).item? id).isSome := by
        rw [item?_eq, Table.getElem?_insert]
        split
        · rfl
        · exact h
      rw [← hr.item_isSome] at hold
      split
      all_goals
        rename_i hattach
        rw [hattach] at hold
        exact hold

theorem item_isSome_despawnCharacter {x : ItemId} (h : (w.item? x).isSome) (id : CharacterId) :
    ((w.despawnCharacter id).2.item? x).isSome := by
  obtain ⟨v, hdrop, hreply⟩ := despawnCharacter_cases w id
  have hv : (v.item? x).isSome := by
    rw [hdrop.item_isSome]
    exact h
  obtain ⟨e, hreply⟩ | hreply := hreply
  · rw [hreply]
    exact hv
  · rw [hreply, item?_eq]
    dsimp only
    rw [(sameGround_unplace v id).items]
    exact hv

/-- Whether an operation may make an item or move one. -/
def Op.handlesItems : Op → Bool
  | .spawnItem .. | .moveItem .. | .despawnCharacter .. => true
  | _ => false

theorem items_perform {op : Op} {reply : Reply op.Result} (hop : op.handlesItems = false)
    (hr : w.perform op = some reply) : reply.2.items = w.items := by
  cases op with
  | putOffBalance who duration =>
    simp only [perform, putOffBalance] at hr
    obtain ⟨deadline, -, rfl⟩ := Option.map_eq_some_iff.1 hr
    split <;> rfl
  | advance delta =>
    obtain ⟨v, hv, rfl⟩ := Option.map_eq_some_iff.1 hr
    obtain ⟨now, -, rfl⟩ := Option.map_eq_some_iff.1 hv
    rfl
  | addZone key name =>
    cases hr
    dsimp only [addZone]
    repeat' split
    all_goals rfl
  | addRoom zone key title description =>
    cases hr
    dsimp only [addRoom]
    repeat' split
    all_goals rfl
  | addExit room e =>
    cases hr
    dsimp only [addExit]
    split <;> rfl
  | spawnCharacter room t =>
    cases hr
    dsimp only [spawnCharacter]
    repeat' split
    · rfl
    · rfl
    · exact (sameGround_place _ _ _).items
  | moveCharacter who room =>
    cases hr
    dsimp only [moveCharacter]
    repeat' split
    · rfl
    · rfl
    · exact (sameGround_place _ _ _).items.trans (sameGround_unplace _ _).items
  | setDoorClosed room d closed =>
    cases hr
    dsimp only [setDoorClosed]
    repeat' split
    all_goals rfl
  | spawnItem place t => cases hop
  | moveItem id target => cases hop
  | despawnCharacter id => cases hop

theorem item_isSome_perform {op : Op} {reply : Reply op.Result} (hr : w.perform op = some reply)
    {id : ItemId} (h : (w.item? id).isSome) : (reply.2.item? id).isSome := by
  by_cases hop : op.handlesItems = false
  · rw [item?_eq, items_perform hop hr]
    exact h
  · cases op with
    | despawnCharacter who =>
      cases hr
      exact item_isSome_despawnCharacter h who
    | spawnItem place t =>
      cases hr
      exact item_isSome_spawnItem h place t
    | moveItem item target =>
      cases hr
      rw [(rearranged_moveItem w item target).item_isSome]
      exact h
    | _ => exact absurd rfl hop

/-- Each item is in one place, which is there and lists it once; nothing else is listed. -/
structure Placed (w : World) : Prop where
  somewhere : ∀ {id}, (w.item? id).isSome → ∃ place, w.locationOf id = some place ∧
    w.HasPlace place ∧ (w.listing place).count id = 1 ∧
      ∀ other, id ∈ w.listing other → other = place
  nothing_else : ∀ {place id}, id ∈ w.listing place →
    (w.item? id).isSome ∧ w.locationOf id = some place

theorem Sound.placed (h : w.Sound) : w.Placed where
  somewhere {id} hid := by
    obtain ⟨place, hplace⟩ := Option.isSome_iff_exists.1 (h.located hid)
    have hmem : id ∈ w.listing place := (h.consistent id place).2 hplace
    refine ⟨place, hplace, hasPlace_of_mem hmem, ?_, fun other hother => ?_⟩
    · rw [(nodup_listing w place).count, if_pos hmem]
    · have hloc := (h.consistent id other).1 hother
      rw [hplace] at hloc
      exact (Option.some.inj hloc).symm
  nothing_else {place id} hmem := by
    have hloc := (h.consistent id place).1 hmem
    exact ⟨isSome_of_locationOf hloc, hloc⟩

/-- In a world that comes about by operations the items are in their places, and stay there
through every further operation or are moved elsewhere: none of them is ever lost. -/
theorem Reachable.items_placed (h : w.Reachable) :
    w.Placed ∧ ∀ v, w.Reaches v → v.Placed ∧ ∀ id, (w.item? id).isSome → (v.item? id).isSome := by
  refine ⟨h.sound.placed, fun v hv => ⟨(hv.sound h.sound).placed, fun id hid => ?_⟩⟩
  have hkept : ∀ (u : World) (op : Op) (reply : Reply op.Result), (u.item? id).isSome →
      u.perform op = some reply → (reply.2.item? id).isSome :=
    fun u op reply hu hr => item_isSome_perform hr hu
  exact hv.keeps hkept hid

/-- A villager puts on a second hat and leaves the world: both hats lie in the square. -/
def hatsLeft : List Op :=
  [.addZone "village" "The Village", .addRoom ⟨1⟩ "square" "Village Square" "",
    .spawnCharacter ⟨2⟩ (.npc "villager" "a villager" []),
    .spawnItem (.equipped ⟨3⟩ "head") ⟨"cap", "a cap", []⟩,
    .spawnItem (.equipped ⟨3⟩ "head") ⟨"crown", "a crown", []⟩, .despawnCharacter ⟨3⟩]

theorem items_placed_hatsLeft :
    ∃ w, empty.run hatsLeft = some w ∧ w.listing (.room ⟨2⟩) = [⟨4⟩, ⟨5⟩] ∧ w.Placed := by
  have hrun : (empty.run hatsLeft).isSome := by decide
  obtain ⟨w, hw⟩ := Option.isSome_iff_exists.1 hrun
  have hsquare : (empty.run hatsLeft).map (·.listing (.room ⟨2⟩)) = some [⟨4⟩, ⟨5⟩] := by decide
  rw [hw] at hsquare
  exact ⟨w, hw, Option.some.inj hsquare, (Reachable.items_placed ⟨hatsLeft, hw⟩).1⟩

end World

end TextWorld

import TextWorld.Proofs.World.Placement

/-!
Refused operations. Whatever an operation does in steps has been checked before the first of them,
so a refusal changes nothing; only a key that is refused once its place is known to be there has
already cost an index.
-/

namespace TextWorld

theorem CharacterTemplate.resolve_of_build {t : CharacterTemplate} {id : CharacterId}
    {zone : String} {e : Error} (h : t.build id zone = .error e) :
    ZonedKey.resolve t.key zone = .error e := by
  unfold build at h
  cases hkey : ZonedKey.resolve t.key zone with
  | error problem => simpa [hkey, Except.map] using h
  | ok key => simp [hkey, Except.map] at h

theorem ItemTemplate.resolve_of_build {t : ItemTemplate} {id : ItemId} {zone : String} {e : Error}
    (h : t.build id zone = .error e) : ZonedKey.resolve t.key zone = .error e := by
  unfold build at h
  cases hkey : ZonedKey.resolve t.key zone with
  | error problem => simpa [hkey, Except.map] using h
  | ok key => simp [hkey, Except.map] at h

namespace World

/-- Where an operation makes a character or an item, and the key it is to have there. -/
def Op.making : Op → Option (ItemLocation × String)
  | .spawnCharacter room t => some (.room room, t.key)
  | .spawnItem place t => some (place, t.key)
  | _ => none

/-- A character or an item is to be made at a place that is there, but its key is refused. -/
def KeyRefused (w : World) (op : Op) : Prop :=
  ∃ place key, op.making = some (place, key) ∧ w.HasPlace place ∧
    ∃ zone problem, w.locationZoneKey place = .ok zone ∧ ZonedKey.resolve key zone = .error problem

variable {w v : World} {op : Op} {e : Error}

theorem not_keyRefused (h : op.making = none) : ¬w.KeyRefused op := by
  rintro ⟨place, key, hmaking, -⟩
  rw [h] at hmaking
  cases hmaking

theorem not_keyRefused_of_place {place : ItemLocation} {key : String}
    (h : op.making = some (place, key)) (hplace : w.locationZoneKey place = .error e) :
    ¬w.KeyRefused op := by
  rintro ⟨place', key', hmaking, -, zone, problem, hzone, -⟩
  rw [h] at hmaking
  cases hmaking
  rw [hplace] at hzone
  cases hzone

/-- What a refused operation leaves behind: an index is spent, but for nothing but a refused key. -/
def LeftBy (w : World) (op : Op) (v : World) : Prop :=
  w.KeyRefused op ∧ v = { w with lastIndex := w.lastIndex + 1 } ∨ ¬w.KeyRefused op ∧ v = w

theorem leftBy_spawnCharacter {room : RoomId} {t : CharacterTemplate}
    (h : w.spawnCharacter room t = (.error e, v)) : w.LeftBy (.spawnCharacter room t) v := by
  unfold spawnCharacter at h
  split at h
  · rename_i hroom
    cases h
    have hplace : w.locationZoneKey (.room room) = .error e := hroom
    exact .inr ⟨not_keyRefused_of_place rfl hplace, rfl⟩
  · rename_i zone hzone
    have hplace : w.locationZoneKey (.room room) = .ok zone := hzone
    dsimp only at h
    split at h
    · rename_i hbuild
      cases h
      have hkey := CharacterTemplate.resolve_of_build hbuild
      exact .inl ⟨⟨_, _, rfl, hasPlace_of_locationZoneKey hplace, zone, e, hplace, hkey⟩, rfl⟩
    · cases h

theorem leftBy_spawnItem {place : ItemLocation} {t : ItemTemplate}
    (h : w.spawnItem place t = (.error e, v)) : w.LeftBy (.spawnItem place t) v := by
  unfold spawnItem at h
  split at h
  · rename_i hplace
    cases h
    exact .inr ⟨not_keyRefused_of_place rfl hplace, rfl⟩
  · rename_i zone hzone
    have hplace := hasPlace_of_locationZoneKey hzone
    dsimp only at h
    split at h
    · rename_i hbuild
      cases h
      have hkey := ItemTemplate.resolve_of_build hbuild
      exact .inl ⟨⟨_, _, rfl, hplace, zone, e, hzone, hkey⟩, rfl⟩
    · -- The item can be put at its place, for that has a zone key, so it is there.
      rename_i i _
      obtain ⟨u, hu⟩ := exists_enlist (w := { w.allocate.2 with
        items := w.allocate.2.items.insert ⟨w.allocate.1⟩ i })
        (hasPlace_insertItem (w := w.allocate.2) hplace ⟨w.allocate.1⟩ i) ⟨w.allocate.1⟩
      rw [attach, hu] at h
      cases h

theorem Sound.leftBy_moveItem (hw : w.Sound) {id : ItemId} {target : ItemLocation}
    (h : w.moveItem id target = (.error e, v)) : w.LeftBy (.moveItem id target) v := by
  rcases moveItem_spec hw.consistent id target with ⟨problem, hrefused⟩ | ⟨u, hok, -⟩
  · rw [hrefused] at h
    cases h
    exact .inr ⟨not_keyRefused rfl, rfl⟩
  · rw [hok] at h
    cases h

/-- Whoever is in a sound world can be removed: all that it has can be dropped where it stands. -/
theorem Sound.leftBy_despawnCharacter (hw : w.Sound) {id : CharacterId}
    (h : w.despawnCharacter id = (.error e, v)) : w.LeftBy (.despawnCharacter id) v := by
  unfold despawnCharacter at h
  split at h
  · cases h
    exact .inr ⟨not_keyRefused rfl, rfl⟩
  · rename_i c hc
    obtain ⟨room, hroom, hthere⟩ := hw.room_there hc
    obtain ⟨u, hdropped, -⟩ := dropAll_spec hw hthere (hw.belongings_there hc)
    simp only [hroom, hdropped] at h
    cases h

theorem Sound.leftBy (hw : w.Sound) (h : w.perform op = some (.error e, v)) : w.LeftBy op v := by
  cases op with
  | spawnCharacter room t => exact leftBy_spawnCharacter (Option.some.inj h)
  | spawnItem place t => exact leftBy_spawnItem (Option.some.inj h)
  | moveItem id target => exact hw.leftBy_moveItem (Option.some.inj h)
  | despawnCharacter id => exact hw.leftBy_despawnCharacter (Option.some.inj h)
  | addZone key name =>
    refine .inr ⟨not_keyRefused rfl, ?_⟩
    simp only [perform, addZone, Option.some.injEq] at h
    repeat' split at h
    all_goals
      cases h
      try rfl
  | addRoom zone key title description =>
    refine .inr ⟨not_keyRefused rfl, ?_⟩
    simp only [perform, addRoom, Option.some.injEq] at h
    repeat' split at h
    all_goals
      cases h
      try rfl
  | addExit room x =>
    refine .inr ⟨not_keyRefused rfl, ?_⟩
    simp only [perform, addExit, Option.some.injEq] at h
    split at h <;> cases h
    rfl
  | moveCharacter id room =>
    refine .inr ⟨not_keyRefused rfl, ?_⟩
    simp only [perform, moveCharacter, Option.some.injEq] at h
    repeat' split at h
    all_goals
      cases h
      try rfl
  | setDoorClosed room d closed =>
    refine .inr ⟨not_keyRefused rfl, ?_⟩
    simp only [perform, setDoorClosed, Option.some.injEq] at h
    split at h <;> cases h
    rfl
  | putOffBalance id duration =>
    refine .inr ⟨not_keyRefused rfl, ?_⟩
    simp only [perform, putOffBalance] at h
    obtain ⟨deadline, -, h⟩ := Option.map_eq_some_iff.1 h
    split at h <;> cases h
    rfl
  | advance delta =>
    obtain ⟨u, -, h⟩ := Option.map_eq_some_iff.1 h
    cases h

/-- In a world that comes about by operations a refused operation changes nothing: only to make
something under a key that is refused, at a place that is there, costs one index. -/
theorem Reachable.refused (h : w.Reachable) (hr : w.perform op = some (.error e, v)) :
    w.KeyRefused op ∧ v = { w with lastIndex := w.lastIndex + 1 } ∨ ¬w.KeyRefused op ∧ v = w :=
  h.sound.leftBy hr

/-- A village of one square. -/
def bareVillage : List Op := [.addZone "village" "The Village", .addRoom ⟨1⟩ "square" "Square" ""]

/-- A stone is to be put in the square, under a key with too many parts. -/
def oddStone : Op := .spawnItem (.room ⟨2⟩) ⟨"stone@square@village", "a stone", []⟩

theorem refused_oddStone :
    ∃ w e v, empty.run bareVillage = some w ∧ w.perform oddStone = some (.error e, v) ∧
      v = { w with lastIndex := w.lastIndex + 1 } := by
  have hrun : (empty.run bareVillage).isSome := by decide
  obtain ⟨w, hw⟩ := Option.isSome_iff_exists.1 hrun
  have hvillage : (empty.run bareVillage).map (fun w => (w.roomZoneKey ⟨2⟩).toOption) =
      some (some "village") := by decide
  rw [hw, Option.map_some, Option.some.injEq] at hvillage
  have hzone : w.locationZoneKey (.room ⟨2⟩) = .ok "village" := by
    cases hkey : w.roomZoneKey ⟨2⟩ with
    | error e => simp [hkey, Except.toOption] at hvillage
    | ok zone =>
      rw [hkey] at hvillage
      cases hvillage
      exact hkey
  have hkey : ZonedKey.resolve "stone@square@village" "village" =
      .error (.invalidKey "stone@square@village" .manySeparators) := rfl
  have hr : w.perform oddStone = some (.error (.invalidKey "stone@square@village" .manySeparators),
      w.allocate.2) := by
    simp only [perform, oddStone, spawnItem, hzone, ItemTemplate.build, hkey, Except.map]
  rcases Reachable.refused ⟨bareVillage, hw⟩ hr with ⟨-, hspent⟩ | ⟨hnot, -⟩
  · exact ⟨w, _, _, hw, hr, hspent⟩
  · exact absurd ⟨_, _, rfl, hasPlace_of_locationZoneKey hzone, _, _, hzone, hkey⟩ hnot

end World

end TextWorld

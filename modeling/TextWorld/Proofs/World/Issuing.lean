import TextWorld.Proofs.World.Mentioning
import TextWorld.Proofs.World.Retaining

/-!
The ids of a world. Every id that a world holds anywhere was handed out by one of its operations,
each later one has a greater number, and that of a character that was removed never comes back.
-/

namespace TextWorld

def ThingId.room? : ThingId → Option RoomId
  | .room id => some id
  | _ => none

namespace World

variable {P : ThingId → Prop} {w v : World}

/-- The thing that an operation makes when it succeeds. -/
def Op.made : (op : Op) → op.Result → Option ThingId
  | .addZone .., id => some (.zone id)
  | .addRoom .., id => some (.room id)
  | .spawnCharacter .., id => some (.character id)
  | .spawnItem .., id => some (.item id)
  | .addExit .., _ | .moveCharacter .., _ | .despawnCharacter .., _ | .moveItem .., _
  | .setDoorClosed .., _ | .putOffBalance .., _ | .advance .., _ => none

/-- The id that an operation hands out. -/
def issued {op : Op} (reply : Reply op.Result) : Option ThingId := reply.1.toOption.bind op.made

/-- All ids that some operations, one after another, hand out. -/
def handedOut (w : World) : List Op → List ThingId
  | [] => []
  | op :: ops =>
    match w.perform op with
    | none => []
    | some reply => (issued reply).toList ++ reply.2.handedOut ops

/-- An operation writes down no id but those that the world held before and the one that it hands
out. -/
theorem Confined.perform (h : Confined P w) {op : Op} {reply : Reply op.Result}
    (hr : w.perform op = some reply) (hnew : ∀ x, issued reply = some x → P x) :
    Confined P reply.2 := by
  cases op with
  | addZone key name =>
    cases hr
    exact h.addZone fun id hid => hnew _ (by rw [issued, hid]; rfl)
  | addRoom zone key title description =>
    cases hr
    exact h.addRoom fun id hid => hnew _ (by rw [issued, hid]; rfl)
  | addExit room e =>
    cases hr
    dsimp only [addExit]
    split
    · exact h
    · exact h.modifyRoom room fun _ hr => hr
  | spawnCharacter room t =>
    cases hr
    exact h.spawnCharacter fun id hid => hnew _ (by rw [issued, hid]; rfl)
  | moveCharacter id room =>
    cases hr
    exact h.moveCharacter id room
  | despawnCharacter id =>
    cases hr
    exact h.despawnCharacter id
  | spawnItem location t =>
    cases hr
    exact h.spawnItem fun id hid => hnew _ (by rw [issued, hid]; rfl)
  | moveItem id target =>
    cases hr
    exact h.moveItem id target
  | setDoorClosed room d closed =>
    cases hr
    exact h.setDoorClosed room d closed
  | putOffBalance id duration =>
    obtain ⟨deadline, -, rfl⟩ := Option.map_eq_some_iff.1 hr
    split
    · exact h
    · exact h.modifyCharacter id fun _ hc => hc
  | advance delta =>
    obtain ⟨v, hv, rfl⟩ := Option.map_eq_some_iff.1 hr
    obtain ⟨now, -, rfl⟩ := Option.map_eq_some_iff.1 hv
    exact { h with }

theorem confined_empty : Confined P empty where
  zone h := by simp [empty] at h
  room h := by simp [empty] at h
  character h := by simp [empty] at h
  item h := by simp [empty] at h
  zoneIndex h := by simp [empty] at h
  roomIndex h := by simp [empty] at h

/-- A run writes down no id but those that the world held before and those that it hands out. -/
theorem Confined.run (h : Confined P w) {ops : List Op} (hnew : ∀ x ∈ w.handedOut ops, P x)
    (hv : w.run ops = some v) : Confined P v := by
  induction ops generalizing w with
  | nil =>
    cases hv
    exact h
  | cons op ops ih =>
    rw [World.run] at hv
    obtain ⟨reply, hreply, hrest⟩ := Option.bind_eq_some_iff.1 hv
    rw [handedOut, hreply] at hnew
    refine ih (h.perform hreply fun x hx => ?_) (fun x hx => ?_) hrest
    · exact hnew x (List.mem_append_left _ (by rw [hx]; exact List.mem_singleton_self x))
    · exact hnew x (List.mem_append_right _ hx)

theorem handedOut_append {ops more : List Op} (h : w.run ops = some v) :
    w.handedOut (ops ++ more) = w.handedOut ops ++ v.handedOut more := by
  induction ops generalizing w with
  | nil =>
    cases h
    rfl
  | cons op ops ih =>
    rw [World.run] at h
    obtain ⟨reply, hreply, hrest⟩ := Option.bind_eq_some_iff.1 h
    rw [List.cons_append, handedOut, handedOut, hreply]
    dsimp only
    rw [ih hrest, List.append_assoc]

theorem aloof_unit : Aloof (fun _ _ => ()) () :=
  ⟨fun _ _ _ => rfl, fun _ _ => rfl, fun _ _ _ => rfl, fun _ _ _ _ => rfl⟩

theorem lastIndex_perform {op : Op} {reply : Reply op.Result} (hr : w.perform op = some reply) :
    w.lastIndex ≤ reply.2.lastIndex := by
  by_cases hadvance : ∃ delta, op = .advance delta
  · obtain ⟨delta, rfl⟩ := hadvance
    obtain ⟨v, hv, rfl⟩ := Option.map_eq_some_iff.1 hr
    obtain ⟨now, -, rfl⟩ := Option.map_eq_some_iff.1 hv
    exact Nat.le_refl _
  · have hnot : ∀ delta, op ≠ .advance delta := fun delta hop => hadvance ⟨delta, hop⟩
    exact (retains_perform aloof_unit hr hnot fun _ _ _ _ _ => rfl).lastIndex

/-- The number of a thing that is made is the next one, and it is drawn with that. -/
theorem index_issued {op : Op} {reply : Reply op.Result} (hr : w.perform op = some reply)
    {x : ThingId} (hx : issued reply = some x) :
    x.index = w.lastIndex + 1 ∧ w.lastIndex + 1 ≤ reply.2.lastIndex := by
  obtain ⟨result, hok, hmade⟩ := Option.bind_eq_some_iff.1 hx
  cases op with
  | addZone key name =>
    cases hr
    cases hmade
    revert hok
    dsimp only [World.addZone]
    split
    · nofun
    · split
      · nofun
      · rintro ⟨⟩
        exact ⟨rfl, Nat.le_refl _⟩
  | addRoom zone key title description =>
    cases hr
    cases hmade
    revert hok
    dsimp only [World.addRoom]
    split
    · nofun
    · split
      · nofun
      · split
        · nofun
        · rintro ⟨⟩
          exact ⟨rfl, Nat.le_refl _⟩
  | spawnCharacter room t =>
    cases hr
    cases hmade
    revert hok
    dsimp only [World.spawnCharacter]
    split
    · nofun
    · split
      · nofun
      · rename_i c _
        have hlast := (sameGround_place { w.allocate.2 with
          characters := w.allocate.2.characters.insert ⟨w.allocate.1⟩ c } ⟨w.allocate.1⟩
          room).lastIndex
        rintro ⟨⟩
        exact ⟨rfl, hlast⟩
  | spawnItem location t =>
    cases hr
    cases hmade
    revert hok
    dsimp only [World.spawnItem]
    split
    · nofun
    · split
      · nofun
      · rename_i i _
        have hlast := (rearranged_attach { w.allocate.2 with
          items := w.allocate.2.items.insert ⟨w.allocate.1⟩ i } ⟨w.allocate.1⟩ location).lastIndex
        split
        · nofun
        · rename_i heq
          rw [heq] at hlast
          rintro ⟨⟩
          exact ⟨rfl, Nat.le_of_eq hlast.symm⟩
  | _ => cases hmade

theorem lastIndex_run {ops : List Op} (h : w.run ops = some v) : w.lastIndex ≤ v.lastIndex := by
  have hkept : ∀ (u : World) (op : Op) (reply : Reply op.Result), w.lastIndex ≤ u.lastIndex →
      u.perform op = some reply → w.lastIndex ≤ reply.2.lastIndex :=
    fun u op reply hu hr => Nat.le_trans hu (lastIndex_perform hr)
  exact Reaches.keeps hkept ⟨ops, h⟩ (Nat.le_refl _)

/-- Ids are handed out in ascending order, beyond all those handed out before. -/
theorem handedOut_ascending (w : World) (ops : List Op) :
    (∀ x ∈ w.handedOut ops, w.lastIndex < x.index) ∧
      (w.handedOut ops).Pairwise (·.index < ·.index) := by
  induction ops generalizing w with
  | nil => exact ⟨nofun, .nil⟩
  | cons op ops ih =>
    unfold handedOut
    split
    · exact ⟨nofun, .nil⟩
    · rename_i reply hreply
      obtain ⟨hlater, hpairwise⟩ := ih reply.2
      have hlast := lastIndex_perform hreply
      cases hx : issued reply with
      | none => exact ⟨fun y hy => Nat.lt_of_le_of_lt hlast (hlater y hy), hpairwise⟩
      | some x =>
        obtain ⟨hindex, hdrawn⟩ := index_issued hreply hx
        have hrest : ∀ y ∈ reply.2.handedOut ops, x.index < y.index := by
          intro y hy
          have := hlater y hy
          omega
        refine ⟨?_, List.pairwise_cons.2 ⟨hrest, hpairwise⟩⟩
        intro y hy
        obtain rfl | hy := List.mem_cons.1 hy
        · omega
        · have := hrest y hy
          omega

/-- What a run hands out is drawn by its end. -/
theorem handedOut_drawn {ops : List Op} (h : w.run ops = some v) :
    ∀ x ∈ w.handedOut ops, x.index ≤ v.lastIndex := by
  induction ops generalizing w with
  | nil => nofun
  | cons op ops ih =>
    rw [World.run] at h
    obtain ⟨reply, hreply, hrest⟩ := Option.bind_eq_some_iff.1 h
    intro x hx
    rw [handedOut, hreply] at hx
    obtain hx | hx := List.mem_append.1 hx
    · obtain ⟨hindex, hdrawn⟩ := index_issued hreply (Option.mem_toList.1 hx)
      have := lastIndex_run hrest
      omega
    · exact ih hrest x hx

theorem character?_despawned {id : CharacterId} (h : w.despawnCharacter id = (.ok (), v)) :
    v.character? id = none := by
  have hleave (u : World) : World.character?
      { u.unplace id with characters := (u.unplace id).characters.erase id } id = none := by
    rw [character?_eq, Table.getElem?_erase, if_pos rfl]
  unfold despawnCharacter at h
  split at h
  · cases h
  · dsimp only at h
    split at h
    · cases h
    · cases h
      exact hleave _

/-- A character that is not there has its id nowhere. -/
theorem Reachable.confined_absent (h : w.Reachable) {id : CharacterId}
    (hid : w.character? id = none) : Confined (· ≠ .character id) w := by
  have hsound := h.sound
  have hcharted := h.charted
  have hunlisted (roll : Roll) : ∀ x ∈ w.attendance roll, x ≠ id := by
    rintro x hx rfl
    have hthere := (h.seated.occupied hsound.toSkeleton).live hx
    rw [hid] at hthere
    cases hthere
  have hunowned {i : ItemId} {place : ItemLocation} (hi : w.locationOf i = some place) :
      place.holder ≠ .character id := by
    have hplace := hasPlace_of_mem ((hsound.consistent i place).2 hi)
    intro hholder
    cases place with
    | room room => cases hholder
    | inventory owner | equipped owner slot =>
      cases hholder
      rw [HasPlace, hid] at hplace
      cases hplace
    | inside parent => cases hholder
  -- Only the characters that are listed could have it: all other ids are of another kind.
  have hzones (zone : ZoneId) : ThingId.zone zone ≠ .character id := by simp
  have hrooms (room : RoomId) : ThingId.room room ≠ .character id := by simp
  have hitems (item : ItemId) : ThingId.item item ≠ .character id := by simp
  constructor
  · intro zone z hz
    have hlisted := hunlisted (.zone zone)
    rw [attendance, zone?_eq, hz] at hlisted
    exact ⟨hzones zone, Zone.forall_mentions.2
      ⟨hzones _, fun r _ => hrooms r, fun c hc => by simpa using hlisted c hc⟩⟩
  · intro room r hr
    have hlisted := hunlisted (.room room)
    rw [attendance, room?_eq, hr] at hlisted
    exact ⟨hrooms room, Room.forall_mentions.2
      ⟨hrooms _, hzones _, fun c hc => by simpa using hlisted c hc, fun i _ => hitems i⟩⟩
  · intro x c hc
    have hx : x ≠ id := by
      rintro rfl
      rw [character?_eq, hc] at hid
      cases hid
    have hself : c.id = x := hcharted.character_id hc
    have hother : ThingId.character x ≠ .character id := by simpa using hx
    exact ⟨hother, Character.forall_mentions.2
      ⟨hself ▸ hother, fun r _ => hrooms r, fun i _ => hitems i, fun i _ => hitems i⟩⟩
  · intro item i hi
    have hlocation (place : ItemLocation) (hplace : i.location = some place) :
        place.holder ≠ .character id := by
      apply hunowned
      rw [locationOf, item?_eq, hi]
      exact hplace
    exact ⟨hitems item, Item.forall_mentions.2 ⟨hitems _, hlocation, fun j _ => hitems j⟩⟩
  · exact fun _ => hzones _
  · exact fun _ => hrooms _

theorem eq_of_index_eq {l : List ThingId} (h : l.Pairwise (·.index < ·.index)) {x y : ThingId}
    (hx : x ∈ l) (hy : y ∈ l) (hxy : x.index = y.index) : x = y := by
  induction l with
  | nil => cases hx
  | cons a l ih =>
    obtain ⟨hless, hrest⟩ := List.pairwise_cons.1 h
    obtain rfl | hx' := List.mem_cons.1 hx <;> obtain rfl | hy' := List.mem_cons.1 hy
    · rfl
    · exact absurd hxy (Nat.ne_of_lt (hless y hy'))
    · exact absurd hxy (Nat.ne_of_gt (hless x hx'))
    · exact ih hrest hx' hy'

theorem eq_of_ascending {l m : List RoomId} (hl : l.Pairwise (·.index < ·.index))
    (hm : m.Pairwise (·.index < ·.index)) (h : ∀ room, room ∈ l ↔ room ∈ m) : l = m := by
  have hnodup {l : List RoomId} (hl : l.Pairwise (·.index < ·.index)) : l.Nodup := by
    refine hl.imp ?_
    rintro a _ hlt rfl
    exact Nat.lt_irrefl _ hlt
  have hperm : l.Perm m := (List.perm_ext_iff_of_nodup (hnodup hl) (hnodup hm)).2 h
  exact hperm.eq_of_pairwise (fun _ _ _ _ hlt hgt => absurd hlt (Nat.lt_asymm hgt)) hl hm

theorem mentions_handedOut {ops : List Op} (h : empty.run ops = some w) {x : ThingId}
    (hx : w.Mentions x) : x ∈ empty.handedOut ops :=
  confined_iff.1 (confined_empty.run (fun _ hx => hx) h) x hx

/-- Zones list their rooms in the order in which these were made. -/
theorem rooms_eq_filter {ops : List Op} (h : empty.run ops = some w) {zone : ZoneId} {z : Zone}
    (hz : w.zone? zone = some z) : z.rooms = ((empty.handedOut ops).filterMap ThingId.room?).filter
      fun room => (w.room? room).map Room.zone = some zone := by
  have hcharted := Reachable.charted ⟨ops, h⟩
  have hids : ((empty.handedOut ops).filterMap ThingId.room?).Pairwise (·.index < ·.index) := by
    rw [List.pairwise_filterMap]
    refine (handedOut_ascending empty ops).2.imp fun {x y} hxy a ha b hb => ?_
    cases x <;> cases ha
    cases y <;> cases hb
    exact hxy
  refine eq_of_ascending (hcharted.ascending hz) (hids.filter _) fun room => ?_
  rw [hcharted.mem_rooms hz, List.mem_filter, decide_eq_true_eq]
  refine ⟨fun hroom => ⟨?_, hroom⟩, fun hroom => hroom.2⟩
  obtain ⟨r, hr, -⟩ := Option.map_eq_some_iff.1 hroom
  exact List.mem_filterMap.2 ⟨.room room, mentions_handedOut h (.room hr (.inl rfl)), rfl⟩

/-- Once a character was removed, nothing in the world has its number. -/
theorem index_ne_of_despawned {before after : List Op} {id : CharacterId} {u : World}
    (hu : empty.run before = some u) (hv : u.despawnCharacter id = (.ok (), v))
    (hw : v.run after = some w) {x : ThingId} (hx : w.Mentions x) : x.index ≠ id.index := by
  have hthere : ∃ c, u.character? id = some c := by
    cases hc : u.character? id with
    | none => simp [despawnCharacter, hc] at hv
    | some c => exact ⟨c, rfl⟩
  obtain ⟨c, hc⟩ := hthere
  have hown : .character id ∈ empty.handedOut before :=
    mentions_handedOut hu (.character hc (.inl rfl))
  have hperform : u.perform (.despawnCharacter id) = some (.ok (), v) := congrArg some hv
  have hrun : empty.run (before ++ [.despawnCharacter id]) = some v := by
    rw [run_concat, hu, Option.bind_some, hperform]
    rfl
  -- Only the character itself had the number, and now it is gone.
  have hnow : Confined (·.index ≠ id.index) v := by
    refine confined_iff.2 fun y hy hindex => ?_
    have habsent := Reachable.confined_absent ⟨_, hrun⟩ (character?_despawned hv)
    have hstill : .character id ∈ empty.handedOut (before ++ [.despawnCharacter id]) := by
      rw [handedOut_append hu]
      exact List.mem_append_left _ hown
    have hascending := (handedOut_ascending empty (before ++ [.despawnCharacter id])).2
    have hsame : y = .character id :=
      eq_of_index_eq hascending (mentions_handedOut hrun hy) hstill hindex
    exact confined_iff.1 habsent y hy hsame
  -- Whatever comes later gets a greater one.
  have hlater : ∀ y ∈ v.handedOut after, y.index ≠ id.index := by
    intro y hy
    have hdrawn : id.index ≤ u.lastIndex := handedOut_drawn hu _ hown
    have hlast : u.lastIndex ≤ v.lastIndex := lastIndex_perform hperform
    have hbeyond : v.lastIndex < y.index := (handedOut_ascending v after).1 y hy
    omega
  exact confined_iff.1 (hnow.run hlater hw) x hx

/-- In a world that comes about by operations keys lead to what has them, no two zones and no two
rooms have one key, and zones list their own rooms in the order in which these were made. All ids
in it were handed out, in ascending order and each once, and that of a character that was removed
names nothing any more. -/
theorem indexes_and_ids_exact {ops : List Op} (h : empty.run ops = some w) :
    (∀ key id, w.lookupZone key = some id ↔ ∃ z, w.zone? id = some z ∧ z.key = key) ∧
    (∀ key defaultZone id, w.lookupRoom key defaultZone = some id ↔
      ∃ r, w.room? id = some r ∧ ZonedKey.resolve key defaultZone = .ok r.key) ∧
    (∀ id z, w.zone? id = some z → z.key ≠ "" ∧ '@' ∉ z.key.toList ∧
      ∀ id' z', w.zone? id' = some z' → z'.key = z.key → id' = id) ∧
    (∀ id r id' r', w.room? id = some r → w.room? id' = some r' → r'.key = r.key → id' = id) ∧
    (∀ zone z, w.zone? zone = some z →
      z.rooms = ((empty.handedOut ops).filterMap ThingId.room?).filter fun room =>
        (w.room? room).map Room.zone = some zone) ∧
    (∀ x, w.Mentions x → x ∈ empty.handedOut ops) ∧
    (empty.handedOut ops).Pairwise (·.index < ·.index) ∧
    ∀ before id after u v, ops = before ++ .despawnCharacter id :: after →
      empty.run before = some u → u.despawnCharacter id = (.ok (), v) →
        ∀ x, w.Mentions x → x.index ≠ id.index := by
  have hcharted := Reachable.charted ⟨ops, h⟩
  refine ⟨fun key id => hcharted.lookupZone_eq_some,
    fun key defaultZone id => hcharted.lookupRoom_eq_some, ?_, ?_,
    fun zone z hz => rooms_eq_filter h hz, fun x hx => mentions_handedOut h hx,
    (handedOut_ascending empty ops).2, ?_⟩
  · intro id z hz
    obtain ⟨hne, hbare⟩ := hcharted.bare hz
    refine ⟨hne, hbare, fun id' z' hz' hkey => ?_⟩
    have hfirst := hcharted.lookupZone_eq_some.2 ⟨z, hz, rfl⟩
    have hsecond := hcharted.lookupZone_eq_some.2 ⟨z', hz', hkey⟩
    exact Option.some.inj (hsecond.symm.trans hfirst)
  · intro id r id' r' hr hr' hkey
    have hfirst := (hcharted.roomIndex r.key id).2 (Option.map_eq_some_iff.2 ⟨r, hr, rfl⟩)
    have hsecond := (hcharted.roomIndex r.key id').2 (Option.map_eq_some_iff.2 ⟨r', hr', hkey⟩)
    exact Option.some.inj (hsecond.symm.trans hfirst)
  · rintro before id after u v rfl hu hv x hx
    have hrest : v.run after = some w := by
      rw [run_append, hu, Option.bind_some, run, perform, Option.bind_some, hv] at h
      exact h
    exact index_ne_of_despawned hu hv hrest hx

/-- A guard is dismissed, and a bucket is made after that; the number in between is spent on a key
that is refused. -/
def guardDismissed : List Op :=
  [.addZone "village" "The Village", .addRoom ⟨1⟩ "square" "Village Square" "",
    .spawnCharacter ⟨2⟩ (.npc "guard" "a guard" []), .despawnCharacter ⟨3⟩,
    .spawnItem (.room ⟨2⟩) ⟨"", "nothing", []⟩, .spawnItem (.room ⟨2⟩) ⟨"bucket", "a bucket", []⟩]

theorem indexes_and_ids_exact_guardDismissed :
    ∃ w, empty.run guardDismissed = some w ∧ (∃ z, w.zone? ⟨1⟩ = some z ∧ z.key = "village") ∧
      ∀ x, w.Mentions x → x = .zone ⟨1⟩ ∨ x = .room ⟨2⟩ ∨ x = .item ⟨5⟩ := by
  have hrun : (empty.run guardDismissed).isSome := by decide
  obtain ⟨w, hw⟩ := Option.isSome_iff_exists.1 hrun
  obtain ⟨hzone, -, -, -, -, hmentions, -, hgone⟩ := indexes_and_ids_exact hw
  have hvillage : (empty.run guardDismissed).map (·.lookupZone "village") = some (some ⟨1⟩) := by
    decide
  rw [hw, Option.map_some, Option.some.injEq] at hvillage
  refine ⟨w, hw, (hzone "village" ⟨1⟩).1 hvillage, fun x hx => ?_⟩
  have hids : empty.handedOut guardDismissed =
      [.zone ⟨1⟩, .room ⟨2⟩, .character ⟨3⟩, .item ⟨5⟩] := by decide
  have hmember := hmentions x hx
  rw [hids] at hmember
  -- The world just before the guard goes, and the one just after.
  have hbefore : (empty.run (guardDismissed.take 3)).isSome := by decide
  obtain ⟨u, hu⟩ := Option.isSome_iff_exists.1 hbefore
  have hok : (empty.run (guardDismissed.take 3)).map
      (fun u => (u.despawnCharacter ⟨3⟩).1.toOption) = some (some ()) := by decide
  rw [hu, Option.map_some, Option.some.injEq] at hok
  have hleft : u.despawnCharacter ⟨3⟩ = (.ok (), (u.despawnCharacter ⟨3⟩).2) := by
    cases hreply : u.despawnCharacter ⟨3⟩ with
    | mk result v =>
      rw [hreply] at hok
      cases result with
      | error e => cases hok
      | ok done => rfl
  have hindex := hgone (guardDismissed.take 3) ⟨3⟩ (guardDismissed.drop 4) u _ rfl hu hleft x hx
  simp only [List.mem_cons, List.not_mem_nil, or_false] at hmember
  obtain rfl | rfl | rfl | rfl := hmember
  · exact .inl rfl
  · exact .inr (.inl rfl)
  · exact absurd rfl hindex
  · exact .inr (.inr rfl)

end World

end TextWorld

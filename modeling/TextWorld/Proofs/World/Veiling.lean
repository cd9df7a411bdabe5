import TextWorld.Play.Describe
import TextWorld.Proofs.World.Filing

/-!
An exit that nobody sees. Whatever can be read off a world or done to it, except through that exit,
comes to the same in the world without it. No door ever gives it away if none is on the other side.
-/

namespace TextWorld

def Room.without (d : Direction) (r : Room) : Room := { r with exits := r.exits.erase d }

namespace World

/-- The world with one exit of a room taken away. -/
def without (w : World) (room : RoomId) (d : Direction) : World :=
  { w with rooms := w.rooms.modify room (Room.without d) }

variable {w v : World} {room here : RoomId} {d d' : Direction}

/-! What is read off a world. -/

theorem room?_without (w : World) (room : RoomId) (d : Direction) (id : RoomId) :
    (w.without room d).room? id =
      if room = id then (w.room? id).map (Room.without d) else w.room? id :=
  Table.getElem?_modify w.rooms room id (Room.without d)

/-- A room is the same but for its exits. -/
theorem room?_without_cases (w : World) (room : RoomId) (d : Direction) (id : RoomId) :
    (w.room? id = none ∧ (w.without room d).room? id = none) ∨
      ∃ r exits, w.room? id = some r ∧ (w.without room d).room? id = some { r with exits } := by
  rw [room?_without]
  cases w.room? id with
  | none => exact .inl ⟨rfl, by rw [Option.map_none, ite_self]⟩
  | some r =>
    split
    · exact .inr ⟨r, r.exits.erase d, rfl, rfl⟩
    · exact .inr ⟨r, r.exits, rfl, rfl⟩

theorem map_room?_without {β : Type} {view : Room → β} (hview : ∀ r, view (r.without d) = view r)
    (w : World) (room id : RoomId) :
    ((w.without room d).room? id).map view = (w.room? id).map view := by
  rw [room?_without]
  split
  · rw [Option.map_map]
    exact congrArg (Option.map · _) (funext hview)
  · rfl

theorem exit?_without (w : World) (room here : RoomId) (d d' : Direction) :
    (w.without room d).exit? here d' =
      if room = here ∧ d = d' then none else w.exit? here d' := by
  rw [exit?, exit?, room?_without]
  by_cases hroom : room = here
  · rw [if_pos hroom, Option.bind_map]
    cases w.room? here with
    | none => simp
    | some r =>
      refine (Table.getElem?_erase r.exits d d').trans ?_
      simp only [hroom, true_and]
      rfl
  · rw [if_neg hroom, if_neg fun h => hroom h.1]

theorem exitDestination_without (hother : ¬(room = here ∧ d = d')) :
    (w.without room d).exitDestination here d' = w.exitDestination here d' := by
  rw [exitDestination_eq, exitDestination_eq, exit?_without, if_neg hother]
  rfl

theorem characterZone_without (w : World) (room : RoomId) (d : Direction) (id : CharacterId) :
    (w.without room d).characterZone id = w.characterZone id := by
  have hsame (u : World) : u.characterZone id =
      (u.characterRoom id).bind fun here => (u.room? here).map Room.zone := by
    change (u.characterRoom id).bind (fun here => (u.room? here).bind fun r => some r.zone) = _
    congr 1
    funext here
    cases u.room? here <;> rfl
  rw [hsame, hsame]
  exact congrArg (Option.bind _) (funext (map_room?_without (fun _ => rfl) w room))

theorem roomZoneKey_without (w : World) (room : RoomId) (d : Direction) (id : RoomId) :
    (w.without room d).roomZoneKey id = w.roomZoneKey id := by
  rw [roomZoneKey, roomZoneKey]
  rcases w.room?_without_cases room d id with ⟨h, h'⟩ | ⟨r, exits, h, h'⟩
  · rw [h, h']
  · rw [h, h']
    rfl

theorem locationZoneKey_without (w : World) (room : RoomId) (d : Direction)
    (place : ItemLocation) :
    (w.without room d).locationZoneKey place = w.locationZoneKey place := by
  cases place with
  | room id => exact roomZoneKey_without w room d id
  | _ => rfl

/-- A room is described in the same way without an exit that is hidden. -/
theorem describeRoom_without (hhidden : ∀ e, w.exit? room d = some e → e.isVisible = false)
    (id : RoomId) (viewer : CharacterId) :
    (w.without room d).describeRoom id viewer = w.describeRoom id viewer := by
  rw [describeRoom, describeRoom, room?_without]
  by_cases hroom : room = id
  · subst hroom
    rw [if_pos rfl]
    cases hr : w.room? room with
    | none => rfl
    | some r =>
      have hexits : (r.without d).exitList.filter Exit.isVisible =
          r.exitList.filter Exit.isVisible := by
        refine Table.filter_values_erase r.exits fun e he => hhidden e ?_
        rw [exit?, hr]
        exact he
      have hdetails : (w.without room d).roomDetails (r.without d) viewer =
          w.roomDetails r viewer := by
        unfold roomDetails
        rw [hexits]
        rfl
      have hviewer : (w.without room d).character? viewer = w.character? viewer := rfl
      rw [Option.map_some, hviewer]
      cases w.character? viewer with
      | none => rfl
      | some c => exact congrArg (r.title ++ "\n" ++ r.description ++ ·) hdetails
  · rw [if_neg hroom]
    rfl

/-! What is done to a world. -/

/-- A change to a room that leaves its exits alone can be made before one is taken away or after. -/
theorem modify_rooms_without (w : World) (room here : RoomId) (d : Direction) {f : Room → Room}
    (hf : ∀ r, f (r.without d) = (f r).without d) :
    (w.without room d).rooms.modify here f =
      (w.rooms.modify here f).modify room (Room.without d) :=
  Table.modify_comm w.rooms room here fun r => (hf r).symm

theorem unplace_without (w : World) (room : RoomId) (d : Direction) (id : CharacterId) :
    (w.without room d).unplace id = (w.unplace id).without room d := by
  have hhere : (w.without room d).characterRoom id = w.characterRoom id := rfl
  unfold unplace
  rw [hhere]
  cases w.characterRoom id with
  | none => rfl
  | some here =>
    have hrooms := w.modify_rooms_without room here d
      (f := fun r => { r with occupants := r.occupants.filter (· ≠ id) }) fun _ => rfl
    rcases w.room?_without_cases room d here with ⟨h, h'⟩ | ⟨r, exits, h, h'⟩
    all_goals
      dsimp only [room?] at h h' ⊢
      rw [h, h']
    · rfl
    · dsimp only
      rw [hrooms]
      rfl

theorem place_without (w : World) (room : RoomId) (d : Direction) (id : CharacterId)
    (there : RoomId) : (w.without room d).place id there = (w.place id there).without room d := by
  have hrooms := w.modify_rooms_without room there d
    (f := fun r => { r with occupants := r.occupants.push id }) fun _ => rfl
  unfold place
  rcases w.room?_without_cases room d there with ⟨h, h'⟩ | ⟨r, exits, h, h'⟩
  all_goals rw [h, h']
  dsimp only
  rw [hrooms]
  rfl

theorem moveCharacter_without (w : World) (room : RoomId) (d : Direction) (id : CharacterId)
    (there : RoomId) : (w.without room d).moveCharacter id there =
      ((w.moveCharacter id there).1, (w.moveCharacter id there).2.without room d) := by
  have hrooms : (w.without room d).rooms.contains there = w.rooms.contains there :=
    Std.ExtTreeMap.contains_modify
  have hcharacters : (w.without room d).characters = w.characters := rfl
  unfold moveCharacter
  rw [hrooms, hcharacters, unplace_without, place_without]
  split
  · rfl
  · split <;> rfl

theorem unlist_without (w : World) (room : RoomId) (d : Direction) (id : ItemId)
    (place : ItemLocation) :
    (w.without room d).unlist id place = (w.unlist id place).without room d := by
  cases place with
  | room here =>
    have hrooms := w.modify_rooms_without room here d
      (f := fun r => { r with items := r.items.remove id }) fun _ => rfl
    unfold unlist
    dsimp only
    rw [hrooms]
    rfl
  | _ => rfl

theorem detach_without (w : World) (room : RoomId) (d : Direction) (id : ItemId) :
    (w.without room d).detach id = (w.detach id).without room d := by
  have hitem : (w.without room d).item? id = w.item? id := rfl
  unfold detach
  rw [hitem]
  split
  · rfl
  · exact unlist_without (w.locate id none) room d id _

theorem enlist_without (w : World) (room : RoomId) (d : Direction) (id : ItemId)
    (place : ItemLocation) :
    (w.without room d).enlist id place = (w.enlist id place).map (·.without room d) := by
  cases place with
  | room here =>
    have hrooms := w.modify_rooms_without room here d
      (f := fun r => { r with items := r.items.add id }) fun _ => rfl
    unfold enlist
    rcases w.room?_without_cases room d here with ⟨h, h'⟩ | ⟨r, exits, h, h'⟩
    all_goals
      dsimp only
      rw [h, h']
    · rfl
    · dsimp only
      rw [hrooms]
      rfl
  | inventory owner =>
    have howner : (w.without room d).character? owner = w.character? owner := rfl
    unfold enlist
    dsimp only
    rw [howner]
    split <;> rfl
  | equipped owner slot =>
    have howner : (w.without room d).character? owner = w.character? owner := rfl
    unfold enlist
    dsimp only
    rw [howner]
    split
    · rfl
    · split <;> rfl
  | inside parent =>
    have hparent : (w.without room d).item? parent = w.item? parent := rfl
    unfold enlist
    dsimp only
    rw [hparent]
    split <;> rfl

theorem attach_without (w : World) (room : RoomId) (d : Direction) (id : ItemId)
    (place : ItemLocation) : (w.without room d).attach id place =
      ((w.attach id place).1, (w.attach id place).2.without room d) := by
  unfold attach
  rw [enlist_without]
  cases w.enlist id place <;> rfl

theorem moveItem_without (w : World) (room : RoomId) (d : Direction) (id : ItemId)
    (target : ItemLocation) : (w.without room d).moveItem id target =
      ((w.moveItem id target).1, (w.moveItem id target).2.without room d) := by
  have hitems : (w.without room d).items = w.items := rfl
  unfold moveItem
  rw [hitems, locationZoneKey_without, detach_without, attach_without]
  split
  · rfl
  · split
    · rfl
    · split <;> rfl

theorem setDoorClosed_without (w : World) {room here : RoomId} {d d' : Direction}
    (hother : ¬(room = here ∧ d = d')) (closed : Bool) :
    (w.without room d).setDoorClosed here d' closed =
      ((w.setDoorClosed here d' closed).1, (w.setDoorClosed here d' closed).2.without room d) := by
  -- Changing an exit in place commutes with taking one away, even if it is that one.
  have hleaf (rooms : Table RoomId Room) (id : RoomId) (d₂ : Direction) (f : Exit → Exit) :
      (rooms.modify room (Room.without d)).modify id
          (fun r => { r with exits := r.exits.modify d₂ f }) =
        (rooms.modify id fun r => { r with exits := r.exits.modify d₂ f }).modify room
          (Room.without d) := by
    refine Table.modify_comm rooms room id fun r => ?_
    exact congrArg (fun exits => { r with exits }) (Table.modify_erase r.exits d₂ d f).symm
  have hexit : (w.without room d).exit? here d' = w.exit? here d' := by
    rw [exit?_without, if_neg hother]
  unfold setDoorClosed
  rw [exitDestination_without hother]
  rcases w.room?_without_cases room d here with ⟨h, h'⟩ | ⟨r, exits, h, h'⟩
  · rw [h, h']
  · rw [exit?, exit?, h, h', Option.bind_some, Option.bind_some] at hexit
    rw [h, h']
    dsimp only
    rw [hexit]
    cases w.exitDestination here d' with
    | none => exact congrArg (fun rooms => (_, { w with rooms })) (hleaf w.rooms here d' _)
    | some there =>
      refine congrArg (fun rooms => (_, { w with rooms })) ?_
      dsimp only [without]
      rw [hleaf, hleaf]

theorem putOffBalance_without (w : World) (room : RoomId) (d : Direction) (id : CharacterId)
    (duration : Duration) : (w.without room d).putOffBalance id duration =
      (w.putOffBalance id duration).map fun reply => (reply.1, reply.2.without room d) := by
  have hcharacter : (w.without room d).character? id = w.character? id := rfl
  have hnow : (w.without room d).now = w.now := rfl
  unfold putOffBalance
  rw [hcharacter, hnow]
  cases w.now.add? duration with
  | none => rfl
  | some deadline => cases w.character? id <;> rfl

/-! A door that is secret and closed. -/

/-- What can be done by somebody who does not see an exit, and goes nowhere by it: characters and
items are moved, and doors that are there and can be seen are handled. -/
def Spares (w : World) : Op → Prop
  | .moveCharacter .. | .moveItem .. | .putOffBalance .. => True
  | .setDoorClosed here d _ => ∃ e, w.exit? here d = some e ∧ e.isVisible = true ∧
      e.door.isSome = true
  | _ => False

/-- In a direction of a room there is an exit with a closed secret door, and no exit that leads back
through it has a door. -/
structure Concealed (w : World) (room : RoomId) (d : Direction) (e : Exit) : Prop where
  exit : w.exit? room d = some e
  door : ∃ door, e.door = some door ∧ door.secret = true ∧ door.closed = true
  one_way : ∀ there back, w.exitDestination room d = some there →
    w.exit? there d.opposite = some back → w.exitDestination there d.opposite = some room →
      back.door = none

variable {e e' : Exit} {op : Op}

namespace Concealed

theorem isVisible (h : w.Concealed room d e) : e.isVisible = false := by
  obtain ⟨door, hdoor, hsecret, hclosed⟩ := h.door
  simp [Exit.isVisible, hdoor, hsecret, hclosed]

theorem hidden (h : w.Concealed room d e) {e' : Exit} (he' : w.exit? room d = some e') :
    e'.isVisible = false := by
  rw [h.exit] at he'
  cases he'
  exact h.isVisible

/-- An exit that can be seen is another one. -/
theorem ne (h : w.Concealed room d e) (he' : w.exit? here d' = some e')
    (hvisible : e'.isVisible = true) : ¬(room = here ∧ d = d') := by
  rintro ⟨rfl, rfl⟩
  rw [h.hidden he'] at hvisible
  cases hvisible

theorem sameWalls (h : w.Concealed room d e) (hs : w.SameWalls v)
    (he : v.exit? room d = some e) : v.Concealed room d e where
  exit := he
  door := h.door
  one_way there back hthere hback hhere := by
    rw [hs.exitDestination] at hthere hhere
    obtain ⟨back₀, hback₀, hsame⟩ := hs.exists_exit hback
    have hdoor := congrArg Exit.door hsame
    rw [Exit.setClosed, h.one_way there back₀ hthere hback₀ hhere] at hdoor
    exact Option.map_eq_none_iff.1 hdoor.symm

end Concealed

/-- An exit is no other side of a door in a room that it does not lead to. -/
theorem exit?_setDoorClosed_of_ne {r : Room} (hr : w.room? here = some r)
    (hother : ¬(here = room ∧ d' = d)) (he : w.exit? room d = some e)
    (hkey : e.destination ≠ r.key) (closed : Bool) :
    (w.setDoorClosed here d' closed).2.exit? room d = some e := by
  have hnear := exit?_modifyExit w here d' (Exit.setClosed closed) room d
  rw [if_neg hother, he] at hnear
  unfold setDoorClosed
  rw [hr]
  dsimp only
  split
  · rw [exit?_modifyExit { w with
      rooms := w.rooms.modify here fun r =>
        { r with exits := r.exits.modify d' (Exit.setClosed closed) } }, hnear]
    split
    · rw [Option.map_some, if_neg hkey]
    · rfl
  · exact hnear

/-- Whoever does not see an exit does nothing to it. -/
theorem Concealed.perform (h : w.Concealed room d e) (hw : w.Filed) (hs : w.Spares op)
    {reply : Reply op.Result} (hr : w.perform op = some reply) :
    reply.2.Concealed room d e := by
  cases op with
  | moveCharacter id there =>
    cases hr
    obtain ⟨hwalls, hexit⟩ := undisturbed_moveCharacter w id there
    exact h.sameWalls hwalls.toSameWalls ((hexit room d).trans h.exit)
  | moveItem id target =>
    cases hr
    have hmoved := rearranged_moveItem w id target
    exact h.sameWalls hmoved.undisturbed.toSameWalls ((hmoved.exit?_eq room d).trans h.exit)
  | putOffBalance id duration =>
    obtain ⟨hwalls, hexit⟩ := undisturbed_putOffBalance hr
    exact h.sameWalls hwalls.toSameWalls ((hexit room d).trans h.exit)
  | setDoorClosed here d' closed =>
    cases hr
    refine h.sameWalls (sameWalls_setDoorClosed w here d' closed) ?_
    obtain ⟨e', he', hvisible, hdoor⟩ := hs
    have hother := h.ne he' hvisible
    rcases exit?_setDoorClosed w here d' closed room d with hsame | ⟨-, hnear | ⟨hback, hd⟩⟩
    · exact hsame.trans h.exit
    · exact absurd hnear hother
    · obtain ⟨r, hr, -⟩ := Option.bind_eq_some_iff.1 he'
      refine exit?_setDoorClosed_of_ne hr (fun hsame => hother ⟨hsame.1.symm, hsame.2.symm⟩)
        h.exit (fun hkey => ?_) closed
      -- An exit that led here would be the other side of this door.
      have hthere : w.exitDestination room d = some here := by
        rw [exitDestination_eq, h.exit, Option.bind_some, hkey]
        exact hw.room hr
      have hnone := h.one_way here e' hthere
      rw [hd, Direction.opposite_opposite] at hnone
      rw [hnone he' hback] at hdoor
      cases hdoor
  | _ => exact absurd hs (by rintro ⟨⟩)

/-- What is done by somebody who does not see an exit goes the same way without it. -/
theorem perform_without (h : w.Concealed room d e) (hs : w.Spares op) :
    (w.without room d).perform op =
      (w.perform op).map fun reply => (reply.1, reply.2.without room d) := by
  cases op with
  | moveCharacter id there => exact congrArg some (moveCharacter_without w room d id there)
  | moveItem id target => exact congrArg some (moveItem_without w room d id target)
  | putOffBalance id duration => exact putOffBalance_without w room d id duration
  | setDoorClosed here d' closed =>
    obtain ⟨e', he', hvisible, -⟩ := hs
    exact congrArg some (setDoorClosed_without w (h.ne he' hvisible) closed)
  | _ => exact absurd hs (by rintro ⟨⟩)

end World

end TextWorld

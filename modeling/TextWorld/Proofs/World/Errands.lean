import TextWorld.Proofs.World.Occupancy
import Mathlib.Logic.Relation

/-!
Errands: what characters do in the world by themselves. They walk through exits that are open to
them, open and close doors that they see, and handle items. Only admins go where they like. The
walls of the world and its inhabitants stay the same meanwhile.
-/

namespace TextWorld

theorem Exit.setClosed_setClosed (e : Exit) (a b : Bool) :
    (e.setClosed a).setClosed b = e.setClosed b := by
  simp [Exit.setClosed, Option.map_map, Function.comp_def]

/-- What stays with a character on its errands. -/
def Character.self (c : Character) : Character :=
  { c with room := none, inventory := .empty, equipment := .empty, balanceUntil := none }

namespace World

/-- The exit of a room in a direction. -/
def exit? (w : World) (room : RoomId) (d : Direction) : Option Exit :=
  (w.room? room).bind (·.exit? d)

theorem exitDestination_eq (w : World) (room : RoomId) (d : Direction) :
    w.exitDestination room d = (w.exit? room d).bind fun e => w.roomIndex.get? e.destination := by
  rw [exitDestination, exit?]
  cases w.room? room with
  | none => rfl
  | some r =>
    change (r.exit? d).bind _ = ((some r).bind (·.exit? d)).bind _
    rfl

/-- Whether a character can do something by itself: it goes through an exit that it sees and can
pass, unless it is an admin, and handles doors that it sees, the locks of which hold. -/
def Allows (w : World) (actor : CharacterId) : Op → Prop
  | .moveCharacter id there => id = actor ∧ ∃ c, w.character? actor = some c ∧
    (c.isAdmin = true ∨ ∃ here d e, c.room = some here ∧ w.exit? here d = some e ∧
      e.isVisible = true ∧ e.isPassableBy c = true ∧ w.exitDestination here d = some there)
  | .setDoorClosed room d closed => ∃ c e, w.character? actor = some c ∧ c.room = some room ∧
    w.exit? room d = some e ∧ e.isVisible = true ∧
      (closed = false → e.door.any (·.locked) = false)
  | .spawnItem .. | .moveItem .. | .putOffBalance .. => True
  | _ => False

/-- A character does something by itself, successfully or not. -/
def Errand (actor : CharacterId) (w v : World) : Prop :=
  ∃ op reply, w.Allows actor op ∧ w.perform op = some reply ∧ v = reply.2

/-- One errand of a character after another. -/
def Errands (actor : CharacterId) : World → World → Prop := Relation.ReflTransGen (Errand actor)

/-- The walls are where they were: rooms have the same keys and the same exits, but for doors that
have been opened or closed. -/
structure SameWalls (w v : World) : Prop where
  roomIndex : v.roomIndex = w.roomIndex
  exit : ∀ room d, (v.exit? room d).map (Exit.setClosed false) =
    (w.exit? room d).map (Exit.setClosed false)

/-- The same characters are there, and what `view` shows of them is the same. -/
def Alike {β : Type} (view : Character → β) (w v : World) : Prop :=
  ∀ id, (v.character? id).map view = (w.character? id).map view

variable {w v u : World} {actor : CharacterId} {β γ : Type} {view : Character → β}

theorem SameWalls.refl (w : World) : w.SameWalls w := ⟨rfl, fun _ _ => rfl⟩

theorem SameWalls.trans (h : w.SameWalls v) (h' : v.SameWalls u) : w.SameWalls u :=
  ⟨h'.roomIndex.trans h.roomIndex, fun room d => (h'.exit room d).trans (h.exit room d)⟩

theorem SameWalls.of_exits (hindex : v.roomIndex = w.roomIndex)
    (hexits : ∀ room d, v.exit? room d = w.exit? room d) : w.SameWalls v :=
  ⟨hindex, fun room d => by rw [hexits]⟩

/-- An exit leads where it led, and its door is what it was but for being open or closed. -/
theorem SameWalls.exists_exit (h : w.SameWalls v) {room : RoomId} {d : Direction} {e : Exit}
    (he : v.exit? room d = some e) :
    ∃ e₀, w.exit? room d = some e₀ ∧ e₀.setClosed false = e.setClosed false := by
  have hmap := h.exit room d
  rw [he, Option.map_some, eq_comm] at hmap
  exact Option.map_eq_some_iff.1 hmap

theorem SameWalls.exitDestination (h : w.SameWalls v) (room : RoomId) (d : Direction) :
    v.exitDestination room d = w.exitDestination room d := by
  have hthere := congrArg (Option.bind · fun e => w.roomIndex.get? e.destination) (h.exit room d)
  simp only [Option.bind_map] at hthere
  rw [exitDestination_eq, exitDestination_eq, h.roomIndex]
  exact hthere

theorem Alike.refl (w : World) : Alike view w w := fun _ => rfl

theorem Alike.trans (h : Alike view w v) (h' : Alike view v u) : Alike view w u :=
  fun id => (h' id).trans (h id)

theorem Alike.comp (h : Alike view w v) (f : β → γ) : Alike (fun c => f (view c)) w v := by
  intro id
  have hmap := congrArg (Option.map f) (h id)
  rwa [Option.map_map, Option.map_map] at hmap

theorem Alike.exists_character (h : Alike view w v) {id : CharacterId} {c : Character}
    (hc : v.character? id = some c) : ∃ c₀, w.character? id = some c₀ ∧ view c₀ = view c := by
  have hmap := h id
  rw [hc, Option.map_some, eq_comm] at hmap
  exact Option.map_eq_some_iff.1 hmap

theorem Alike.character_isSome (h : Alike view w v) (id : CharacterId) :
    (v.character? id).isSome = (w.character? id).isSome := by
  simpa using congrArg Option.isSome (h id)

theorem Alike.modifyCharacter (w : World) (id : CharacterId) {f : Character → Character}
    (hf : ∀ c, view (f c) = view c) :
    Alike view w { w with characters := w.characters.modify id f } := by
  intro x
  rw [character?_eq, character?_eq, Table.getElem?_modify]
  split
  · simp only [Option.map_map, Function.comp_def, hf]
  · rfl

/-! Items that are moved, or made, disturb nobody. -/

theorem Rearranged.exit?_eq (h : w.Rearranged v) (room : RoomId) (d : Direction) :
    v.exit? room d = w.exit? room d := by
  have hroom := congrArg (Option.bind · fun r : Room => r.exit? d) (h.rooms room)
  simp only [Option.bind_map] at hroom
  exact hroom

theorem Rearranged.alike (h : w.Rearranged v) : Alike Character.self w v := by
  have hbare : Alike Character.bare w v := h.characters
  exact hbare.comp Character.self

theorem exit?_modifyRoom (w : World) (id : RoomId) {f : Room → Room}
    (hf : ∀ r, (f r).exits = r.exits) (room : RoomId) (d : Direction) :
    exit? { w with rooms := w.rooms.modify id f } room d = w.exit? room d := by
  rw [exit?, exit?, room?_eq, room?_eq, Table.getElem?_modify]
  split
  · rw [Option.bind_map]
    congr 1
    funext r
    exact congrArg (Std.ExtTreeMap.get? · d) (hf r)
  · rfl

theorem exit?_place (w : World) (id : CharacterId) (there room : RoomId) (d : Direction) :
    (w.place id there).exit? room d = w.exit? room d := by
  unfold place
  split
  · rfl
  · exact exit?_modifyRoom w there
      (f := fun r => { r with occupants := r.occupants.push id }) (fun _ => rfl) room d

theorem exit?_unplace (w : World) (id : CharacterId) (room : RoomId) (d : Direction) :
    (w.unplace id).exit? room d = w.exit? room d := by
  unfold unplace
  split
  · rfl
  · dsimp only
    split
    · rfl
    · exact exit?_modifyRoom w _
        (f := fun r => { r with occupants := r.occupants.filter (· ≠ id) }) (fun _ => rfl) room d

theorem roomIndex_place (w : World) (id : CharacterId) (there : RoomId) :
    (w.place id there).roomIndex = w.roomIndex := by
  unfold place
  split <;> rfl

theorem roomIndex_unplace (w : World) (id : CharacterId) :
    (w.unplace id).roomIndex = w.roomIndex := by
  unfold unplace
  split
  · rfl
  · dsimp only
    split <;> rfl

theorem exit?_modifyExit (w : World) (id : RoomId) (d : Direction) (f : Exit → Exit)
    (room : RoomId) (d' : Direction) :
    exit? { w with rooms := w.rooms.modify id fun r => { r with exits := r.exits.modify d f } }
        room d' =
      if id = room ∧ d = d' then (w.exit? room d').map f else w.exit? room d' := by
  rw [exit?, exit?, room?_eq, room?_eq, Table.getElem?_modify]
  by_cases hroom : id = room
  · rw [if_pos hroom]
    cases w.rooms[room]? with
    | none => simp
    | some r =>
      simp only [Option.map_some, Option.bind_some, Room.exit?, Std.ExtTreeMap.get?_eq_getElem?,
        Table.getElem?_modify, hroom, true_and]
  · simp [hroom]

/-- Opening or closing a door shows in the exit and in the one that leads back, and nowhere
else. -/
theorem exit?_setDoorClosed (w : World) (room : RoomId) (d : Direction) (closed : Bool)
    (room' : RoomId) (d' : Direction) :
    (w.setDoorClosed room d closed).2.exit? room' d' = w.exit? room' d' ∨
      (w.setDoorClosed room d closed).2.exit? room' d' =
          (w.exit? room' d').map (Exit.setClosed closed) ∧
        (room' = room ∧ d' = d ∨
          w.exitDestination room d = some room' ∧ d' = d.opposite) := by
  unfold setDoorClosed
  split
  · exact .inl rfl
  · rename_i here _
    dsimp only
    have hnear := exit?_modifyExit w room d (Exit.setClosed closed) room' d'
    split
    · rename_i there hthere
      have hback := exit?_modifyExit { w with
        rooms := w.rooms.modify room fun r =>
          { r with exits := r.exits.modify d (Exit.setClosed closed) } } there d.opposite
        (fun e => if e.destination = here.key then e.setClosed closed else e) room' d'
      rw [hback, hnear]
      by_cases hfar : there = room' ∧ d.opposite = d'
      · obtain ⟨rfl, rfl⟩ := hfar
        rw [if_pos ⟨rfl, rfl⟩]
        cases w.exit? there d.opposite with
        | none => exact .inl (by simp)
        | some e =>
          by_cases hsame : room = there ∧ d = d.opposite
          · rw [if_pos hsame]
            right
            simp [Exit.setClosed_setClosed, hthere]
          · rw [if_neg hsame, Option.map_some]
            split
            · exact .inr ⟨rfl, .inr ⟨hthere, rfl⟩⟩
            · exact .inl rfl
      · rw [if_neg hfar]
        split
        · rename_i hhere
          exact .inr ⟨rfl, .inl ⟨hhere.1.symm, hhere.2.symm⟩⟩
        · exact .inl rfl
    · rw [hnear]
      split
      · rename_i hhere
        exact .inr ⟨rfl, .inl ⟨hhere.1.symm, hhere.2.symm⟩⟩
      · exact .inl rfl

theorem sameWalls_setDoorClosed (w : World) (room : RoomId) (d : Direction) (closed : Bool) :
    w.SameWalls (w.setDoorClosed room d closed).2 := by
  constructor
  · unfold setDoorClosed
    split <;> rfl
  · intro room' d'
    rcases exit?_setDoorClosed w room d closed room' d' with hsame | ⟨hset, -⟩
    · rw [hsame]
    · rw [hset, Option.map_map]
      congr 1
      funext e
      exact Exit.setClosed_setClosed e closed false

theorem now_place (w : World) (id : CharacterId) (there : RoomId) :
    (w.place id there).now = w.now := by
  unfold place
  split <;> rfl

theorem now_unplace (w : World) (id : CharacterId) : (w.unplace id).now = w.now := by
  unfold unplace
  split
  · rfl
  · dsimp only
    split <;> rfl

theorem alike_unplace (w : World) (id : CharacterId) :
    Alike Character.self w (w.unplace id) := by
  intro x
  rw [character?_unplace]
  split
  · rw [Option.map_map]
    rfl
  · rfl

theorem alike_place (w : World) (id : CharacterId) (there : RoomId) :
    Alike Character.self w (w.place id there) := by
  unfold place
  split
  · exact .refl w
  · exact .modifyCharacter w id fun _ => rfl

/-- Nothing that can be seen of walls and inhabitants has changed, and no time has passed. -/
structure Undisturbed (w v : World) : Prop extends SameWalls w v where
  alike : Alike Character.self w v
  now : v.now = w.now

theorem Undisturbed.refl (w : World) : w.Undisturbed w := ⟨.refl w, .refl w, rfl⟩

theorem Undisturbed.trans (h : w.Undisturbed v) (h' : v.Undisturbed u) : w.Undisturbed u :=
  ⟨h.toSameWalls.trans h'.toSameWalls, h.alike.trans h'.alike, h'.now.trans h.now⟩

theorem Rearranged.undisturbed (h : w.Rearranged v) : w.Undisturbed v :=
  ⟨.of_exits h.roomIndex h.exit?_eq, h.alike, h.now⟩

theorem undisturbed_spawnItem (w : World) (place : ItemLocation) (t : ItemTemplate) :
    w.Undisturbed (w.spawnItem place t).2 ∧
      ∀ room d, (w.spawnItem place t).2.exit? room d = w.exit? room d := by
  unfold spawnItem
  split
  · exact ⟨.refl w, fun _ _ => rfl⟩
  · dsimp only
    split
    · exact ⟨⟨.of_exits rfl fun _ _ => rfl, .refl w, rfl⟩, fun _ _ => rfl⟩
    · rename_i i _
      have hr := rearranged_attach { w.allocate.2 with
        items := w.allocate.2.items.insert ⟨w.allocate.1⟩ i } ⟨w.allocate.1⟩ place
      have hall := hr.undisturbed
      have hexit := hr.exit?_eq
      split
      all_goals
        rename_i heq
        rw [heq] at hall hexit
        exact ⟨⟨⟨hall.roomIndex, hall.exit⟩, hall.alike, hall.now⟩, hexit⟩

theorem undisturbed_putOffBalance {id : CharacterId} {duration : Duration} {reply : Reply Unit}
    (hr : w.putOffBalance id duration = some reply) :
    w.Undisturbed reply.2 ∧ ∀ room d, reply.2.exit? room d = w.exit? room d := by
  unfold putOffBalance at hr
  obtain ⟨deadline, -, rfl⟩ := Option.map_eq_some_iff.1 hr
  split
  · exact ⟨.refl w, fun _ _ => rfl⟩
  · exact ⟨⟨.of_exits rfl fun _ _ => rfl, .modifyCharacter w id fun _ => rfl, rfl⟩,
      fun _ _ => rfl⟩

theorem undisturbed_moveCharacter (w : World) (id : CharacterId) (there : RoomId) :
    w.Undisturbed (w.moveCharacter id there).2 ∧
      ∀ room d, (w.moveCharacter id there).2.exit? room d = w.exit? room d := by
  have hexit (room : RoomId) (d : Direction) :
      ((w.unplace id).place id there).exit? room d = w.exit? room d := by
    rw [exit?_place, exit?_unplace]
  have hindex : ((w.unplace id).place id there).roomIndex = w.roomIndex := by
    rw [roomIndex_place, roomIndex_unplace]
  have hnow : ((w.unplace id).place id there).now = w.now := by rw [now_place, now_unplace]
  unfold moveCharacter
  split
  · exact ⟨.refl w, fun _ _ => rfl⟩
  · split
    · exact ⟨.refl w, fun _ _ => rfl⟩
    · have halike := (alike_unplace w id).trans (alike_place (w.unplace id) id there)
      exact ⟨⟨.of_exits hindex hexit, halike, hnow⟩, hexit⟩

/-- A character that is moved stands where it was moved to, or stays if that cannot be. -/
theorem characterRoom_moveCharacter (w : World) (id : CharacterId) (there : RoomId) :
    (∀ x, (w.moveCharacter id there).2.characterRoom x = w.characterRoom x) ∨
      ∀ x, (w.moveCharacter id there).2.characterRoom x =
        if id = x then some there else w.characterRoom x := by
  unfold moveCharacter
  split
  · exact .inl fun _ => rfl
  · rename_i hroom
    split
    · exact .inl fun _ => rfl
    · rename_i hthere
      right
      intro x
      have hstands : ((w.unplace id).room? there).isSome := by
        rw [(sameGround_unplace w id).room_isSome]
        simpa [room?_eq] using hroom
      rw [characterRoom_place hstands, characterRoom_unplace, character?_unplace]
      by_cases hx : id = x
      · subst hx
        have hsome : (w.character? id).isSome := by simpa [character?_eq] using hthere
        obtain ⟨c, hc⟩ := Option.isSome_iff_exists.1 hsome
        simp [hc]
      · simp [hx]

/-- What an errand comes to: the character walks through an exit, or goes where it likes as an
admin; or it opens or closes a door, or none of this. -/
theorem Errand.cases (h : Errand actor w v) : w.Undisturbed v ∧
    ((∀ room d, v.exit? room d = w.exit? room d) ∧
        (∀ x, v.characterRoom x = w.characterRoom x) ∨
      (∀ room d, v.exit? room d = w.exit? room d) ∧
        (∃ there, w.Allows actor (.moveCharacter actor there) ∧
          ∀ x, v.characterRoom x = if actor = x then some there else w.characterRoom x) ∨
      (∀ x, v.characterRoom x = w.characterRoom x) ∧
        ∃ room d closed, w.Allows actor (.setDoorClosed room d closed) ∧
          ∀ room' d', v.exit? room' d' = w.exit? room' d' ∨
            v.exit? room' d' = (w.exit? room' d').map (Exit.setClosed closed) ∧
              (room' = room ∧ d' = d ∨
                w.exitDestination room d = some room' ∧ d' = d.opposite)) := by
  obtain ⟨op, reply, hallows, hr, rfl⟩ := h
  cases op with
  | moveCharacter id there =>
    cases hr
    obtain ⟨hall, hexit⟩ := undisturbed_moveCharacter w id there
    obtain rfl : id = actor := hallows.1
    rcases characterRoom_moveCharacter w id there with hstays | hmoved
    · exact ⟨hall, .inl ⟨hexit, hstays⟩⟩
    · exact ⟨hall, .inr (.inl ⟨hexit, there, hallows, hmoved⟩)⟩
  | setDoorClosed room d closed =>
    cases hr
    have hseats := sameSeats_setDoorClosed w room d closed
    have hrest : Alike Character.self w (w.setDoorClosed room d closed).2 ∧
        (w.setDoorClosed room d closed).2.now = w.now := by
      unfold setDoorClosed
      split
      · exact ⟨.refl w, rfl⟩
      · exact ⟨fun _ => rfl, rfl⟩
    exact ⟨⟨sameWalls_setDoorClosed w room d closed, hrest.1, hrest.2⟩,
      .inr (.inr ⟨hseats.characterRoom, room, d, closed, hallows,
        exit?_setDoorClosed w room d closed⟩)⟩
  | spawnItem place t =>
    cases hr
    obtain ⟨hall, hexit⟩ := undisturbed_spawnItem w place t
    exact ⟨hall, .inl ⟨hexit, (sameSeats_spawnItem w place t).characterRoom⟩⟩
  | moveItem id target =>
    cases hr
    have hr := rearranged_moveItem w id target
    exact ⟨hr.undisturbed, .inl ⟨hr.exit?_eq, hr.sameSeats.characterRoom⟩⟩
  | putOffBalance id duration =>
    obtain ⟨hall, hexit⟩ := undisturbed_putOffBalance hr
    exact ⟨hall, .inl ⟨hexit, (sameSeats_putOffBalance hr).characterRoom⟩⟩
  | _ => exact absurd hallows (by rintro ⟨⟩)

theorem Errands.undisturbed (h : Errands actor w v) : w.Undisturbed v := by
  induction h with
  | refl => exact .refl w
  | tail _ hlast ih => exact ih.trans hlast.cases.1

end World

end TextWorld

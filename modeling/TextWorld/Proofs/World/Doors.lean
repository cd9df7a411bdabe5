import TextWorld.Proofs.World.Charting
import TextWorld.Proofs.World.Errands

/-!
Both sides of a door. An exit and the one that leads back are looked up in two different rooms, by
key and by direction. Nothing but these two is reached when a door is opened or closed, so that
doors which agree with their other side go on doing so.
-/

namespace TextWorld

/-- A room without its exits. -/
def Room.walled (r : Room) : Room := { r with exits := .empty }

theorem Direction.opposite_ne (d : Direction) : d.opposite ≠ d := by cases d <;> decide

/-- One side of a passage: the way out of a room in some direction. -/
structure Side where
  room : RoomId
  direction : Direction
  deriving DecidableEq, Repr

namespace World

def exitAt (w : World) (a : Side) : Option Exit := w.exit? a.room a.direction

def doorAt (w : World) (a : Side) : Option Door := (w.exitAt a).bind (·.door)

def leadsTo (w : World) (a : Side) : Option RoomId := w.exitDestination a.room a.direction

/-- Two exits that lead to each other's rooms in opposite directions. -/
structure Paired (w : World) (a b : Side) : Prop where
  opposite : b.direction = a.direction.opposite
  there : w.leadsTo a = some b.room
  back : w.leadsTo b = some a.room

/-- The sides that a door belongs to which is handled from side `a`. -/
def Across (w : World) (a b : Side) : Prop := b = a ∨ w.Paired a b

/-- Where there are doors on both sides, either both are closed or both are open. -/
def DoorsAgree (w : World) : Prop :=
  ∀ a b, w.Paired a b → ∀ x ∈ w.doorAt a, ∀ y ∈ w.doorAt b, x.closed = y.closed

/-- From `w` to `v` the doors of some sides have been opened or closed, and nothing else has been
done. -/
structure OnlyDoors (w v : World) (sides : Side → Prop) (closed : Bool) : Prop where
  rest : { v with rooms := w.rooms } = w
  room : ∀ id, (v.room? id).map Room.walled = (w.room? id).map Room.walled
  set : ∀ a, sides a → v.exitAt a = (w.exitAt a).map (Exit.setClosed closed)
  same : ∀ a, ¬sides a → v.exitAt a = w.exitAt a

instance (w : World) (a b : Side) : Decidable (w.Paired a b) :=
  decidable_of_iff (b.direction = a.direction.opposite ∧ w.leadsTo a = some b.room ∧
    w.leadsTo b = some a.room) ⟨fun h => ⟨h.1, h.2.1, h.2.2⟩, fun h => ⟨h.1, h.2, h.3⟩⟩

variable {w v : World} {a b c : Side} {closed changed : Bool}

theorem Paired.symm (h : w.Paired a b) : w.Paired b a where
  opposite := by rw [h.opposite, Direction.opposite_opposite]
  there := h.back
  back := h.there

/-- An exit is paired with one exit at most. -/
theorem Paired.unique (h : w.Paired a b) (h' : w.Paired a c) : b = c := by
  have hroom : b.room = c.room := Option.some.inj (h.there.symm.trans h'.there)
  have hdirection : b.direction = c.direction := h.opposite.trans h'.opposite.symm
  cases b
  cases c
  exact congrArg₂ Side.mk hroom hdirection

/-- Every exit that leads somewhere is compared with the one that could lead back. -/
theorem doorsAgree_iff : w.DoorsAgree ↔ ∀ room ∈ w.rooms.keys, ∀ d ∈ Direction.all,
    ∀ there ∈ w.leadsTo ⟨room, d⟩, w.Paired ⟨room, d⟩ ⟨there, d.opposite⟩ →
      ∀ x ∈ w.doorAt ⟨room, d⟩, ∀ y ∈ w.doorAt ⟨there, d.opposite⟩, x.closed = y.closed := by
  refine ⟨fun h room _ d _ there _ => h ⟨room, d⟩ ⟨there, d.opposite⟩, fun h a b hpair x hx => ?_⟩
  have hroom : a.room ∈ w.rooms.keys := by
    obtain ⟨e, he, -⟩ := Option.bind_eq_some_iff.1 hx
    obtain ⟨r, hr, -⟩ := Option.bind_eq_some_iff.1 he
    rw [Std.ExtTreeMap.mem_keys, Std.ExtTreeMap.mem_iff_isSome_getElem?]
    exact Option.isSome_of_eq_some hr
  have hb : b = ⟨b.room, a.direction.opposite⟩ := congrArg (Side.mk b.room) hpair.opposite
  rw [hb] at hpair ⊢
  exact h a.room hroom a.direction a.direction.mem_all b.room hpair.there hpair x hx

instance (w : World) : Decidable w.DoorsAgree := decidable_of_iff _ doorsAgree_iff.symm

/-- A door handled from `a` belongs to both exits of a pair or to none of them. -/
theorem Paired.across_iff (h : w.Paired b c) : w.Across a b ↔ w.Across a c := by
  have hstep {b c : Side} (h : w.Paired b c) : w.Across a b → w.Across a c := by
    rintro (rfl | hb)
    · exact .inr h
    · exact .inl (h.unique hb.symm)
  exact ⟨hstep h, hstep h.symm⟩

theorem SameWalls.leadsTo (h : w.SameWalls v) (a : Side) : v.leadsTo a = w.leadsTo a :=
  h.exitDestination a.room a.direction

theorem SameWalls.paired_iff (h : w.SameWalls v) : v.Paired a b ↔ w.Paired a b := by
  constructor
  · rintro ⟨hopposite, hthere, hback⟩
    exact ⟨hopposite, h.leadsTo a ▸ hthere, h.leadsTo b ▸ hback⟩
  · rintro ⟨hopposite, hthere, hback⟩
    exact ⟨hopposite, (h.leadsTo a).trans hthere, (h.leadsTo b).trans hback⟩

theorem SameWalls.across_iff (h : w.SameWalls v) : v.Across a b ↔ w.Across a b :=
  or_congr_right h.paired_iff

theorem leadsTo_eq (w : World) (a : Side) :
    w.leadsTo a = (w.exitAt a).bind fun e => w.roomIndex.get? e.destination :=
  exitDestination_eq w a.room a.direction

/-- Worlds are equal that differ neither in their exits nor in anything else. -/
theorem eq_of_exitAt (hrest : { v with rooms := w.rooms } = w)
    (hroom : ∀ id, (v.room? id).map Room.walled = (w.room? id).map Room.walled)
    (hexit : ∀ a, v.exitAt a = w.exitAt a) : v = w := by
  have hrooms : v.rooms = w.rooms := by
    apply Std.ExtTreeMap.ext_getElem?
    intro id
    have hbare := hroom id
    rw [room?_eq, room?_eq] at hbare
    cases hv : v.rooms[id]? with
    | none =>
      rw [hv, Option.map_none, eq_comm, Option.map_eq_none_iff] at hbare
      exact hbare.symm
    | some r =>
      rw [hv, Option.map_some, eq_comm] at hbare
      obtain ⟨r', hw, hr⟩ := Option.map_eq_some_iff.1 hbare
      have hexits : r.exits = r'.exits := by
        apply Std.ExtTreeMap.ext_getElem?
        intro d
        simpa [exitAt, exit?, room?_eq, hv, hw, Room.exit?] using hexit ⟨id, d⟩
      rw [hw, Option.some.injEq]
      calc
        r = { r.walled with exits := r.exits } := rfl
        _ = { r'.walled with exits := r'.exits } := by rw [hr, hexits]
        _ = r' := rfl
  rw [← hrest]
  cases v
  cases hrooms
  rfl

namespace OnlyDoors

variable {sides : Side → Prop}

theorem doorAt_set (h : w.OnlyDoors v sides closed) (ha : sides a) :
    v.doorAt a = (w.doorAt a).map fun x => { x with closed } := by
  rw [doorAt, h.set a ha, doorAt, Option.bind_map]
  cases w.exitAt a <;> rfl

theorem closed_of_set (h : w.OnlyDoors v sides closed) (ha : sides a) {x : Door}
    (hx : v.doorAt a = some x) : x.closed = closed := by
  rw [h.doorAt_set ha] at hx
  obtain ⟨y, -, rfl⟩ := Option.map_eq_some_iff.1 hx
  rfl

theorem doorAt_same (h : w.OnlyDoors v sides closed) (ha : ¬sides a) :
    v.doorAt a = w.doorAt a := by
  rw [doorAt, h.same a ha, doorAt]

/-- To open or close doors a second time changes nothing. -/
theorem again {u : World} (h : w.OnlyDoors v sides closed) (h' : v.OnlyDoors u sides closed) :
    u = v := by
  refine eq_of_exitAt h'.rest h'.room fun a => ?_
  by_cases ha : sides a
  · rw [h'.set a ha, h.set a ha, Option.map_map]
    congr 1
    funext e
    exact Exit.setClosed_setClosed e closed closed
  · exact h'.same a ha

end OnlyDoors

/-- In a world with exact indexes an exit leads to a room if and only if it names its key. -/
theorem Charted.leadsTo_iff (h : w.Charted) {r : Room} (hr : w.room? a.room = some r) {e : Exit}
    (he : w.exitAt b = some e) : w.leadsTo b = some a.room ↔ e.destination = r.key := by
  rw [leadsTo_eq, he, Option.bind_some, Std.ExtTreeMap.get?_eq_getElem?, h.roomIndex, ← room?_eq,
    hr, Option.map_some, Option.some.injEq, eq_comm]

/-- The world with something done to one exit. -/
def modifyExit (w : World) (a : Side) (f : Exit → Exit) : World :=
  { w with rooms := w.rooms.modify a.room fun r =>
      { r with exits := r.exits.modify a.direction f } }

theorem exitAt_modifyExit (w : World) (a b : Side) (f : Exit → Exit) :
    (w.modifyExit a f).exitAt b = if b = a then (w.exitAt b).map f else w.exitAt b := by
  have hsame : a.room = b.room ∧ a.direction = b.direction ↔ b = a := by
    cases a
    cases b
    simp [eq_comm]
  rw [exitAt, modifyExit, exit?_modifyExit, ← exitAt]
  simp only [hsame]

theorem walled_modifyExit (w : World) (a : Side) (f : Exit → Exit) (id : RoomId) :
    ((w.modifyExit a f).room? id).map Room.walled = (w.room? id).map Room.walled := by
  rw [room?_eq, room?_eq, modifyExit, Table.getElem?_modify]
  split
  · rw [Option.map_map]
    rfl
  · rfl

theorem setDoorClosed_missing (hroom : w.room? a.room = none) :
    w.setDoorClosed a.room a.direction closed = (.error (.roomNotFound a.room), w) := by
  rw [setDoorClosed, hroom]

/-- The exit back counts only if it leads here. -/
theorem setDoorClosed_snd {here : Room} (hhere : w.room? a.room = some here) :
    (w.setDoorClosed a.room a.direction closed).2 = match w.leadsTo a with
      | none => w.modifyExit a (Exit.setClosed closed)
      | some there => (w.modifyExit a (Exit.setClosed closed)).modifyExit
          ⟨there, a.direction.opposite⟩ fun e =>
            if e.destination = here.key then e.setClosed closed else e := by
  rw [setDoorClosed, hhere, leadsTo]
  cases w.exitDestination a.room a.direction <;> rfl

/-- What becomes of the exits when a door is opened or closed from side `a`. -/
theorem Charted.exitAt_setDoorClosed (h : w.Charted) (hroom : (w.room? a.room).isSome) (b : Side) :
    (w.Across a b → (w.setDoorClosed a.room a.direction closed).2.exitAt b =
        (w.exitAt b).map (Exit.setClosed closed)) ∧
      (¬w.Across a b →
        (w.setDoorClosed a.room a.direction closed).2.exitAt b = w.exitAt b) := by
  obtain ⟨here, hhere⟩ := Option.isSome_iff_exists.1 hroom
  rw [setDoorClosed_snd hhere]
  cases hthere : w.leadsTo a with
  | none =>
    have hacross : w.Across a b ↔ b = a :=
      or_iff_left fun hpair => nomatch hthere.symm.trans hpair.there
    simp only [exitAt_modifyExit, hacross]
    exact ⟨fun hb => if_pos hb, fun hb => if_neg hb⟩
  | some there =>
    have hne : (⟨there, a.direction.opposite⟩ : Side) ≠ a := by
      intro heq
      exact a.direction.opposite_ne (congrArg Side.direction heq)
    simp only [exitAt_modifyExit]
    by_cases hfar : b = ⟨there, a.direction.opposite⟩
    · subst hfar
      rw [if_pos rfl, if_neg hne]
      cases he : w.exitAt ⟨there, a.direction.opposite⟩ with
      | none => exact ⟨fun _ => rfl, fun _ => rfl⟩
      | some e =>
        have hback : w.Across a ⟨there, a.direction.opposite⟩ ↔ e.destination = here.key := by
          rw [Across, or_iff_right hne, ← h.leadsTo_iff hhere he]
          exact ⟨fun hpair => hpair.back, fun hback => ⟨rfl, hthere, hback⟩⟩
        simp only [hback, Option.map_some]
        exact ⟨fun hkey => by rw [if_pos hkey], fun hkey => by rw [if_neg hkey]⟩
    · have hacross : w.Across a b ↔ b = a := by
        refine or_iff_left fun hpair => hfar ?_
        have hroom : there = b.room := Option.some.inj (hthere.symm.trans hpair.there)
        cases b
        exact congrArg₂ Side.mk hroom.symm hpair.opposite
      rw [if_neg hfar, hacross]
      exact ⟨fun hb => if_pos hb, fun hb => if_neg hb⟩

/-- Nothing but the door on this side and the one on the side that leads back is touched. -/
theorem Charted.onlyDoors (h : w.Charted) (hroom : (w.room? a.room).isSome) :
    w.OnlyDoors (w.setDoorClosed a.room a.direction closed).2 (w.Across a) closed where
  rest := by
    unfold setDoorClosed
    split <;> rfl
  room id := by
    obtain ⟨here, hhere⟩ := Option.isSome_iff_exists.1 hroom
    rw [setDoorClosed_snd hhere]
    split
    · exact walled_modifyExit w a _ id
    · exact (walled_modifyExit _ _ _ id).trans (walled_modifyExit w a _ id)
  set b := (h.exitAt_setDoorClosed hroom b).1
  same b := (h.exitAt_setDoorClosed hroom b).2

/-- A call is answered by whether the door on this side had to be moved. -/
theorem setDoorClosed_fst (hroom : (w.room? a.room).isSome) :
    (w.setDoorClosed a.room a.direction closed).1 =
      .ok ((w.doorAt a).any fun door => door.closed != closed) := by
  obtain ⟨here, hhere⟩ := Option.isSome_iff_exists.1 hroom
  rw [setDoorClosed, doorAt, exitAt, exit?, hhere, Option.bind_some]
  dsimp only
  cases (here.exit? a.direction).bind (·.door) <;> rfl

theorem setDoorClosed_ok_iff :
    (∃ changed v, w.setDoorClosed a.room a.direction closed = (.ok changed, v)) ↔
      (w.room? a.room).isSome := by
  cases hroom : w.room? a.room with
  | none =>
    rw [setDoorClosed_missing hroom]
    exact ⟨nofun, nofun⟩
  | some here =>
    have hthere : (w.room? a.room).isSome := Option.isSome_of_eq_some hroom
    exact ⟨fun _ => rfl, fun _ => ⟨_, _, Prod.ext (setDoorClosed_fst hthere) rfl⟩⟩

/-- The same call once more finds every door as it wants it. -/
theorem Charted.setDoorClosed_again (h : w.Charted) (hroom : (w.room? a.room).isSome)
    (hcall : (w.setDoorClosed a.room a.direction closed).2 = v) :
    v.setDoorClosed a.room a.direction closed = (.ok false, v) := by
  subst hcall
  have honly : w.OnlyDoors _ (w.Across a) closed := h.onlyDoors hroom
  have hroom' : ((w.setDoorClosed a.room a.direction closed).2.room? a.room).isSome := by
    have hsome := congrArg Option.isSome (honly.room a.room)
    rwa [Option.isSome_map, Option.isSome_map, hroom] at hsome
  apply Prod.ext
  · rw [setDoorClosed_fst hroom']
    -- The door on this side has been set.
    cases hdoor : (w.setDoorClosed a.room a.direction closed).2.doorAt a with
    | none => rfl
    | some x => simp [honly.closed_of_set (.inl rfl) hdoor]
  · have hcharted := h.same (.setDoorClosed w a.room a.direction closed)
    have hwalls := sameWalls_setDoorClosed w a.room a.direction closed
    have hacross := funext fun b => propext (hwalls.across_iff (a := a) (b := b))
    exact honly.again (hacross ▸ hcharted.onlyDoors hroom')

theorem Charted.doorsAgree_setDoorClosed (h : w.Charted) (hagree : w.DoorsAgree) (a : Side)
    (closed : Bool) : (w.setDoorClosed a.room a.direction closed).2.DoorsAgree := by
  cases hroom : w.room? a.room with
  | none =>
    rw [setDoorClosed_missing hroom]
    exact hagree
  | some here =>
    have honly : w.OnlyDoors _ (w.Across a) closed := h.onlyDoors (Option.isSome_of_eq_some hroom)
    intro b c hpair x hx y hy
    rw [(sameWalls_setDoorClosed w a.room a.direction closed).paired_iff] at hpair
    by_cases hb : w.Across a b
    · have hc : w.Across a c := hpair.across_iff.1 hb
      exact (honly.closed_of_set hb hx).trans (honly.closed_of_set hc hy).symm
    · have hc : ¬w.Across a c := mt hpair.across_iff.2 hb
      rw [honly.doorAt_same hb] at hx
      rw [honly.doorAt_same hc] at hy
      exact hagree b c hpair x hx y hy

/-- Someone opens or closes the door on a side. -/
def Op.turn (call : Side × Bool) : Op := .setDoorClosed call.1.room call.1.direction call.2

theorem Charted.doorsAgree_run (h : w.Charted) (hagree : w.DoorsAgree)
    (calls : List (Side × Bool)) : ∃ v, w.run (calls.map Op.turn) = some v ∧ v.DoorsAgree := by
  induction calls generalizing w with
  | nil => exact ⟨w, rfl, hagree⟩
  | cons call calls ih =>
    have hcharted := h.same (.setDoorClosed w call.1.room call.1.direction call.2)
    exact ih hcharted (h.doorsAgree_setDoorClosed hagree call.1 call.2)

/-- In a world that comes about by operations, doors that agree with their other side go on doing
so, whatever doors are opened and closed. Each call that is not refused sets the door on its side
and the one on the side paired with it, leaves everything else alone, tells whether the former had
to be moved, and does nothing when it is repeated. -/
theorem Reachable.doors_agree (h : w.Reachable) :
    (w.DoorsAgree → ∀ calls : List (Side × Bool),
        ∃ v, w.run (calls.map Op.turn) = some v ∧ v.DoorsAgree) ∧
      ∀ a closed,
        ((∃ changed v, w.setDoorClosed a.room a.direction closed = (.ok changed, v)) ↔
          (w.room? a.room).isSome) ∧
        ∀ changed v, w.setDoorClosed a.room a.direction closed = (.ok changed, v) →
          w.OnlyDoors v (w.Across a) closed ∧
            (changed = true ↔ ∃ x, w.doorAt a = some x ∧ x.closed ≠ closed) ∧
            (∀ b, w.Across a b → ∀ x, v.doorAt b = some x → x.closed = closed) ∧
            v.setDoorClosed a.room a.direction closed = (.ok false, v) := by
  have hcharted := h.charted
  refine ⟨hcharted.doorsAgree_run, fun a closed => ⟨setDoorClosed_ok_iff, ?_⟩⟩
  intro changed v hcall
  have hroom : (w.room? a.room).isSome := setDoorClosed_ok_iff.1 ⟨changed, v, hcall⟩
  have hv : v = (w.setDoorClosed a.room a.direction closed).2 := by rw [hcall]
  have honly : w.OnlyDoors v (w.Across a) closed := hv ▸ hcharted.onlyDoors hroom
  have hchanged : changed = (w.doorAt a).any fun door => door.closed != closed := by
    have hfst : (w.setDoorClosed a.room a.direction closed).1 = _ := setDoorClosed_fst hroom
    rw [hcall] at hfst
    exact Except.ok.inj hfst
  refine ⟨honly, ?_, fun b hb x hx => honly.closed_of_set hb hx, ?_⟩
  · rw [hchanged]
    cases w.doorAt a <;> simp
  · exact hcharted.setDoorClosed_again hroom hv.symm

/-- A lobby with a door to the terrace, doored on both sides, and a revolving passage from its east
to its west side. A third door leads from the terrace into the lobby only. -/
def revolvingLobby : List Op :=
  let lobby : ZonedKey := ⟨"lobby", "hotel", by decide, by decide, by decide, by decide⟩
  let terrace : ZonedKey := ⟨"terrace", "hotel", by decide, by decide, by decide, by decide⟩
  [.addZone "hotel" "Hotel", .addRoom ⟨1⟩ "lobby" "Lobby" "", .addRoom ⟨1⟩ "terrace" "Terrace" "",
    .addExit ⟨2⟩ ⟨.north, terrace, some .opened⟩, .addExit ⟨3⟩ ⟨.south, lobby, some .opened⟩,
    .addExit ⟨2⟩ ⟨.east, lobby, some .opened⟩, .addExit ⟨2⟩ ⟨.west, lobby, some .opened⟩,
    .addExit ⟨3⟩ ⟨.west, lobby, some .shut⟩]

/-- The revolving passage closes on both sides, and the doors agree whatever is closed. -/
theorem doors_agree_revolvingLobby :
    ∃ w v, empty.run revolvingLobby = some w ∧ w.DoorsAgree ∧
      w.setDoorClosed ⟨2⟩ .east true = (.ok true, v) ∧
      v.doorAt ⟨⟨2⟩, .west⟩ = some .shut ∧ v.doorAt ⟨⟨3⟩, .south⟩ = some .opened ∧
      v.setDoorClosed ⟨2⟩ .east true = (.ok false, v) ∧
      ∃ u, w.run ([(⟨⟨2⟩, .east⟩, true), (⟨⟨3⟩, .south⟩, true)].map Op.turn) = some u ∧
        u.DoorsAgree := by
  have hrun : (empty.run revolvingLobby).isSome := by decide
  obtain ⟨w, hw⟩ := Option.isSome_iff_exists.1 hrun
  have hbefore : (empty.run revolvingLobby).map (fun w => decide (w.DoorsAgree ∧
      (w.room? ⟨2⟩).isSome = true ∧ w.Paired ⟨⟨2⟩, .east⟩ ⟨⟨2⟩, .west⟩ ∧
      ¬w.Paired ⟨⟨2⟩, .east⟩ ⟨⟨3⟩, .south⟩ ∧ w.doorAt ⟨⟨2⟩, .east⟩ = some .opened ∧
      w.doorAt ⟨⟨2⟩, .west⟩ = some .opened ∧ w.doorAt ⟨⟨3⟩, .south⟩ = some .opened)) =
      some true := by decide
  rw [hw, Option.map_some, Option.some.injEq, decide_eq_true_eq] at hbefore
  obtain ⟨hagree, hroom, hpair, hapart, heast, hwest, hsouth⟩ := hbefore
  obtain ⟨hruns, hcalls⟩ := Reachable.doors_agree ⟨revolvingLobby, hw⟩
  obtain ⟨hok, hcall⟩ := hcalls ⟨⟨2⟩, .east⟩ true
  obtain ⟨changed, v, hv⟩ := hok.2 hroom
  obtain ⟨honly, hchanged, -, hagain⟩ := hcall changed v hv
  have hmoved : changed = true := hchanged.2 ⟨.opened, heast, by decide⟩
  have hfar : v.doorAt ⟨⟨2⟩, .west⟩ = some .shut := by
    rw [honly.doorAt_set (.inr hpair), hwest]
    rfl
  have hbeyond : ¬w.Across ⟨⟨2⟩, .east⟩ ⟨⟨3⟩, .south⟩ := not_or.2 ⟨by decide, hapart⟩
  have hterrace : v.doorAt ⟨⟨3⟩, .south⟩ = some .opened := (honly.doorAt_same hbeyond).trans hsouth
  exact ⟨w, v, hw, hagree, hmoved ▸ hv, hfar, hterrace, hagain, hruns hagree _⟩

end World

end TextWorld

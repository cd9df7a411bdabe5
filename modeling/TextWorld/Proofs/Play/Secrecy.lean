import TextWorld.Proofs.Play.Opening

/-!
What stays out of reach in the village. The hatch stays bolted, nobody who is not a player gets past
the gate, and only admins find the cellar.
-/

namespace TextWorld

namespace Village

/-- A closed door stands across this way, and it is locked or not. -/
def Barred (w : World) (room : RoomId) (d : Direction) (there : RoomId) (locked : Bool) : Prop :=
  w.exitDestination room d = some there ∧ ∃ e door, w.exit? room d = some e ∧
    e.door = some door ∧ door.closed = true ∧ door.locked = locked

/-- The hatch between cellar and vault is closed and locked on both sides. -/
def Bolted (w : World) : Prop :=
  ∃ cellar vault, w.lookupRoom "cellar" zoneKey = some cellar ∧
    w.lookupRoom "vault" zoneKey = some vault ∧
      Barred w cellar .east vault true ∧ Barred w vault .west cellar true

/-- Nobody but players is on the road. -/
def Guarded (w : World) : Prop :=
  ∃ road, w.lookupRoom "road" zoneKey = some road ∧
    ∀ x c, w.character? x = some c → c.isPlayer = false → c.room ≠ some road

/-- The trapdoor between inn and cellar is closed on both sides, and nobody is below. -/
def Undiscovered (w : World) : Prop :=
  ∃ inn cellar vault, w.lookupRoom "inn" zoneKey = some inn ∧
    w.lookupRoom "cellar" zoneKey = some cellar ∧ w.lookupRoom "vault" zoneKey = some vault ∧
      Barred w inn .down cellar false ∧ Barred w cellar .up inn false ∧
        ∀ x c, w.character? x = some c → c.room ≠ some cellar ∧ c.room ≠ some vault

/-- The exits that change when the door of a passage is opened or closed. -/
def Passage.sides (p : Passage) : List (RoomId × Direction) :=
  [(p.room, p.direction), (p.there, p.direction.opposite)]

/-- Whoever passes this way finds the door closed. -/
def Shut (w : World) (room : RoomId) (d : Direction) : Prop :=
  ∀ e, w.exit? room d = some e → e.isClosed = true

/-- The exits that stay shut: those of the hatch and, unless there is an admin, of the trapdoor. -/
def kept (admin : Bool) : List (RoomId × Direction) :=
  if admin then [(cellar, .east), (vault, .west)]
  else [(cellar, .east), (vault, .west), (inn, .down), (cellar, .up)]

/-- A character may be in this room: only players are on the road, and nobody has found the cellar
unless there is an admin. -/
structure MayEnter (admin : Bool) (w : World) (x : CharacterId) (room : RoomId) : Prop where
  road : ∀ c, w.character? x = some c → c.isPlayer = false → room ≠ road
  below : admin = false → room ≠ cellar ∧ room ≠ vault

/-- The walls of the village stand, doors that are to stay shut are shut, everybody is where it may
be, and only the settings make admins. -/
structure Secure (admin : Bool) (w : World) : Prop where
  walls : grounds.SameWalls w
  admins : ∀ x c, w.character? x = some c → c.isAdmin = true → admin = true ∧ c.isPlayer = true
  doors : ∀ side ∈ kept admin, Shut w side.1 side.2
  places : ∀ x room, w.characterRoom x = some room → MayEnter admin w x room

variable {admin : Bool} {w v : World} {actor : CharacterId} {room there : RoomId} {d : Direction}
variable {e e₀ : Exit} {p : Passage} {c : Character} {side : RoomId × Direction}

/-! Where the ways of the village lead. -/

/-- The doors to be kept are locked, or handled by those who see the trapdoor or are below. -/
theorem door_of_kept (hp : p ∈ passages) (hside : side ∈ p.sides) (hkept : side ∈ kept admin) :
    p.door.any (·.locked) = true ∨ admin = false ∧
      (p.room = cellar ∨ p.room = inn ∧ p.direction = .down ∧ p.door.any (·.secret) = true) := by
  have hall : ∀ admin, ∀ p ∈ passages, ∀ side ∈ p.sides, side ∈ kept admin →
      p.door.any (·.locked) = true ∨ admin = false ∧
        (p.room = cellar ∨ p.room = inn ∧ p.direction = .down ∧ p.door.any (·.secret) = true) := by
    decide
  exact hall admin p hp side hside hkept

theorem door_of_road : ∀ p ∈ passages, p.there = road → p.door.any (·.noMob) = true := by
  decide

/-- Only the trapdoor leads below from elsewhere. -/
theorem way_below : ∀ p ∈ passages, p.there = cellar ∨ p.there = vault →
    p.room = cellar ∨ p.room = vault ∨ p.room = inn ∧ p.direction = .down := by
  decide

theorem exit_of_passage : ∀ p ∈ passages,
    (grounds.exit? p.room p.direction).map Exit.door = some p.door ∧
      grounds.exitDestination p.room p.direction = some p.there := by
  decide +kernel

/-- An exit is that of a passage, its door open or closed. -/
structure Along (w : World) (p : Passage) (e : Exit) : Prop where
  listed : p ∈ passages
  exit : w.exit? p.room p.direction = some e
  there : w.exitDestination p.room p.direction = some p.there
  door : ∀ f : Door → Bool, (∀ door closed, f { door with closed } = f door) →
    e.door.any f = p.door.any f

theorem any_door_eq (hsame : e₀.setClosed false = e.setClosed false) {f : Door → Bool}
    (hf : ∀ door closed, f { door with closed } = f door) : e.door.any f = e₀.door.any f := by
  have hdoor := congrArg (fun x : Exit => x.door.any f) hsame
  simp only [Exit.setClosed, Option.any_map, hf] at hdoor
  exact hdoor.symm

/-- Every exit is that of a passage. -/
theorem exists_passage (hw : grounds.SameWalls w) (he : w.exit? room d = some e) :
    ∃ p, Along w p e ∧ p.room = room ∧ p.direction = d := by
  obtain ⟨e₀, he₀, hsame⟩ := hw.exists_exit he
  obtain ⟨-, there, hthere, hmem⟩ := passage_of_exit he₀
  rw [← hw.exitDestination] at hthere
  exact ⟨_, ⟨hmem, he, hthere, fun f hf => any_door_eq hsame hf⟩, rfl, rfl⟩

/-- Every passage has its exit. -/
theorem exists_along (hw : grounds.SameWalls w) (hp : p ∈ passages) : ∃ e, Along w p e := by
  obtain ⟨hdoor, hthere⟩ := exit_of_passage p hp
  obtain ⟨e₀, he₀, hdoor⟩ := Option.map_eq_some_iff.1 hdoor
  rw [← hw.exitDestination] at hthere
  have hmap := hw.exit p.room p.direction
  rw [he₀, Option.map_some] at hmap
  obtain ⟨e, he, hsame⟩ := Option.map_eq_some_iff.1 hmap
  refine ⟨e, hp, he, hthere, fun f hf => ?_⟩
  rw [any_door_eq hsame.symm hf, hdoor]

/-- Nobody passes a closed door. -/
theorem Shut.not_passable (hshut : Shut w room d) (he : w.exit? room d = some e)
    (c : Character) : e.isPassableBy c = false := by
  obtain ⟨door, hdoor, hclosed⟩ := (Option.any_eq_true _ _).1 (hshut e he)
  simp [Exit.isPassableBy, hdoor, hclosed]

/-- Nobody sees a secret door that is closed. -/
theorem Shut.not_visible (hshut : Shut w room d) (he : w.exit? room d = some e)
    (hsecret : e.door.any (·.secret) = true) : e.isVisible = false := by
  obtain ⟨door, hdoor, hclosed⟩ := (Option.any_eq_true _ _).1 (hshut e he)
  rw [hdoor, Option.any_some] at hsecret
  simp [Exit.isVisible, hdoor, hclosed, hsecret]

theorem isPlayer_of_passable (hbars : e.door.any (·.noMob) = true)
    (hpass : e.isPassableBy c = true) : c.isPlayer = true := by
  obtain ⟨door, hdoor, hbars⟩ := (Option.any_eq_true _ _).1 hbars
  simp only [Exit.isPassableBy, hdoor, hbars, Option.all_some, Bool.not_true, Bool.or_false,
    Bool.and_eq_true] at hpass
  exact hpass.2

theorem Shut.congr (hshut : Shut w room d) (hexit : v.exit? room d = w.exit? room d) :
    Shut v room d := by
  rw [Shut, hexit]
  exact hshut

/-- A door stays closed unless it is opened. -/
theorem Shut.setClosed {touched : Prop} {closed : Bool} (hshut : Shut w room d)
    (hexit : v.exit? room d = w.exit? room d ∨
      v.exit? room d = (w.exit? room d).map (Exit.setClosed closed) ∧ touched)
    (hcloses : touched → closed = true) : Shut v room d := by
  rcases hexit with hsame | ⟨hset, htouched⟩
  · exact hshut.congr hsame
  · intro e he
    rw [hset] at he
    obtain ⟨e₀, he₀, rfl⟩ := Option.map_eq_some_iff.1 he
    obtain ⟨door, hdoor, -⟩ := (Option.any_eq_true _ _).1 (hshut e₀ he₀)
    rw [hcloses htouched, Exit.isClosed, Exit.setClosed, hdoor]
    rfl

/-! The village stays secure. -/

/-- What kind of character this is. -/
def rank (c : Character) : Bool × Bool := (c.isAdmin, c.isPlayer)

/-- What has to be looked at when something happens in the village: who went where, and which doors
are open. -/
theorem Secure.next (hw : Secure admin w) (hwalls : w.SameWalls v) (halike : World.Alike rank w v)
    (hdoors : ∀ side ∈ kept admin, Shut v side.1 side.2)
    (hplaces : ∀ x room, v.characterRoom x = some room →
      w.characterRoom x = some room ∨ MayEnter admin w x room) : Secure admin v := by
  refine ⟨hw.walls.trans hwalls, fun x c hc hadmin => ?_, hdoors, fun x room hroom => ?_⟩
  · obtain ⟨c₀, hc₀, hrank⟩ := halike.exists_character hc
    obtain ⟨hadmin₀, hplayer₀⟩ := Prod.mk.inj hrank
    rw [← hplayer₀]
    exact hw.admins x c₀ hc₀ (hadmin₀.trans hadmin)
  · have hmay : MayEnter admin w x room := (hplaces x room hroom).elim (hw.places x room) id
    refine ⟨fun c hc hplayer => ?_, hmay.below⟩
    obtain ⟨c₀, hc₀, hrank⟩ := halike.exists_character hc
    exact hmay.road c₀ hc₀ ((Prod.mk.inj hrank).2.trans hplayer)

/-- If neither doors nor anybody moved, the village is as secure as it was. -/
theorem Secure.congr (hw : Secure admin w) (hindex : v.roomIndex = w.roomIndex)
    (hexits : ∀ room d, v.exit? room d = w.exit? room d)
    (hrooms : ∀ x, v.characterRoom x = w.characterRoom x) (halike : World.Alike rank w v) :
    Secure admin v := by
  refine hw.next (.of_exits hindex hexits) halike
    (fun side hside => (hw.doors side hside).congr (hexits _ _)) fun x room hroom => ?_
  rw [hrooms] at hroom
  exact .inl hroom

/-- Nobody opens a door that is to stay shut. -/
theorem Secure.stays_shut (hw : Secure admin w) {closed : Bool}
    (hallows : w.Allows actor (.setDoorClosed room d closed)) (hkept : side ∈ kept admin)
    (hside : side.1 = room ∧ side.2 = d ∨
      w.exitDestination room d = some side.1 ∧ side.2 = d.opposite) : closed = true := by
  obtain ⟨c, e, hc, hroom, he, hvisible, hlocked⟩ := hallows
  obtain ⟨p, hp, rfl, rfl⟩ := exists_passage hw.walls he
  have hmem : side ∈ p.sides := by
    rcases hside with ⟨hhere, hd⟩ | ⟨hthere, hd⟩
    · exact List.mem_cons.2 (.inl (Prod.ext hhere hd))
    · rw [hp.there, Option.some.injEq] at hthere
      exact List.mem_cons_of_mem _ (List.mem_singleton.2 (Prod.ext hthere.symm hd))
  have hactor : w.characterRoom actor = some p.room := by
    rw [World.characterRoom, hc]
    exact hroom
  -- The hatch is locked. The trapdoor is reached from below, where nobody is, or from above, where
  -- nobody sees it.
  rcases door_of_kept hp.listed hmem hkept with hlock | ⟨rfl, hbelow | ⟨hinn, hdown, hsecret⟩⟩
  · rw [← hp.door (·.locked) fun _ _ => rfl] at hlock
    cases closed with
    | true => rfl
    | false => exact absurd hlock (Bool.eq_false_iff.1 (hlocked rfl))
  · exact absurd hbelow ((hw.places actor p.room hactor).below rfl).1
  · have hdoor : Shut w p.room p.direction := by
      rw [hinn, hdown]
      exact hw.doors (inn, .down) (by decide)
    rw [← hp.door (·.secret) fun _ _ => rfl] at hsecret
    exact absurd hvisible (Bool.eq_false_iff.1 (hdoor.not_visible he hsecret))

/-- Whoever walks goes where it may be. -/
theorem Secure.mayEnter (hw : Secure admin w)
    (hallows : w.Allows actor (.moveCharacter actor there)) : MayEnter admin w actor there := by
  obtain ⟨-, c, hc, hfree | ⟨here, d, e, hroom, he, -, hpass, hthere⟩⟩ := hallows
  · -- An admin goes anywhere, but it is a player, and the settings have made it an admin.
    obtain ⟨rfl, hplayer⟩ := hw.admins actor c hc hfree
    refine ⟨fun c' hc' hplayer' => ?_, by rintro ⟨⟩⟩
    obtain rfl : c = c' := Option.some.inj (hc.symm.trans hc')
    rw [hplayer] at hplayer'
    cases hplayer'
  · obtain ⟨p, hp, rfl, rfl⟩ := exists_passage hw.walls he
    obtain rfl : p.there = there := Option.some.inj (hp.there.symm.trans hthere)
    refine ⟨fun c' hc' hplayer hroad => ?_, ?_⟩
    · obtain rfl : c = c' := Option.some.inj (hc.symm.trans hc')
      have hbars := door_of_road p hp.listed hroad
      rw [← hp.door (·.noMob) fun _ _ => rfl] at hbars
      rw [isPlayer_of_passable hbars hpass] at hplayer
      cases hplayer
    · rintro rfl
      have hactor : w.characterRoom actor = some p.room := by
        rw [World.characterRoom, hc]
        exact hroom
      -- One who is not below yet would have to go through the trapdoor.
      have hhere := (hw.places actor p.room hactor).below rfl
      rw [← not_or]
      intro hbelow
      rcases way_below p hp.listed hbelow with hcellar | hvault | ⟨hinn, hdown⟩
      · exact hhere.1 hcellar
      · exact hhere.2 hvault
      · have hdoor : Shut w p.room p.direction := by
          rw [hinn, hdown]
          exact hw.doors (inn, .down) (by decide)
        exact absurd hpass (Bool.eq_false_iff.1 (hdoor.not_passable he c))

theorem durable_secure (admin : Bool) : World.Durable (Secure admin) where
  signposted hw := hw.walls.signposted peopled_grounds.signposted
  errand {w v actor} hw herrand := by
    obtain ⟨hall, hcases⟩ := herrand.cases
    have halike : World.Alike rank w v := hall.alike.comp rank
    rcases hcases with ⟨hexits, hrooms⟩ | ⟨hexits, there, hallows, hrooms⟩ |
      ⟨hrooms, room, d, closed, hallows, hexits⟩
    · exact hw.congr hall.roomIndex hexits hrooms halike
    · -- Somebody has walked.
      refine hw.next hall.toSameWalls halike
        (fun side hside => (hw.doors side hside).congr (hexits _ _)) fun x room hroom => ?_
      rw [hrooms] at hroom
      split at hroom
      · rename_i hx
        cases hroom
        exact .inr (hx ▸ hw.mayEnter hallows)
      · exact .inl hroom
    · -- Somebody has opened or closed a door.
      refine hw.next hall.toSameWalls halike (fun side hside => ?_) fun x room hroom => ?_
      · exact (hw.doors side hside).setClosed (hexits _ _) (hw.stays_shut hallows hside)
      · rw [hrooms] at hroom
        exact .inl hroom
  regrouped hw hregrouped := hw.congr hregrouped.roomIndex hregrouped.exit?_eq
    hregrouped.characterRoom_eq (hregrouped.alike.comp rank)
  advance {w v delta} hw hadvance := by
    obtain ⟨now, -, rfl⟩ := Option.map_eq_some_iff.1 hadvance
    exact hw.congr rfl (fun _ _ => rfl) (fun _ => rfl) fun _ => rfl

/-- The village is secure to begin with. -/
theorem Peopled.secure {last : Nat} (hw : Peopled last (inhabitants admin) w) : Secure admin w := by
  refine ⟨.of_exits hw.roomIndex hw.exits, fun x c hc =>
    (of_inhabitants (hw.person hc)).2.1, fun side hkept e he => ?_, fun x room hroom => ?_⟩
  · rw [hw.exits] at he
    obtain ⟨-, there, -, hmem⟩ := passage_of_exit he
    have hclosed : ∀ admin, ∀ p ∈ passages, (p.room, p.direction) ∈ kept admin →
        p.door.any (·.closed) = true := by
      decide
    exact hclosed admin _ hmem hkept
  · obtain ⟨c, hc, hroom⟩ := Option.bind_eq_some_iff.1 hroom
    obtain ⟨-, -, room', hmem, hroom'⟩ := of_inhabitants (hw.person hc)
    obtain rfl : room' = room := Option.some.inj (hroom'.symm.trans hroom)
    have hapart : ∀ room ∈ [gate, inn, square], room ≠ road ∧ room ≠ cellar ∧ room ≠ vault := by
      decide
    exact ⟨fun _ _ _ => (hapart room' hmem).1, fun _ => (hapart room' hmem).2⟩

/-! What is secure is out of reach. -/

theorem Secure.lookupRoom (hw : Secure admin w) {key : String}
    (hkey : grounds.lookupRoom key zoneKey = some room) : w.lookupRoom key zoneKey = some room := by
  rw [World.lookupRoom, hw.walls.roomIndex]
  exact hkey

theorem Secure.barred (hw : Secure admin w) (hp : p ∈ passages)
    (hkept : (p.room, p.direction) ∈ kept admin) {locked : Bool}
    (hlocked : p.door.any (·.locked == locked) = true) :
    Barred w p.room p.direction p.there locked := by
  obtain ⟨e, he⟩ := exists_along hw.walls hp
  refine ⟨he.there, e, ?_⟩
  obtain ⟨door, hdoor, hclosed⟩ := (Option.any_eq_true _ _).1 (hw.doors _ hkept e he.exit)
  rw [← he.door (·.locked == locked) fun _ _ => rfl, hdoor] at hlocked
  exact ⟨door, he.exit, hdoor, hclosed, eq_of_beq hlocked⟩

theorem lookupRoom_grounds : grounds.lookupRoom "inn" zoneKey = some inn ∧
    grounds.lookupRoom "cellar" zoneKey = some cellar ∧
      grounds.lookupRoom "vault" zoneKey = some vault ∧
        grounds.lookupRoom "road" zoneKey = some road := by
  decide +kernel

theorem Secure.bolted (hw : Secure admin w) : Bolted w := by
  obtain ⟨-, hcellar, hvault, -⟩ := lookupRoom_grounds
  have hkept : ∀ admin, (cellar, .east) ∈ kept admin ∧ (vault, .west) ∈ kept admin := by decide
  exact ⟨cellar, vault, hw.lookupRoom hcellar, hw.lookupRoom hvault,
    hw.barred (p := ⟨cellar, .east, vault, some Door.shut.lock⟩) (by decide) (hkept admin).1 rfl,
    hw.barred (p := ⟨vault, .west, cellar, some Door.shut.lock⟩) (by decide) (hkept admin).2 rfl⟩

theorem Secure.guarded (hw : Secure admin w) : Guarded w := by
  obtain ⟨-, -, -, hroad⟩ := lookupRoom_grounds
  refine ⟨road, hw.lookupRoom hroad, fun x c hc hplayer hroom => ?_⟩
  have hthere : w.characterRoom x = some Village.road := by
    rw [World.characterRoom, hc]
    exact hroom
  exact (hw.places x _ hthere).road c hc hplayer rfl

theorem Secure.undiscovered (hw : Secure false w) : Undiscovered w := by
  obtain ⟨hinn, hcellar, hvault, -⟩ := lookupRoom_grounds
  refine ⟨inn, cellar, vault, hw.lookupRoom hinn, hw.lookupRoom hcellar, hw.lookupRoom hvault,
    hw.barred (p := ⟨inn, .down, cellar, some Door.shut.hide⟩) (by decide) (by decide) rfl,
    hw.barred (p := ⟨cellar, .up, inn, some Door.shut⟩) (by decide) (by decide) rfl,
    fun x c hc => ?_⟩
  have hthere (room : RoomId) (hroom : c.room = some room) : w.characterRoom x = some room := by
    rw [World.characterRoom, hc]
    exact hroom
  exact ⟨fun hroom => ((hw.places x _ (hthere _ hroom)).below rfl).1 rfl,
    fun hroom => ((hw.places x _ (hthere _ hroom)).below rfl).2 rfl⟩

/-- Whatever is typed for whomever and however time passes, the hatch stays bolted, nobody who is
not a player is on the road, and without an admin nobody finds the cellar. -/
theorem village_contained (settings : Settings) : ∃ start,
    session lodging behaviour Duration.zero settings = .ok start ∧
      ∀ inputs s, start.takeAll inputs = .ok s → Bolted s.state.world ∧ Guarded s.state.world ∧
        (settings.admin = false → Undiscovered s.state.world) := by
  obtain ⟨start, w, hstart, hw, -, -, hhosting⟩ := session_eq settings
  refine ⟨start, hstart, fun inputs s hplayed => ?_⟩
  obtain ⟨now, scene, -, -, hs⟩ := (hhosting (Secure settings.admin) hw.secure).takeAll
    (durable_secure settings.admin) (P := fun _ => True) (fun _ _ _ _ _ _ _ => trivial) trivial
    hplayed
  have hsecure := hs.resting.world
  refine ⟨hsecure.bolted, hsecure.guarded, fun hadmin => ?_⟩
  rw [hadmin] at hsecure
  exact hsecure.undiscovered

/-- The guard opens the gate but stays behind when the player leaves, who had looked for a way down
from the inn before. -/
theorem village_contained_gate : ∃ start s,
    session lodging behaviour Duration.zero default = .ok start ∧
      start.takeAll [.line "north", .line "open down", .line "down", .line "south", .line "south",
        .lineAs ⟨14⟩ "open south", .lineAs ⟨14⟩ "south", .line "south", .time (.ofSeconds 60)] =
          .ok s ∧
      (s.state.world.characterRoom s.player = some road ∧
        s.state.world.characterRoom ⟨14⟩ = some gate) ∧
      Bolted s.state.world ∧ Guarded s.state.world ∧ Undiscovered s.state.world := by
  obtain ⟨start, hstart, hkeeps⟩ := village_contained default
  have hruns : (session lodging behaviour Duration.zero default).toOption.bind (fun start =>
      (start.takeAll [.line "north", .line "open down", .line "down", .line "south",
        .line "south", .lineAs ⟨14⟩ "open south", .lineAs ⟨14⟩ "south", .line "south",
        .time (.ofSeconds 60)]).toOption.map fun s =>
          (s.state.world.characterRoom s.player, s.state.world.characterRoom ⟨14⟩)) =
      some (some road, some gate) := by
    decide +kernel
  obtain ⟨start', hsame, hruns⟩ := Option.bind_eq_some_iff.1 hruns
  rw [hstart] at hsame
  obtain rfl : start = start' := Option.some.inj hsame
  obtain ⟨s, hplayed, hrooms⟩ := Option.map_eq_some_iff.1 hruns
  have hs := ok_of_toOption hplayed
  obtain ⟨hbolted, hguarded, hundiscovered⟩ := hkeeps _ s hs
  exact ⟨start, s, hstart, hs, Prod.mk.inj hrooms, hbolted, hguarded, hundiscovered rfl⟩

end Village

end TextWorld

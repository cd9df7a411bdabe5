import TextWorld.Proofs.Play.Serving

/-!
The village as it is when a session begins: its rooms, the ways between them, and those who live
there. Only the name of the player and whether it is an admin depend on the settings.
-/

namespace TextWorld

namespace Village

/-- The village before anybody lives there. -/
def grounds : World := (buildPlaces.run.run World.empty).2

def square : RoomId := ⟨2⟩

def inn : RoomId := ⟨3⟩

def temple : RoomId := ⟨4⟩

def gate : RoomId := ⟨5⟩

def road : RoomId := ⟨6⟩

def cellar : RoomId := ⟨7⟩

def vault : RoomId := ⟨8⟩

/-- A way from one room to another. -/
structure Passage where
  room : RoomId
  direction : Direction
  there : RoomId
  door : Option Door
  deriving DecidableEq

def passages : List Passage :=
  [⟨square, .north, inn, none⟩, ⟨inn, .south, square, none⟩, ⟨square, .east, temple, none⟩,
    ⟨temple, .west, square, none⟩, ⟨square, .south, gate, none⟩, ⟨gate, .north, square, none⟩,
    ⟨gate, .south, road, some Door.shut.barMobs⟩, ⟨road, .north, gate, some Door.shut.barMobs⟩,
    ⟨inn, .down, cellar, some Door.shut.hide⟩, ⟨cellar, .up, inn, some Door.shut⟩,
    ⟨cellar, .east, vault, some Door.shut.lock⟩, ⟨vault, .west, cellar, some Door.shut.lock⟩]

theorem ok_of_toOption {ε α : Type} {x : Except ε α} {a : α} (h : x.toOption = some a) :
    x = .ok a := by
  cases x with
  | error e => cases h
  | ok b => exact congrArg Except.ok (Option.some.inj h)

theorem of_bind_toOption {ε α β : Type} {x : Except ε α} {f : α → Option β} {a : α} {b : β}
    (hx : x = .ok a) (h : x.toOption.bind f = some b) : f a = some b := by
  subst hx
  exact h

theorem buildPlaces_eq :
    buildPlaces.run.run World.empty = (.ok ⟨square, inn, temple, gate⟩, grounds) := by
  have hplaces : (buildPlaces.run.run World.empty).1.toOption =
      some ⟨square, inn, temple, gate⟩ := by decide +kernel
  unfold grounds
  generalize buildPlaces.run.run World.empty = built at hplaces ⊢
  exact Prod.ext (ok_of_toOption hplaces) rfl

/-- Every exit is one of the passages. -/
theorem passage_of_exit {room : RoomId} {d : Direction} {e : Exit}
    (he : grounds.exit? room d = some e) : e.direction = d ∧
      ∃ there, grounds.exitDestination room d = some there ∧
        (⟨room, d, there, e.door⟩ : Passage) ∈ passages := by
  have hall : ∀ r ∈ grounds.rooms.toList, ∀ x ∈ r.2.exits.toList, x.2.direction = x.1 ∧
      (grounds.roomIndex.get? x.2.destination).any
        (fun there => (⟨r.1, x.1, there, x.2.door⟩ : Passage) ∈ passages) = true := by
    decide +kernel
  obtain ⟨r, hr, he⟩ := Option.bind_eq_some_iff.1 he
  have hroom := Std.ExtTreeMap.mem_toList_iff_getElem?_eq_some.2 hr
  have hexit := Std.ExtTreeMap.mem_toList_iff_getElem?_eq_some.2 he
  obtain ⟨hdirection, hthere⟩ := hall (room, r) hroom (d, e) hexit
  obtain ⟨there, hindex, hmem⟩ := (Option.any_eq_true _ _).1 hthere
  refine ⟨hdirection, there, ?_, of_decide_eq_true hmem⟩
  rw [World.exitDestination_eq, World.exit?, hr, Option.bind_some]
  rw [he, Option.bind_some]
  exact hindex

/-- What matters about a character of the village. -/
structure Person where
  key : ZonedKey
  isPlayer : Bool
  isAdmin : Bool
  room : Option RoomId
  conversation : Option ConversationId
  deriving DecidableEq

def Person.of (c : Character) : Person :=
  ⟨c.key, c.isPlayer, c.isAdmin, c.room, c.conversation⟩

/-- The village with some people in it. -/
structure Peopled (last : Nat) (people : CharacterId → Option Person) (w : World) : Prop where
  lastIndex : w.lastIndex = last
  exits : ∀ room d, w.exit? room d = grounds.exit? room d
  roomIndex : w.roomIndex = grounds.roomIndex
  zone : ∀ room, w.roomZoneKey room = grounds.roomZoneKey room
  characters : ∀ x, (w.character? x).map Person.of = people x

variable {last : Nat} {people : CharacterId → Option Person} {w : World}

theorem peopled_grounds : Peopled 10 (fun _ => none) grounds := by
  have hempty : grounds.lastIndex = 10 ∧ grounds.characters.size = 0 := by decide +kernel
  refine ⟨hempty.1, fun _ _ => rfl, rfl, fun _ => rfl, fun x => ?_⟩
  have hnobody := Std.ExtTreeMap.eq_empty_iff_size_eq_zero.2 hempty.2
  rw [World.character?, hnobody]
  simp

/-- The zone of a room is found by the same key as long as rooms stay in their zones. -/
theorem roomZoneKey_congr {w v : World}
    (hrooms : ∀ id, (v.room? id).map Room.zone = (w.room? id).map Room.zone)
    (hzones : ∀ id, (v.zone? id).map Zone.key = (w.zone? id).map Zone.key) (room : RoomId) :
    v.roomZoneKey room = w.roomZoneKey room := by
  rw [World.roomZoneKey, World.roomZoneKey]
  cases hr : w.room? room with
  | none =>
    have hnone : v.room? room = none := by
      rw [← Option.map_eq_none_iff, hrooms, hr, Option.map_none]
    rw [hnone]
  | some r =>
    obtain ⟨r', hr', hzone⟩ := Option.map_eq_some_iff.1 ((hrooms room).trans (by rw [hr]; rfl))
    rw [hr']
    dsimp only
    rw [hzone]
    cases hz : w.zone? r.zone with
    | none =>
      have hnone : v.zone? r.zone = none := by
        rw [← Option.map_eq_none_iff, hzones, hz, Option.map_none]
      rw [hnone]
    | some z =>
      obtain ⟨z', hz', hkey⟩ := Option.map_eq_some_iff.1 ((hzones r.zone).trans (by rw [hz]; rfl))
      rw [hz']
      exact congrArg Except.ok hkey

theorem roomZoneKey_place (w : World) (id : CharacterId) (there room : RoomId) :
    (w.place id there).roomZoneKey room = w.roomZoneKey room := by
  refine roomZoneKey_congr (World.sameGround_place w id there).rooms (fun z => ?_) room
  unfold World.place
  split
  · rfl
  · dsimp only [World.zone?]
    rw [Std.ExtTreeMap.get?_eq_getElem?, Std.ExtTreeMap.get?_eq_getElem?, Table.getElem?_modify]
    split
    · rw [Option.map_map]
      rfl
    · rfl

/-- A bare name makes a key of the village. -/
def keyOf (basic : String) (h : basic ≠ "" ∧ '@' ∉ basic.toList) : ZonedKey :=
  ⟨basic, zoneKey, h.1, by decide, h.2, by decide⟩

theorem resolve_eq {basic : String} (h : basic ≠ "" ∧ '@' ∉ basic.toList) :
    ZonedKey.resolve basic zoneKey = .ok (keyOf basic h) := by
  have hbare : basic.toList.count '@' = 0 := List.count_eq_zero.2 h.2
  have hparts : ¬(basic = "" ∨ zoneKey = "") := by
    rintro (hbasic | hzone)
    · exact h.1 hbasic
    · exact absurd hzone (by decide)
  rw [ZonedKey.resolve, if_neg h.1, hbare, ZonedKey.ofParts, if_neg hparts]
  exact ZonedKey.parse_text (keyOf basic h)

theorem Peopled.spawnCharacter (hw : Peopled last people w) {room : RoomId}
    {t : CharacterTemplate} (hroom : grounds.roomZoneKey room = .ok zoneKey)
    (hkey : t.key ≠ "" ∧ '@' ∉ t.key.toList) :
    ∃ v, (spawnCharacter room t).run.run w = (.ok ⟨last + 1⟩, v) ∧
      Peopled (last + 1) (fun x => if ⟨last + 1⟩ = x then
        some ⟨keyOf t.key hkey, t.isPlayer, t.isAdmin, some room, none⟩ else people x) v := by
  obtain ⟨c, hbuild, hc⟩ : ∃ c, t.build ⟨last + 1⟩ zoneKey = .ok c ∧
      Person.of { c with room := some room } =
        ⟨keyOf t.key hkey, t.isPlayer, t.isAdmin, some room, none⟩ := by
    rw [CharacterTemplate.build, resolve_eq hkey]
    exact ⟨_, rfl, rfl⟩
  rw [← hw.zone] at hroom
  have hthere := World.room_isSome_of_roomZoneKey hroom
  have hspawn : w.spawnCharacter room t = (.ok ⟨last + 1⟩,
      { w with lastIndex := last + 1, characters := w.characters.insert ⟨last + 1⟩ c }.place
        ⟨last + 1⟩ room) := by
    rw [World.spawnCharacter, hroom]
    dsimp only [World.allocate]
    rw [hw.lastIndex, hbuild]
  refine ⟨_, hspawn, ?_, fun r d => ?_, ?_, fun r => ?_, fun x => ?_⟩
  · unfold World.place
    split <;> rfl
  · rw [World.exit?_place]
    exact hw.exits r d
  · rw [World.roomIndex_place]
    exact hw.roomIndex
  · rw [roomZoneKey_place]
    exact hw.zone r
  · have hstands : (World.room? { w with
        lastIndex := last + 1, characters := w.characters.insert ⟨last + 1⟩ c } room).isSome :=
      hthere
    rw [World.character?_place hstands, World.character?_eq, Table.getElem?_insert]
    by_cases hx : (⟨last + 1⟩ : CharacterId) = x
    · rw [if_pos hx, if_pos hx, if_pos hx]
      exact congrArg some hc
    · rw [if_neg hx, if_neg hx, if_neg hx]
      exact hw.characters x

theorem Peopled.spawnItem (hw : Peopled last people w) {owner : CharacterId} {p : Person}
    {key name : String} {keywords : List String} (howner : people owner = some p)
    (hzone : p.key.zone = zoneKey) (hkey : key ≠ "" ∧ '@' ∉ key.toList) :
    ∃ v, (spawnItem (.inventory owner) key name keywords).run.run w = (.ok ⟨last + 1⟩, v) ∧
      Peopled (last + 1) people v := by
  obtain ⟨c, hc, rfl⟩ := Option.map_eq_some_iff.1 ((hw.characters owner).trans howner)
  have hkeyed : c.key.zone = zoneKey := hzone
  let t : ItemTemplate := ⟨key, name, keywords⟩
  obtain ⟨i, hbuild⟩ : ∃ i, t.build ⟨last + 1⟩ zoneKey = .ok i := by
    rw [ItemTemplate.build, resolve_eq hkey]
    exact ⟨_, rfl⟩
  obtain ⟨items, hspawn⟩ : ∃ items, w.spawnItem (.inventory owner) t = (.ok ⟨last + 1⟩,
      { w with lastIndex := last + 1, items, characters := w.characters.modify owner fun c =>
        { c with inventory := c.inventory.add ⟨last + 1⟩ } }) := by
    have hlocation : w.locationZoneKey (.inventory owner) = .ok zoneKey := by
      rw [World.locationZoneKey, hc, ← hkeyed]
    rw [World.spawnItem, hlocation]
    dsimp only [World.allocate]
    rw [hw.lastIndex, hbuild]
    have hthere : World.character? { w with
        lastIndex := last + 1, items := w.items.insert ⟨last + 1⟩ i } owner = some c := hc
    dsimp only [World.attach, World.enlist]
    rw [hthere]
    exact ⟨_, rfl⟩
  refine ⟨_, hspawn, rfl, hw.exits, hw.roomIndex, hw.zone, fun x => ?_⟩
  rw [World.character?_eq, Table.getElem?_modify, ← hw.characters]
  split
  · rw [Option.map_map]
    rfl
  · rfl

/-- Who lives in the village, apart from the player's name. -/
def inhabitants (admin : Bool) (x : CharacterId) : Option Person :=
  if (⟨14⟩ : CharacterId) = x then
    some ⟨keyOf "guard" (by decide), false, false, some gate, none⟩
  else if (⟨13⟩ : CharacterId) = x then
    some ⟨keyOf "innkeeper" (by decide), false, false, some inn, none⟩
  else if (⟨11⟩ : CharacterId) = x then
    some ⟨keyOf "player" (by decide), true, admin, some square, none⟩
  else none

/-- They stand where they belong, talk to nobody, and only the player may be an admin. -/
theorem of_inhabitants {admin : Bool} {x : CharacterId} {p : Person}
    (hp : inhabitants admin x = some p) :
    p.conversation = none ∧ (p.isAdmin = true → admin = true ∧ p.isPlayer = true) ∧
      ∃ room ∈ [gate, inn, square], p.room = some room := by
  unfold inhabitants at hp
  split at hp
  · cases hp
    exact ⟨rfl, by rintro ⟨⟩, gate, by decide, rfl⟩
  · split at hp
    · cases hp
      exact ⟨rfl, by rintro ⟨⟩, inn, by decide, rfl⟩
    · split at hp
      · cases hp
        exact ⟨rfl, fun hadmin => ⟨hadmin, rfl⟩, square, by decide, rfl⟩
      · cases hp

def residents : Residents := { square, temple, player := ⟨11⟩, keeper := ⟨13⟩ }

theorem run_bind_of_ok {α β : Type} {m : Building α} {f : α → Building β} {w v : World} {a : α}
    (h : m.run.run w = (.ok a, v)) : (m >>= f).run.run w = (f a).run.run v := by
  rw [ExceptT.run_bind, StateT.run_bind, h]
  rfl

theorem run_discard_of_ok {α : Type} {m : Building α} {w v : World} {a : α}
    (h : m.run.run w = (.ok a, v)) : (discard m : Building Unit).run.run w = (.ok (), v) :=
  run_bind_of_ok h

/-- Building the village succeeds whatever the settings are. -/
theorem build_eq (settings : Settings) : ∃ w,
    (build settings).run.run World.empty = (.ok residents, w) ∧
      Peopled 14 (inhabitants settings.admin) w := by
  have hrooms : (grounds.roomZoneKey square).toOption = some zoneKey ∧
      (grounds.roomZoneKey inn).toOption = some zoneKey ∧
        (grounds.roomZoneKey gate).toOption = some zoneKey := by decide +kernel
  obtain ⟨w₁, hplayer, hw₁⟩ := peopled_grounds.spawnCharacter (t :=
    { key := "player", name := settings.playerName,
      keywords := [Text.lowercase settings.playerName], isPlayer := true,
      isAdmin := settings.admin }) (ok_of_toOption hrooms.1)
    (by decide : "player" ≠ "" ∧ '@' ∉ "player".toList)
  obtain ⟨w₂, hcloak, hw₂⟩ := hw₁.spawnItem (if_pos rfl) rfl
    (by decide : "cloak" ≠ "" ∧ '@' ∉ "cloak".toList)
  obtain ⟨w₃, hkeeper, hw₃⟩ := hw₂.spawnCharacter
    (t := .npc "innkeeper" "Maren the innkeeper" ["maren", "innkeeper"])
    (ok_of_toOption hrooms.2.1) (by decide)
  obtain ⟨w₄, hguard, hw₄⟩ := hw₃.spawnCharacter
    (t := .npc "guard" "a bored guard" ["guard"]) (ok_of_toOption hrooms.2.2) (by decide)
  refine ⟨w₄, ?_, hw₄⟩
  rw [build, run_bind_of_ok buildPlaces_eq]
  dsimp only
  rw [run_bind_of_ok hplayer, run_bind_of_ok (run_discard_of_ok hcloak), run_bind_of_ok hkeeper,
    run_bind_of_ok (run_discard_of_ok hguard)]
  rfl

theorem Peopled.person (hw : Peopled last people w) {x : CharacterId} {c : Character}
    (hc : w.character? x = some c) : people x = some (Person.of c) := by
  rw [← hw.characters, hc]
  rfl

theorem Peopled.signposted (hw : Peopled last people w) : w.Signposted := by
  intro room d e he
  rw [hw.exits] at he
  exact (passage_of_exit he).1

/-! The session as it begins. -/

/-- A word of a registry with one definition stands for that. -/
theorem eq_of_lookup_add {d e : Definition (Handler setting)} {word : String}
    (h : (Registry.empty.add d).lookup word = some e) : e = d := by
  rcases Registry.mem_add h with hempty | hsame
  · rw [Registry.empty, Std.ExtTreeMap.getElem?_empty] at hempty
    cases hempty
  · exact hsame

/-- The commands of the village are there, and are what the rules need. -/
theorem registries_eq (r : Residents) : ∃ rs, registries lodging r = .ok rs ∧
    ∀ rules : Rules setting, rules.registries = rs → rules.behaviour = behaviour →
      (∃ rooms, rules.hooks = [bell lodging rooms]) → Governed rules r.keeper := by
  obtain ⟨talk, htalk, hrun⟩ : ∃ talk : Definition (Handler setting),
      (Definition.named "talk" (talkToKeeper lodging r.keeper)).withGrammar "char.room.noself" =
        .ok talk ∧ talk.run = talkToKeeper lodging r.keeper := by
    have hcompile : Grammar.compile "char.room.noself" =
        .ok ⟨"char.room.noself", [⟨.character ⟨.room, true, false, false⟩, false⟩]⟩ := by rfl
    rw [Definition.withGrammar, hcompile]
    exact ⟨_, rfl, rfl⟩
  refine ⟨{ global := StandardCommands.standard.foldl Registry.add .empty
            rooms := Table.empty.insert r.temple (Registry.empty.add (.named "pray" pray))
            characters := Table.empty.insert r.keeper (Registry.empty.add talk) }, ?_, ?_⟩
  · rw [registries, StandardCommands.addTo, StandardCommands.definitions_eq, htalk]
    rfl
  · -- Whoever is asked knows only what has been added to its registry.
    intro rules hregistries hbehaviour hhooks
    refine ⟨hbehaviour, hhooks, fun {level registry word d} hlevel hword => ?_⟩
    cases level with
    | conversation => cases hlevel
    | room room =>
      rw [Rules.registry?, hregistries, Std.ExtTreeMap.get?_eq_getElem?,
        Table.getElem?_insert] at hlevel
      split at hlevel
      · cases hlevel
        rw [eq_of_lookup_add hword]
        exact .inr (.inl rfl)
      · simp at hlevel
    | character other =>
      rw [Rules.registry?, hregistries, Std.ExtTreeMap.get?_eq_getElem?,
        Table.getElem?_insert] at hlevel
      split at hlevel
      · rename_i hkeeper
        cases hlevel
        rw [eq_of_lookup_add hword, ← hkeeper]
        exact .inr (.inr ⟨rfl, hrun⟩)
      · simp at hlevel
    | global =>
      rw [Rules.registry?, hregistries, Option.some.injEq] at hlevel
      rw [← hlevel] at hword
      rcases Registry.mem_foldl_add hword with hempty | hstandard
      · rw [Registry.empty, Std.ExtTreeMap.getElem?_empty] at hempty
        cases hempty
      · exact .inl hstandard

/-- At the beginning nobody is in a conversation. -/
theorem Peopled.shows_quiet {admin : Bool} (hw : Peopled last (inhabitants admin) w)
    (keeper : CharacterId) (memory : setting.Memory) :
    Scene.quiet.Shows keeper none (State.initial w memory) := by
  refine ⟨fun id => ?_, fun slot => ?_, fun id => ?_, by rintro _ ⟨⟩, by rintro _ ⟨⟩, fun x => ?_,
    trivial⟩
  · exact Std.ExtTreeMap.getElem?_empty
  · exact Std.ExtTreeMap.getElem?_empty
  · exact Std.ExtTreeMap.getElem?_empty
  · change (w.character? x).bind (·.conversation) = none
    cases hc : w.character? x with
    | none => rfl
    | some c => exact (of_inhabitants (hw.person hc)).1

theorem ok_bind {ε α β : Type} (a : α) (f : α → Except ε β) : (Except.ok a >>= f) = f a := rfl

theorem session_of_build {settings : Settings} {r : Residents} {w : World} {c : Character}
    {rs : Registries (Handler setting)}
    (hbuild : (build settings).run.run World.empty = (.ok r, w))
    (hregistries : registries lodging r = .ok rs) (hc : w.character? r.player = some c) :
    session lodging behaviour Duration.zero settings = .ok
      { rules :=
          { config := settings.dispatch, registries := rs,
            hooks := [bell lodging [r.square, r.temple]], behaviour,
            maxDeliveries := ampleDeliveries }
        state := State.initial w Duration.zero
        player := r.player
        lastOutcome := .empty } := by
  unfold session
  rw [hbuild]
  dsimp only
  rw [ok_bind, hregistries, ok_bind, Session.playing]
  dsimp only [State.initial]
  rw [hc]

/-- A session in the village begins in a village where nobody talks with the innkeeper. -/
theorem session_eq (settings : Settings) : ∃ start w,
    session lodging behaviour Duration.zero settings = .ok start ∧
      Peopled 14 (inhabitants settings.admin) w ∧
        start.state = State.initial w Duration.zero ∧ start.player = residents.player ∧
          ∀ J, J w → Hosting J residents.keeper w.now .quiet start := by
  obtain ⟨w, hbuild, hw⟩ := build_eq settings
  obtain ⟨rs, hregistries, hgoverned⟩ := registries_eq residents
  obtain ⟨c, hc, -⟩ := Option.map_eq_some_iff.1 (hw.characters residents.player)
  refine ⟨_, w, session_of_build hbuild hregistries hc, hw, rfl, rfl, fun J hJ => ?_⟩
  exact ⟨hgoverned _ rfl rfl ⟨_, rfl⟩, ⟨hw.shows_quiet _ _, hJ, rfl, rfl⟩, trivial⟩

end Village

end TextWorld

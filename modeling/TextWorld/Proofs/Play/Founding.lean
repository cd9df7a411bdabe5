import TextWorld.Proofs.Play.Patience
import TextWorld.Proofs.World.Filing

/-!
How the village comes about. It is built by operations, so all that holds of worlds that come about
in this way holds of it when a session begins, and what characters do later leaves it in order.
-/

namespace TextWorld

namespace World

variable {w v : World}

/-- Exits lead in the direction they say, things are where they say they are, and every roll is
kept. -/
structure InOrder (w : World) : Prop where
  signposted : w.Signposted
  sound : w.Sound
  seated : w.Seated

theorem Reachable.inOrder (h : w.Reachable) : w.InOrder :=
  ⟨h.filed.exit, h.sound, h.seated⟩

theorem Regrouped.sameGround (h : w.Regrouped v) : w.SameGround v where
  items := h.items
  listing place := by
    cases place with
    | room room => rw [listing, listing, room?, room?, h.rooms]
    | inventory owner =>
      have hcarried := congrArg (Option.map fun c : Character => c.inventory.items) (h.alike owner)
      rw [Option.map_map, Option.map_map] at hcarried
      exact congrArg (·.getD []) hcarried
    | equipped owner slot =>
      have hworn := congrArg (Option.bind · fun c => c.equipment.get? slot) (h.alike owner)
      simp only [Option.bind_map] at hworn
      exact congrArg Option.toList hworn
    | inside parent => rw [listing, listing, item?, item?, h.items]
  zones id hid := by
    rw [zone?, h.zones]
    exact hid
  rooms id := by rw [room?, room?, h.rooms]
  lastIndex := Nat.le_of_eq h.lastIndex.symm

theorem Regrouped.sameSeats (h : w.Regrouped v) : w.SameSeats v :=
  .of_characters h.zones (Nat.le_of_eq h.lastIndex.symm) (fun room => by rw [room?, room?, h.rooms])
    h.characterRoom_eq

theorem Regrouped.sound (h : w.Regrouped v) (hw : w.Sound) : v.Sound := by
  refine hw.sameGround h.sameGround fun {x c} hc => ?_
  obtain ⟨c₀, hc₀, hsame⟩ := h.alike.exists_character hc
  obtain ⟨⟨room, hroom, hthere⟩, hdrawn⟩ := hw.character hc₀
  have hstands : c₀.room = c.room := (congrArg Character.room hsame :)
  rw [hstands] at hroom
  rw [h.lastIndex]
  exact ⟨⟨room, hroom, hthere⟩, hdrawn⟩

end World

namespace Village

theorem durable_inOrder : World.Durable World.InOrder where
  signposted hw := hw.signposted
  errand {w v actor} hw herrand := by
    have hsignposted : v.Signposted := durable_signposted.errand hw.signposted herrand
    obtain ⟨op, reply, -, hr, rfl⟩ := herrand
    exact ⟨hsignposted, World.sound_perform hw.sound hr, hw.seated.perform hw.sound.toSkeleton hr⟩
  regrouped hw hregrouped := ⟨hregrouped.sameWalls.signposted hw.signposted,
    hregrouped.sound hw.sound, hw.seated.same hregrouped.sameSeats⟩
  advance {w v delta} hw hadvance := by
    have hr : w.perform (.advance delta) = some (.ok (), v) := by
      rw [World.perform, hadvance, Option.map_some]
    exact ⟨durable_signposted.advance hw.signposted hadvance, World.sound_perform hw.sound hr,
      hw.seated.perform hw.sound.toSkeleton hr⟩

/-! Building. -/

variable {α β : Type}

/-- Whatever it comes to, the step of building only carries out operations. -/
def Constructs (m : Building α) : Prop := ∀ w : World, w.Reachable → (m.run.run w).2.Reachable

theorem constructs_pure (a : α) : Constructs (pure a) := fun _ hw => hw

theorem constructs_except (x : Except Error α) : Constructs (ExceptT.mk (pure x)) := fun _ hw => hw

theorem Constructs.bind {m : Building α} {f : α → Building β} (hm : Constructs m)
    (hf : ∀ a, Constructs (f a)) : Constructs (m >>= f) := by
  intro w hw
  have hbuilt := hm w hw
  rw [ExceptT.run_bind, StateT.run_bind]
  revert hbuilt
  cases m.run.run w with
  | mk result v =>
    intro hv
    cases result with
    | error e => exact hv
    | ok a => exact hf a v hv

theorem Constructs.discard {m : Building α} (hm : Constructs m) :
    Constructs (discard m : Building Unit) :=
  hm.bind fun _ => constructs_pure ()

theorem constructs_building (op : World.Op) {f : World → World.Reply op.Result}
    (hf : ∀ w, w.perform op = some (f w)) : Constructs (building f) :=
  fun w hw => hw.trans (.perform (hf w))

theorem constructs_addRoom (zone : ZoneId) (key title description : String) :
    Constructs (addRoom zone key title description) :=
  constructs_building (.addRoom ..) fun _ => rfl

theorem constructs_link (room : RoomId) (direction : Direction) (key : String)
    (door : Option Door) : Constructs (link room direction key door) :=
  (constructs_except _).bind fun _ => constructs_building (.addExit ..) fun _ => rfl

theorem constructs_spawnItem (location : ItemLocation) (key name : String)
    (keywords : List String) : Constructs (spawnItem location key name keywords) :=
  constructs_building (.spawnItem ..) fun _ => rfl

theorem constructs_spawnCharacter (room : RoomId) (template : CharacterTemplate) :
    Constructs (spawnCharacter room template) :=
  constructs_building (.spawnCharacter ..) fun _ => rfl

theorem constructs_buildPlaces : Constructs buildPlaces := by
  -- A zone, its rooms, the ways between them, and what lies about.
  refine (constructs_building (.addZone ..) fun _ => rfl).bind fun zone => ?_
  iterate 7 refine Constructs.bind (constructs_addRoom zone _ _ _) fun _ => ?_
  iterate 12 refine Constructs.bind (constructs_link _ _ _ _) fun _ => ?_
  iterate 2 refine Constructs.bind (constructs_spawnItem _ _ _ _).discard fun _ => ?_
  exact constructs_pure _

theorem constructs_build (settings : Settings) : Constructs (build settings) := by
  refine constructs_buildPlaces.bind fun _ => ?_
  refine (constructs_spawnCharacter _ _).bind fun _ => ?_
  refine (constructs_spawnItem _ _ _ _).discard.bind fun _ => ?_
  refine (constructs_spawnCharacter _ _).bind fun _ => ?_
  exact (constructs_spawnCharacter _ _).discard.bind fun _ => constructs_pure _

/-- A session begins in a world that has come about by operations, with a bell in the square and in
the temple. -/
theorem session_founded {settings : Settings} {start : Session setting}
    (h : session lodging behaviour Duration.zero settings = .ok start) :
    start.state.world.Reachable ∧ start.rules.hooks = [bell lodging [square, temple]] ∧
      start.rules.maxDeliveries ≠ 0 := by
  obtain ⟨w, hbuild, hw⟩ := build_eq settings
  obtain ⟨rs, hregistries, -⟩ := registries_eq residents
  obtain ⟨c, hc, -⟩ := Option.map_eq_some_iff.1 (hw.characters residents.player)
  rw [session_of_build hbuild hregistries hc] at h
  cases h
  have hbuilt := constructs_build settings World.empty (.refl _)
  rw [hbuild] at hbuilt
  exact ⟨hbuilt, rfl, Nat.succ_ne_zero _⟩

end Village

end TextWorld

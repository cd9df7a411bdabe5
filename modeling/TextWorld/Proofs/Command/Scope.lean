import TextWorld.Proofs.Command.Alignment
import TextWorld.Proofs.Command.Binding
import TextWorld.Proofs.World.Charting

/-!
What tokens ask for. In a world that comes about by operations every argument is what its token
asks for: a character that is near, an item that is at hand, an exit of the room where the actor
is, or the zone with that very key.
-/

namespace TextWorld

namespace Grammar

/-- Whether somebody is as near to the actor as the scope says: in its room, or in its zone. -/
def Scope.Reaches (w : World) (actor id : CharacterId) : Scope → Prop
  | .room => ∃ room, w.characterRoom actor = some room ∧ w.characterRoom id = some room
  | .zone => ∃ zone, w.characterZone actor = some zone ∧ w.characterZone id = some zone

/-- The character is there, near the actor, and of the sort that is asked for. -/
structure CharacterFilter.Admits (f : CharacterFilter) (w : World) (actor id : CharacterId) :
    Prop where
  near : f.scope.Reaches w actor id
  other : f.noSelf = true → id ≠ actor
  sort : ∃ c, w.character? id = some c ∧ (f.npcOnly = true → c.isPlayer = false) ∧
    (f.playerOnly = true → c.isPlayer = true)

/-- Whether a location is one of the places where the token searches. -/
def ItemFilter.Searches (f : ItemFilter) (w : World) (actor : CharacterId) : ItemLocation → Prop
  | .inventory owner => f.inventory = true ∧ owner = actor
  | .equipped owner _ => f.equipment = true ∧ owner = actor
  | .room room => f.room = true ∧ w.characterRoom actor = some room
  | .inside _ => False

/-- The item is there, in one of the places that are searched, and is listed there. -/
def ItemFilter.Admits (f : ItemFilter) (w : World) (actor : CharacterId) (id : ItemId) : Prop :=
  ∃ i place, w.item? id = some i ∧ i.location = some place ∧ id ∈ w.listing place ∧
    f.Searches w actor place

/-- The exit meets every demand as far as the character is concerned. -/
structure ExitFilter.Suits (f : ExitFilter) (c : Character) (e : Exit) : Prop where
  visible : f.visible = true → e.isVisible = true
  passable : f.passable = true → e.isPassableBy c = true
  peekable : f.peekable = true → e.isPeekable = true
  closeable : f.closeable = true → e.isCloseable = true
  openable : f.openable = true → e.isOpenable = true

/-- The room where the actor is has such an exit in this direction. -/
def ExitFilter.Admits (f : ExitFilter) (w : World) (actor : CharacterId) (d : Direction) : Prop :=
  ∃ c room e, w.character? actor = some c ∧ c.room = some room ∧ w.exit? room d = some e ∧
    e.direction = d ∧ f.Suits c e

end Grammar

namespace Resolution

open Grammar

/-- The argument is what the token asks for. -/
def Binding.InScope (w : World) (actor : CharacterId) (params : List String) (b : Binding) : Prop :=
  match b.token, b.argument with
  | .character f, .character id => f.Admits w actor id
  | .item f, .item id => f.Admits w actor id
  | .exit f, .exit d => f.Admits w actor d
  | .zone, .zone id => ∃ z, w.zone? id = some z ∧ params[b.position]? = some z.key
  | .word, .word s => params[b.position]? = some s
  | .rest, .text s => b.position < params.length ∧ s = Text.unwords (params.drop b.position)
  | _, _ => False

variable {w : World} {actor : CharacterId} {param : String} {params : List String}

/-- Those who are listed with the actor's room or its zone are in that room or zone. -/
theorem reaches_of_mem_room (hw : w.Seated) {room : RoomId} {r : Room}
    (hroom : w.characterRoom actor = some room) (hr : w.room? room = some r) {id : CharacterId}
    (hid : id ∈ r.characters) : Scope.room.Reaches w actor id := by
  have hlisted : id ∈ w.attendance (.room room) := by
    rw [World.attendance, hr]
    exact hid
  obtain ⟨here, hhere, hcovers⟩ := (hw.listed id _).1 hlisted
  obtain rfl : room = here := hcovers
  exact ⟨room, hroom, hhere⟩

theorem reaches_of_mem_zone (hw : w.Seated) {zone : ZoneId} {z : Zone}
    (hzone : w.characterZone actor = some zone) (hz : w.zone? zone = some z) {id : CharacterId}
    (hid : id ∈ z.characters) : Scope.zone.Reaches w actor id := by
  have hlisted : id ∈ w.attendance (.zone zone) := by
    rw [World.attendance, hz]
    exact hid
  obtain ⟨here, hhere, hcovers⟩ := (hw.listed id _).1 hlisted
  obtain ⟨r, hr, hrzone⟩ := Option.map_eq_some_iff.1 hcovers
  have hstands : w.characterZone id = some zone := by
    simp [World.characterZone, hhere, hr, hrzone]
  exact ⟨zone, hzone, hstands⟩

/-- The candidates are those in reach, without whom the filter leaves out. -/
theorem exists_pool (hw : w.Seated) {f : CharacterFilter} {candidates : List Character}
    (h : characterCandidates w actor f = some candidates) :
    ∃ pool : List CharacterId, (∀ id ∈ pool, f.scope.Reaches w actor id) ∧
      candidates =
        ((pool.filter fun id => !(f.noSelf && id == actor)).filterMap w.character?).filter fun c =>
          !(f.npcOnly && c.isPlayer) && !(f.playerOnly && !c.isPlayer) := by
  obtain ⟨scope, noSelf, npcOnly, playerOnly⟩ := f
  cases scope with
  | room =>
    obtain ⟨room, hroom, h⟩ := Option.bind_eq_some_iff.1 h
    obtain ⟨r, hr, h⟩ := Option.bind_eq_some_iff.1 h
    cases h
    exact ⟨r.characters, fun id hid => reaches_of_mem_room hw hroom hr hid, rfl⟩
  | zone =>
    obtain ⟨zone, hzone, h⟩ := Option.bind_eq_some_iff.1 h
    obtain ⟨z, hz, h⟩ := Option.bind_eq_some_iff.1 h
    cases h
    exact ⟨z.characters, fun id hid => reaches_of_mem_zone hw hzone hz hid, rfl⟩

theorem admits_of_character (hseated : w.Seated) (hcharted : w.Charted) {f : CharacterFilter}
    {id : CharacterId} (h : bindOne w actor param (.character f) = some (.character id)) :
    f.Admits w actor id := by
  obtain ⟨candidates, hcandidates, h⟩ := Option.bind_eq_some_iff.1 h
  obtain ⟨c, hselect, h⟩ := Option.bind_eq_some_iff.1 h
  cases h
  obtain ⟨pool, hreach, rfl⟩ := exists_pool hseated hcandidates
  obtain ⟨hmem, hsort⟩ := List.mem_filter.1 (Matching.mem_of_select hselect)
  obtain ⟨id, hid, hc⟩ := List.mem_filterMap.1 hmem
  obtain ⟨hid, hself⟩ := List.mem_filter.1 hid
  rw [hcharted.character_id hc]
  rw [Bool.and_eq_true] at hsort
  refine ⟨hreach id hid, fun hf heq => ?_, c, hc, fun hf => ?_, fun hf => ?_⟩
  · simp [hf, heq] at hself
  · simpa [hf] using hsort.1
  · simpa [hf] using hsort.2

/-- What lies on the floor lies in the room of the actor, what is carried or worn is its own. -/
theorem admits_of_item (hfiled : w.Filed) (hconsistent : w.Consistent) {f : ItemFilter}
    {id : ItemId} (h : bindOne w actor param (.item f) = some (.item id)) :
    f.Admits w actor id := by
  have hplace : ∃ place, id ∈ w.listing place ∧ f.Searches w actor place := by
    rcases mem_of_bindOne hfiled h with ⟨hf, hid⟩ | ⟨hf, slot, hid⟩ | ⟨hf, room, hroom, hid⟩
    · exact ⟨.inventory actor, hid, hf, rfl⟩
    · exact ⟨.equipped actor slot, hid, hf, rfl⟩
    · exact ⟨.room room, hid, hf, hroom⟩
  obtain ⟨place, hlisted, hsearched⟩ := hplace
  have hlocation : w.locationOf id = some place := (hconsistent id place).1 hlisted
  obtain ⟨i, hi, hplace⟩ := Option.bind_eq_some_iff.1 hlocation
  exact ⟨i, place, hi, hplace, hlisted, hsearched⟩

theorem suits_of_accepts {f : ExitFilter} {c : Character} {e : Exit}
    (h : ExitFilter.accepts f c e = true) : f.Suits c e := by
  simp only [ExitFilter.accepts, Bool.and_eq_true, Bool.or_eq_true, Bool.not_eq_true'] at h
  obtain ⟨⟨⟨⟨hvisible, hpassable⟩, hpeekable⟩, hcloseable⟩, hopenable⟩ := h
  have hmeets {demand fact : Bool} (h : demand = false ∨ fact = true) (hdemand : demand = true) :
      fact = true := by
    rcases h with hnot | hfact
    · exact absurd (hdemand.symm.trans hnot) nofun
    · exact hfact
  exact ⟨hmeets hvisible, hmeets hpassable, hmeets hpeekable, hmeets hcloseable, hmeets hopenable⟩

theorem admits_of_exit (hw : w.Signposted) {f : ExitFilter} {d : Direction}
    (h : bindOne w actor param (.exit f) = some (.exit d)) : f.Admits w actor d := by
  obtain ⟨d', hnamed, hd⟩ := Option.map_eq_some_iff.1 h
  cases hd
  obtain ⟨c, room, e, hc, hroom, he, haccepts⟩ := exit_of_exitNamed hw hnamed
  exact ⟨c, room, e, hc, hroom, he, hw he, suits_of_accepts haccepts⟩

/-- In a world that comes about by operations what is bound is in scope. -/
theorem Binding.Sound.inScope (hw : w.Reachable) {b : Binding} (h : b.Sound w actor params) :
    b.InScope w actor params := by
  cases h with
  | @one token i param a hparam ha =>
    have hkind := kind_of_bindOne ha
    -- An argument of another kind than the token's cannot have come out.
    cases token with
    | character f =>
      cases a with
      | character id => exact admits_of_character hw.seated hw.charted ha
      | _ => cases hkind
    | item f =>
      cases a with
      | item id => exact admits_of_item hw.filed hw.sound.consistent ha
      | _ => cases hkind
    | exit f =>
      cases a with
      | exit d => exact admits_of_exit (fun he => hw.filed.exit he) ha
      | _ => cases hkind
    | zone =>
      obtain ⟨id, hid, rfl⟩ := Option.map_eq_some_iff.1 ha
      obtain ⟨z, hz, hkey⟩ := hw.charted.lookupZone_eq_some.1 hid
      exact ⟨z, hz, hkey ▸ hparam⟩
    | word =>
      cases ha
      exact hparam
    | rest | literal _ | bestEffort => cases ha
  | rest hi => exact ⟨hi, rfl⟩

end Resolution

namespace Grammar

open Resolution

/-- In a world that comes about by operations the arguments come from the tokens one by one, and
each is what its token asks for. -/
theorem resolve_in_scope {w : World} (hw : w.Reachable) {g : Grammar} {actor : CharacterId}
    {params : List String} {args : List Argument} (h : g.resolve w actor params = some args) :
    ∃ bs : List Binding, bs.map (·.argument) = args ∧
      bs.map (·.token) <+: valuedTokens g.elements ∧ bs.Pairwise (·.position < ·.position) ∧
        ∀ b ∈ bs, b.InScope w actor params := by
  have hbind : bindAll w actor false g.elements (params.drop 0) = some args := h
  obtain ⟨bs, hbs, hargs⟩ := reads_of_bindAll hbind
  exact ⟨bs, hargs, hbs.tokens, hbs.ascending, fun b hb => (hbs.sound b hb).inScope hw⟩

/-- A shop with a trapdoor that is open. A guest with a coin and a clerk are there, and another coin
lies on the floor. -/
def shopWithVault : List World.Op :=
  [.addZone "quay" "The Quay", .addRoom ⟨1⟩ "shop" "The Shop" "",
    .addExit ⟨2⟩ ⟨.down, ⟨"vault", "quay", by decide, by decide, by decide, by decide⟩,
      some Door.opened⟩,
    .spawnCharacter ⟨2⟩ (.player "guest" "a guest" []),
    .spawnCharacter ⟨2⟩ (.npc "clerk" "a clerk" []),
    .spawnItem (.room ⟨2⟩) ⟨"coin", "a coin", []⟩,
    .spawnItem (.inventory ⟨3⟩) ⟨"coin", "a coin", []⟩]

/-- The second coin that the guest can name is the one on the floor. -/
theorem resolve_in_scope_secondCoin :
    ∃ w g, World.empty.run shopWithVault = some w ∧
      compile "item.inv.room char.noself.npc exit.closeable zone" = .ok g ∧
      g.resolve w ⟨3⟩ ["coin.2", "clerk", "d", "quay"] =
        some [.item ⟨5⟩, .character ⟨4⟩, .exit .down, .zone ⟨1⟩] ∧
      ∃ bs : List Binding,
        bs.map (·.argument) = [.item ⟨5⟩, .character ⟨4⟩, .exit .down, .zone ⟨1⟩] ∧
        bs.map (·.token) <+: valuedTokens g.elements ∧ bs.Pairwise (·.position < ·.position) ∧
          ∀ b ∈ bs, b.InScope w ⟨3⟩ ["coin.2", "clerk", "d", "quay"] := by
  let g : Grammar := ⟨"item.inv.room char.noself.npc exit.closeable zone",
    [⟨.item ⟨true, false, true⟩, false⟩, ⟨.character ⟨.room, true, true, false⟩, false⟩,
      ⟨.exit ⟨false, false, false, true, false⟩, false⟩, ⟨.zone, false⟩]⟩
  have hcompile : compile "item.inv.room char.noself.npc exit.closeable zone" = .ok g := by rfl
  have hruns : (World.empty.run shopWithVault).map
      (fun w => g.resolve w ⟨3⟩ ["coin.2", "clerk", "d", "quay"]) =
        some (some [.item ⟨5⟩, .character ⟨4⟩, .exit .down, .zone ⟨1⟩]) := by
    decide +kernel
  obtain ⟨w, hw, hresolve⟩ := Option.map_eq_some_iff.1 hruns
  exact ⟨w, g, hw, hcompile, hresolve, resolve_in_scope ⟨shopWithVault, hw⟩ hresolve⟩

end Grammar

end TextWorld

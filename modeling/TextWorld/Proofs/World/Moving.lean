import TextWorld.Proofs.World.Listing

/-!
What moving an item does in a consistent world: it never fails halfway, it keeps the world
consistent, and nothing is somewhere else afterwards but the item and what it pushed out of a slot.
-/

namespace TextWorld

namespace World

variable {w v : World} {id : ItemId} {target place : ItemLocation}

/-- Where an item is when another one has been put at `target`. -/
def whereAfter (w : World) (id : ItemId) (target : ItemLocation) (x : ItemId) :
    Option ItemLocation :=
  if id = x then some target
  else match target with
    | .equipped owner _ =>
      if w.locationOf x = some target then some (.inventory owner) else w.locationOf x
    | _ => w.locationOf x

theorem whereAfter_free (hfree : ¬w.Taken target) (h : w.Consistent) (x : ItemId) :
    w.whereAfter id target x = if id = x then some target else w.locationOf x := by
  unfold whereAfter
  split
  · rfl
  · split
    · rename_i owner slot
      rw [if_neg]
      intro hx
      exact hfree ⟨owner, slot, rfl, List.ne_nil_of_mem ((h x _).2 hx)⟩
    · rfl

/-- An item that is nowhere can be put at any place that is there and in no use as a slot. -/
theorem attach_free (h : w.Consistent) (hloose : w.locationOf id = none)
    (hitem : (w.item? id).isSome) (hplace : w.HasPlace place) (hfree : ¬w.Taken place) :
    ∃ v, w.attach id place = (.ok (), v) ∧ v.Consistent ∧
      ∀ x, v.locationOf x = if id = x then some place else w.locationOf x := by
  obtain ⟨u, hu⟩ := exists_enlist hplace id
  have hloc : ∀ x, (u.locate id (some place)).locationOf x =
      if id = x then some place else w.locationOf x := by
    intro x
    rw [locationOf_locate, locationOf_enlist hfree hu]
    split
    · rename_i hx
      subst hx
      rw [← (rearranged_enlist hu).item_isSome] at hitem
      obtain ⟨i, hi⟩ := Option.isSome_iff_exists.1 hitem
      rw [hi, Option.bind_some]
    · rfl
  refine ⟨u.locate id (some place), by rw [attach, hu], ?_, hloc⟩
  intro x p
  rw [hloc, listing_locate, mem_listing_enlist hfree hu, h x p]
  by_cases hx : id = x
  · subst hx
    rw [hloose, if_pos rfl]
    simp [eq_comm]
  · simp [hx, Ne.symm hx]

/-- Putting an item into a slot in use is the same as putting what is in the slot into the
wearer's inventory first. -/
theorem enlist_taken {owner : CharacterId} {slot : String} {previous : ItemId}
    (h : w.Consistent) (hprevious : previous ∈ w.listing (.equipped owner slot)) :
    w.enlist id (.equipped owner slot) =
      ((w.detach previous).attach previous (.inventory owner)).2.enlist id
        (.equipped owner slot) := by
  obtain ⟨c, hc⟩ := Option.isSome_iff_exists.1 (hasPlace_of_mem hprevious)
  have hworn : c.equipment.get? slot = some previous := by
    rw [listing, hc] at hprevious
    simpa using hprevious
  have hdetach : w.detach previous =
      { w with
        characters := w.characters.modify owner fun c =>
          { c with equipment := c.equipment.erase slot }
        items := w.items.modify previous fun i => { i with location := none } } := by
    have hloc : (w.item? previous).bind (·.location) = some (.equipped owner slot) :=
      (h previous _).1 hprevious
    rw [detach, hloc]
    rfl
  rw [character?_eq] at hc
  simp only [hdetach, attach, enlist, character?_eq, Table.getElem?_modify, hc, hworn, if_true,
    Option.map_some, locate, Table.modify_modify, Std.ExtTreeMap.get?_eq_getElem?,
    Table.getElem?_erase, Table.insert_erase]

/-- What is in a slot can be put into the wearer's inventory, and then the slot is free. -/
theorem exists_unequipped {owner : CharacterId} {slot : String} {previous : ItemId}
    (h : w.Consistent) (hprevious : previous ∈ w.listing (.equipped owner slot)) :
    ∃ u, (w.detach previous).attach previous (.inventory owner) = (.ok (), u) ∧ u.Consistent ∧
      w.Rearranged u ∧ ¬u.Taken (.equipped owner slot) ∧
      ∀ x, u.locationOf x = if previous = x then some (.inventory owner) else w.locationOf x := by
  have hat := (h previous _).1 hprevious
  have hre := rearranged_detach w previous
  have hloose : (w.detach previous).locationOf previous = none := by
    rw [locationOf_detach, if_pos rfl]
  have hitem : ((w.detach previous).item? previous).isSome := by
    rw [hre.item_isSome]
    exact isSome_of_locationOf hat
  have hthere : w.HasPlace (.equipped owner slot) := hasPlace_of_mem hprevious
  have hplace : (w.detach previous).HasPlace (.inventory owner) :=
    (hre.hasPlace_iff (.inventory owner)).2 hthere
  have hfree : ¬(w.detach previous).Taken (.inventory owner) := by
    rintro ⟨_, _, hs, _⟩
    cases hs
  obtain ⟨u, hu, hcons, hloc⟩ :=
    attach_free (consistent_detach h previous) hloose hitem hplace hfree
  have hwhere : ∀ x, u.locationOf x =
      if previous = x then some (.inventory owner) else w.locationOf x := by
    intro x
    rw [hloc, locationOf_detach]
    split <;> rfl
  have hboth := hre.trans (rearranged_attach (w.detach previous) previous (.inventory owner))
  rw [hu] at hboth
  refine ⟨u, hu, hcons, hboth, ?_, hwhere⟩
  rintro ⟨o, s, hs, hsome⟩
  cases hs
  obtain ⟨x, hx⟩ := List.exists_mem_of_ne_nil _ hsome
  rw [hcons, hwhere] at hx
  split at hx
  · cases hx
  · rename_i hne
    exact hne (eq_of_mem_equipped hprevious ((h x _).2 hx))

/-- An item that is nowhere can be put at any place that is there. -/
theorem attach_spec (h : w.Consistent) (hloose : w.locationOf id = none)
    (hitem : (w.item? id).isSome) (hplace : w.HasPlace place) :
    ∃ v, w.attach id place = (.ok (), v) ∧ v.Consistent ∧
      ∀ x, v.locationOf x = w.whereAfter id place x := by
  by_cases hfree : w.Taken place
  · obtain ⟨owner, slot, rfl, hne⟩ := hfree
    obtain ⟨previous, hprevious⟩ := List.exists_mem_of_ne_nil _ hne
    have hat := (h previous _).1 hprevious
    have hold : previous ≠ id := by
      rintro rfl
      rw [hloose] at hat
      cases hat
    -- With what is in the slot in the inventory, the slot is like any other place.
    obtain ⟨u, hu, hucons, hre, hufree, hwhere⟩ := exists_unequipped h hprevious
    have huloose : u.locationOf id = none := by
      rw [hwhere, if_neg hold, hloose]
    have huitem : (u.item? id).isSome := by
      rw [hre.item_isSome]
      exact hitem
    obtain ⟨v, hv, hvcons, hvloc⟩ := attach_free hucons huloose huitem
      ((hre.hasPlace_iff _).2 hplace) hufree
    refine ⟨v, ?_, hvcons, ?_⟩
    · rw [attach, enlist_taken h hprevious, hu]
      rw [attach] at hv
      cases hen : u.enlist id (.equipped owner slot) with
      | error e => simp [hen] at hv
      | ok t => simpa [hen] using hv
    · intro x
      rw [hvloc, hwhere, whereAfter]
      by_cases hx : id = x
      · rw [if_pos hx, if_pos hx]
      · rw [if_neg hx, if_neg hx]
        by_cases hp : previous = x
        · rw [if_pos hp, ← hp, if_pos hat]
        · rw [if_neg hp, if_neg]
          -- Nothing else was in the slot.
          intro hx'
          exact hp (eq_of_mem_equipped hprevious ((h x _).2 hx'))
  · obtain ⟨v, hv, hcons, hloc⟩ := attach_free h hloose hitem hplace hfree
    exact ⟨v, hv, hcons, fun x => by rw [hloc, whereAfter_free hfree h]⟩

theorem hasPlace_of_locationZoneKey {zone : String} (h : w.locationZoneKey place = .ok zone) :
    w.HasPlace place := by
  cases place with
  | room room =>
    rw [locationZoneKey, roomZoneKey] at h
    rw [HasPlace]
    cases hr : w.room? room with
    | none => simp [hr] at h
    | some r => rfl
  | inventory owner | equipped owner slot =>
    rw [locationZoneKey] at h
    rw [HasPlace]
    cases hc : w.character? owner with
    | none => simp [hc] at h
    | some c => rfl
  | inside parent =>
    rw [locationZoneKey] at h
    rw [HasPlace]
    cases hp : w.item? parent with
    | none => simp [hp] at h
    | some p => rfl

/-- An item of a consistent world can be moved to any place with a zone key but into itself. -/
theorem moveItem_ok {zone : String} (h : w.Consistent) (hitem : (w.item? id).isSome)
    (hself : target ≠ .inside id) (hzone : w.locationZoneKey target = .ok zone) :
    ∃ v, w.moveItem id target = (.ok (), v) ∧ v.Consistent ∧
      ∀ x, v.locationOf x = w.whereAfter id target x := by
  obtain ⟨v, hv, hcons, hloc⟩ := attach_spec (consistent_detach h id)
    (by rw [locationOf_detach, if_pos rfl])
    (by rw [(rearranged_detach w id).item_isSome]; exact hitem)
    (((rearranged_detach w id).hasPlace_iff target).2 (hasPlace_of_locationZoneKey hzone))
  refine ⟨v, ?_, hcons, fun x => ?_⟩
  · have hthere : w.items.contains id = true := by simpa [item?_eq] using hitem
    simp [moveItem, hthere, hself, hzone, hv]
  · rw [hloc]
    unfold whereAfter
    by_cases hx : id = x
    · rw [if_pos hx, if_pos hx]
    · simp only [locationOf_detach, hx, if_false]

/-- In a consistent world, moving an item is refused and changes nothing, or it is done and puts
the item where it should go. -/
theorem moveItem_spec (h : w.Consistent) (id : ItemId) (target : ItemLocation) :
    (∃ e, w.moveItem id target = (.error e, w)) ∨
      (∃ v, w.moveItem id target = (.ok (), v) ∧ (w.item? id).isSome ∧ target ≠ .inside id ∧
        w.HasPlace target ∧ v.Consistent ∧ ∀ x, v.locationOf x = w.whereAfter id target x) := by
  by_cases hitem : w.items.contains id = true
  · by_cases hself : target = .inside id
    · exact .inl ⟨.selfContainment id, by simp [moveItem, hitem, hself]⟩
    · cases hzone : w.locationZoneKey target with
      | error e => exact .inl ⟨e, by simp [moveItem, hitem, hself, hzone]⟩
      | ok zone =>
        have hthere : (w.item? id).isSome := by simpa [item?_eq] using hitem
        obtain ⟨v, hv, hcons, hloc⟩ := moveItem_ok h hthere hself hzone
        exact .inr ⟨v, hv, hthere, hself, hasPlace_of_locationZoneKey hzone, hcons, hloc⟩
  · exact .inl ⟨.itemNotFound id, by simp [moveItem, hitem]⟩

end World

end TextWorld

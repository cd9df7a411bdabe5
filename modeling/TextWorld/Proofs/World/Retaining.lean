import TextWorld.Proofs.World.Rearranging

/-!
What characters retain. Apart from where they are, what they have and whether they are admins, the
operations change little about those who stay in the world; those who come into it have fresh ids
and look like anybody who is new; and only the passing of time moves the clock.
-/

namespace TextWorld

variable {β : Type}

/-- A view of characters that shows neither where they are, nor what they have, nor whether they
are admins; `new` is what it shows of somebody new. -/
structure Aloof (view : CharacterId → Character → β) (new : β) : Prop where
  room : ∀ x c room, view x { c with room } = view x c
  bare : ∀ x c, view x c.bare = view x c
  isAdmin : ∀ x c isAdmin, view x { c with isAdmin } = view x c
  new : ∀ x c, c.conversation = none → c.balanceUntil = none → view x c = new

namespace World

/-- Whoever is in the second world was in the first with the same view of them, or has come with a
fresh id and looks new; and no time has passed. -/
structure Retains (view : CharacterId → Character → β) (new : β) (w v : World) : Prop where
  retained : ∀ {x c}, v.character? x = some c →
    (∃ d, w.character? x = some d ∧ view x d = view x c) ∨
      view x c = new ∧ w.lastIndex < x.index ∧ x.index ≤ v.lastIndex
  lastIndex : w.lastIndex ≤ v.lastIndex
  now : v.now = w.now

variable {view : CharacterId → Character → β} {new : β} {w v u : World}

namespace Retains

theorem of_characters (h : v.characters = w.characters) (hlast : w.lastIndex ≤ v.lastIndex)
    (hnow : v.now = w.now) : Retains view new w v := by
  refine ⟨fun {x c} hc => .inl ⟨c, ?_, rfl⟩, hlast, hnow⟩
  rw [character?_eq, ← h]
  exact hc

theorem refl (w : World) : Retains view new w w := of_characters rfl (Nat.le_refl _) rfl

theorem trans (h : Retains view new w v) (h' : Retains view new v u) : Retains view new w u := by
  refine ⟨fun {x c} hc => ?_, Nat.le_trans h.lastIndex h'.lastIndex, h'.now.trans h.now⟩
  rcases h'.retained hc with ⟨d, hd, hdc⟩ | ⟨hnew, hlt, hle⟩
  · rcases h.retained hd with ⟨e, he, hed⟩ | ⟨hnew, hlt, hle⟩
    · exact .inl ⟨e, he, hed.trans hdc⟩
    · exact .inr ⟨hdc.symm.trans hnew, hlt, Nat.le_trans hle h'.lastIndex⟩
  · exact .inr ⟨hnew, Nat.lt_of_le_of_lt h.lastIndex hlt, hle⟩

theorem modifyCharacter (w : World) (id : CharacterId) {f : Character → Character}
    (hf : ∀ c, view id (f c) = view id c) :
    Retains view new w { w with characters := w.characters.modify id f } := by
  refine ⟨fun {x c} hc => ?_, Nat.le_refl _, rfl⟩
  rw [character?_eq, Table.getElem?_modify] at hc
  split at hc
  · rename_i hx
    obtain ⟨d, hd, rfl⟩ := Option.map_eq_some_iff.1 hc
    rw [← hx] at hd ⊢
    exact .inl ⟨d, hd, (hf d).symm⟩
  · exact .inl ⟨c, hc, rfl⟩

theorem eraseCharacter (w : World) (id : CharacterId) :
    Retains view new w { w with characters := w.characters.erase id } := by
  refine ⟨fun {x c} hc => ?_, Nat.le_refl _, rfl⟩
  rw [character?_eq, Table.getElem?_erase] at hc
  split at hc
  · cases hc
  · exact .inl ⟨c, hc, rfl⟩

variable (ha : Aloof view new)
include ha

theorem rearranged (h : w.Rearranged v) : Retains view new w v := by
  refine ⟨fun {x c} hc => ?_, Nat.le_of_eq h.lastIndex.symm, h.now⟩
  obtain ⟨d, hd, hbare⟩ := h.exists_character hc
  refine .inl ⟨d, hd, ?_⟩
  rw [← ha.bare x d, hbare, ha.bare]

theorem place (w : World) (id : CharacterId) (room : RoomId) :
    Retains view new w (w.place id room) := by
  unfold World.place
  split
  · exact .refl w
  · rename_i r _
    have hrest : Retains view new w { w with
        rooms := w.rooms.modify room fun r => { r with occupants := r.occupants.push id }
        zones := w.zones.modify r.zone fun z => { z with population := z.population.push id } } :=
      of_characters rfl (Nat.le_refl _) rfl
    exact hrest.trans (.modifyCharacter _ id fun c => ha.room id c _)

theorem unplace (w : World) (id : CharacterId) : Retains view new w (w.unplace id) := by
  unfold World.unplace
  split
  · exact .refl w
  · have hcharacter : Retains view new w
        { w with characters := w.characters.modify id fun c => { c with room := none } } :=
      .modifyCharacter w id fun c => ha.room id c none
    dsimp only
    split
    · exact hcharacter
    · exact hcharacter.trans (of_characters rfl (Nat.le_refl _) rfl)

end Retains

section

variable (ha : Aloof view new)
include ha

theorem retains_despawnCharacter (w : World) (id : CharacterId) :
    Retains view new w (w.despawnCharacter id).2 := by
  have hleave (u : World) : Retains view new u
      { u.unplace id with characters := (u.unplace id).characters.erase id } :=
    (Retains.unplace ha u id).trans (.eraseCharacter _ id)
  obtain ⟨v, hdrop, ⟨e, hreply⟩ | hreply⟩ := despawnCharacter_cases w id
  · rw [hreply]
    exact .rearranged ha hdrop
  · rw [hreply]
    exact (Retains.rearranged ha hdrop).trans (hleave v)

theorem retains_spawnCharacter (w : World) (room : RoomId) (t : CharacterTemplate) :
    Retains view new w (w.spawnCharacter room t).2 := by
  have hallocate : Retains view new w w.allocate.2 := .of_characters rfl (Nat.le_succ _) rfl
  unfold spawnCharacter
  split
  · exact .refl w
  · dsimp only
    split
    · exact hallocate
    · rename_i c hc
      obtain ⟨-, -, -, -, hbalanced, hnone⟩ := CharacterTemplate.of_build hc
      have hinsert : Retains view new w { w.allocate.2 with
          characters := w.allocate.2.characters.insert ⟨w.allocate.1⟩ c } := by
        refine ⟨fun {x d} hd => ?_, Nat.le_succ _, rfl⟩
        rw [character?_eq, Table.getElem?_insert] at hd
        split at hd
        · rename_i hx
          cases hd
          rw [← hx]
          have hnew := ha.new ⟨w.allocate.1⟩ c hnone hbalanced
          exact .inr ⟨hnew, Nat.lt_succ_self _, Nat.le_refl _⟩
        · exact .inl ⟨d, hd, rfl⟩
      exact hinsert.trans (.place ha _ _ room)

theorem retains_spawnItem (w : World) (place : ItemLocation) (t : ItemTemplate) :
    Retains view new w (w.spawnItem place t).2 := by
  unfold spawnItem
  split
  · exact .refl w
  · dsimp only
    split
    · exact .of_characters rfl (Nat.le_succ _) rfl
    · rename_i i _
      have hinsert : Retains view new w { w.allocate.2 with
          items := w.allocate.2.items.insert ⟨w.allocate.1⟩ i } :=
        .of_characters rfl (Nat.le_succ _) rfl
      have hattach := hinsert.trans (.rearranged ha (rearranged_attach _ ⟨w.allocate.1⟩ place))
      split
      all_goals
        rename_i heq
        rw [heq] at hattach
        exact hattach

/-- The operations leave all else about a character alone, but for one that is put off balance. -/
theorem retains_perform {op : Op} {reply : Reply op.Result} (hr : w.perform op = some reply)
    (hadvance : ∀ delta, op ≠ .advance delta)
    (hput : ∀ who duration, op = .putOffBalance who duration →
      ∀ c balanceUntil, view who { c with balanceUntil } = view who c) :
    Retains view new w reply.2 := by
  cases op with
  | putOffBalance who duration =>
    simp only [perform, putOffBalance] at hr
    obtain ⟨deadline, -, rfl⟩ := Option.map_eq_some_iff.1 hr
    split
    · exact .refl w
    · exact .modifyCharacter w who fun c => hput who duration rfl c _
  | advance delta => exact absurd rfl (hadvance delta)
  | addZone key name =>
    cases hr
    dsimp only [addZone]
    repeat' split
    · exact .refl w
    · exact .refl w
    · exact .of_characters rfl (Nat.le_succ _) rfl
  | addRoom zone key title description =>
    cases hr
    dsimp only [addRoom]
    repeat' split
    · exact .refl w
    · exact .refl w
    · exact .refl w
    · exact .of_characters rfl (Nat.le_succ _) rfl
  | addExit room e =>
    cases hr
    dsimp only [addExit]
    split
    · exact .refl w
    · exact .of_characters rfl (Nat.le_refl _) rfl
  | spawnCharacter room t =>
    cases hr
    exact retains_spawnCharacter ha w room t
  | moveCharacter who room =>
    cases hr
    dsimp only [moveCharacter]
    repeat' split
    · exact .refl w
    · exact .refl w
    · exact (Retains.unplace ha w who).trans (.place ha _ who room)
  | despawnCharacter who =>
    cases hr
    exact retains_despawnCharacter ha w who
  | spawnItem place t =>
    cases hr
    exact retains_spawnItem ha w place t
  | moveItem item target =>
    cases hr
    exact .rearranged ha (rearranged_moveItem w item target)
  | setDoorClosed room d closed =>
    cases hr
    dsimp only [setDoorClosed]
    repeat' split
    all_goals first | exact .refl w | exact .of_characters rfl (Nat.le_refl _) rfl

theorem retains_edit (w : World) (e : Edit) : Retains view new w (w.edit e).2 := by
  cases e with
  | putDoor room d door => exact .of_characters rfl (Nat.le_refl _) rfl
  | setAdmin id admin => exact .modifyCharacter w id fun c => ha.isAdmin id c admin
  | stow parent item => exact .of_characters rfl (Nat.le_refl _) rfl

end

end World

end TextWorld

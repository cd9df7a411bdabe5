import TextWorld.Command.Resolution
import TextWorld.Proofs.World.Filing
import TextWorld.Proofs.World.Listing

/-!
What parameters are bound to. Whatever a parameter names is among the candidates, so an item that is
bound is one that the actor has or sees, and an exit one of the room where it is.
-/

namespace TextWorld

/-- Every exit is filed under its own direction. -/
def World.Signposted (w : World) : Prop :=
  ∀ {room d e}, w.exit? room d = some e → e.direction = d

namespace Matching

variable {α : Type} {labels : α → Labels} {candidates hits : List α} {a : α}

theorem sublist_of_firstHits {needle : String} {tiers : List Tier} {tier : Tier}
    (h : firstHits labels candidates needle tiers = some (tier, hits)) :
    hits.Sublist candidates := by
  induction tiers with
  | nil => cases h
  | cons first tiers ih =>
    rw [firstHits] at h
    split at h
    · exact ih h
    · cases h
      exact List.filter_sublist

/-- The hits are candidates in their order, each at most once. -/
theorem find_sublist (labels : α → Labels) (candidates : List α) (word : String) :
    (find labels candidates word).Sublist candidates := by
  unfold find rank
  split
  · rename_i hrank
    split at hrank
    · cases hrank
    · exact sublist_of_firstHits hrank
  · exact List.nil_sublist candidates

/-- What is selected is one of the candidates. -/
theorem mem_of_select {param : String} (h : select labels candidates param = some a) :
    a ∈ candidates := by
  unfold select at h
  split at h
  · cases h
  · exact (find_sublist labels candidates _).subset (List.mem_of_getElem? h)

end Matching

namespace Resolution

open Grammar

variable {w : World} {actor : CharacterId} {param : String}

/-- The first argument is what some parameter is bound to by the first token, if that is to be
bound to one. -/
theorem bindOne_of_resolve {g : Grammar} {f : ItemFilter} {es : List Element}
    (hg : g.elements = ⟨.item f, false⟩ :: es) {params : List String} {args : List Argument}
    (h : g.resolve w actor params = some args) {a : Argument} (ha : args[0]? = some a) :
    ∃ param, bindOne w actor param (.item f) = some a := by
  rw [Grammar.resolve, hg] at h
  cases params with
  | nil => simp [bindAll] at h
  | cons param params =>
    simp only [bindAll] at h
    cases hbound : bindOne w actor param (.item f) with
    | none => simp [hbound] at h
    | some b =>
      rw [hbound] at h
      obtain ⟨rest, -, rfl⟩ := Option.map_eq_some_iff.1 h
      obtain rfl := Option.some.inj ha
      exact ⟨param, hbound⟩

/-- An item that is bound is carried, worn, or lies in the room, as the token has it. -/
theorem mem_of_bindOne (hw : w.Filed) {f : ItemFilter} {id : ItemId}
    (h : bindOne w actor param (.item f) = some (.item id)) :
    f.inventory = true ∧ id ∈ w.listing (.inventory actor) ∨
      f.equipment = true ∧ (∃ slot, id ∈ w.listing (.equipped actor slot)) ∨
      f.room = true ∧ ∃ room, w.characterRoom actor = some room ∧
        id ∈ w.listing (.room room) := by
  obtain ⟨candidates, hcandidates, h⟩ := Option.bind_eq_some_iff.1 h
  obtain ⟨i, hselect, h⟩ := Option.bind_eq_some_iff.1 h
  cases h
  obtain ⟨c, hc, hcandidates⟩ := Option.bind_eq_some_iff.1 hcandidates
  cases hcandidates
  obtain ⟨id, hmem, hi⟩ := List.mem_filterMap.1 (Matching.mem_of_select hselect)
  rw [hw.item hi]
  -- The candidates are listed in this order, each list only if the token asks for it.
  simp only [List.mem_append] at hmem
  rcases hmem with (hcarried | hworn) | hlying
  · split at hcarried
    · rename_i hf
      refine .inl ⟨hf, ?_⟩
      rw [World.listing, hc]
      exact hcarried
    · cases hcarried
  · split at hworn
    · rename_i hf
      obtain ⟨slot, hslot⟩ := Table.mem_values.1 hworn
      refine .inr (.inl ⟨hf, slot, ?_⟩)
      rw [World.listing, hc, Option.mem_toList]
      exact hslot
    · cases hworn
  · split at hlying
    · rename_i hf
      split at hlying
      · rename_i r hr
        obtain ⟨room, hroom, hr⟩ := Option.bind_eq_some_iff.1 hr
        refine .inr (.inr ⟨hf, room, ?_, ?_⟩)
        · rw [World.characterRoom, hc]
          exact hroom
        · rw [World.listing, hr]
          exact hlying
      · cases hlying
    · cases hlying

/-- An exit that was named is one of the room where the actor is, and as the grammar demands. -/
theorem exit_of_exitNamed {f : ExitFilter} {d : Direction} (hw : w.Signposted)
    (h : exitNamed w actor f param = some d) :
    ∃ c here e, w.character? actor = some c ∧ c.room = some here ∧ w.exit? here d = some e ∧
      ExitFilter.accepts f c e = true := by
  obtain ⟨c, hc, h⟩ := Option.bind_eq_some_iff.1 h
  obtain ⟨here, hhere, h⟩ := Option.bind_eq_some_iff.1 h
  obtain ⟨r, hr, h⟩ := Option.bind_eq_some_iff.1 h
  obtain ⟨e, he, h⟩ := Option.bind_eq_some_iff.1 h
  cases h
  have hmem := List.mem_of_find?_eq_some he
  rw [List.mem_filter] at hmem
  obtain ⟨d, hd⟩ := Table.mem_values.1 hmem.1
  have hexit : w.exit? here d = some e := by
    rw [World.exit?, hr]
    exact hd
  have hdirection := hw hexit
  rw [← hdirection] at hexit
  exact ⟨c, here, e, hc, hhere, hexit, hmem.2⟩

end Resolution

end TextWorld

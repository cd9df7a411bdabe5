import TextWorld.Proofs.Conversation.Links

/-!
Going up and down along the links. Two conversations below a third one lie below one another, and
what is below a conversation is found all the way down.
-/

namespace TextWorld

namespace Forest

variable {τ ε : Type} {f f' : Forest τ ε} {a b d o p x id : ConversationId}
  {c : Conversation τ ε}

/-- The first conversation is the second, or one comes to the second from it by going up. -/
inductive Under (f : Forest τ ε) : ConversationId → ConversationId → Prop where
  | refl (a : ConversationId) : Under f a a
  | step {a b o : ConversationId} (ha : f.parent? a = some b) (hb : Under f b o) : Under f a o

theorem Under.mono (h : f.Under a o)
    (hparent : ∀ {a b}, f.parent? a = some b → f'.parent? a = some b) : f'.Under a o := by
  induction h with
  | refl a => exact .refl a
  | step ha _ ih => exact .step (hparent ha) ih

/-- From above one comes to a conversation through the child. -/
theorem Under.through_child (hf : f.Linked) (h : f.Under a o) :
    a = o ∨ ∃ d, f.child? o = some d ∧ f.Under a d := by
  induction h with
  | refl a => exact .inl rfl
  | @step a b o ha _ ih =>
    rcases ih with rfl | ⟨d, hd, hbd⟩
    · exact .inr ⟨a, (hf.child_iff _ _).2 ha, .refl a⟩
    · exact .inr ⟨d, hd, .step ha hbd⟩

/-- There is one chain below each conversation, since each has one child at most. -/
theorem Under.comparable (hf : f.Linked) (h : f.Under a o) (h' : f.Under b o) :
    f.Under a b ∨ f.Under b a := by
  induction h with
  | refl a => exact .inr h'
  | @step a p o ha _ ih =>
    rcases ih h' with hpb | hbp
    · exact .inl (.step ha hpb)
    · rcases hbp.through_child hf with rfl | ⟨d, hd, hbd⟩
      · exact .inl (.step ha (.refl b))
      · have hchild := (hf.child_iff p a).2 ha
        rw [hd] at hchild
        cases hchild
        exact .inr hbd

theorem under_of_mem_lineage (h : x ∈ f.lineage id) : f.Under id x := by
  have hascend (count : Nat) : ∀ {id}, x ∈ f.ascend count id → f.Under id x := by
    induction count with
    | zero =>
      intro id hx
      cases hx
    | succ count ih =>
      intro id hx
      rw [ascend] at hx
      cases hc : f.get? id with
      | none =>
        rw [hc] at hx
        cases hx
      | some c =>
        rw [hc] at hx
        cases hp : c.parent with
        | none =>
          simp only [hp, List.mem_singleton] at hx
          exact hx ▸ .refl x
        | some parent =>
          simp only [hp, List.mem_cons] at hx
          have hparent : f.parent? id = some parent := by
            rw [parent?, hc]
            exact hp
          rcases hx with rfl | hx
          · exact .refl x
          · exact .step hparent (ih hx)
  exact hascend f.size h

/-- Conversations that a leaf is not one of are as far below others as before when it is taken
away. -/
theorem Under.remove (hf : f.Linked) (hc : f.get? id = some c) (hleaf : f.child? id = none)
    (h : f.Under a o) (ha : id ≠ a) : (f.remove id).Under a o := by
  induction h with
  | refl a => exact .refl a
  | @step a b o hab _ ih =>
    have hb : id ≠ b := by
      rintro rfl
      have hchild := (hf.child_iff id a).2 hab
      rw [hleaf] at hchild
      cases hchild
    refine .step ?_ (ih hb)
    rw [parent?_remove hc, if_neg ha]
    exact hab

/-- The conversations of the list are the child, its child and so on to the last one. -/
def Below (f : Forest τ ε) : ConversationId → List ConversationId → Prop
  | id, [] => f.child? id = none
  | id, d :: l => f.child? id = some d ∧ f.Below d l

theorem Below.of_mem (hf : f.Linked) {l : List ConversationId} (h : f.Below id l) (hx : x ∈ l) :
    id.index < x.index ∧ (f.get? x).isSome := by
  induction l generalizing id with
  | nil => cases hx
  | cons d l ih =>
    obtain ⟨hd, hl⟩ := h
    have hparent := (hf.child_iff id d).1 hd
    have hlt := (hf.parent_there hparent).2
    rcases List.mem_cons.1 hx with rfl | hx
    · exact ⟨hlt, isSome_of_parent? hparent⟩
    · obtain ⟨hdx, hthere⟩ := ih hl hx
      exact ⟨by omega, hthere⟩

theorem Below.unique {l l' : List ConversationId} (h : f.Below id l) (h' : f.Below id l') :
    l = l' := by
  induction l generalizing id l' with
  | nil =>
    cases l' with
    | nil => rfl
    | cons d' l' =>
      obtain ⟨hd', -⟩ := h'
      rw [Below] at h
      rw [h] at hd'
      cases hd'
  | cons d l ih =>
    obtain ⟨hd, hl⟩ := h
    cases l' with
    | nil =>
      rw [Below, hd] at h'
      cases h'
    | cons d' l' =>
      obtain ⟨hd', hl'⟩ := h'
      rw [hd] at hd'
      cases hd'
      rw [ih hl hl']

theorem mem_later_of_child? (hf : f.Linked) (hd : f.child? id = some d) :
    d ∈ f.table.keys.filter fun x => id.index < x.index := by
  have hparent := (hf.child_iff id d).1 hd
  have hlt := (hf.parent_there hparent).2
  rw [List.mem_filter, Std.ExtTreeMap.mem_keys, Std.ExtTreeMap.mem_iff_isSome_getElem?]
  exact ⟨isSome_of_parent? hparent, by simpa using hlt⟩

theorem length_filter_lt {l : List ConversationId} {p q : ConversationId → Bool}
    (hx : x ∈ l.filter p) (hq : ¬q x = true) (hsub : ∀ y, q y = true → p y = true) :
    (l.filter q).length < (l.filter p).length := by
  have hfilter : (l.filter p).filter q = l.filter q := by
    rw [List.filter_filter]
    apply List.filter_congr
    intro y _
    rw [Bool.and_eq_left_iff_imp]
    exact hsub y
  rw [← hfilter, List.length_filter_lt_length_iff_exists]
  exact ⟨x, hx, hq⟩

/-- Ids grow from child to child, so a chain has no more conversations than are there. -/
theorem below_descend (hf : f.Linked) (count : Nat) (id : ConversationId)
    (hcount : (f.table.keys.filter fun x => id.index < x.index).length ≤ count) :
    f.Below id (f.descend count id) := by
  induction count generalizing id with
  | zero =>
    rw [descend, Below]
    cases hd : f.child? id with
    | none => rfl
    | some d =>
      have hpos := List.length_pos_of_mem (mem_later_of_child? hf hd)
      omega
  | succ count ih =>
    rw [descend]
    cases hd : f.child? id with
    | none => exact hd
    | some d =>
      refine ⟨hd, ih d ?_⟩
      have hlt := (hf.parent_there ((hf.child_iff id d).1 hd)).2
      -- Of the later conversations, the child is not later than itself.
      have hless := length_filter_lt (p := fun x => id.index < x.index)
        (q := fun x => d.index < x.index) (mem_later_of_child? hf hd) (by simp)
        (fun x hx => by simp only [decide_eq_true_eq] at hx ⊢; omega)
      omega

theorem below_descendants (hf : f.Linked) (id : ConversationId) :
    f.Below id (f.descendants id) := by
  apply below_descend hf
  have hle := List.length_filter_le (fun x => decide (id.index < x.index)) f.table.keys
  rwa [Std.ExtTreeMap.length_keys] at hle

/-! Where the chains are short. -/

theorem descend_of_leaf (hleaf : f.child? id = none) (count : Nat) : f.descend count id = [] := by
  cases count with
  | zero => rfl
  | succ count => rw [descend, hleaf]

theorem descendants_of_leaf (hleaf : f.child? id = none) : f.descendants id = [] :=
  descend_of_leaf hleaf _

theorem descendants_of_child (hc : f.get? id = some c) (hd : c.child = some d)
    (hleaf : f.child? d = none) : f.descendants id = [d] := by
  obtain ⟨count, hsize⟩ : ∃ count, f.size = count + 1 := Table.exists_size hc
  have hchild : f.child? id = some d := by
    rw [child?, hc]
    exact hd
  rw [descendants, hsize, descend, hchild]
  dsimp only
  rw [descend_of_leaf hleaf]

theorem lineage_of_top (hc : f.get? id = some c) (htop : c.parent = none) :
    f.lineage id = [id] := by
  obtain ⟨count, hsize⟩ : ∃ count, f.size = count + 1 := Table.exists_size hc
  rw [lineage, hsize, ascend, hc]
  simp [htop]

end Forest

end TextWorld

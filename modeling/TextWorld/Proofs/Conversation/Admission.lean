import TextWorld.Proofs.Conversation.Listening

/-!
Who is admitted to conversations, and what a refusal leaves behind. All members are looked at before
anybody is held, and nothing on the way down to the last child can fail once the conversation to be
ended is there, so what is refused has changed nothing.
-/

namespace TextWorld

variable {S : Setting}

/-- The error of a reply that refuses to start, to end or to schedule for a conversation. -/
def Request.refusal? : (r : Request S) → r.Reply → Option Error
  | .start .., .error e => some e
  | .startChild .., .error e => some e
  | .finish .., .error e => some e
  | .schedule .., .error e => some e
  | _, _ => none

namespace State

variable {s u : State S} {id child parent : ConversationId} {e : Error}
  {participants : List CharacterId} {talk : S.Talk} {ending : Option S.Ending}
  {lineage : List ConversationId}

/-! Starting. -/

theorem start_refused (h : (s.start participants talk ending).1 = .error e) :
    (s.start participants talk ending).2 = s := by
  rw [start] at h ⊢
  split at h
  · rename_i hnil
    rw [if_pos hnil]
  · rename_i hne
    rw [if_neg hne]
    split at h
    · rfl
    · cases h

theorem startChild_refused (h : (s.startChild parent participants talk).1 = .error e) :
    (s.startChild parent participants talk).2 = s := by
  rw [startChild] at h ⊢
  split at h
  · rename_i hgone
    rw [if_pos hgone]
  · rename_i hthere
    rw [if_neg hthere]
    split at h
    · rename_i hnil
      rw [if_pos hnil]
    · rename_i hne
      rw [if_neg hne]
      split at h
      · rfl
      · cases h

theorem checkFree_of (h : ∀ x ∈ participants,
    ∃ c, s.world.character? x = some c ∧ c.conversation = none) :
    s.checkFree participants = .ok () := by
  induction participants with
  | nil => rfl
  | cons p ps ih =>
    obtain ⟨c, hc, hnone⟩ := h p List.mem_cons_self
    rw [checkFree, hc]
    dsimp only
    rw [hnone]
    exact ih fun x hx => h x (List.mem_cons_of_mem _ hx)

theorem checkJoinable_of (h : ∀ x ∈ participants, ∃ c, s.world.character? x = some c ∧
    ∀ o, c.conversation = some o → o ∈ lineage) :
    s.checkJoinable lineage none participants = .ok () := by
  induction participants with
  | nil => rfl
  | cons p ps ih =>
    obtain ⟨c, hc, hlineage⟩ := h p List.mem_cons_self
    have hfilter : (c.conversation.filter fun active => !lineage.contains active) = none := by
      rw [Option.filter_eq_none_iff]
      intro o ho
      simpa using hlineage o ho
    rw [checkJoinable, hc]
    dsimp only
    rw [hfilter]
    exact ih fun x hx => h x (List.mem_cons_of_mem _ hx)

theorem start_ok_iff : (∃ id, (s.start participants talk ending).1 = .ok id) ↔
    participants ≠ [] ∧
      ∀ x ∈ participants, ∃ c, s.world.character? x = some c ∧ c.conversation = none := by
  rw [start]
  constructor
  · rintro ⟨id, hid⟩
    split at hid
    · cases hid
    · rename_i hne
      split at hid
      · cases hid
      · rename_i hcheck
        exact ⟨hne, of_checkFree hcheck⟩
  · rintro ⟨hne, hfree⟩
    rw [if_neg hne, checkFree_of hfree]
    exact ⟨_, rfl⟩

theorem Coherent.startChild_ok_iff (h : s.Coherent) :
    (∃ id, (s.startChild parent participants talk).1 = .ok id) ↔
      s.forest.contains parent = true ∧ s.forest.child? parent = none ∧ participants ≠ [] ∧
        ∀ x ∈ participants, ∃ c, s.world.character? x = some c ∧
          ∀ o, c.conversation = some o → s.forest.Under parent o := by
  rw [State.startChild]
  constructor
  · rintro ⟨id, hid⟩
    split at hid
    · cases hid
    · rename_i hcontains
      have hparent : s.forest.contains parent = true := by simpa using hcontains
      split at hid
      · cases hid
      · rename_i hne
        split at hid
        · cases hid
        · rename_i hcheck
          have hjoin := of_checkJoinable hcheck
          -- The check looks for a child at each participant, and there is one at least.
          obtain ⟨y, hy⟩ := List.exists_mem_of_ne_nil _ hne
          refine ⟨hparent, (hjoin y hy).1, hne, fun x hx => ?_⟩
          obtain ⟨-, c, hc, hlineage⟩ := hjoin x hx
          exact ⟨c, hc, fun o ho => Forest.under_of_mem_lineage (hlineage o ho)⟩
  · rintro ⟨hparent, hleaf, hne, hjoin⟩
    -- The walk upwards from the parent comes by all that the parent lies under.
    have hcheck : s.checkJoinable (s.forest.lineage parent) none participants = .ok () := by
      apply checkJoinable_of
      intro x hx
      obtain ⟨c, hc, hunder⟩ := hjoin x hx
      exact ⟨c, hc, fun o ho => (Forest.mem_lineage h.linked hparent).2 (hunder o ho)⟩
    rw [hparent, if_neg (by simp), if_neg hne, hleaf, hcheck]
    exact ⟨_, rfl⟩

/-- Whom no conversation holds takes part in none. -/
theorem Coherent.free_iff (h : s.Coherent) {x : CharacterId} {c : Character}
    (hc : s.world.character? x = some c) :
    c.conversation = none ↔ ∀ id, s.forest.lists id x = false := by
  constructor
  · exact h.lists_nothing hc
  · intro hnothing
    rw [Option.eq_none_iff_forall_ne_some]
    intro o ho
    have hlist := h.held hc ho
    rw [hnothing o] at hlist
    cases hlist

/-! Ending. -/

/-- To end a conversation, an active child is ended first and then the conversation itself. This
fails if the conversation is not there, if the child's end fails, or if the conversation is not
there any more once the child has ended. -/
inductive EndsInTurn (s : State S) : ConversationId → Except Error Unit → State S → Prop
  | absent {id : ConversationId} (hid : s.forest.contains id = false) :
      EndsInTurn s id (.error (.conversationNotFound id)) s
  | failed {id child : ConversationId} {e : Error} {u : State S}
      (hchild : s.forest.child? id = some child) (h : EndsInTurn s child (.error e) u) :
      EndsInTurn s id (.error e) u
  | lost {id child : ConversationId} {u : State S} (hchild : s.forest.child? id = some child)
      (h : EndsInTurn s child (.ok ()) u) (hgone : u.forest.contains id = false) :
      EndsInTurn s id (.error (.conversationNotFound id)) u
  | last {id : ConversationId} (hid : s.forest.contains id = true)
      (hleaf : s.forest.child? id = none) : EndsInTurn s id (.ok ()) (s.close id)
  | after {id child : ConversationId} {u : State S} (hchild : s.forest.child? id = some child)
      (h : EndsInTurn s child (.ok ()) u) (hstill : u.forest.contains id = true) :
      EndsInTurn s id (.ok ()) (u.close id)

/-- The descendants of a conversation are its child and the descendants of that one. -/
theorem Coherent.closeAll_of_child (h : s.Coherent) (hchild : s.forest.child? id = some child) :
    s.closeAll id = (s.closeAll child).close id := by
  have hdescendants : s.forest.descendants id = child :: s.forest.descendants child := by
    apply Forest.Below.unique (Forest.below_descendants h.linked id)
    exact ⟨hchild, Forest.below_descendants h.linked child⟩
  rw [closeAll, hdescendants, List.reverse_cons, List.foldl_append]
  rfl

theorem Coherent.linked_contained (h : s.Coherent) (hchild : s.forest.child? id = some child) :
    s.forest.contains id = true ∧ s.forest.contains child = true := by
  have hparent := (h.linked.child_iff id child).1 hchild
  have hthere := (h.linked.parent_there hparent).1
  exact ⟨Forest.contains_iff.2 hthere, Forest.contains_iff.2 (Forest.isSome_of_parent? hparent)⟩

/-- A conversation outlasts its child. -/
theorem Coherent.contains_closeAll_child (h : s.Coherent)
    (hchild : s.forest.child? id = some child) :
    (s.closeAll child).forest.contains id = true := by
  have hparent := (h.linked.child_iff id child).1 hchild
  obtain ⟨c, hc⟩ := Option.isSome_iff_exists.1 (Forest.isSome_of_parent? hparent)
  have hp : c.parent = some id := by
    rwa [Forest.parent?, hc] at hparent
  exact Forest.contains_iff.2 (parent_there_closeAll h hc hp).2

theorem Coherent.endsInTurn (h : s.Coherent) {l : List ConversationId}
    (hl : s.forest.Below id l) (hid : s.forest.contains id = true) :
    s.EndsInTurn id (.ok ()) (s.closeAll id) := by
  induction l generalizing id with
  | nil =>
    rw [closeAll_of_leaf hl]
    exact .last hid hl
  | cons child l ih =>
    obtain ⟨hchild, hl⟩ := hl
    rw [h.closeAll_of_child hchild]
    exact .after hchild (ih hl (h.linked_contained hchild).2) (h.contains_closeAll_child hchild)

/-- What comes of ending a conversation, which is there or not. -/
def afterEnd (s : State S) (id : ConversationId) : Except Error Unit × State S :=
  if s.forest.contains id then (.ok (), s.closeAll id)
  else (.error (.conversationNotFound id), s)

/-- Once a conversation is there, nothing fails on the way down and up again. -/
theorem Coherent.endsInTurn_iff (h : s.Coherent) {result : Except Error Unit} :
    s.EndsInTurn id result u ↔ (result, u) = s.afterEnd id := by
  constructor
  · -- The child is there since it is linked, so by induction its end has succeeded.
    intro hends
    induction hends with
    | absent hid => rw [afterEnd, hid, if_neg Bool.false_ne_true]
    | failed hchild _ ih =>
      rw [afterEnd, if_pos (h.linked_contained hchild).2] at ih
      cases ih
    -- The conversation is earlier than its child, so it is not among those that went with it.
    | lost hchild _ hgone ih =>
      rw [afterEnd, if_pos (h.linked_contained hchild).2] at ih
      cases ih
      rw [h.contains_closeAll_child hchild] at hgone
      cases hgone
    | last hid hleaf => rw [afterEnd, if_pos hid, closeAll_of_leaf hleaf]
    | @after id child u hchild _ _ ih =>
      rw [afterEnd, if_pos (h.linked_contained hchild).2] at ih
      cases ih
      rw [afterEnd, if_pos (h.linked_contained hchild).1, h.closeAll_of_child hchild]
  · intro hresult
    rw [afterEnd] at hresult
    split at hresult
    · rename_i hid
      cases hresult
      exact h.endsInTurn (Forest.below_descendants h.linked id) hid
    · rename_i hid
      cases hresult
      exact .absent (Bool.eq_false_iff.2 hid)

theorem schedule_refused {actor : CharacterId} {line : String} {delay : Duration}
    (h : s.schedule id actor line delay = some (.error e, u)) : u = s := by
  rw [State.schedule] at h
  split at h
  · cases h
    rfl
  · obtain ⟨due, -, hdue⟩ := Option.map_eq_some_iff.1 h
    cases hdue

end State

namespace Rules

variable {rules : Rules S} {depth : Nat} {deliver : Delivery S → Run S Unit} {s : State S}
  {id : ConversationId} {data : Value} {e : Error}

theorem finish_of_absent (hid : s.forest.get? id = none) :
    finish deliver id data s = ⟨[], .ok (.error (.conversationNotFound id)), s⟩ := by
  rw [finish, Run.get_bind, hid]
  rfl

/-- Brings the data of a conversation that has ended to its receiver, if there is one. -/
def bring (deliver : Delivery S → Run S Unit) (id : ConversationId)
    (c : Conversation S.Talk S.Ending) (data : Value) : Run S Unit :=
  match c.parent, c.ending with
  | some parent, _ => deliver (.toParent parent data)
  | none, some ending => deliver (.toEnding id ending data)
  | none, none => pure ()

/-- A conversation that is there is ended before anything else happens, and whatever its receiver
makes of the data, the end is not refused. -/
theorem finish_of_there {c : Conversation S.Talk S.Ending} (hc : s.forest.get? id = some c) :
    finish deliver id data s =
      ⟨⟨.ended id c (s.forest.descendants id) data, s.closeAll id⟩ ::
        (bring deliver id c data (s.closeAll id)).sights,
        (bring deliver id c data (s.closeAll id)).result.map fun _ => .ok (),
        (bring deliver id c data (s.closeAll id)).state⟩ := by
  have hsteps : finish deliver id data s =
      (Run.note (.ended id c (s.forest.descendants id) data) >>= fun _ =>
        bring deliver id c data >>= fun _ => pure (.ok ())) (s.closeAll id) := by
    rw [finish, Run.get_bind, hc]
    dsimp only [bring]
    -- The data goes to the parent, to the ending, or nowhere.
    cases c.parent with
    | some parent => rfl
    | none =>
      cases c.ending with
      | some ending => rfl
      | none => rfl
  rw [hsteps, Run.note_bind, Run.bind_const]

theorem finish_refused_iff :
    (finish deliver id data s).result = .ok (.error e) ↔
      s.forest.get? id = none ∧ e = .conversationNotFound id := by
  cases hc : s.forest.get? id with
  | none =>
    rw [finish_of_absent hc, Except.ok.injEq, Except.error.injEq]
    exact ⟨fun h => ⟨rfl, h.symm⟩, fun h => h.2.symm⟩
  | some c =>
    rw [finish_of_there hc]
    refine iff_of_false (fun hresult => ?_) fun h => Option.some_ne_none c h.1
    -- The reply after a delivery is never an error, and a delivery that breaks off is no reply.
    cases hbring : (bring deliver id c data (s.closeAll id)).result with
    | error fault =>
      rw [hbring] at hresult
      cases hresult
    | ok done =>
      rw [hbring] at hresult
      cases hresult

theorem reply_start (participants : List CharacterId) (talk : S.Talk) (ending : Option S.Ending) :
    rules.reply depth deliver (.start participants talk ending) s =
      ⟨[], .ok (s.start participants talk ending).1, (s.start participants talk ending).2⟩ := rfl

theorem reply_startChild (parent : ConversationId) (participants : List CharacterId)
    (talk : S.Talk) :
    rules.reply depth deliver (.startChild parent participants talk) s =
      ⟨[], .ok (s.startChild parent participants talk).1,
        (s.startChild parent participants talk).2⟩ := rfl

theorem reply_refused {r : Request S} {answer : r.Reply}
    (hanswer : (rules.reply depth deliver r s).result = .ok answer)
    (he : r.refusal? answer = some e) : rules.reply depth deliver r s = ⟨[], .ok answer, s⟩ := by
  cases r with
  | start participants talk ending =>
    rw [reply_start] at hanswer ⊢
    cases hanswer
    cases hstart : (s.start participants talk ending).1 with
    | ok id =>
      rw [hstart] at he
      cases he
    | error problem => rw [State.start_refused hstart]
  | startChild parent participants talk =>
    rw [reply_startChild] at hanswer ⊢
    cases hanswer
    cases hstart : (s.startChild parent participants talk).1 with
    | ok id =>
      rw [hstart] at he
      cases he
    | error problem => rw [State.startChild_refused hstart]
  | finish id data =>
    cases answer with
    | ok done => cases he
    | error problem =>
      obtain ⟨hc, rfl⟩ := finish_refused_iff.1 hanswer
      exact finish_of_absent hc
  | schedule id actor line delay =>
    rw [reply, Run.get_bind] at hanswer ⊢
    cases hschedule : s.schedule id actor line delay with
    | none =>
      rw [hschedule] at hanswer
      cases hanswer
    | some scheduled =>
      obtain ⟨result, u⟩ := scheduled
      rw [hschedule] at hanswer
      cases hanswer
      cases answer with
      | ok done => cases he
      | error problem =>
        rw [State.schedule_refused hschedule]
        rfl
  | _ => cases he

end Rules

/-- Conversations are started for those who are free for them, and ended if they are there; and
where that is refused, nothing has changed. -/
structure State.Strict (s : State S) : Prop where
  refused_unchanged : ∀ {rules : Rules S} {depth deliver} {r : Request S} {answer : r.Reply} {e},
    (rules.reply depth deliver r s).result = .ok answer → r.refusal? answer = some e →
      rules.reply depth deliver r s = ⟨[], .ok answer, s⟩
  start_iff : ∀ {rules : Rules S} {depth deliver participants talk ending},
    (∃ id, (rules.reply depth deliver (.start participants talk ending) s).result =
      .ok (.ok id)) ↔
        participants ≠ [] ∧
          ∀ x ∈ participants, ∃ c, s.world.character? x = some c ∧ c.conversation = none
  startChild_iff : ∀ {rules : Rules S} {depth deliver parent participants talk},
    (∃ id, (rules.reply depth deliver (.startChild parent participants talk) s).result =
      .ok (.ok id)) ↔
        s.forest.contains parent = true ∧ s.forest.child? parent = none ∧ participants ≠ [] ∧
          ∀ x ∈ participants, ∃ c, s.world.character? x = some c ∧
            ∀ o, c.conversation = some o → s.forest.Under parent o
  free_iff : ∀ {x c}, s.world.character? x = some c →
    (c.conversation = none ↔ ∀ id, s.forest.lists id x = false)
  ends_iff : ∀ {id result u}, s.EndsInTurn id result u ↔ (result, u) = s.afterEnd id
  finish_refused : ∀ {rules : Rules S} {depth deliver id data e},
    (rules.reply depth deliver (.finish id data) s).result = .ok (.error e) ↔
      ∃ u, s.EndsInTurn id (.error e) u
  finish_granted : ∀ {rules : Rules S} {depth deliver id data u}, s.EndsInTurn id (.ok ()) u →
    ∃ c, s.forest.get? id = some c ∧
      (rules.reply depth deliver (.finish id data) s).sights.head? =
        some ⟨.ended id c (s.forest.descendants id) data, u⟩

theorem State.Coherent.strict {s : State S} (h : s.Coherent) : s.Strict where
  refused_unchanged := Rules.reply_refused
  start_iff {rules depth deliver participants talk ending} := by
    simp only [Rules.reply_start, Except.ok.injEq]
    exact start_ok_iff
  startChild_iff {rules depth deliver parent participants talk} := by
    simp only [Rules.reply_startChild, Except.ok.injEq]
    exact h.startChild_ok_iff
  free_iff := h.free_iff
  ends_iff := h.endsInTurn_iff
  finish_refused {rules depth deliver id data e} := by
    change (Rules.finish deliver id data s).result = _ ↔ _
    rw [Rules.finish_refused_iff, ← Forest.contains_eq_false_iff]
    constructor
    · rintro ⟨hid, rfl⟩
      exact ⟨s, .absent hid⟩
    · rintro ⟨u, hends⟩
      rw [h.endsInTurn_iff, afterEnd] at hends
      split at hends
      · cases hends
      · rename_i hid
        cases hends
        exact ⟨Bool.eq_false_iff.2 hid, rfl⟩
  finish_granted {rules depth deliver id data u} hends := by
    change ∃ c, _ ∧ (Rules.finish deliver id data s).sights.head? = _
    rw [h.endsInTurn_iff, afterEnd] at hends
    split at hends
    · rename_i hid
      cases hends
      obtain ⟨c, hc⟩ := Option.isSome_iff_exists.1 (Forest.contains_iff.1 hid)
      refine ⟨c, hc, ?_⟩
      rw [Rules.finish_of_there hc]
      rfl
    · cases hends

/-- From a world that has come about by operations, whatever is called and whatever the programs
do: at every moment that a program can look, and at the end, conversations are started and ended for
the asking or nothing at all is done about them. -/
theorem strict_throughout {w : World} (hw : w.Reachable) (memory : S.Memory)
    (calls : List (Rules S × Call S)) :
    (∀ sight ∈ (Call.runAll calls (.initial w memory)).sights, sight.state.Strict) ∧
      (Call.runAll calls (.initial w memory)).state.Strict := by
  obtain ⟨hsights, hlast⟩ := coherent_throughout hw memory calls
  exact ⟨fun sight hsight => (hsights sight hsight).strict, hlast.strict⟩

/-- The guest is busy, so the cook cannot talk with them alone, but below their conversations. -/
theorem strict_throughout_talkInInn :
    ∃ w s, World.empty.run innWithTwo = some w ∧
      (Call.runAll [(chatter, .withContext talkInInn)] (.initial w ())).state = s ∧
      (s.start [⟨4⟩, ⟨3⟩] () none).1 = .error (.conversationBusy ⟨3⟩ ⟨1⟩) ∧
      (s.startChild ⟨2⟩ [⟨4⟩, ⟨3⟩] ()).1 = .ok ⟨3⟩ ∧ s.Strict := by
  have hrun : (World.empty.run innWithTwo).map (fun w =>
      let s := (Call.runAll [(chatter, .withContext talkInInn)] (.initial w ())).state
      ((s.start [⟨4⟩, ⟨3⟩] () none).1, (s.startChild ⟨2⟩ [⟨4⟩, ⟨3⟩] ()).1)) =
        some (.error (.conversationBusy ⟨3⟩ ⟨1⟩), .ok ⟨3⟩) := by rfl
  obtain ⟨w, hw, htalks⟩ := Option.map_eq_some_iff.1 hrun
  rw [Prod.mk.injEq] at htalks
  obtain ⟨hstart, hchild⟩ := htalks
  have hall := strict_throughout (S := plainSetting) ⟨innWithTwo, hw⟩ ()
    [(chatter, .withContext talkInInn)]
  exact ⟨w, _, hw, rfl, hstart, hchild, hall.2⟩

end TextWorld

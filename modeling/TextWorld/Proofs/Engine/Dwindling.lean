import TextWorld.Proofs.Conversation.Regrouping
import TextWorld.Proofs.Engine.Allowance
import TextWorld.Proofs.Engine.Ensuring
import TextWorld.Proofs.Engine.Structure

/-!
Deliveries that come to an end. Each of them takes a conversation away or something that was handed
back to one, so unless what is done with completion data starts new conversations there are only so
many; a conversation that starts a child and ends it at every turn goes on for ever.
-/

namespace TextWorld

variable {S : Setting} {α β : Type}

/-- With room enough the computation comes to its end from this state, so that `Q` holds if it does
not break off. -/
def Ends (Q : State S → Prop) (m : Nat → Run S α) (s : State S) : Prop :=
  ∃ n c, (∀ n', n ≤ n' → m n' s = c) ∧ c.result ≠ .error .endlessDeliveries ∧
    ∀ a, c.result = .ok a → Q c.state

section

variable {Q Q' : State S → Prop} {m : Nat → Run S α} {f : Nat → α → Run S β} {s : State S}

theorem Ends.mono (h : Ends Q m s) (hQ : ∀ t, Q t → Q' t) : Ends Q' m s := by
  obtain ⟨n, c, hc, hends, hok⟩ := h
  exact ⟨n, c, hc, hends, fun a ha => hQ _ (hok a ha)⟩

theorem Ends.result_ne (h : Ends Q m s) : ∃ n, (m n s).result ≠ .error .endlessDeliveries := by
  obtain ⟨n, c, hc, hends, -⟩ := h
  refine ⟨n, ?_⟩
  rw [hc n (Nat.le_refl n)]
  exact hends

theorem ends_const {m : Run S α} (hm : m.Roomless) (hQ : m.Ensures (fun _ => Q) s) :
    Ends Q (fun _ => m) s :=
  ⟨0, m s, fun _ _ => rfl, hm s, hQ⟩

theorem ends_pure {a : α} (h : Q s) : Ends Q (fun _ => (pure a : Run S α)) s :=
  ends_const (Run.roomless_pure a) (Run.ensures_pure h)

theorem Ends.bind (hm : Ends Q m s) (hf : ∀ a t, Q t → Ends Q' (fun n => f n a) t) :
    Ends Q' (fun n => m n >>= f n) s := by
  obtain ⟨n, ⟨seen, fault | a, t⟩, hc, hends, hok⟩ := hm
  · refine ⟨n, ⟨seen, .error fault, t⟩, fun n' hn => Run.bind_of_error (hc n' hn), ?_, nofun⟩
    exact fun hcut => hends (by cases hcut; rfl)
  · -- There is room enough for both if there is room for the one that needs more.
    obtain ⟨k, c, hc', hends', hok'⟩ := hf a t (hok a rfl)
    refine ⟨max n k, ⟨seen ++ c.sights, c.result, c.state⟩, fun n' hn => ?_, hends', hok'⟩
    have hrest : f n' a t = c := hc' n' (by omega)
    rw [← hrest]
    exact Run.bind_of_ok (hc n' (by omega))

theorem ends_get {f : Nat → State S → Run S β} (h : Ends Q (fun n => f n s) s) :
    Ends Q (fun n => get >>= f n) s := h

theorem ends_update {g : State S → State S} {f : Nat → Unit → Run S β}
    (h : Ends Q (fun n => f n ()) (g s)) : Ends Q (fun n => Run.update g >>= f n) s := h

theorem ends_note {e : Event S} {f : Nat → Unit → Run S β} (h : Ends Q (fun n => f n ()) s) :
    Ends Q (fun n => Run.note e >>= f n) s := by
  refine (ends_const (Run.roomless_note e) (Run.ensures_note (Q := fun _ t => t = s) rfl)).bind ?_
  rintro _ _ rfl
  exact h

/-- Room for one less does not matter in the end. -/
theorem Ends.of_succ (h : Ends Q (fun n => m (n + 1)) s) : Ends Q m s := by
  obtain ⟨n, c, hc, hrest⟩ := h
  refine ⟨n + 1, c, fun n' hn => ?_, hrest⟩
  obtain ⟨k, rfl⟩ := Nat.exists_eq_add_of_le' hn
  exact hc (k + n) (Nat.le_add_left n k)

end

theorem ends_uniform : Uniform (S := S) fun m => ∀ s, Ends (fun _ => True) m s where
  const hm _ := ends_const hm fun _ _ => trivial
  bind hm hf s := (hm s).bind fun a t _ => hf a t

/-! What is left to be delivered. -/

/-- So many slots do for the conversations and for what waits to be delivered to them: each takes
one, and one more for all that has been handed back to it. -/
def State.Fits (k : Nat) (s : State S) : Prop :=
  ∃ slots : List ConversationId, slots.length ≤ k ∧
    ∀ id c, s.forest.get? id = some c → c.handedBack.toList.length < slots.count id

/-- There are no conversations but those there were, and nothing but what was handed back to them
waits with them. -/
def State.Dwindles (s t : State S) : Prop :=
  ∀ id c', t.forest.get? id = some c' →
    ∃ c, s.forest.get? id = some c ∧ c'.handedBack = c.handedBack

namespace State

variable {s t u : State S} {k : Nat} {id : ConversationId}

theorem Dwindles.of_table (h : t.forest.table = s.forest.table) : s.Dwindles t := by
  intro id c hc
  rw [Forest.get?_eq, h] at hc
  exact ⟨c, hc, rfl⟩

theorem Dwindles.refl (s : State S) : s.Dwindles s := .of_table rfl

theorem Dwindles.trans (h : s.Dwindles t) (h' : t.Dwindles u) : s.Dwindles u := by
  intro id c hc
  obtain ⟨c', hc', hsame'⟩ := h' id c hc
  obtain ⟨c'', hc'', hsame⟩ := h id c' hc'
  exact ⟨c'', hc'', hsame'.trans hsame⟩

theorem Dwindles.modify {g : Conversation S.Talk S.Ending → Conversation S.Talk S.Ending}
    (hg : ∀ c, (g c).handedBack = c.handedBack) :
    s.Dwindles { s with forest := s.forest.modify id g } := by
  intro x c hc
  dsimp only at hc
  rw [Forest.get?_modify] at hc
  split at hc
  · obtain ⟨c', hc', rfl⟩ := Option.map_eq_some_iff.1 hc
    exact ⟨c', hc', hg c'⟩
  · exact ⟨c, hc, rfl⟩

theorem dwindles_setTalk (s : State S) (id : ConversationId) (talk : Option S.Talk) :
    s.Dwindles (s.setTalk id talk) :=
  .modify fun _ => rfl

theorem dwindles_close (s : State S) (id : ConversationId) : s.Dwindles (s.close id) := by
  rw [close]
  cases hid : s.forest.get? id with
  | none => exact .refl s
  | some d =>
    intro x c hc
    have hmap := Forest.unlinked_remove hid x
    have hc' : (s.forest.remove id).get? x = some c := hc
    rw [hc'] at hmap
    split at hmap
    · cases hmap
    · obtain ⟨c', hc', hsame⟩ := Option.map_eq_some_iff.1 hmap.symm
      exact ⟨c', hc', (congrArg Conversation.handedBack hsame).symm⟩

theorem dwindles_closeAll (s : State S) (id : ConversationId) : s.Dwindles (s.closeAll id) :=
  closeAll_keeps (P := s.Dwindles) (fun t x _ ht => ht.trans (dwindles_close t x)) (.refl s)

/-- The slots that a conversation takes just now. -/
def slotsOf (s : State S) (id : ConversationId) : List ConversationId :=
  (s.forest.get? id).elim [] fun c => List.replicate (c.handedBack.toList.length + 1) id

theorem exists_fits (s : State S) : ∃ k, s.Fits k := by
  refine ⟨_, s.forest.ids.flatMap s.slotsOf, Nat.le_refl _, fun id c hc => ?_⟩
  have hmem : id ∈ s.forest.ids := by
    rw [Forest.ids, Std.ExtTreeMap.mem_keys, Std.ExtTreeMap.mem_iff_isSome_getElem?]
    exact Option.isSome_of_eq_some hc
  have hslots : s.slotsOf id = List.replicate (c.handedBack.toList.length + 1) id := by
    rw [slotsOf, hc]
    rfl
  have hpart : (s.slotsOf id).Sublist (s.forest.ids.flatMap s.slotsOf) :=
    List.sublist_flatten_of_mem (List.mem_map_of_mem hmem)
  have hcount := hpart.count_le id
  rw [hslots, List.count_replicate_self] at hcount
  exact hcount

namespace Fits

theorem mono {k' : Nat} (h : s.Fits k) (hle : k ≤ k') : s.Fits k' := by
  obtain ⟨slots, hlength, hslots⟩ := h
  exact ⟨slots, Nat.le_trans hlength hle, hslots⟩

theorem dwindle (h : s.Fits k) (hst : s.Dwindles t) : t.Fits k := by
  obtain ⟨slots, hlength, hslots⟩ := h
  refine ⟨slots, hlength, fun id c hc => ?_⟩
  obtain ⟨c', hc', hsame⟩ := hst id c hc
  rw [hsame]
  exact hslots id c' hc'

/-- Where less waits with a conversation, or it is gone, there is a slot to spare. -/
theorem spare {c : Conversation S.Talk S.Ending} (h : s.Fits k) (hc : s.forest.get? id = some c)
    (hless : ∀ d, t.forest.get? id = some d →
      d.handedBack.toList.length < c.handedBack.toList.length)
    (hrest : ∀ x d, id ≠ x → t.forest.get? x = some d →
      ∃ d', s.forest.get? x = some d' ∧ d.handedBack = d'.handedBack) :
    ∃ j, j < k ∧ t.Fits j := by
  obtain ⟨slots, hlength, hslots⟩ := h
  have hslot := hslots id c hc
  -- One of the slots that the conversation had is spared.
  have hmem : id ∈ slots := List.count_pos_iff.1 (Nat.zero_lt_of_lt hslot)
  have hshorter : (slots.erase id).length < k := by
    rw [List.length_erase_of_mem hmem]
    have hpos := List.length_pos_of_mem hmem
    omega
  refine ⟨_, hshorter, slots.erase id, Nat.le_refl _, fun x d hd => ?_⟩
  by_cases hx : id = x
  · subst hx
    have hleft := hless d hd
    rw [List.count_erase_self]
    omega
  · obtain ⟨d', hd', hsame⟩ := hrest x d hx hd
    rw [hsame, List.count_erase_of_ne (Ne.symm hx)]
    exact hslots x d' hd'

theorem closeAll {c : Conversation S.Talk S.Ending} (h : s.Fits k)
    (hc : s.forest.get? id = some c) : ∃ j, j < k ∧ (s.closeAll id).Fits j := by
  refine h.spare hc (fun d hd => ?_) fun x d _ hd => dwindles_closeAll s id x d hd
  rw [get?_closeAll] at hd
  cases hd

theorem takeHandedBack {data : Value} {forest : Forest S.Talk S.Ending} (h : s.Fits k)
    (htake : s.forest.takeHandedBack id = some (data, forest)) :
    ∃ j, j < k ∧ { s with forest }.Fits j := by
  obtain ⟨c, rest, hc, hback, rfl⟩ := Forest.takeHandedBack_eq htake
  refine h.spare hc (fun d hd => ?_) fun x d hx hd => ?_
  · dsimp only at hd
    rw [Forest.get?_modify, if_pos rfl, hc] at hd
    cases hd
    rw [hback]
    exact Nat.lt_succ_self _
  · dsimp only at hd
    rw [Forest.get?_modify, if_neg hx] at hd
    exact ⟨d, hd, rfl⟩

theorem handBack (h : s.Fits k) (id : ConversationId) (data : Value) :
    (s.handBack id data).Fits (k + 1) := by
  obtain ⟨slots, hlength, hslots⟩ := h
  refine ⟨id :: slots, Nat.succ_le_succ hlength, fun x c hc => ?_⟩
  rw [State.handBack] at hc
  dsimp only at hc
  rw [Forest.get?_modify] at hc
  by_cases hx : id = x
  · subst hx
    rw [if_pos rfl] at hc
    obtain ⟨c', hc', rfl⟩ := Option.map_eq_some_iff.1 hc
    have hslot := hslots id c' hc'
    rw [Queue.toList_push, List.length_append, List.count_cons_self]
    exact Nat.succ_lt_succ hslot
  · rw [if_neg hx] at hc
    rw [List.count_cons_of_ne hx]
    exact hslots x c hc

end Fits

end State

/-! What is delivered, if nothing is started by it. -/

def Request.Starts : Request S → Prop
  | .start .. | .startChild .. => True
  | _ => False

/-- What is done with completion data starts no conversation. -/
structure Behaviour.Conclusive (b : Behaviour S) : Prop where
  onReturn : ∀ talk id data, (b.onReturn talk id data).Asks (¬·.Starts)
  onEnd : ∀ ending data, (b.onEnd ending data).Asks (¬·.Starts)

theorem State.table_granted (s : State S) (depth : Nat) {r : Request S} (hr : ¬r.Starts) :
    (s.granted depth r).forest.table = s.forest.table := by
  cases r with
  | start participants talk ending => exact absurd trivial hr
  | startChild parent participants talk => exact absurd trivial hr
  | perform op =>
    rw [granted]
    cases s.world.perform op <;> rfl
  | schedule id actor line delay =>
    rw [granted]
    cases hreply : s.schedule id actor line delay with
    | none => rfl
    | some reply =>
      obtain ⟨scheduler, hscheduled⟩ := schedule_eq hreply
      dsimp only
      rw [hscheduled]
  | emitRoom room except text =>
    obtain ⟨mailbox, hemit⟩ := s.emitRoom_eq room except text
    rw [granted, hemit]
  | _ => rfl

namespace Rules

variable {rules : Rules S} {depth k : Nat} {deliver : Nat → Delivery S → Run S Unit} {s : State S}

section

variable (hd : ∀ j, j < k → ∀ (d : Delivery S) (s : State S), s.Fits j →
  Ends (State.Fits (j + 1)) (fun n => deliver n d) s)
include hd

/-- An end makes room for what it delivers. -/
theorem ends_finish (hs : s.Fits k) (id : ConversationId) (data : Value) :
    Ends (State.Fits k) (fun n => finish (deliver n) id data) s := by
  refine ends_get ?_
  cases hc : s.forest.get? id with
  | none => exact ends_pure hs
  | some c =>
    obtain ⟨j, hj, hclosed⟩ := hs.closeAll hc
    have hdeliver (d : Delivery S) :
        Ends (State.Fits k) (fun n => deliver n d) (s.closeAll id) :=
      (hd j hj d _ hclosed).mono fun t ht => ht.mono hj
    refine ends_get (ends_update (ends_note ?_))
    dsimp only
    split
    · exact (hdeliver _).bind fun _ _ => ends_pure
    · exact (hdeliver _).bind fun _ _ => ends_pure
    · exact ends_pure (hclosed.mono (Nat.le_of_lt hj))

theorem ends_reply (hs : s.Fits k) {r : Request S} (hr : ¬r.Starts) :
    Ends (State.Fits k) (fun n => rules.reply depth (deliver n) r) s := by
  rcases r.finish_or_other with ⟨id, data, rfl⟩ | hother
  · exact ends_finish hd hs id data
  · simp only [fun n => reply_congr rules depth (deliver n) (deliver 0) hother]
    refine ends_const (roomless_reply rules depth (deliver 0) hother) fun x _ => ?_
    rw [(reply_course rules depth (deliver 0) r hother s).2.1]
    exact hs.dwindle (.of_table (State.table_granted s depth hr))

theorem ends_run {p : Program S α} (hp : p.Asks (¬·.Starts)) (hs : s.Fits k) :
    Ends (State.Fits k) (fun n => p.run (rules.reply depth (deliver n))) s := by
  induction p generalizing s with
  | done a => exact ends_pure hs
  | ask r next ih =>
    exact ends_note ((ends_reply hd hs hp.1).bind fun x t ht => ih x (hp.2 x) ht)

theorem ends_callback {id : ConversationId} {occasion : Occasion}
    {body : S.Talk → Program S (α × S.Talk)} (hbody : ∀ talk, (body talk).Asks (¬·.Starts))
    (hs : s.Fits k) :
    Ends (State.Fits k) (fun n => rules.callback depth (deliver n) id occasion body) s := by
  refine ends_get ?_
  split
  · exact ends_pure hs
  · rename_i talk _
    have hbegun := hs.dwindle (State.dwindles_setTalk s id none)
    refine ends_update (ends_note ((ends_run hd (hbody talk) hbegun).bind fun result t ht => ?_))
    exact ends_update (ends_note (ends_pure (ht.dwindle (State.dwindles_setTalk t id _))))

theorem ends_handOn (hs : s.Fits k) (id : ConversationId) :
    Ends (State.Fits k) (fun n => handOn (deliver n) id) s := by
  refine ends_get ?_
  cases htake : s.forest.takeHandedBack id with
  | none => exact ends_pure hs
  | some taken =>
    obtain ⟨j, hj, hfits⟩ := hs.takeHandedBack htake
    exact ends_update ((hd j hj _ _ hfits).mono fun t ht => ht.mono hj)

end

/-- By the number of slots: what a delivery brings about takes place with fewer of them. -/
theorem ends_deliver (hb : rules.behaviour.Conclusive) (depth k : Nat) (d : Delivery S)
    {s : State S} (hs : s.Fits k) :
    Ends (State.Fits (k + 1)) (fun n => rules.deliver depth n d) s := by
  induction k using Nat.strongRecOn generalizing d s with
  | ind k ih =>
    have hmore (t : State S) (ht : t.Fits k) : t.Fits (k + 1) := ht.mono (Nat.le_succ k)
    refine Ends.of_succ ?_
    cases d with
    | toEnding id ending data =>
      exact ends_note ((ends_run ih (hb.onEnd ending data) hs).mono hmore)
    | toParent parent data =>
      refine ends_get ?_
      split
      · -- The data waits with a parent that is busy, in the slot that there is one more of.
        exact ends_const (Run.roomless_update _) (Run.ensures_update (hs.handBack parent data))
      · have hbody (talk : S.Talk) := (hb.onReturn talk parent data).bind
          (f := fun talk => pure ((), talk)) fun _ => Program.asks_pure _
        refine (ends_callback ih hbody hs).bind fun _ t ht => ?_
        exact (ends_handOn ih ht parent).mono hmore

theorem ends_deliveries (hb : rules.behaviour.Conclusive) (depth : Nat) (d : Delivery S)
    (s : State S) : Ends (fun _ => True) (fun n => rules.deliver depth n d) s := by
  obtain ⟨k, hs⟩ := s.exists_fits
  exact (ends_deliver hb depth k d hs).mono fun _ _ => trivial

end Rules

/-- When something comes to an end. With more room for deliveries the course is the same, or it goes
on from where it had no more room; there is room enough for all of it if and only if there are only
so many deliveries to see in it; and that is so if nothing is started by what is delivered. -/
structure TerminationLaw (rules : Rules S) (m : Rules S → Run S α) (s : State S) : Prop where
  extendsTo : ∀ {n n'}, n ≤ n' → (m (rules.allowing n) s).ExtendsTo (m (rules.allowing n') s)
  ends_iff : (∃ n, (m (rules.allowing n) s).result ≠ .error .endlessDeliveries) ↔
    ∃ k, ∀ n, ((m (rules.allowing n) s).sights.filter (·.event.isDelivery)).length ≤ k
  ends_of_conclusive : rules.behaviour.Conclusive →
    ∃ n, (m (rules.allowing n) s).result ≠ .error .endlessDeliveries

namespace Rules

variable {rules : Rules S} {m : Rules S → Run S α} {s : State S}

/-- Nothing but the room for deliveries can be too small. -/
theorem terminationLaw
    (huniform : ∀ {P : ∀ {α : Type}, (Nat → Run S α) → Prop}, Uniform P →
      (∀ depth d, P fun n => rules.deliver depth n d) → P fun n => m (rules.allowing n))
    (hworks : ∀ n, Works n s (m (rules.allowing n))) : TerminationLaw rules m s := by
  have hextends {n n' : Nat} (hle : n ≤ n') :
      (m (rules.allowing n) s).ExtendsTo (m (rules.allowing n') s) :=
    Steady.extendsTo (fun n => huniform (steady_uniform n) fun depth d =>
      steady_deliver rules depth n d) s hle
  refine ⟨hextends, ⟨?_, ?_⟩, fun hb => ?_⟩
  · rintro ⟨n, hends⟩
    refine ⟨((m (rules.allowing n) s).sights.filter (·.event.isDelivery)).length, fun n' => ?_⟩
    rcases Nat.le_total n' n with hle | hle
    · exact ((hextends hle).sights.filter _).length_le
    · have hsame := (hextends hle).same hends
      exact Nat.le_of_eq (by rw [hsame])
  · rintro ⟨k, hk⟩
    -- With room for one more than there are to see, there is no lack of room.
    refine ⟨k + 1, fun hcut => ?_⟩
    have hbound : k + 1 ≤ _ := (hworks (k + 1)).founded _ hcut
    exact absurd (hk (k + 1)) (Nat.not_le.2 hbound)
  · have hends : ∀ s, Ends (fun _ => True) (fun n => m (rules.allowing n)) s :=
      huniform ends_uniform fun depth d => ends_deliveries hb depth d
    exact (hends s).result_ne

theorem allowing_callParts (rules : Rules S) (n : Nat) :
    CallParts (rules.allowing n) fun m => ∀ s, Works n s m :=
  works_callParts (Nat.le_refl n)

theorem dispatch_terminationLaw (rules : Rules S) (actor : CharacterId) (line : String)
    (s : State S) : TerminationLaw rules (·.dispatch actor line) s :=
  terminationLaw (fun h hd => uniform_dispatch h hd actor line) fun n =>
    (allowing_callParts rules n).dispatch actor line s

theorem withContext_terminationLaw (rules : Rules S) (p : Program S α) (s : State S) :
    TerminationLaw rules (·.withContext p) s :=
  terminationLaw (fun h hd => uniform_withContext h hd p) fun n =>
    (allowing_callParts rules n).withContext p s

theorem tick_terminationLaw (rules : Rules S) (delta : Duration) (s : State S) :
    TerminationLaw rules (·.tick delta) s :=
  terminationLaw (fun h hd => uniform_tick h hd delta) fun n =>
    (allowing_callParts rules n).tick delta s

end Rules

/-! What goes on for ever. -/

/-- Starts a conversation with the guest below this one, and ends it at once. -/
def bounce (id : ConversationId) : Program plainSetting Unit := do
  match ← Program.startChild id [⟨3⟩] () with
  | .ok child => discard <| Program.finish child .nil
  | .error _ => pure ()

/-- Conversations that do so at every turn they have. -/
def bouncing : Rules plainSetting :=
  { chatter with
    behaviour :=
      { onInput := fun talk id _ _ => do
          bounce id
          pure (.handled, talk)
        onReturn := fun talk id _ => do
          bounce id
          pure talk
        onTick := fun talk id => do
          bounce id
          pure talk
        onEnd := fun _ _ => pure () } }

/-- The first conversation is with the guest, and has no child just now. -/
structure Hosts (talk : Option plainSetting.Talk) (waiting : Queue Value)
    (s : State plainSetting) : Prop where
  there : s.forest.get? ⟨1⟩ = some ⟨[⟨3⟩], none, none, talk, none, waiting⟩
  drawn : 1 ≤ s.forest.lastIndex
  held : (s.world.character? ⟨3⟩).bind (·.conversation) = some ⟨1⟩

namespace Hosts

variable {talk : Option plainSetting.Talk} {waiting : Queue Value} {s : State plainSetting}

theorem setTalk (h : Hosts talk waiting s) (talk' : Option plainSetting.Talk) :
    Hosts talk' waiting (s.setTalk ⟨1⟩ talk') := by
  refine ⟨?_, h.drawn, h.held⟩
  rw [State.setTalk]
  dsimp only
  rw [Forest.get?_modify, if_pos rfl, h.there]
  rfl

theorem handBack (h : Hosts talk waiting s) (data : Value) :
    Hosts talk (waiting.push data) (s.handBack ⟨1⟩ data) := by
  refine ⟨?_, h.drawn, h.held⟩
  rw [State.handBack]
  dsimp only
  rw [Forest.get?_modify, if_pos rfl, h.there]
  rfl

theorem takeHandedBack (h : Hosts talk waiting s) (hwaiting : waiting.toList ≠ []) :
    ∃ data rest forest, s.forest.takeHandedBack ⟨1⟩ = some (data, forest) ∧
      Hosts talk rest { s with forest } := by
  cases hpop : waiting.pop? with
  | none => exact absurd (Queue.pop?_eq_none_iff.1 hpop) hwaiting
  | some taken =>
    obtain ⟨data, rest⟩ := taken
    refine ⟨data, rest, s.forest.modify ⟨1⟩ fun c => { c with handedBack := rest }, ?_, ?_⟩
    · rw [Forest.takeHandedBack, h.there]
      simp [hpop]
    · refine ⟨?_, h.drawn, h.held⟩
      dsimp only
      rw [Forest.get?_modify, if_pos rfl, h.there]
      rfl

/-- A child that has started is there, and when it ends everything is as before. -/
theorem startChild (h : Hosts talk waiting s) :
    ∃ child c t, s.startChild ⟨1⟩ [⟨3⟩] () = (.ok child, t) ∧ t.forest.get? child = some c ∧
      c.parent = some ⟨1⟩ ∧ Hosts talk waiting (t.closeAll child) := by
  let c : Conversation Unit Unit := ⟨[⟨3⟩], some ⟨1⟩, none, some (), none, .empty⟩
  let t : State plainSetting := (s.addConversation c).2
  obtain ⟨guest, hguest, hconversation⟩ := Option.bind_eq_some_iff.1 h.held
  have hcheck : s.checkJoinable (s.forest.lineage ⟨1⟩) (s.forest.child? ⟨1⟩) [⟨3⟩] = .ok () := by
    rw [Forest.lineage_of_top h.there rfl, Forest.child?_of_get? h.there]
    simp [State.checkJoinable, hguest, hconversation, Option.filter]
  have hstart : s.startChild ⟨1⟩ [⟨3⟩] () = (.ok (s.forest.insert c).1, t) := by
    unfold State.startChild
    rw [Forest.contains_of_get? h.there, hcheck]
    rfl
  have hnew : (s.forest.insert c).1 ≠ ⟨1⟩ := by
    have hdrawn := h.drawn
    intro heq
    have hindex : s.forest.lastIndex + 1 = 1 := congrArg Id.index heq
    omega
  have hchild : t.forest.get? (s.forest.insert c).1 = some c :=
    (Forest.get?_insert s.forest c _).trans (if_pos rfl)
  have hhost : t.forest.get? ⟨1⟩ =
      some ⟨[⟨3⟩], none, some (s.forest.insert c).1, talk, none, waiting⟩ := by
    refine (Forest.get?_insert s.forest c ⟨1⟩).trans ?_
    rw [if_neg hnew, if_pos rfl, h.there]
    rfl
  have hheld : (t.world.character? ⟨3⟩).bind (·.conversation) = some ⟨1⟩ := by
    refine (State.conversation_add s c ⟨3⟩).trans ?_
    rw [if_pos List.mem_cons_self, hguest, Option.map_some, hconversation]
    rfl
  refine ⟨_, c, t, hstart, hchild, rfl, ?_⟩
  rw [State.closeAll_of_leaf (Forest.child?_of_get? hchild)]
  refine ⟨?_, ?_, ?_⟩
  · rw [State.close_eq hchild]
    refine (Forest.get?_remove hchild ⟨1⟩).trans ?_
    rw [if_neg hnew, if_pos rfl, hhost]
    simp
  · rw [State.close_eq hchild]
    refine Nat.le_trans h.drawn (Nat.le_trans (Nat.le_succ _) (Nat.le_of_eq ?_))
    exact ((Forest.lastIndex_remove _ _).trans (Forest.lastIndex_insert s.forest c)).symm
  · rw [State.conversation_close hchild, hheld, if_neg]
    rintro ⟨-, hsame⟩
    exact hnew (Option.some.inj hsame).symm

end Hosts

/-- The computation goes on until there is no more room for deliveries. -/
abbrev Run.Endless (m : Run S α) (s : State S) : Prop :=
  m.Secures (· = .endlessDeliveries) (fun _ _ => False) s

theorem Run.Endless.result {m : Run S α} {s : State S} (h : m.Endless s) :
    (m s).result = .error .endlessDeliveries := by
  cases hresult : (m s).result with
  | error fault => rw [h.faults fault hresult]
  | ok a => exact (h.ensures a hresult).elim

theorem Run.Endless.bind {m : Run S α} {f : α → Run S β} {s : State S} (h : m.Endless s) :
    (m >>= f).Endless s :=
  Run.secures_bind (h.mono fun _ _ => False.elim)

namespace Rules

variable {depth count : Nat} {waiting : Queue Value} {s : State plainSetting}

/-- What is left when the conversation has bounced: something waits for it. -/
def Bounced (talk : Option plainSetting.Talk) (s : State plainSetting) : Prop :=
  ∃ waiting : Queue Value, waiting.toList ≠ [] ∧ Hosts talk waiting s

/-- What its child hands back waits for the conversation, if there is room for the delivery. -/
theorem secures_deliver_busy (hs : Hosts none waiting s) (data : Value) :
    (bouncing.deliver depth count (.toParent ⟨1⟩ data)).Secures (· = .endlessDeliveries)
      (fun _ t => Bounced none t) s := by
  cases count with
  | zero => exact ⟨fun fault hfault => by cases hfault; rfl, nofun⟩
  | succ count =>
    have hbusy : s.forest.isBusy ⟨1⟩ = true := by
      rw [Forest.isBusy, hs.there]
      rfl
    refine Run.secures_get_bind ?_
    rw [if_pos hbusy]
    exact Run.secures_update ⟨_, by simp, hs.handBack data⟩

theorem secures_bounce (hs : Hosts none waiting s) :
    ((bounce ⟨1⟩).run (bouncing.reply depth (bouncing.deliver depth count))).Secures
      (· = .endlessDeliveries) (fun _ t => Bounced none t) s := by
  obtain ⟨child, c, t, hstart, hchild, hparent, ht⟩ := hs.startChild
  refine Program.secures_run_bind (Program.secures_request (Run.secures_get_bind ?_))
  rw [hstart]
  refine Run.secures_bind (Run.secures_set (Run.secures_pure ?_))
  refine Program.secures_run_bind (Program.secures_request (Run.secures_get_bind ?_))
  rw [hchild]
  refine Run.secures_gets_bind (Run.secures_bind (Run.secures_update (Run.secures_bind
    (Run.secures_note ?_))))
  dsimp only
  rw [hparent]
  refine Run.secures_bind ((secures_deliver_busy ht .nil).mono fun _ u hu => ?_)
  exact Run.secures_pure (Run.secures_pure hu)

theorem secures_callback {occasion : Occasion}
    {body : plainSetting.Talk → Program plainSetting (α × plainSetting.Talk)}
    (hs : Hosts (some ()) waiting s)
    (hbody : ∀ t, Hosts none waiting t →
      ((body ()).run (bouncing.reply depth (bouncing.deliver depth count))).Secures
        (· = .endlessDeliveries) (fun _ u => Bounced none u) t) :
    (bouncing.callback depth (bouncing.deliver depth count) ⟨1⟩ occasion body).Secures
      (· = .endlessDeliveries) (fun result t => result.isSome ∧ Bounced (some ()) t) s := by
  refine Run.secures_get_bind ?_
  rw [hs.there]
  refine Run.secures_bind (Run.secures_update (Run.secures_bind (Run.secures_note
    (Run.secures_bind ((hbody _ (hs.setTalk none)).mono ?_)))))
  rintro ⟨result, talk⟩ t ⟨waiting', hwaiting', ht⟩
  refine Run.secures_bind (Run.secures_update (Run.secures_bind (Run.secures_note ?_)))
  exact Run.secures_pure ⟨rfl, waiting', hwaiting', ht.setTalk (some ())⟩

theorem endless_handOn {deliver : Delivery plainSetting → Run plainSetting Unit}
    (hdeliver : ∀ waiting t data, Hosts (some ()) waiting t →
      (deliver (.toParent ⟨1⟩ data)).Endless t) (hs : Bounced (some ()) s) :
    (handOn deliver ⟨1⟩).Endless s := by
  obtain ⟨waiting, hwaiting, hhosts⟩ := hs
  obtain ⟨data, rest, forest, htake, hrest⟩ := hhosts.takeHandedBack hwaiting
  refine Run.secures_get_bind ?_
  rw [htake]
  exact Run.secures_bind (Run.secures_update (hdeliver rest _ data hrest))

/-- However much room there is, each delivery brings about another. -/
theorem endless_deliver (count : Nat) {waiting : Queue Value} {s : State plainSetting}
    (hs : Hosts (some ()) waiting s) (data : Value) :
    (bouncing.deliver depth count (.toParent ⟨1⟩ data)).Endless s := by
  induction count generalizing waiting s data with
  | zero => exact ⟨fun fault hfault => by cases hfault; rfl, nofun⟩
  | succ count ih =>
    have hready : s.forest.isBusy ⟨1⟩ = false := by
      rw [Forest.isBusy, hs.there]
      rfl
    refine Run.secures_get_bind ?_
    rw [hready, if_neg Bool.false_ne_true]
    -- The conversation bounces, and what then waits for it is handed on with room for one less.
    refine Run.secures_bind ((secures_callback hs fun t ht => ?_).mono fun _ t ht => ?_)
    · refine Program.secures_run_bind (Program.secures_run_bind ((secures_bounce ht).mono ?_))
      exact fun _ u hu => Run.secures_pure (Run.secures_pure hu)
    · exact endless_handOn (fun waiting t data ht => ih ht data) ht.2

theorem endless_withTalk (n depth : Nat) {occasion : Occasion}
    {body : plainSetting.Talk → Program plainSetting (α × plainSetting.Talk)}
    (hs : Hosts (some ()) waiting s)
    (hbody : ∀ t, Hosts none waiting t →
      ((body ()).run (bouncing.reply depth (bouncing.deliver depth n))).Secures
        (· = .endlessDeliveries) (fun _ u => Bounced none u) t) :
    ((bouncing.allowing n).withTalk depth ⟨1⟩ occasion body).Endless s := by
  rw [withTalk_allowing]
  refine Run.secures_bind ((secures_callback hs hbody).mono ?_)
  rintro result t ⟨hresult, ht⟩
  rw [if_pos hresult]
  exact (endless_handOn (fun _ _ data ht => endless_deliver n ht data) ht).bind

/-- A line that the conversation is offered is never done with. -/
theorem endless_dispatch (n : Nat) (hs : Hosts (some ()) waiting s) {line : String}
    (hline : (Command.ofLine line).isBlank = false) :
    ((bouncing.allowing n).dispatch ⟨3⟩ line).Endless s := by
  obtain ⟨guest, hguest, hconversation⟩ := Option.bind_eq_some_iff.1 hs.held
  have hactive : activeConversation s.world s.forest ⟨3⟩ = some ⟨1⟩ := by
    have hbelow := Forest.descendants_of_leaf (Forest.child?_of_get? hs.there)
    simp [activeConversation, hguest, hconversation, Forest.contains_of_get? hs.there,
      Forest.innermostFor, hbelow]
  have hoffer (command : Command) : ((bouncing.allowing n).offer 0 ⟨1⟩ ⟨3⟩ command).Endless s := by
    refine Run.Endless.bind (endless_withTalk n 0 hs fun t ht => ?_)
    exact Program.secures_run_bind ((secures_bounce ht).mono fun _ u hu => Run.secures_pure hu)
  -- The conversation is asked before anybody else.
  refine Run.Endless.bind (Run.secures_bind (Run.secures_reach (Run.Endless.bind ?_)))
  rw [respond, hline]
  refine Run.Endless.bind (Run.Endless.bind (Run.secures_get_bind ?_))
  rw [hactive]
  exact Run.secures_bind (Run.secures_reach (hoffer _).bind)

/-- Nor is a tick in which nothing comes due before it is the conversation's turn. -/
theorem endless_tick (n : Nat) (hs : Hosts (some ()) waiting s) {delta now : Duration}
    (hnow : s.world.now.add? delta = some now) (hids : s.forest.ids = [⟨1⟩])
    (hsize : s.forest.scheduler.size = 0) : ((bouncing.allowing n).tick delta).Endless s := by
  have hadvance : s.world.advance delta = some { s.world with now } := by
    rw [World.advance, hnow, Option.map_some]
  let t : State plainSetting := { s with world := { s.world with now } }
  have ht : Hosts (some ()) waiting t := ⟨hs.there, hs.drawn, hs.held⟩
  have hturn : ((bouncing.allowing n).tickConversation ⟨1⟩).Endless t := by
    refine Run.secures_bind (Run.secures_reach (Run.Endless.bind ?_))
    refine endless_withTalk n 0 ht fun u hu => ?_
    refine Program.secures_run_bind (Program.secures_run_bind ((secures_bounce hu).mono ?_))
    exact fun _ v hv => Run.secures_pure (Run.secures_pure hv)
  -- The clock is advanced, nothing is fired, and the first turn is the last.
  refine Run.secures_bind (Run.secures_bind (Run.secures_reach (Run.secures_get_bind ?_)))
  rw [hadvance]
  refine Run.secures_update (Run.secures_gets_bind ?_)
  rw [hsize]
  refine Run.secures_bind (Run.secures_pure (Run.secures_gets_bind ?_))
  rw [hids]
  exact Run.Endless.bind (Run.Endless.bind hturn)

end Rules

end TextWorld

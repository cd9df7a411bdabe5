import TextWorld.Play.Village
import TextWorld.Proofs.Conversation.Due
import TextWorld.Proofs.Conversation.Regrouping
import TextWorld.Proofs.Engine.Tame

/-!
What goes on at the inn. Either nobody talks with the innkeeper; or a customer does, who is given a
while for the next word; or the customer is asked a question. What the engine does to conversations
leads from one such scene to another.
-/

namespace TextWorld

namespace Village

/-- A scene at the inn. -/
inductive Scene where
  /-- Nobody is in a conversation. -/
  | quiet
  /-- A customer chats with the innkeeper, who turns away when the time of the slot has come. -/
  | chat (h : ConversationId) (customer : CharacterId) (slot : Option Slot)
  /-- The customer has been asked whether to buy. -/
  | asking (h question : ConversationId) (customer : CharacterId)

namespace Scene

/-- What a conversation remembers, unless its callback is running. -/
def kept (busy : Option ConversationId) (id : ConversationId) (talk : Talk) : Option setting.Talk :=
  if busy = some id then none else some talk

def chatting (keeper : CharacterId) (busy : Option ConversationId) (h : ConversationId)
    (customer : CharacterId) (child : Option ConversationId) :
    Conversation setting.Talk setting.Ending :=
  { participants := [customer, keeper], parent := none, child,
    talk := kept busy h (.haggle customer keeper), ending := some (.farewell customer),
    handedBack := .empty }

def questioning (busy : Option ConversationId) (h question : ConversationId)
    (customer : CharacterId) : Conversation setting.Talk setting.Ending :=
  { participants := [customer], parent := some h, child := none,
    talk := kept busy question .confirm, ending := none, handedBack := .empty }

/-- The conversations that are under way. -/
def conversation? (keeper : CharacterId) (busy : Option ConversationId) :
    Scene → ConversationId → Option (Conversation setting.Talk setting.Ending)
  | quiet, _ => none
  | chat h customer _, id => if h = id then some (chatting keeper busy h customer none) else none
  | asking h question customer, id =>
    if question = id then some (questioning busy h question customer)
    else if h = id then some (chatting keeper busy h customer (some question)) else none

def ids : Scene → List ConversationId
  | quiet => []
  | chat h _ _ => [h]
  | asking h question _ => [h, question]

/-- What the innkeeper makes the customer say when the time has come. -/
def parting (h : ConversationId) (customer : CharacterId) (due : Duration) : ScheduledLine :=
  ⟨h, customer, "bye", due⟩

def queued? : Scene → Slot → Option ScheduledLine
  | chat h customer (some slot), x => if slot = x then some (parting h customer slot.due) else none
  | _, _ => none

def slot? : Scene → ConversationId → Option Slot
  | chat h _ (some slot), id => if h = id then some slot else none
  | _, _ => none

/-- The conversation that a character is in. -/
def holder (keeper : CharacterId) : Scene → CharacterId → Option ConversationId
  | quiet, _ => none
  | chat h customer _, x | asking h _ customer, x =>
    if x = customer ∨ x = keeper then some h else none

/-- Nobody talks to itself, and no two conversations are the same. -/
def Apart (keeper : CharacterId) : Scene → Prop
  | quiet => True
  | chat _ customer _ => customer ≠ keeper
  | asking h question customer => customer ≠ keeper ∧ question ≠ h

/-- A state in which this scene is on. The talk of a conversation that is busy is missing. -/
structure Shows (keeper : CharacterId) (scene : Scene) (busy : Option ConversationId)
    (s : State setting) : Prop where
  conversation : ∀ id, s.forest.get? id = scene.conversation? keeper busy id
  queued : ∀ slot : Slot, s.forest.scheduler.queue[slot]? = scene.queued? slot
  slot : ∀ id : ConversationId, s.forest.scheduler.index[id]? = scene.slot? id
  drawn : ∀ id ∈ scene.ids, id.index ≤ s.forest.lastIndex
  numbered : ∀ slot, (scene.queued? slot).isSome → slot.sequence ≤ s.forest.scheduler.lastSequence
  company : ∀ x, (s.world.character? x).bind (·.conversation) = scene.holder keeper x
  apart : scene.Apart keeper

variable {keeper customer : CharacterId} {busy : Option ConversationId} {h q : ConversationId}
variable {scene : Scene} {s t : State setting} {slot : Option Slot}

theorem Shows.get_chat (hs : (chat h customer slot).Shows keeper busy s) :
    s.forest.get? h = some (chatting keeper busy h customer none) := by
  rw [hs.conversation, conversation?, if_pos rfl]

theorem Shows.get_asking (hs : (asking h q customer).Shows keeper busy s) :
    s.forest.get? h = some (chatting keeper busy h customer (some q)) := by
  rw [hs.conversation, conversation?, if_neg hs.apart.2, if_pos rfl]

theorem Shows.get_question (hs : (asking h q customer).Shows keeper busy s) :
    s.forest.get? q = some (questioning busy h q customer) := by
  rw [hs.conversation, conversation?, if_pos rfl]

/-- What is true of every conversation of a scene. -/
theorem of_conversation? {id : ConversationId} {c : Conversation setting.Talk setting.Ending}
    (hc : scene.conversation? keeper busy id = some c) :
    id ∈ scene.ids ∧ c.handedBack = .empty ∧
      ∀ x ∈ c.participants, (scene.holder keeper x).isSome := by
  cases scene with
  | quiet => cases hc
  | chat h customer slot =>
    rw [conversation?] at hc
    split at hc
    · rename_i hid
      cases hc
      refine ⟨List.mem_singleton.2 hid.symm, rfl, fun x hx => ?_⟩
      have hwho : x = customer ∨ x = keeper := by simpa [chatting] using hx
      rw [holder, if_pos hwho]
      rfl
    · cases hc
  | asking h q customer =>
    rw [conversation?] at hc
    split at hc
    · rename_i hid
      cases hc
      refine ⟨List.mem_cons_of_mem _ (List.mem_singleton.2 hid.symm), rfl, fun x hx => ?_⟩
      have hwho : x = customer := by simpa [questioning] using hx
      rw [holder, if_pos (.inl hwho)]
      rfl
    · split at hc
      · rename_i hid
        cases hc
        refine ⟨List.mem_cons.2 (.inl hid.symm), rfl, fun x hx => ?_⟩
        have hwho : x = customer ∨ x = keeper := by simpa [chatting] using hx
        rw [holder, if_pos hwho]
        rfl
      · cases hc

/-- What leaves the conversations alone leaves the scene alone. -/
theorem Shows.congr (hs : scene.Shows keeper busy s) (hforest : t.forest = s.forest)
    (hcompany : ∀ x, (t.world.character? x).bind (·.conversation) =
      (s.world.character? x).bind (·.conversation)) : scene.Shows keeper busy t where
  conversation := by rw [hforest]; exact hs.conversation
  queued := by rw [hforest]; exact hs.queued
  slot := by rw [hforest]; exact hs.slot
  drawn := by rw [hforest]; exact hs.drawn
  numbered := by rw [hforest]; exact hs.numbered
  company x := (hcompany x).trans (hs.company x)
  apart := hs.apart

theorem Shows.tamely {actor : CharacterId} (hs : scene.Shows keeper busy s)
    (ht : s.Tamely actor t) : scene.Shows keeper busy t := by
  refine hs.congr ht.forest fun x => ?_
  have halike := ht.errands.undisturbed.alike x
  have hconv := congrArg (Option.bind · Character.conversation) halike
  simp only [Option.bind_map] at hconv
  exact hconv

/-- The talk of a conversation is taken out for one of its callbacks. -/
theorem Shows.take (hs : scene.Shows keeper none s) (id : ConversationId) :
    scene.Shows keeper (some id) (s.setTalk id none) := by
  refine ⟨fun x => ?_, hs.queued, hs.slot, hs.drawn, hs.numbered, hs.company, hs.apart⟩
  have hget : (s.setTalk id none).forest.get? x = _ := Forest.get?_modify s.forest id x _
  rw [hget, hs.conversation]
  cases scene with
  | quiet => simp [conversation?]
  | chat h customer slot =>
    by_cases hx : h = x
    · subst hx
      by_cases hid : id = h <;> simp [conversation?, chatting, kept, hid]
    · simp [conversation?, hx]
  | asking h q customer =>
    by_cases hq : q = x
    · subst hq
      by_cases hid : id = q <;> simp [conversation?, questioning, kept, hid]
    · by_cases hx : h = x
      · subst hx
        by_cases hid : id = h <;> simp [conversation?, chatting, kept, hid, hq]
      · simp [conversation?, hx, hq]

/-- What the conversations of a scene remember. -/
def talk? (keeper : CharacterId) : Scene → ConversationId → Option Talk
  | quiet, _ => none
  | chat h customer _, id => if h = id then some (.haggle customer keeper) else none
  | asking h question customer, id =>
    if question = id then some .confirm
    else if h = id then some (.haggle customer keeper) else none

theorem talk?_chat : (chat h customer slot).talk? keeper h = some (.haggle customer keeper) :=
  if_pos rfl

theorem talk?_asking (hqh : q ≠ h) :
    (asking h q customer).talk? keeper h = some (.haggle customer keeper) := by
  rw [talk?, if_neg hqh, if_pos rfl]

theorem talk?_question : (asking h q customer).talk? keeper q = some .confirm := if_pos rfl

theorem eq_of_talk? {id : ConversationId} {talk left : Talk}
    (htalk : scene.talk? keeper id = some talk) (hleft : scene.talk? keeper id = some left) :
    left = talk :=
  Option.some.inj (hleft.symm.trans htalk)

theorem Shows.talk (hs : scene.Shows keeper none s) (id : ConversationId) :
    (s.forest.get? id).bind (·.talk) = scene.talk? keeper id := by
  rw [hs.conversation]
  cases scene with
  | quiet => rfl
  | chat h customer slot =>
    rw [conversation?, talk?]
    split <;> rfl
  | asking h q customer =>
    rw [conversation?, talk?]
    split
    · rfl
    · split <;> rfl

/-- The talk is put back, unless the conversation is gone. -/
theorem Shows.put {id : ConversationId} (hs : scene.Shows keeper (some id) s) {talk : Talk}
    (htalk : ∀ t, scene.talk? keeper id = some t → t = talk) :
    scene.Shows keeper none (s.setTalk id (some talk)) := by
  refine ⟨fun x => ?_, hs.queued, hs.slot, hs.drawn, hs.numbered, hs.company, hs.apart⟩
  have hget : (s.setTalk id (some talk)).forest.get? x = _ := Forest.get?_modify s.forest id x _
  rw [hget, hs.conversation]
  cases scene with
  | quiet => simp [conversation?]
  | chat h customer slot =>
    by_cases hx : h = x
    · subst hx
      by_cases hid : id = h
      · subst hid
        simp [conversation?, chatting, kept, ← htalk _ (if_pos rfl)]
      · simp [conversation?, chatting, kept, hid]
    · simp [conversation?, hx]
  | asking h q customer =>
    by_cases hq : q = x
    · subst hq
      by_cases hid : id = q
      · subst hid
        simp [conversation?, questioning, kept, ← htalk _ (if_pos rfl)]
      · simp [conversation?, questioning, kept, hid]
    · by_cases hx : h = x
      · subst hx
        by_cases hid : id = h
        · subst hid
          have ht := htalk (.haggle customer keeper) (by rw [talk?, if_neg hq, if_pos rfl])
          simp [conversation?, chatting, kept, hq, ← ht]
        · simp [conversation?, chatting, kept, hid, hq]
      · simp [conversation?, hx, hq]

/-- It makes no difference whether a conversation that is gone is busy. -/
theorem Shows.gone_iff {id : ConversationId} (hid : id ∉ scene.ids) :
    scene.Shows keeper (some id) s ↔ scene.Shows keeper none s := by
  have hsame (x : ConversationId) :
      scene.conversation? keeper (some id) x = scene.conversation? keeper none x := by
    cases scene with
    | quiet => rfl
    | chat h customer slot =>
      have hne : id ≠ h := by simpa [ids] using hid
      simp [conversation?, chatting, kept, hne]
    | asking h q customer =>
      have hne : id ≠ h ∧ id ≠ q := by simpa [ids] using hid
      simp [conversation?, chatting, questioning, kept, hne.1, hne.2]
  constructor
  all_goals
    intro hs
    refine ⟨fun x => ?_, hs.queued, hs.slot, hs.drawn, hs.numbered, hs.company, hs.apart⟩
    rw [hs.conversation, hsame]

/-! What the engine does to conversations, as the innkeeper has it done. -/

/-- Talking to the innkeeper starts a conversation if nobody else is in one. -/
theorem Shows.start (hs : scene.Shows keeper none s) (hne : customer ≠ keeper) :
    (∃ e, s.start [customer, keeper] (.haggle customer keeper) (some (.farewell customer)) =
        (.error e, s)) ∨
      ∃ h t, scene = quiet ∧
        s.start [customer, keeper] (.haggle customer keeper) (some (.farewell customer)) =
          (.ok h, t) ∧ (chat h customer none).Shows keeper none t := by
  unfold State.start
  rw [if_neg (List.cons_ne_nil _ _)]
  cases hcheck : s.checkFree [customer, keeper] with
  | error e => exact .inl ⟨e, rfl⟩
  | ok _ =>
    right
    have hfree := State.of_checkFree hcheck
    obtain ⟨maren, hmaren, hnone⟩ := hfree keeper (by simp)
    -- In any other scene the innkeeper is in a conversation.
    obtain rfl : scene = quiet := by
      have hkeeper := hs.company keeper
      rw [hmaren, Option.bind_some, hnone] at hkeeper
      cases scene with
      | quiet => rfl
      | chat => simp [holder] at hkeeper
      | asking => simp [holder] at hkeeper
    let c : Conversation setting.Talk setting.Ending :=
      { participants := [customer, keeper], parent := none, child := none,
        talk := some (.haggle customer keeper), ending := some (.farewell customer),
        handedBack := .empty }
    refine ⟨(s.forest.insert c).1, (s.addConversation c).2, rfl, rfl, ?_⟩
    have hforest : (s.addConversation c).2.forest = (s.forest.insert c).2 := rfl
    refine ⟨fun x => ?_, fun slot => ?_, fun x => ?_, ?_, ?_, fun x => ?_, hne⟩
    · rw [hforest, Forest.get?_insert, hs.conversation]
      simp [conversation?, chatting, kept, c]
    · rw [hforest, Forest.scheduler_insert, hs.queued]
      rfl
    · rw [hforest, Forest.scheduler_insert, hs.slot]
      rfl
    · intro id hid
      rw [hforest, Forest.lastIndex_insert, List.mem_singleton.1 hid]
      exact Nat.le_refl _
    · rintro slot ⟨⟩
    · rw [State.conversation_add (s := s), holder, hs.company]
      by_cases hx : x ∈ c.participants
      · obtain ⟨d, hd, hnone⟩ := hfree x hx
        have hx' : x = customer ∨ x = keeper := by simpa [c] using hx
        rw [if_pos hx, if_pos hx', hd, Option.map_some, hnone]
        rfl
      · have hx' : ¬(x = customer ∨ x = keeper) := by simpa [c] using hx
        rw [if_neg hx, if_neg hx']
        rfl

/-- The innkeeper stops waiting. -/
theorem Shows.cancel (hs : (chat h customer slot).Shows keeper busy s) :
    (chat h customer none).Shows keeper busy
      { s with forest.scheduler := s.forest.scheduler.cancel h } := by
  refine ⟨hs.conversation, fun other => ?_, fun x => ?_, hs.drawn, by rintro _ ⟨⟩, hs.company,
    hs.apart⟩
  · have hindex := hs.slot h
    cases slot with
    | none =>
      rw [Scheduler.cancel_none hindex]
      exact hs.queued other
    | some slot =>
      rw [slot?, if_pos rfl] at hindex
      dsimp only
      rw [Scheduler.cancel_some hindex, Table.getElem?_erase, hs.queued]
      simp [queued?]
  · have hindex := hs.slot h
    cases slot with
    | none =>
      rw [Scheduler.cancel_none hindex]
      exact hs.slot x
    | some slot =>
      rw [slot?, if_pos rfl] at hindex
      dsimp only
      rw [Scheduler.cancel_some hindex, Table.getElem?_erase, hs.slot]
      simp [slot?]

/-- The customer is given until the end of some delay. -/
theorem Shows.schedule (hs : (chat h customer slot).Shows keeper busy s) {delay : Duration}
    {reply : Except Error Unit × State setting}
    (hreply : s.schedule h customer "bye" delay = some reply) :
    ∃ due sequence, s.world.now.add? delay = some due ∧ reply.2.world = s.world ∧
      reply.2.followUps = s.followUps ∧
        (chat h customer (some ⟨due, sequence⟩)).Shows keeper busy reply.2 := by
  have hthere := Forest.contains_of_get? hs.get_chat
  unfold State.schedule at hreply
  rw [hthere] at hreply
  obtain ⟨due, hdue, rfl⟩ := Option.map_eq_some_iff.1 hreply
  refine ⟨due, s.forest.scheduler.lastSequence + 1, hdue, rfl, rfl, ?_⟩
  -- Nothing is queued once the slot of the conversation is taken back.
  have hcancel := hs.cancel
  have hlast := Scheduler.lastSequence_cancel s.forest.scheduler h
  refine ⟨hs.conversation, fun other => ?_, fun x => ?_, hs.drawn, fun other hother => ?_,
    hs.company, hs.apart⟩
  · have hqueued := hcancel.queued other
    dsimp only [Scheduler.schedule] at hqueued ⊢
    rw [hlast, Table.getElem?_insert, hqueued]
    rfl
  · have hslot := hcancel.slot x
    dsimp only [Scheduler.schedule] at hslot ⊢
    rw [hlast, Table.getElem?_insert, hslot]
    rfl
  · dsimp only [Scheduler.schedule]
    rw [hlast]
    have hslot : (⟨due, s.forest.scheduler.lastSequence + 1⟩ : Slot) = other := by
      simpa [queued?] using hother
    exact Nat.le_of_eq (congrArg Slot.sequence hslot).symm

/-- When the time has come the customer is made to take leave. -/
theorem Shows.fire (hs : scene.Shows keeper busy s) {through : Nat} {line : ScheduledLine}
    {scheduler : Scheduler}
    (hpop : s.forest.scheduler.popNext s.world.now through = some (line, scheduler)) :
    ∃ h customer slot, scene = chat h customer (some slot) ∧ slot.due ≤ s.world.now ∧
      line = parting h customer slot.due ∧
        (chat h customer none).Shows keeper busy { s with forest.scheduler := scheduler } := by
  obtain ⟨taken, htakes⟩ := Scheduler.takes_of_popNext hpop
  have hqueued := htakes.queued
  rw [hs.queued] at hqueued
  match scene with
  | quiet | chat _ _ none | asking .. => cases hqueued
  | chat h customer (some slot) =>
    obtain ⟨rfl, rfl⟩ : slot = taken ∧ parting h customer slot.due = line := by
      simpa [queued?] using hqueued
    refine ⟨h, customer, slot, rfl, htakes.due, rfl, ?_⟩
    refine ⟨hs.conversation, fun other => ?_, fun x => ?_, hs.drawn, by rintro _ ⟨⟩, hs.company,
      hs.apart⟩
    · have hleft := congrArg Scheduler.queue htakes.left
      dsimp only at hleft ⊢
      rw [hleft, Table.getElem?_erase, hs.queued]
      simp [queued?]
    · have hleft := congrArg Scheduler.index htakes.left
      dsimp only at hleft ⊢
      rw [hleft, Table.getElem?_erase, hs.slot]
      by_cases hx : h = x <;> simp [slot?, parting, hx]

/-- Nothing that is due stays in the queue when nothing is taken. -/
theorem Shows.not_due (hs : (chat h customer slot).Shows keeper busy s)
    (hpop : s.forest.scheduler.popNext s.world.now s.forest.scheduler.lastSequence = none) :
    ∀ pending ∈ slot, s.world.now < pending.due := by
  rintro pending hslot
  obtain rfl : slot = some pending := hslot
  have hqueued := hs.queued pending
  rw [queued?, if_pos rfl] at hqueued
  have hold := hs.numbered pending (by simp [queued?])
  have hlate := Scheduler.not_due_of_popNext hpop hqueued hold
  exact Nat.lt_of_not_le hlate

/-- The customer is asked a question, which nobody can get ahead of. -/
theorem Shows.startChild (hs : (chat h customer none).Shows keeper (some h) s) :
    ∃ question t, s.startChild h [customer] .confirm = (.ok question, t) ∧
      (asking h question customer).Shows keeper (some h) t := by
  have hget := hs.get_chat
  have hthere := Forest.contains_of_get? hget
  have hleaf : s.forest.child? h = none := Forest.child?_of_get? hget
  obtain ⟨d, hd, hconversation⟩ : ∃ d, s.world.character? customer = some d ∧
      d.conversation = some h := by
    have hcompany := hs.company customer
    rw [holder, if_pos (.inl rfl)] at hcompany
    exact Option.bind_eq_some_iff.1 hcompany
  have hcheck : s.checkJoinable (s.forest.lineage h) (s.forest.child? h) [customer] = .ok () := by
    have hown : (d.conversation.filter fun active => !([h] : List _).contains active) = none := by
      simp [hconversation]
    rw [hleaf, Forest.lineage_of_top hget rfl, State.checkJoinable, hd]
    dsimp only
    rw [hown]
    rfl
  let c : Conversation setting.Talk setting.Ending :=
    { participants := [customer], parent := some h, child := none, talk := some .confirm,
      ending := none, handedBack := .empty }
  have hstart : s.startChild h [customer] .confirm =
      (.ok (s.forest.insert c).1, (s.addConversation c).2) := by
    unfold State.startChild
    rw [hthere, if_neg (by simp), if_neg (List.cons_ne_nil _ _), hcheck]
    rfl
  refine ⟨_, _, hstart, ?_⟩
  have hforest : (s.addConversation c).2.forest = (s.forest.insert c).2 := rfl
  -- The number of the question has not been drawn before.
  have hnew : (s.forest.insert c).1 ≠ h := by
    intro heq
    have hdrawn := hs.drawn h List.mem_cons_self
    have hindex : (s.forest.insert c).1.index = s.forest.lastIndex + 1 := rfl
    rw [heq] at hindex
    omega
  refine ⟨fun x => ?_, fun slot => ?_, fun x => ?_, ?_, by rintro _ ⟨⟩, fun x => ?_,
    hs.apart, hnew⟩
  · rw [hforest, Forest.get?_insert, hs.conversation]
    generalize (s.forest.insert c).1 = q at hnew
    by_cases hx : q = x
    · subst hx
      simp [conversation?, questioning, kept, c, Ne.symm hnew]
    · by_cases hh : h = x
      · subst hh
        simp [conversation?, chatting, hx, c]
      · simp [conversation?, hx, hh, c]
  · rw [hforest, Forest.scheduler_insert, hs.queued]
    rfl
  · rw [hforest, Forest.scheduler_insert, hs.slot]
    rfl
  · intro id hid
    rw [hforest, Forest.lastIndex_insert]
    rcases List.mem_cons.1 hid with rfl | hid
    · exact Nat.le_succ_of_le (hs.drawn id List.mem_cons_self)
    · rw [List.mem_singleton.1 hid]
      exact Nat.le_refl _
  · rw [State.conversation_add (s := s), hs.company]
    by_cases hx : x = customer
    · subst hx
      rw [if_pos List.mem_cons_self, hd, Option.map_some, hconversation]
      simp [holder]
    · have hx' : x ∉ c.participants := by simpa [c] using hx
      rw [if_neg hx']
      rfl

/-- When the question is done with, the customer is back in the chat. -/
theorem Shows.answer (hs : (asking h q customer).Shows keeper busy s) :
    (chat h customer none).Shows keeper busy (s.closeAll q) := by
  have hq := hs.get_question
  have hforest : (s.close q).forest = s.forest.remove q := by
    rw [State.close_eq hq]
    rfl
  have hscheduler : (s.close q).forest.scheduler = s.forest.scheduler := by
    rw [hforest, Forest.scheduler_remove hq, Scheduler.cancel_none (hs.slot q)]
  have hqh : q ≠ h := hs.apart.2
  rw [State.closeAll_of_leaf (Forest.child?_of_get? hq)]
  refine ⟨fun x => ?_, fun slot => ?_, fun x => ?_, fun id hid => ?_, by rintro _ ⟨⟩,
    fun x => ?_, hs.apart.1⟩
  · rw [hforest, Forest.get?_remove hq, hs.conversation]
    by_cases hx : q = x
    · subst hx
      simp [conversation?, Ne.symm hqh]
    · by_cases hh : h = x
      · subst hh
        simp [conversation?, questioning, chatting, hx]
      · simp [conversation?, questioning, hx, hh]
  · rw [hscheduler, hs.queued]
    rfl
  · rw [hscheduler, hs.slot]
    rfl
  · rw [hforest, Forest.lastIndex_remove]
    exact hs.drawn id (List.mem_cons.2 (.inl (List.mem_singleton.1 hid)))
  · -- The customer is in the chat, and was in it all the time.
    rw [State.conversation_close hq, hs.company, if_neg]
    · rfl
    · rintro ⟨-, hholder⟩
      rw [holder] at hholder
      split at hholder
      · exact hqh (Option.some.inj hholder).symm
      · cases hholder

/-- The innkeeper turns to others. -/
theorem Shows.leave (hs : (chat h customer slot).Shows keeper busy s) :
    quiet.Shows keeper busy (s.closeAll h) := by
  have hget := hs.get_chat
  have hforest : (s.close h).forest = s.forest.remove h := by
    rw [State.close_eq hget]
    rfl
  have hscheduler : (s.close h).forest.scheduler = s.forest.scheduler.cancel h := by
    rw [hforest, Forest.scheduler_remove hget]
  have hcancel := hs.cancel
  rw [State.closeAll_of_leaf (Forest.child?_of_get? hget)]
  refine ⟨fun x => ?_, fun slot => ?_, fun x => ?_, by rintro _ ⟨⟩, by rintro _ ⟨⟩,
    fun x => ?_, trivial⟩
  · rw [hforest, Forest.get?_remove hget, hs.conversation]
    by_cases hh : h = x <;> simp [conversation?, chatting, hh]
  · rw [hscheduler]
    exact hcancel.queued slot
  · rw [hscheduler]
    exact hcancel.slot x
  · rw [State.conversation_close hget, hs.company]
    by_cases hx : x = customer ∨ x = keeper <;> simp [holder, chatting, hx]

/-- The conversation that takes a character's lines. -/
def partner? (keeper : CharacterId) : Scene → CharacterId → Option ConversationId
  | quiet, _ => none
  | chat h customer _, x => if x = customer ∨ x = keeper then some h else none
  | asking h question customer, x =>
    if x = customer then some question else if x = keeper then some h else none

theorem Shows.activeConversation (hs : scene.Shows keeper busy s) (x : CharacterId) :
    TextWorld.activeConversation s.world s.forest x = scene.partner? keeper x := by
  have hactive : TextWorld.activeConversation s.world s.forest x =
      (scene.holder keeper x).bind fun outer =>
        if s.forest.contains outer then some (s.forest.innermostFor outer x) else none := by
    rw [← hs.company, Option.bind_assoc]
    rfl
  rw [hactive]
  cases scene with
  | quiet => rfl
  | chat h customer slot =>
    have hthere := Forest.contains_of_get? hs.get_chat
    have hleaf : s.forest.child? h = none := Forest.child?_of_get? hs.get_chat
    have hinner : s.forest.innermostFor h x = h := by
      rw [Forest.innermostFor, Forest.descendants_of_leaf hleaf]
      rfl
    rw [holder, partner?]
    split
    · rw [Option.bind_some, hthere, hinner]
      rfl
    · rfl
  | asking h q customer =>
    have hthere := Forest.contains_of_get? hs.get_asking
    have hbelow := Forest.descendants_of_child hs.get_asking rfl
      (Forest.child?_of_get? hs.get_question)
    have hlists : s.forest.lists q x = decide (x = customer) := by
      rw [Forest.lists, hs.get_question]
      simp [questioning]
    have hinner : s.forest.innermostFor h x = if x = customer then q else h := by
      rw [Forest.innermostFor, hbelow, List.filter_cons, hlists, List.filter_nil]
      by_cases hx : x = customer <;> simp [hx]
    rw [holder, partner?]
    by_cases hx : x = customer
    · rw [if_pos (.inl hx), if_pos hx, Option.bind_some, hthere, hinner, if_pos hx]
      rfl
    · by_cases hk : x = keeper
      · rw [if_pos (.inr hk), if_neg hx, if_pos hk, Option.bind_some, hthere, hinner, if_neg hx]
        rfl
      · rw [if_neg (by simp [hx, hk]), if_neg hx, if_neg hk]
        rfl

/-- Nothing waits to be handed to a conversation. -/
theorem Shows.takeHandedBack (hs : scene.Shows keeper busy s) (id : ConversationId) :
    s.forest.takeHandedBack id = none := by
  cases htake : s.forest.takeHandedBack id with
  | none => rfl
  | some taken =>
    obtain ⟨c, rest, hc, hwaiting, -⟩ := Forest.takeHandedBack_eq htake
    rw [hs.conversation] at hc
    have hnothing : c.handedBack = .empty := (of_conversation? hc).2.1
    rw [hnothing] at hwaiting
    cases hwaiting

end Scene

end Village

end TextWorld

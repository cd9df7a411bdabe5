import TextWorld.Engine.Run

/-!
Conversations at work. A conversation's talk is taken out of the forest while one of its callbacks
runs, so its callbacks never nest; what children hand back meanwhile waits until the talk is back.
-/

namespace TextWorld

namespace State

variable {S : Setting}

/-- Makes characters that no conversation holds participants of this one. -/
def hold (s : State S) (id : ConversationId) (participants : List CharacterId) : State S :=
  { s with
    world.characters := participants.foldl
      (fun cs p => cs.modify p fun c =>
        { c with conversation := if c.conversation.isNone then some id else c.conversation })
      s.world.characters }

def release (s : State S) (id : ConversationId) (participants : List CharacterId) : State S :=
  { s with
    world.characters := participants.foldl
      (fun cs p => cs.modify p fun c =>
        { c with conversation := if c.conversation = some id then none else c.conversation })
      s.world.characters }

def checkFree (s : State S) : List CharacterId → Except Error Unit
  | [] => .ok ()
  | p :: ps =>
    match s.world.character? p with
    | none => .error (.characterNotFound p)
    | some c =>
      match c.conversation with
      | some active => .error (.conversationBusy p active)
      | none => s.checkFree ps

/-- Checks that all participants are there and held by none but the given conversations, and that
there is no child yet. -/
def checkJoinable (s : State S) (lineage : List ConversationId) (child : Option ConversationId) :
    List CharacterId → Except Error Unit
  | [] => .ok ()
  | p :: ps =>
    match s.world.character? p with
    | none => .error (.characterNotFound p)
    | some c =>
      match child, c.conversation.filter fun active => !lineage.contains active with
      | some child, _ => .error (.conversationBusy p child)
      | none, some active => .error (.conversationBusy p active)
      | none, none => s.checkJoinable lineage none ps

/-- Adds a conversation, which holds its participants from then on. -/
def addConversation (s : State S) (c : Conversation S.Talk S.Ending) : ConversationId × State S :=
  let (id, forest) := s.forest.insert c
  (id, { s with forest }.hold id c.participants)

def start (s : State S) (participants : List CharacterId) (talk : S.Talk)
    (ending : Option S.Ending) : Except Error ConversationId × State S :=
  if participants = [] then (.error .noParticipants, s)
  else
    match s.checkFree participants with
    | .error e => (.error e, s)
    | .ok () =>
      let (id, s) := s.addConversation
        { participants, parent := none, child := none, talk := some talk, ending,
          handedBack := .empty }
      (.ok id, s)

def startChild (s : State S) (parent : ConversationId) (participants : List CharacterId)
    (talk : S.Talk) : Except Error ConversationId × State S :=
  if !s.forest.contains parent then (.error (.conversationNotFound parent), s)
  else if participants = [] then (.error .noParticipants, s)
  else
    match s.checkJoinable (s.forest.lineage parent) (s.forest.child? parent) participants with
    | .error e => (.error e, s)
    | .ok () =>
      let (id, s) := s.addConversation
        { participants, parent := some parent, child := none, talk := some talk, ending := none,
          handedBack := .empty }
      (.ok id, s)

/-- Nothing happens if the conversation cannot be started. -/
theorem start_cases (s : State S) (participants : List CharacterId) (talk : S.Talk)
    (ending : Option S.Ending) :
    (s.start participants talk ending).2 = s ∨
      ∃ c, (s.start participants talk ending).2 = (s.addConversation c).2 := by
  rw [start]
  split
  · exact .inl rfl
  · split
    · exact .inl rfl
    · exact .inr ⟨_, rfl⟩

theorem startChild_cases (s : State S) (parent : ConversationId) (participants : List CharacterId)
    (talk : S.Talk) :
    (s.startChild parent participants talk).2 = s ∨
      ∃ c, (s.startChild parent participants talk).2 = (s.addConversation c).2 := by
  rw [startChild]
  split
  · exact .inl rfl
  · split
    · exact .inl rfl
    · split
      · exact .inl rfl
      · exact .inr ⟨_, rfl⟩

def close (s : State S) (id : ConversationId) : State S :=
  match s.forest.get? id with
  | none => s
  | some c => { s with forest := s.forest.remove id }.release id c.participants

/-- Removes a conversation and all its descendants, the deepest first. -/
def closeAll (s : State S) (id : ConversationId) : State S :=
  (id :: s.forest.descendants id).reverse.foldl close s

/-- What the end of each of them keeps is kept in all. -/
theorem closeAll_keeps {P : State S → Prop} {s : State S} {id : ConversationId}
    (hclose : ∀ t x, x ∈ id :: s.forest.descendants id → P t → P (t.close x)) (h : P s) :
    P (s.closeAll id) := by
  have hall (ids : List ConversationId) (t : State S)
      (hids : ∀ x ∈ ids, x ∈ id :: s.forest.descendants id) (ht : P t) :
      P (ids.foldl close t) := by
    induction ids generalizing t with
    | nil => exact ht
    | cons x ids ih =>
      apply ih
      · exact fun y hy => hids y (List.mem_cons_of_mem _ hy)
      · exact hclose t x (hids x List.mem_cons_self) ht
  exact hall _ s (fun x hx => List.mem_reverse.1 hx) h

/-- Schedules a line as the pending one of a conversation; `none` if no clock can show its
time. -/
def schedule (s : State S) (id : ConversationId) (actor : CharacterId) (line : String)
    (delay : Duration) : Option (Except Error Unit × State S) :=
  if !s.forest.contains id then some (.error (.conversationNotFound id), s)
  else
    (s.world.now.add? delay).map fun due =>
      (.ok (), { s with
        forest.scheduler := s.forest.scheduler.schedule ⟨id, actor, line, due⟩ })

theorem schedule_eq {s : State S} {id : ConversationId} {actor : CharacterId} {line : String}
    {delay : Duration} {reply : Except Error Unit × State S}
    (h : s.schedule id actor line delay = some reply) :
    ∃ scheduler, reply.2 = { s with forest.scheduler := scheduler } := by
  rw [schedule] at h
  split at h
  · cases h
    exact ⟨s.forest.scheduler, rfl⟩
  · obtain ⟨due, -, rfl⟩ := Option.map_eq_some_iff.1 h
    exact ⟨_, rfl⟩

def setTalk (s : State S) (id : ConversationId) (talk : Option S.Talk) : State S :=
  { s with forest := s.forest.modify id fun c => { c with talk } }

def handBack (s : State S) (id : ConversationId) (data : Value) : State S :=
  { s with
    forest := s.forest.modify id fun c => { c with handedBack := c.handedBack.push data } }

end State

/-- The completion data of a conversation on its way. -/
inductive Delivery (S : Setting) where
  | toParent (parent : ConversationId) (data : Value)
  | toEnding (id : ConversationId) (ending : S.Ending) (data : Value)

namespace Program

variable {S : Setting} {α : Type}

def run (reply : (r : Request S) → Run S r.Reply) : Program S α → Run S α
  | .done a => pure a
  | .ask r next => do
    Run.note (.asked r)
    let x ← reply r
    (next x).run reply

end Program

namespace Rules

variable {S : Setting} {α : Type}

/-- Ends a conversation: first its descendants, which hand nothing back, then itself; its data
goes to its parent, or at the top to its ending. -/
def finish (deliver : Delivery S → Run S Unit) (id : ConversationId) (data : Value) :
    Run S (Except Error Unit) := do
  match (← get).forest.get? id with
  | none => pure (.error (.conversationNotFound id))
  | some c =>
    let below ← Run.gets (·.forest.descendants id)
    -- Everything is closed before any of it can be noticed by a callback.
    Run.update fun s => s.closeAll id
    Run.note (.ended id c below data)
    match c.parent, c.ending with
    | some parent, _ => deliver (.toParent parent data)
    | none, some ending => deliver (.toEnding id ending data)
    | none, none => pure ()
    pure (.ok ())

/-- The reply to a request, and what it does to the state. Lines queued meanwhile are one
generation below `depth`. -/
def reply (rules : Rules S) (depth : Nat) (deliver : Delivery S → Run S Unit) :
    (r : Request S) → Run S r.Reply
  | .emit recipient text => Run.update fun s => s.emit recipient text
  | .emitRoom room except text => Run.update fun s => s.emitRoom room except text
  | .send actor line => Run.update fun s =>
    { s with followUps := s.followUps.push ⟨actor, line, depth + 1⟩ }
  | .perform op => do
    match (← get).world.perform op with
    | none => Run.breakOff .clockOverflow
    | some (result, world) =>
      Run.update fun s => { s with world }
      pure result
  | .edit e => do
    let (found, world) := (← get).world.edit e
    Run.update fun s => { s with world }
    pure found
  | .world => Run.gets (·.world)
  | .conversations => Run.gets (·.forest)
  | .catalogue => pure (rules.registries.map fun _ => ())
  | .config => pure rules.config
  | .start participants talk ending => do
    let (result, s) := (← get).start participants talk ending
    set s
    pure result
  | .startChild parent participants talk => do
    let (result, s) := (← get).startChild parent participants talk
    set s
    pure result
  | .finish id data => finish deliver id data
  | .schedule id actor line delay => do
    match (← get).schedule id actor line delay with
    | none => Run.breakOff .clockOverflow
    | some (result, s) =>
      set s
      pure result
  | .cancel id => do
    let pending := (← get).forest.scheduler.pending id
    Run.update fun s => { s with forest.scheduler := s.forest.scheduler.cancel id }
    pure pending.isSome
  | .getMemory => Run.gets (·.memory)
  | .setMemory memory => Run.update fun s => { s with memory }
  | .add a b =>
    match a.add? b with
    | none => Run.breakOff .clockOverflow
    | some sum => pure sum

/-- Runs a callback of a conversation with its talk taken out, unless it is out already. -/
def callback (rules : Rules S) (depth : Nat) (deliver : Delivery S → Run S Unit)
    (id : ConversationId) (occasion : Occasion) (body : S.Talk → Program S (α × S.Talk)) :
    Run S (Option α) := do
  match ((← get).forest.get? id).bind (·.talk) with
  | none => pure none
  | some talk =>
    Run.update fun s => s.setTalk id none
    Run.note (.began id occasion)
    let (result, talk) ← (body talk).run (rules.reply depth deliver)
    Run.update fun s => s.setTalk id (some talk)
    Run.note (.stopped id)
    pure (some result)

/-- Delivers the oldest thing that was handed back to a conversation during its callback; the
callback for that brings about the rest. -/
def handOn (deliver : Delivery S → Run S Unit) (id : ConversationId) : Run S Unit := do
  match (← get).forest.takeHandedBack id with
  | none => pure ()
  | some (data, forest) =>
    Run.update fun s => { s with forest }
    deliver (.toParent id data)

/-- Brings completion data to its receiver. A parent in the middle of a callback gets it later: what
was handed back to it meanwhile follows when the callback is over, the oldest first. At most
`count` deliveries may each bring about the next. -/
def deliver (rules : Rules S) (depth : Nat) : (count : Nat) → Delivery S → Run S Unit
  | 0, _ => Run.breakOff .endlessDeliveries
  | count + 1, .toEnding id ending data => do
    Run.note (.concluding id ending data)
    (rules.behaviour.onEnd ending data).run (rules.reply depth (rules.deliver depth count))
  | count + 1, .toParent parent data => do
    if (← get).forest.isBusy parent then
      Run.update fun s => s.handBack parent data
    else
      let _ ← rules.callback depth (rules.deliver depth count) parent (.returned data)
        fun talk => do
          let talk ← rules.behaviour.onReturn talk parent data
          pure ((), talk)
      handOn (rules.deliver depth count) parent

/-- Runs a callback of a conversation, then gives it what was handed back to it meanwhile. -/
def withTalk (rules : Rules S) (depth : Nat) (id : ConversationId) (occasion : Occasion)
    (body : S.Talk → Program S (α × S.Talk)) : Run S (Option α) := do
  let deliver := rules.deliver depth rules.maxDeliveries
  let result ← rules.callback depth deliver id occasion body
  -- A conversation whose callback has not run is gone, or gets it from the one that runs.
  if result.isSome then handOn deliver id
  pure result

def execute (rules : Rules S) (depth : Nat) (p : Program S α) : Run S α :=
  p.run (rules.reply depth (rules.deliver depth rules.maxDeliveries))

/-- Offers a line to a conversation; one in the middle of a callback does not take it. -/
def offer (rules : Rules S) (depth : Nat) (id : ConversationId) (actor : CharacterId)
    (command : Command) : Run S CommandOutcome := do
  let result ← rules.withTalk depth id (.input actor command) fun talk =>
    rules.behaviour.onInput talk id actor command
  pure (result.getD .notHandled)

def tickConversation (rules : Rules S) (id : ConversationId) : Run S Unit := do
  Run.reach (.task (.turn id))
  discard <| rules.withTalk 0 id .tick fun talk => do
    let talk ← rules.behaviour.onTick talk id
    pure ((), talk)

end Rules

end TextWorld

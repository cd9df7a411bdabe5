import TextWorld.Proofs.Engine.Tame

/-!
Runs that change the world once at most. A run asks for at most one operation, and the world is left
as that operation leaves it. A program keeps to a licence if it has at most one operation to ask for
and at most one line to queue, whatever it is told on its way.
-/

namespace TextWorld

variable {S : Setting} {α β : Type}

/-- The world that an operation leaves, or the same one if no clock can show the time it leads
to. -/
def World.after (w : World) (op : World.Op) : World := ((w.perform op).map (·.2)).getD w

/-- The operations that are asked for, one after another. -/
def performed (seen : List (Sight S)) : List World.Op :=
  seen.filterMap fun sight => match sight.event with
    | .asked (.perform op) => some op
    | _ => none

theorem performed_append (seen more : List (Sight S)) :
    performed (seen ++ more) = performed seen ++ performed more :=
  List.filterMap_append

/-- At most one operation is asked for, one that `ok` admits, and the world is left as it leaves
it. -/
def Course.Spends (ok : World.Op → Prop) (w : World) (c : Course S α) : Prop :=
  performed c.sights = [] ∧ c.state.world = w ∨
    ∃ op, ok op ∧ performed c.sights = [op] ∧ c.state.world = w.after op

/-- From this state the run asks for at most one operation, one that `ok` admits, and what holds
when it comes to its end is `Q`. -/
structure Run.Once (ok : World.Op → Prop) (m : Run S α) (Q : α → State S → Prop) (s : State S) :
    Prop where
  spends : (m s).Spends ok s.world
  ensures : m.Ensures Q s

/-- From this state the run asks for no operation. -/
def Run.Never (m : Run S α) (Q : α → State S → Prop) (s : State S) : Prop :=
  m.Once (fun _ => False) Q s

namespace Run

variable {ok ok' : World.Op → Prop} {m : Run S α} {f : α → Run S β} {s : State S}

theorem Once.mono {Q Q' : α → State S → Prop} (h : m.Once ok Q s)
    (hok : ∀ op, ok op → ok' op) (hQ : ∀ a t, Q a t → Q' a t) : m.Once ok' Q' s := by
  refine ⟨?_, h.ensures.mono hQ⟩
  rcases h.spends with hnone | ⟨op, hop, hone⟩
  · exact .inl hnone
  · exact .inr ⟨op, hok op hop, hone⟩

theorem Never.once {Q : α → State S → Prop} (h : m.Never Q s) : m.Once ok Q s :=
  h.mono (fun _ => False.elim) fun _ _ => id

theorem Never.idle {Q : α → State S → Prop} (h : m.Never Q s) :
    performed (m s).sights = [] ∧ (m s).state.world = s.world := by
  rcases h.spends with hnone | ⟨_, hop, _⟩
  · exact hnone
  · exact hop.elim

theorem Never.keep {Q : α → State S → Prop} (h : m.Never Q s) :
    m.Never (fun a t => Q a t ∧ t.world = s.world) s :=
  ⟨h.spends, fun a ha => ⟨h.ensures a ha, h.idle.2⟩⟩

/-- When the run comes to its end, the world is the same or as an operation leaves it. -/
theorem Once.leaves {Q : α → State S → Prop} (h : m.Once ok Q s) :
    m.Once ok (fun a t => Q a t ∧ (t.world = s.world ∨
      ∃ op, ok op ∧ t.world = s.world.after op)) s := by
  refine ⟨h.spends, fun a ha => ⟨h.ensures a ha, ?_⟩⟩
  rcases h.spends with ⟨-, hsame⟩ | ⟨op, hop, -, hworld⟩
  · exact .inl hsame
  · exact .inr ⟨op, hop, hworld⟩

theorem never_of {Q : α → State S → Prop} (hperformed : performed (m s).sights = [])
    (hworld : (m s).state.world = s.world) (hQ : m.Ensures Q s) : m.Never Q s :=
  ⟨.inl ⟨hperformed, hworld⟩, hQ⟩

theorem never_pure {Q : α → State S → Prop} {a : α} (h : Q a s) : (pure a : Run S α).Never Q s :=
  never_of rfl rfl (ensures_pure h)

theorem never_note {e : Event S} {Q : Unit → State S → Prop}
    (he : performed [⟨e, s⟩] = []) (h : Q () s) : (note e).Never Q s :=
  never_of he rfl (ensures_note h)

theorem never_reach {stage : Stage S} {Q : Unit → State S → Prop} (h : Q () s) :
    (reach stage).Never Q s :=
  never_note rfl h

theorem never_update {g : State S → State S} {Q : Unit → State S → Prop}
    (hworld : (g s).world = s.world) (h : Q () (g s)) : (update g).Never Q s :=
  never_of rfl hworld (ensures_update h)

/-- What comes after the operation asks for none. -/
theorem once_bind {Q : β → State S → Prop} (h : m.Once ok (fun a t => (f a).Never Q t) s) :
    (m >>= f).Once ok Q s := by
  refine ⟨?_, ensures_bind (h.ensures.mono fun _ _ hrest => hrest.ensures)⟩
  have hfirst := h.spends
  rcases hm : m s with ⟨seen, fault | a, t⟩
  · rw [bind_of_error hm]
    rwa [hm] at hfirst
  · obtain ⟨hperformed, hworld⟩ := (h.ensures a (by rw [hm])).idle
    rw [hm] at hfirst hperformed hworld
    rw [bind_of_ok hm]
    dsimp only [Course.Spends] at hfirst ⊢
    rw [performed_append, hperformed, List.append_nil, hworld]
    exact hfirst

/-- What comes before the operation asks for none. -/
theorem never_bind {Q : β → State S → Prop} (h : m.Never (fun a t => (f a).Once ok Q t) s) :
    (m >>= f).Once ok Q s := by
  refine ⟨?_, ensures_bind (h.ensures.mono fun _ _ hrest => hrest.ensures)⟩
  obtain ⟨hperformed, hworld⟩ := h.idle
  rcases hm : m s with ⟨seen, fault | a, t⟩
  · rw [bind_of_error hm]
    rw [hm] at hperformed hworld
    exact .inl ⟨hperformed, hworld⟩
  · have hrest := (h.ensures a (by rw [hm])).spends
    rw [hm] at hperformed hworld hrest
    rw [bind_of_ok hm]
    dsimp only [Course.Spends] at hrest hworld ⊢
    rw [performed_append, hperformed, List.nil_append, ← hworld]
    exact hrest

theorem once_get_bind {f : State S → Run S β} {Q : β → State S → Prop} (h : (f s).Once ok Q s) :
    ((get : Run S (State S)) >>= f).Once ok Q s := ⟨h.spends, h.ensures⟩

theorem once_gets_bind {g : State S → α} {Q : β → State S → Prop} (h : (f (g s)).Once ok Q s) :
    (gets g >>= f).Once ok Q s := ⟨h.spends, h.ensures⟩

theorem once_discard {Q : Unit → State S → Prop} (h : m.Once ok (fun _ t => Q () t) s) :
    (discard m : Run S Unit).Once ok Q s :=
  once_bind (h.mono (fun _ => id) fun _ _ => never_pure)

end Run

/-! Licences of programs. -/

/-- What a program may do once each: change the world by an operation, and queue a line. -/
structure Licence where
  op : World.Op → Prop
  line : String → Prop

/-- A licence for nothing but telling. -/
def Licence.none : Licence := ⟨fun _ => False, fun _ => False⟩

/-- What a program with this licence may ask for. -/
def Request.Within (actor : CharacterId) (may : Licence) : Request S → Prop
  | .emit .. | .emitRoom .. | .world | .catalogue => True
  | .perform op => may.op op
  | .send who line => who = actor ∧ may.line line
  | _ => False

/-- What is left of a licence after a request. -/
def Licence.spend (may : Licence) : Request S → Licence
  | .perform _ => { may with op := fun _ => False }
  | .send .. => { may with line := fun _ => False }
  | _ => may

/-- The program keeps to the licence, whatever it is told on its way. -/
def Program.Within (actor : CharacterId) : Program S α → Licence → World → Prop
  | .done _, _, _ => True
  | .ask r next, may, w => r.Within actor may ∧
      ∀ x v, r.Answered w x v → (next x).Within actor (may.spend r) v

namespace Program

variable {actor : CharacterId} {may : Licence} {w : World}

theorem within_pure (a : α) : (pure a : Program S α).Within actor may w := trivial

/-- The operation may come first, and the line after it. -/
theorem Within.bind {p : Program S α} {f : α → Program S β} {ok : World.Op → Prop}
    {line : String → Prop} (hp : p.Within actor ⟨ok, fun _ => False⟩ w)
    (hf : ∀ ok' a v, (f a).Within actor ⟨ok', line⟩ v) : (p >>= f).Within actor ⟨ok, line⟩ w := by
  change (p.bind f).Within actor ⟨ok, line⟩ w
  induction p generalizing w ok with
  | done a => exact hf ok a w
  | ask r next ih =>
    obtain ⟨hr, hnext⟩ := hp
    cases r with
    | perform op => exact ⟨hr, fun x v hx => ih x (hnext x v hx)⟩
    | emit recipient text => exact ⟨hr, fun x v hx => ih x (hnext x v hx)⟩
    | emitRoom room except text => exact ⟨hr, fun x v hx => ih x (hnext x v hx)⟩
    | world => exact ⟨hr, fun x v hx => ih x (hnext x v hx)⟩
    | catalogue => exact ⟨hr, fun x v hx => ih x (hnext x v hx)⟩
    | send who line => exact hr.2.elim
    | _ => exact absurd hr (by rintro ⟨⟩)

theorem Within.mono {p : Program S α} {may' : Licence} (hp : p.Within actor may w)
    (hop : ∀ op, may.op op → may'.op op) (hline : ∀ line, may.line line → may'.line line) :
    p.Within actor may' w := by
  induction p generalizing w may may' with
  | done a => trivial
  | ask r next ih =>
    obtain ⟨hr, hnext⟩ := hp
    cases r with
    | perform op => exact ⟨hop op hr, fun x v hx => ih x (hnext x v hx) (fun _ => id) hline⟩
    | send who line =>
      exact ⟨⟨hr.1, hline line hr.2⟩, fun x v hx => ih x (hnext x v hx) hop fun _ => id⟩
    | emit recipient text => exact ⟨hr, fun x v hx => ih x (hnext x v hx) hop hline⟩
    | emitRoom room except text => exact ⟨hr, fun x v hx => ih x (hnext x v hx) hop hline⟩
    | world => exact ⟨hr, fun x v hx => ih x (hnext x v hx) hop hline⟩
    | catalogue => exact ⟨hr, fun x v hx => ih x (hnext x v hx) hop hline⟩
    | _ => exact absurd hr (by rintro ⟨⟩)

/-! What a program goes on with once a request is answered. -/

theorem within_emit_bind {recipient : CharacterId} {text : String} {f : Unit → Program S β}
    (h : (f ()).Within actor may w) : (emit recipient text >>= f).Within actor may w :=
  ⟨trivial, fun _ _ hv => by cases hv; exact h⟩

theorem within_emitRoom_bind {room : RoomId} {except : Option CharacterId} {text : String}
    {f : Unit → Program S β} (h : (f ()).Within actor may w) :
    (emitRoom room except text >>= f).Within actor may w :=
  ⟨trivial, fun _ _ hv => by cases hv; exact h⟩

theorem within_world_bind {f : World → Program S β} (h : (f w).Within actor may w) :
    (world >>= f).Within actor may w :=
  ⟨trivial, fun _ _ hv => by obtain ⟨rfl, rfl⟩ := hv; exact h⟩

theorem within_catalogue_bind {f : Registries Unit → Program S β}
    (h : ∀ c, (f c).Within actor may w) : (catalogue >>= f).Within actor may w :=
  ⟨trivial, fun c _ hv => by cases hv; exact h c⟩

theorem within_send_bind {line : String} {f : Unit → Program S β} (hline : may.line line)
    (h : ∀ may', (f ()).Within actor may' w) : (send actor line >>= f).Within actor may w :=
  ⟨⟨rfl, hline⟩, fun _ _ hv => by cases hv; exact h _⟩

theorem within_perform_bind {op : World.Op} {f : Except Error op.Result → Program S β}
    (hop : may.op op) (h : ∀ x v, (f x).Within actor ⟨fun _ => False, may.line⟩ v) :
    (perform op >>= f).Within actor may w :=
  ⟨hop, fun x v _ => h x v⟩

end Program

/-- What is queued in `t` is what was queued in `s`, and possibly one more line of the actor. -/
def State.Queues (actor : CharacterId) (depth : Nat) (line : String → Prop) (s t : State S) :
    Prop :=
  t.followUps.toList = s.followUps.toList ∨
    ∃ text, line text ∧ t.followUps.toList = s.followUps.toList ++ [⟨actor, text, depth⟩]

namespace Rules

variable {rules : Rules S} {depth : Nat} {deliver : Delivery S → Run S Unit}
variable {actor : CharacterId} {may : Licence} {s : State S}

/-- An operation that is asked for is done, unless it leads to a time that no clock can show. -/
theorem once_asked {ok : World.Op → Prop} {op : World.Op} (hop : ok op) :
    (Run.note (.asked (.perform op)) >>= fun _ => rules.reply depth deliver (.perform op)).Once ok
      (fun x t => s.world.perform op = some (x, t.world) ∧ t.forest = s.forest ∧
        t.followUps = s.followUps) s := by
  constructor
  · refine .inr ⟨op, hop, ?_⟩
    rw [Run.note_bind, World.after, reply, Run.get_bind]
    cases s.world.perform op <;> exact ⟨rfl, rfl⟩
  · refine Run.ensures_bind (Run.ensures_note (Run.ensures_get_bind ?_))
    cases hreply : s.world.perform op with
    | none => exact Run.ensures_breakOff _ _
    | some reply =>
      exact Run.ensures_bind (Run.ensures_update (Run.ensures_pure ⟨rfl, rfl, rfl⟩))

/-- A program does what its licence admits, and leaves the conversations alone. -/
theorem once_run {p : Program S α} (h : p.Within actor may s.world) :
    (p.run (rules.reply depth deliver)).Once may.op
      (fun _ t => t.forest = s.forest ∧ s.Queues actor (depth + 1) may.line t) s := by
  induction p generalizing s may with
  | done a => exact (Run.never_pure ⟨rfl, .inl rfl⟩).once
  | ask r next ih =>
    obtain ⟨hr, hnext⟩ := h
    cases r with
    | emit recipient text =>
      refine Run.never_bind (Run.never_note rfl (Run.never_bind (Run.never_update rfl ?_)))
      exact ih () (s := s.emit recipient text) (hnext () _ rfl)
    | emitRoom room except text =>
      obtain ⟨mailbox, hemit⟩ := s.emitRoom_eq room except text
      refine Run.never_bind (Run.never_note rfl (Run.never_bind (Run.never_update ?_ ?_)))
      · rw [hemit]
      · rw [hemit]
        exact ih () (s := { s with mailbox }) (hnext () _ rfl)
    | world =>
      refine Run.never_bind (Run.never_note rfl (Run.once_gets_bind ?_))
      exact ih s.world (hnext s.world _ ⟨rfl, rfl⟩)
    | catalogue =>
      refine Run.never_bind (Run.never_note rfl (Run.never_bind (Run.never_pure ?_)))
      exact ih _ (hnext _ _ rfl)
    | send who line =>
      obtain ⟨rfl, hline⟩ := hr
      refine Run.never_bind (Run.never_note rfl (Run.never_bind (Run.never_update rfl ?_)))
      have hrest := ih () (s := { s with followUps := s.followUps.push ⟨who, line, depth + 1⟩ })
        (hnext () _ rfl)
      refine hrest.mono (fun _ => id) fun _ t ht => ⟨ht.1, ?_⟩
      -- The line has been queued, and no other is.
      rcases ht.2 with hsame | ⟨_, hmore, _⟩
      · exact .inr ⟨line, hline, hsame.trans (Queue.toList_push _ _)⟩
      · exact hmore.elim
    | perform op =>
      have hrun : Program.run (rules.reply depth deliver) (.ask (.perform op) next) =
          ((Run.note (.asked (.perform op)) >>= fun _ => rules.reply depth deliver (.perform op))
            >>= fun x => (next x).run (rules.reply depth deliver)) := by
        rw [bind_assoc]
        rfl
      rw [hrun]
      refine Run.once_bind ((once_asked hr).mono (fun _ => id) fun x t ht => ?_)
      obtain ⟨hreply, hforest, hqueue⟩ := ht
      refine (ih x (hnext x t.world hreply)).mono (fun _ => id) fun _ u hu => ?_
      rw [hforest, State.Queues, hqueue] at hu
      exact hu
    | _ => exact absurd hr (by rintro ⟨⟩)

theorem once_execute {p : Program S α} (h : p.Within actor may s.world) :
    (rules.execute depth p).Once may.op
      (fun _ t => t.forest = s.forest ∧ s.Queues actor (depth + 1) may.line t) s :=
  once_run h

end Rules

/-! Lines where commands are registered for all only, and the actor is in no conversation. -/

theorem activeConversation_of_isEmpty {w : World} {f : Forest S.Talk S.Ending}
    (hf : f.isEmpty = true) (actor : CharacterId) : activeConversation w f actor = none := by
  unfold activeConversation
  cases hc : w.character? actor with
  | none => rfl
  | some c =>
    cases houter : c.conversation with
    | none => simp [houter]
    | some outer =>
      have hgone : f.contains outer = false := by
        rw [Forest.contains, Std.ExtTreeMap.isEmpty_iff.1 hf]
        exact Std.ExtTreeMap.contains_empty
      simp [houter, hgone]

/-- Only the registry for all has commands. -/
def Rules.OnlyGlobal (rules : Rules S) : Prop :=
  ∀ level registry, rules.registry? level = some registry → level ≠ .global →
    ∀ word, registry.lookup word = none

/-- In this world the command of an actor makes the handler of a definition run like this. -/
structure Invoked (registry : Registry (Handler S)) (command : Command) (w : World)
    (actor : CharacterId) (d : Definition (Handler S)) (inv : Invocation) : Prop where
  word : registry.lookup command.word = some d
  actor_eq : inv.actor = actor
  data_eq : inv.data = d.data
  admits : ∃ c, w.character? actor = some c ∧ (d.adminOnly = true → c.isAdmin = true)
  args_eq : ∀ g, d.grammar = some g → inv.args = g.resolve w actor command.params

namespace Rules

variable {rules : Rules S} {depth : Nat} {actor : CharacterId} {command : Command} {s : State S}
variable {ok : World.Op → Prop}

theorem once_handle {registry : Registry (Handler S)} {origin : Origin}
    {Q : CommandOutcome → State S → Prop} (hleft : Q .notHandled s)
    (hbarred : ∀ text, Q .blocked (s.emit actor text))
    (hrun : ∀ d inv, Invoked registry command s.world actor d inv →
      (rules.execute depth (d.run inv)).Once ok Q s) :
    (rules.handle depth registry actor command origin).Once ok Q s := by
  refine Run.once_gets_bind ?_
  dsimp only
  split
  · rename_i d c hd hc
    split
    · exact (Run.never_pure hleft).once
    · rename_i hadmin
      split
      · exact Run.never_bind (Run.never_reach (Run.never_bind
          (Run.never_update rfl (Run.never_pure (hbarred _)).once)))
      · refine Run.never_bind (Run.never_reach (hrun d _ ⟨hd, rfl, rfl, ⟨c, hc, ?_⟩, ?_⟩))
        · intro honly
          simpa [honly] using hadmin
        · intro g hg
          rw [hg]
  · exact (Run.never_pure hleft).once

/-- Nobody answers, and nothing changes. -/
def Silent (m : Run S (Option Responder)) (s : State S) : Prop :=
  m.Never (fun answer t => answer = none ∧ t = s) s

theorem silent_none : Silent (pure none) s := Run.never_pure ⟨rfl, rfl⟩

theorem Silent.orAsk {first second : Run S (Option Responder)}
    {Q : Option Responder → State S → Prop} (hfirst : Silent first s)
    (hsecond : second.Once ok Q s) : (Rules.orAsk first second).Once ok Q s := by
  refine Run.never_bind (hfirst.mono (fun _ => id) ?_)
  rintro _ _ ⟨rfl, rfl⟩
  exact hsecond

/-- A registry that does not know the word leaves the line to others. -/
theorem silent_ask {registry : Registry (Handler S)} (h : registry.lookup command.word = none)
    (level : Responder) (origin : Origin) :
    Silent (Rules.ask level (rules.handle depth registry actor command origin)) s := by
  have hhandle : (rules.handle depth registry actor command origin).Never
      (fun outcome t => outcome = .notHandled ∧ t = s) s := by
    refine Run.once_gets_bind ?_
    dsimp only
    rw [h]
    exact Run.never_pure ⟨rfl, rfl⟩
  refine Run.never_bind (Run.never_reach (Run.never_bind (hhandle.mono (fun _ => id) ?_)))
  rintro _ _ ⟨rfl, rfl⟩
  exact Run.never_bind (Run.never_reach silent_none)

theorem silent_askConversation (hquiet : activeConversation s.world s.forest actor = none) :
    Silent (rules.askConversation depth actor command) s := by
  refine Run.once_get_bind ?_
  rw [hquiet]
  exact silent_none

section

variable (honly : rules.OnlyGlobal)
include honly

theorem silent_askCharacters (others : List CharacterId) :
    Silent (rules.askCharacters depth actor command others) s := by
  induction others with
  | nil => exact silent_none
  | cons other others ih =>
    rw [askCharacters]
    split
    · exact ih
    · rename_i registry hregistry
      have hlookup := honly (.character other) registry hregistry (by rintro ⟨⟩) command.word
      exact (silent_ask hlookup _ _).orAsk ih

theorem silent_askSurroundings : Silent (rules.askSurroundings depth actor command) s := by
  refine Run.once_get_bind ?_
  split
  · exact silent_none
  · rename_i room _
    have hroom : Silent (rules.askRoom depth room actor command) s := by
      unfold askRoom
      split
      · exact silent_none
      · rename_i registry hregistry
        exact silent_ask (honly (.room room) registry hregistry (by rintro ⟨⟩) command.word) _ _
    exact hroom.orAsk (Run.once_gets_bind (silent_askCharacters honly _))

/-- A line comes to what the handler of a command does for it, if to anything at all. -/
theorem once_dispatchLine (hquiet : activeConversation s.world s.forest actor = none)
    {line : String} {I : State S → Prop}
    (hmail : ∀ t mailbox, I t → I { t with mailbox }) (hs : I s)
    (hrun : ∀ d inv, Invoked rules.registries.global (.ofLine line) s.world actor d inv →
      (rules.execute depth (d.run inv)).Once ok (fun _ => I) s) :
    (rules.dispatchLine depth actor line).Once ok (fun _ => I) s := by
  have hglobal : (rules.askGlobal depth actor (.ofLine line)).Once ok (fun _ => I) s := by
    refine Run.never_bind (Run.never_reach (Run.once_bind ?_))
    refine (once_handle hs (fun _ => hmail s _ hs) hrun).mono (fun _ => id) fun _ t ht => ?_
    exact Run.never_bind (Run.never_reach (Run.never_pure ht))
  have hroute : (rules.route depth actor (.ofLine line)).Once ok (fun _ => I) s :=
    (silent_askConversation hquiet).orAsk ((silent_askSurroundings honly).orAsk hglobal)
  have hrespond : (rules.respond depth actor (.ofLine line)).Once ok (fun _ => I) s := by
    unfold respond
    split
    · exact (Run.never_pure hs).once
    · refine Run.once_bind (hroute.mono (fun _ => id) fun answer t ht => ?_)
      cases answer with
      | some responder => exact Run.never_pure ht
      | none => exact Run.never_bind (Run.never_update rfl (Run.never_pure (hmail t _ ht)))
  refine Run.never_bind (Run.never_reach (Run.once_bind ?_))
  refine hrespond.mono (fun _ => id) fun _ t ht => ?_
  exact Run.never_bind (Run.never_reach (Run.never_pure ht))

end

/-- Where nothing is queued there is nothing to be done. -/
theorem never_drainGenerations (hempty : s.followUps.toList = []) (generations : Nat) :
    (rules.drainGenerations generations).Never (fun _ _ => True) s := by
  cases generations with
  | zero => exact Run.never_update rfl trivial
  | succ generations =>
    refine Run.once_get_bind ?_
    dsimp only
    rw [if_pos (Queue.isEmpty_iff.2 hempty)]
    exact Run.never_pure trivial

/-- Where one line is queued it is dispatched, unless it is too many generations down. -/
theorem once_drainGenerations {f : FollowUp} (hqueue : s.followUps.toList = [f])
    (hline : ∀ generations, (rules.dispatchLine f.depth f.actor f.line).Once ok
      (fun _ t => (rules.drainGenerations generations).Never (fun _ _ => True) t)
      { s with followUps := .empty }) (generations : Nat) :
    (rules.drainGenerations generations).Once ok (fun _ _ => True) s := by
  cases generations with
  | zero => exact (Run.never_update rfl trivial).once
  | succ generations =>
    refine Run.once_get_bind ?_
    dsimp only
    rw [if_neg (by simp [Queue.isEmpty_iff, hqueue]), hqueue]
    refine Run.never_bind (Run.never_update rfl (Run.once_bind ?_))
    rw [dispatchQueued]
    split
    · refine Run.once_bind (Run.once_discard ((hline generations).mono (fun _ => id) ?_))
      exact fun _ _ hrest => Run.never_pure hrest
    · have hrest : (rules.drainGenerations generations).Never (fun _ _ => True)
          { s with followUps := .empty } := never_drainGenerations rfl generations
      refine Run.Never.once ?_
      exact Run.never_pure hrest

end Rules

end TextWorld

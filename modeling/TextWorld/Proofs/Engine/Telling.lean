import TextWorld.Proofs.Engine.Yielding
import TextWorld.Proofs.World.Occupancy

/-!
Whom runs speak to besides their actor. Whether a run breaks off or not, it only adds messages to
those that are there, and who gets them follows from the program alone and from who is listed where
in the world that the program meets.
-/

namespace TextWorld

variable {S : Setting} {α β : Type}

/-- Those besides an actor who are told something, each as often as it is. -/
def heard (actor : CharacterId) (told : List Message) : List CharacterId :=
  (told.map (·.recipient)).filter (· ≠ actor)

@[simp] theorem heard_append (actor : CharacterId) (told more : List Message) :
    heard actor (told ++ more) = heard actor told ++ heard actor more := by
  rw [heard, List.map_append, List.filter_append]
  rfl

/-- Whoever is not the actor hears whatever is addressed to it. -/
theorem count_heard {actor x : CharacterId} (hx : x ≠ actor) (told : List Message) :
    (heard actor told).count x = (told.filter (·.recipient = x)).length := by
  rw [heard, List.count_filter (by simpa using hx), List.count_eq_countP, List.countP_map,
    List.countP_eq_length_filter]
  rfl

/-- What is said of a run, seen from the outside: of the operations that are asked for, of the world
that is left, and of those besides the actor who are told something. -/
abbrev Report := List World.Op → World → List CharacterId → Prop

/-- Nothing is done, and nobody else is told anything. -/
def Report.Nothing (w : World) : Report := fun ops v others => ops = [] ∧ v = w ∧ others = []

namespace State

/-- Everyone on the list of a room is told, except for one. -/
theorem toList_emitRoom (s : State S) (room : RoomId) (except : Option CharacterId)
    (text : String) : (s.emitRoom room except text).mailbox.toList = s.mailbox.toList ++
      ((s.world.attendance (.room room)).filter fun id => some id ≠ except).map (⟨·, text⟩) := by
  have hfold (ids : List CharacterId) (s : State S) :
      (ids.foldl (fun s id => s.emit id text) s).mailbox.toList =
        s.mailbox.toList ++ ids.map (⟨·, text⟩) := by
    induction ids generalizing s with
    | nil => simp
    | cons id ids ih => rw [List.foldl_cons, ih, emit, Mailbox.toList_emit]; simp
  rw [emitRoom, World.attendance]
  cases s.world.room? room with
  | none => simp
  | some r => exact hfold _ s

end State

namespace Run

/-- From this state messages are only added, and the report holds of the run, also if it breaks
off. -/
def Tells (actor : CharacterId) (m : Run S α) (Q : Report) (s : State S) : Prop :=
  ∃ told, (m s).state.mailbox.toList = s.mailbox.toList ++ told ∧
    Q (performed (m s).sights) (m s).state.world (heard actor told)

/-- From this state nothing is done, and nobody besides the actor is told anything. -/
def Discreet (actor : CharacterId) (m : Run S α) (s : State S) : Prop :=
  m.Tells actor (.Nothing s.world) s

variable {actor : CharacterId} {m : Run S α} {f : α → Run S β} {s t : State S} {a : α} {Q : Report}

theorem Tells.mono {Q' : Report} (h : m.Tells actor Q s)
    (hQ : ∀ ops v others, Q ops v others → Q' ops v others) : m.Tells actor Q' s := by
  obtain ⟨told, hmail, hsaid⟩ := h
  exact ⟨told, hmail, hQ _ _ _ hsaid⟩

theorem Discreet.tells (h : m.Discreet actor s) (hQ : Q [] s.world []) : m.Tells actor Q s :=
  h.mono fun _ _ _ ⟨hops, hworld, hothers⟩ => by rw [hops, hworld, hothers]; exact hQ

theorem discreet_pure : (pure a : Run S α).Discreet actor s :=
  ⟨[], (List.append_nil _).symm, rfl, rfl, rfl⟩

theorem discreet_note {e : Event S} (he : performed [⟨e, s⟩] = []) :
    (note e).Discreet actor s :=
  ⟨[], (List.append_nil _).symm, he, rfl, rfl⟩

theorem discreet_reach {stage : Stage S} : (reach stage).Discreet actor s := discreet_note rfl

theorem discreet_update {g : State S → State S} (hworld : (g s).world = s.world)
    (hmail : (g s).mailbox = s.mailbox) : (update g).Discreet actor s :=
  ⟨[], by rw [List.append_nil]; exact congrArg Mailbox.toList hmail, rfl, hworld, rfl⟩

theorem tells_get_bind {f : State S → Run S β} (h : (f s).Tells actor Q s) :
    ((get : Run S (State S)) >>= f).Tells actor Q s := h

theorem tells_gets_bind {g : State S → α} (h : (f (g s)).Tells actor Q s) :
    (gets g >>= f).Tells actor Q s := h

/-- What is for the actor alone does not count. -/
theorem discreet_emit {text : String} :
    (update fun s => s.emit actor text).Discreet actor s :=
  ⟨[⟨actor, text⟩], Mailbox.toList_emit _ _ _, rfl, rfl, by simp [heard]⟩

/-- What a run that comes to its end has told stands before what is told afterwards. -/
theorem tells_bind_of_ok {seen : List (Sight S)} {told : List Message}
    (hm : m s = ⟨seen, .ok a, t⟩) (hmail : t.mailbox.toList = s.mailbox.toList ++ told)
    (hrest : (f a).Tells actor (fun ops v others =>
      Q (performed seen ++ ops) v (heard actor told ++ others)) t) :
    (m >>= f).Tells actor Q s := by
  obtain ⟨more, hmore, hsaid⟩ := hrest
  rw [Tells, bind_of_ok hm]
  refine ⟨told ++ more, ?_, ?_⟩
  · rw [← List.append_assoc, ← hmail]
    exact hmore
  · rw [performed_append, heard_append]
    exact hsaid

/-- What comes first says nothing to others. -/
theorem discreet_bind (h : m.Discreet actor s) (hQ : Q [] s.world [])
    (hrest : m.Ensures (fun a t => t.world = s.world → (f a).Tells actor Q t) s) :
    (m >>= f).Tells actor Q s := by
  obtain ⟨told, hmail, hops, hworld, hothers⟩ := h
  rcases hm : m s with ⟨seen, fault | a, t⟩
  · rw [hm] at hmail hops hworld
    rw [Tells, bind_of_error hm]
    refine ⟨told, hmail, ?_⟩
    rw [hops, hworld, hothers]
    exact hQ
  · have hnext := hrest a (by rw [hm])
    rw [hm] at hmail hops hworld hnext
    refine tells_bind_of_ok hm hmail ((hnext hworld).mono fun ops v others hsaid => ?_)
    rw [hops, hothers]
    exact hsaid

/-- What comes last says nothing to others. -/
theorem tells_bind (h : m.Tells actor Q s)
    (hrest : m.Ensures (fun a t => (f a).Discreet actor t) s) : (m >>= f).Tells actor Q s := by
  obtain ⟨told, hmail, hsaid⟩ := h
  rcases hm : m s with ⟨seen, fault | a, t⟩
  · rw [hm] at hmail hsaid
    rw [Tells, bind_of_error hm]
    exact ⟨told, hmail, hsaid⟩
  · have hnext := hrest a (by rw [hm])
    rw [hm] at hmail hsaid hnext
    refine tells_bind_of_ok hm hmail (hnext.mono fun ops v others hnothing => ?_)
    obtain ⟨rfl, rfl, rfl⟩ := hnothing
    rw [List.append_nil, List.append_nil]
    exact hsaid

theorem discreet_seq (h : m.Discreet actor s)
    (hrest : m.Ensures (fun a t => (f a).Discreet actor t) s) : (m >>= f).Discreet actor s :=
  tells_bind h hrest

theorem tells_discard (h : m.Tells actor Q s) : (discard m : Run S Unit).Tells actor Q s :=
  tells_bind h fun _ _ => discreet_pure

end Run

/-! Programs. -/

/-- What the request asks to have done. -/
def Request.deeds : Request S → List World.Op
  | .perform op => [op]
  | _ => []

/-- Those besides the actor whom the request speaks to. -/
def Request.hearers (actor : CharacterId) (w : World) : Request S → List CharacterId
  | .emit recipient _ => [recipient].filter (· ≠ actor)
  | .emitRoom room except _ =>
    ((w.attendance (.room room)).filter fun id => some id ≠ except).filter (· ≠ actor)
  | _ => []

/-- Whatever the program is told on its way, the report holds of it, also if it breaks off at an
operation for which there is no answer. -/
def Program.Speaks (actor : CharacterId) : Program S α → Report → World → Prop
  | .done _, Q, w => Q [] w []
  | .ask r next, Q, w =>
    r.Within actor ⟨fun _ => True, fun _ => True⟩ ∧
      (∀ op, r = .perform op → w.perform op = none → Q [op] w []) ∧
      ∀ x v, r.Answered w x v → (next x).Speaks actor
        (fun ops u others => Q (r.deeds ++ ops) u (r.hearers actor w ++ others)) v

namespace Program

variable {actor : CharacterId} {w : World} {Q : Report}

theorem speaks_pure {a : α} (h : Q [] w []) : (pure a : Program S α).Speaks actor Q w := h

theorem Speaks.mono {p : Program S α} {Q' : Report} (h : p.Speaks actor Q w)
    (hQ : ∀ ops v others, Q ops v others → Q' ops v others) : p.Speaks actor Q' w := by
  induction p generalizing w Q Q' with
  | done a => exact hQ _ _ _ h
  | ask r next ih =>
    obtain ⟨hr, hnone, hnext⟩ := h
    exact ⟨hr, fun op hop hfails => hQ _ _ _ (hnone op hop hfails),
      fun x v hx => ih x (hnext x v hx) fun _ _ _ => hQ _ _ _⟩

/-- What follows says nothing to others. -/
theorem Speaks.bind {p : Program S α} {f : α → Program S β} (h : p.Speaks actor Q w)
    (hf : ∀ a v, (f a).Speaks actor (.Nothing v) v) : (p >>= f).Speaks actor Q w := by
  change (p.bind f).Speaks actor Q w
  induction p generalizing w Q with
  | done a =>
    refine (hf a w).mono fun ops v others hnothing => ?_
    obtain ⟨rfl, rfl, rfl⟩ := hnothing
    exact h
  | ask r next ih =>
    obtain ⟨hr, hnone, hnext⟩ := h
    exact ⟨hr, hnone, fun x v hx => ih x (hnext x v hx)⟩

/-! What a program goes on with once a request is answered. -/

theorem speaks_emit_bind {recipient : CharacterId} {text : String} {f : Unit → Program S β}
    (h : (f ()).Speaks actor
      (fun ops v others => Q ops v ([recipient].filter (· ≠ actor) ++ others)) w) :
    (emit recipient text >>= f).Speaks actor Q w :=
  ⟨trivial, nofun, fun _ _ hv => by cases hv; exact h⟩

/-- What is said to the actor nobody else hears. -/
theorem speaks_emit_self_bind {text : String} {f : Unit → Program S β}
    (h : (f ()).Speaks actor Q w) : (emit actor text >>= f).Speaks actor Q w :=
  speaks_emit_bind (by simpa using h)

theorem speaks_emitRoom_bind {room : RoomId} {text : String} {f : Unit → Program S β}
    (h : (f ()).Speaks actor (fun ops v others =>
      Q ops v ((w.attendance (.room room)).filter (· ≠ actor) ++ others)) w) :
    (emitRoom room (some actor) text >>= f).Speaks actor Q w := by
  refine ⟨trivial, nofun, fun _ _ hv => ?_⟩
  cases hv
  have hhearers : Request.hearers actor w (.emitRoom room (some actor) text : Request S) =
      (w.attendance (.room room)).filter (· ≠ actor) := by
    simp [Request.hearers]
  rw [hhearers]
  exact h

theorem speaks_world_bind {f : World → Program S β} (h : (f w).Speaks actor Q w) :
    (world >>= f).Speaks actor Q w :=
  ⟨trivial, nofun, fun _ _ hv => by obtain ⟨rfl, rfl⟩ := hv; exact h⟩

theorem speaks_catalogue_bind {f : Registries Unit → Program S β}
    (h : ∀ c, (f c).Speaks actor Q w) : (catalogue >>= f).Speaks actor Q w :=
  ⟨trivial, nofun, fun c _ hv => by cases hv; exact h c⟩

theorem speaks_send_bind {line : String} {f : Unit → Program S β}
    (h : (f ()).Speaks actor Q w) : (send actor line >>= f).Speaks actor Q w :=
  ⟨⟨rfl, trivial⟩, nofun, fun _ _ hv => by cases hv; exact h⟩

theorem speaks_perform_bind {op : World.Op} {f : Except Error op.Result → Program S β}
    (hnone : Q [op] w [])
    (h : ∀ x v, w.perform op = some (x, v) →
      (f x).Speaks actor (fun ops u others => Q (op :: ops) u others) v) :
    (perform op >>= f).Speaks actor Q w :=
  ⟨trivial, fun _ hop _ => by cases hop; exact hnone, h⟩

end Program

namespace Rules

variable {rules : Rules S} {depth : Nat} {deliver : Delivery S → Run S Unit}
variable {actor : CharacterId} {s : State S} {Q : Report}

/-- A request is answered, and those it speaks to are told; or there is no answer to it, and
nothing has happened yet. -/
theorem answer_course (rules : Rules S) (depth : Nat) (deliver : Delivery S → Run S Unit)
    {r : Request S} (h : r.Within actor ⟨fun _ => True, fun _ => True⟩) :
    (∃ op, r = .perform op ∧ s.world.perform op = none ∧
        rules.reply depth deliver r s = ⟨[], .error .clockOverflow, s⟩) ∨
      ∃ x t told, rules.reply depth deliver r s = ⟨[], .ok x, t⟩ ∧
        r.Answered s.world x t.world ∧ t.mailbox.toList = s.mailbox.toList ++ told ∧
        heard actor told = r.hearers actor s.world := by
  cases r with
  | emit recipient text =>
    refine .inr ⟨(), _, [⟨recipient, text⟩], rfl, rfl, Mailbox.toList_emit _ _ _, rfl⟩
  | emitRoom room except text =>
    obtain ⟨mailbox, hemit⟩ := s.emitRoom_eq room except text
    refine .inr ⟨(), _, _, rfl, ?_, s.toList_emitRoom room except text, ?_⟩
    · change (s.emitRoom room except text).world = s.world
      rw [hemit]
    · rw [heard, List.map_map, Request.hearers]
      exact congrArg (List.filter _) (List.map_id _)
  | send who line => exact .inr ⟨(), _, [], rfl, rfl, (List.append_nil _).symm, rfl⟩
  | world => exact .inr ⟨s.world, s, [], rfl, ⟨rfl, rfl⟩, (List.append_nil _).symm, rfl⟩
  | catalogue => exact .inr ⟨_, s, [], rfl, rfl, (List.append_nil _).symm, rfl⟩
  | perform op =>
    rw [reply, Run.get_bind]
    cases hreply : s.world.perform op with
    | none => exact .inl ⟨op, rfl, hreply, rfl⟩
    | some answer =>
      exact .inr ⟨answer.1, { s with world := answer.2 }, [], rfl, hreply,
        (List.append_nil _).symm, rfl⟩
  | _ => exact absurd h (by rintro ⟨⟩)

/-- What is said of a program holds of its run. -/
theorem tells_run {p : Program S α} (h : p.Speaks actor Q s.world) :
    (p.run (rules.reply depth deliver)).Tells actor Q s := by
  induction p generalizing s Q with
  | done a => exact Run.discreet_pure.tells h
  | ask r next ih =>
    obtain ⟨hr, hnone, hnext⟩ := h
    change (Run.note (.asked r) >>= fun _ => rules.reply depth deliver r >>= fun x =>
      (next x).run (rules.reply depth deliver)).Tells actor Q s
    rcases answer_course (s := s) rules depth deliver hr with
      ⟨op, rfl, hfails, hreply⟩ | ⟨x, t, told, hreply, hanswered, hmail, hothers⟩
    · rw [Run.Tells, Run.note_bind, Run.bind_of_error hreply]
      exact ⟨[], (List.append_nil _).symm, hnone op rfl hfails⟩
    · have hasked : performed [(⟨.asked r, s⟩ : Sight S)] = r.deeds := by cases r <;> rfl
      rw [← LawfulMonad.bind_assoc]
      have hcourse : (Run.note (.asked r) >>= fun _ => rules.reply depth deliver r) s =
          ⟨[⟨.asked r, s⟩], .ok x, t⟩ := by
        rw [Run.note_bind, hreply]
      refine Run.tells_bind_of_ok hcourse hmail ((ih x (hnext x t.world hanswered)).mono ?_)
      intro ops v others hsaid
      rw [hasked, hothers]
      exact hsaid

theorem tells_execute {p : Program S α} (h : p.Speaks actor Q s.world) :
    (rules.execute depth p).Tells actor Q s :=
  tells_run h

/-! Lines where commands are registered for all only, and the actor is in no conversation. -/

variable {command : Command}

theorem tells_handle {registry : Registry (Handler S)} {origin : Origin} (hnone : Q [] s.world [])
    (hrun : ∀ d inv, Invoked registry command s.world actor d inv →
      (d.run inv).Speaks actor Q s.world) :
    (rules.handle depth registry actor command origin).Tells actor Q s := by
  refine Run.tells_gets_bind ?_
  dsimp only
  split
  · rename_i d c hd hc
    split
    · exact Run.discreet_pure.tells hnone
    · rename_i hadmin
      split
      · refine Run.Discreet.tells (Run.discreet_seq Run.discreet_reach ?_) hnone
        refine Run.ensures_reach (Run.discreet_seq Run.discreet_emit ?_)
        exact Run.ensures_update Run.discreet_pure
      · refine Run.discreet_bind Run.discreet_reach hnone (Run.ensures_reach fun _ => ?_)
        refine tells_execute (hrun d _ ⟨hd, rfl, rfl, ⟨c, hc, fun honly => ?_⟩, fun g hg => ?_⟩)
        · simpa [honly] using hadmin
        · rw [hg]
  · exact Run.discreet_pure.tells hnone

/-- Who does not answer and changes nothing is passed over. -/
theorem Silent.tells_orAsk {first second : Run S (Option Responder)} (hsilent : Silent first s)
    (hyields : first.Yields s none s) (hsecond : second.Tells actor Q s) :
    (Rules.orAsk first second).Tells actor Q s := by
  obtain ⟨seen, hfirst⟩ := hyields
  have hidle := hsilent.idle.1
  rw [hfirst] at hidle
  refine Run.tells_bind_of_ok hfirst (List.append_nil _).symm (hsecond.mono ?_)
  intro ops v others hsaid
  rw [hidle]
  exact hsaid

/-- A line says what the handler of a command says for it, if it comes to one at all. -/
theorem tells_dispatchLine (honly : rules.OnlyGlobal)
    (hquiet : activeConversation s.world s.forest actor = none) {line : String}
    (hnone : Q [] s.world [])
    (hrun : ∀ d inv, Invoked rules.registries.global (.ofLine line) s.world actor d inv →
      (d.run inv).Speaks actor Q s.world) :
    (rules.dispatchLine depth actor line).Tells actor Q s := by
  have hconversation : (rules.askConversation depth actor (.ofLine line)).Yields s none s := by
    refine Run.yields_get_bind ?_
    rw [hquiet]
    exact Run.yields_pure none s
  have hglobal : (rules.askGlobal depth actor (.ofLine line)).Tells actor Q s := by
    refine Run.discreet_bind Run.discreet_reach hnone (Run.ensures_reach fun _ => ?_)
    refine Run.tells_bind (tells_handle hnone hrun) fun _ _ => ?_
    exact Run.discreet_seq Run.discreet_reach (Run.ensures_reach Run.discreet_pure)
  have hroute : (rules.route depth actor (.ofLine line)).Tells actor Q s :=
    (silent_askConversation hquiet).tells_orAsk hconversation
      ((silent_askSurroundings honly).tells_orAsk (yields_askSurroundings honly) hglobal)
  have hrespond : (rules.respond depth actor (.ofLine line)).Tells actor Q s := by
    unfold respond
    split
    · exact Run.discreet_pure.tells hnone
    · refine Run.tells_bind hroute fun answer _ => ?_
      cases answer with
      | some responder => exact Run.discreet_pure
      | none =>
        exact Run.discreet_seq Run.discreet_emit (Run.ensures_update Run.discreet_pure)
  refine Run.discreet_bind Run.discreet_reach hnone (Run.ensures_reach fun _ => ?_)
  refine Run.tells_bind hrespond fun _ _ => ?_
  exact Run.discreet_seq Run.discreet_reach (Run.ensures_reach Run.discreet_pure)

/-- Where nothing is queued nobody is told anything. -/
theorem discreet_drainGenerations (hempty : s.followUps.toList = []) (generations : Nat) :
    (rules.drainGenerations generations).Discreet actor s := by
  cases generations with
  | zero => exact Run.discreet_update rfl rfl
  | succ generations =>
    refine Run.tells_get_bind ?_
    dsimp only
    rw [if_pos (Queue.isEmpty_iff.2 hempty)]
    exact Run.discreet_pure

/-- Where one line is queued it says what it says, if it is not too many generations down. -/
theorem tells_drainGenerations {f : FollowUp} (hqueue : s.followUps.toList = [f])
    (hnone : Q [] s.world [])
    (hline : (rules.dispatchLine f.depth f.actor f.line).Tells actor Q
      { s with followUps := .empty })
    (hrest : ∀ generations, (rules.dispatchLine f.depth f.actor f.line).Ensures
      (fun _ t => (rules.drainGenerations generations).Discreet actor t)
      { s with followUps := .empty }) (generations : Nat) :
    (rules.drainGenerations generations).Tells actor Q s := by
  cases generations with
  | zero => exact Run.Discreet.tells (Run.discreet_update rfl rfl) hnone
  | succ generations =>
    refine Run.tells_get_bind ?_
    dsimp only
    rw [if_neg (by simp [Queue.isEmpty_iff, hqueue]), hqueue]
    refine Run.discreet_bind (Run.discreet_update rfl rfl) hnone (Run.ensures_update fun _ => ?_)
    rw [dispatchQueued]
    split
    · -- Nothing else is queued beside the line, and the rest is left to what it queues.
      refine Run.tells_bind (Run.tells_bind (Run.tells_discard hline) ?_) ?_
      · exact fun _ _ => Run.discreet_pure
      · refine Run.ensures_bind (Run.ensures_discard ((hrest generations).mono fun _ t ht => ?_))
        exact Run.ensures_pure ht
    · have hdrained : (rules.drainGenerations generations).Discreet actor
          { s with followUps := .empty } := discreet_drainGenerations rfl generations
      exact Run.discreet_bind Run.discreet_pure hnone
        (Run.ensures_pure fun _ => hdrained.tells hnone)

end Rules

end TextWorld

import TextWorld.Proofs.Engine.Composition

/-!
What computations of the engine ensure. A computation ensures something from a state if it holds of
its result and of the state it leaves behind, provided that it comes to its end; it secures that if
it also breaks off for no reason but such as are allowed. What is kept by the parts of a line is
kept by the line with all its follow-ups.
-/

namespace TextWorld

variable {S : Setting} {α β : Type}

namespace Run

/-- If the computation comes to its end from this state, then so that `Q` holds. -/
def Ensures (m : Run S α) (Q : α → State S → Prop) (s : State S) : Prop :=
  ∀ a, (m s).result = .ok a → Q a (m s).state

/-- Wherever `I` holds, the computation leaves it true. -/
def Keeps (I : State S → Prop) (m : Run S α) : Prop :=
  ∀ s, I s → m.Ensures (fun _ => I) s

variable {m : Run S α} {f : α → Run S β} {s : State S} {I : State S → Prop}

theorem ensures_pure {Q : α → State S → Prop} {a : α} (h : Q a s) :
    (pure a : Run S α).Ensures Q s := by
  rintro _ ⟨⟩
  exact h

theorem ensures_bind {Q : β → State S → Prop}
    (h : m.Ensures (fun a t => (f a).Ensures Q t) s) : (m >>= f).Ensures Q s := by
  intro b hb
  obtain ⟨seen, a, t, hm, hrest, hcourse⟩ := ok_of_bind hb
  have hfirst := h a (congrArg Course.result hm)
  rw [hcourse]
  rw [hm] at hfirst
  exact hfirst b hrest

theorem Ensures.mono {Q Q' : α → State S → Prop} (h : m.Ensures Q s)
    (hQ : ∀ a t, Q a t → Q' a t) : m.Ensures Q' s :=
  fun a ha => hQ a _ (h a ha)

theorem ensures_get_bind {f : State S → Run S β} {Q : β → State S → Prop}
    (h : (f s).Ensures Q s) : ((get : Run S (State S)) >>= f).Ensures Q s := h

theorem ensures_gets_bind {g : State S → α} {Q : β → State S → Prop}
    (h : (f (g s)).Ensures Q s) : (gets g >>= f).Ensures Q s := h

theorem ensures_set {Q : Unit → State S → Prop} {t : State S} (h : Q () t) :
    (set t : Run S Unit).Ensures Q s := by
  rintro _ ⟨⟩
  exact h

theorem ensures_update {g : State S → State S} {Q : Unit → State S → Prop} (h : Q () (g s)) :
    (update g).Ensures Q s := by
  rintro _ ⟨⟩
  exact h

theorem ensures_note {e : Event S} {Q : Unit → State S → Prop} (h : Q () s) :
    (note e).Ensures Q s := by
  rintro _ ⟨⟩
  exact h

theorem ensures_reach {stage : Stage S} {Q : Unit → State S → Prop} (h : Q () s) :
    (reach stage).Ensures Q s :=
  ensures_note h

theorem ensures_breakOff (fault : Fault) (Q : α → State S → Prop) :
    (breakOff fault : Run S α).Ensures Q s := by
  rintro _ ⟨⟩

theorem ensures_discard {Q : Unit → State S → Prop} (h : m.Ensures (fun _ t => Q () t) s) :
    (discard m : Run S Unit).Ensures Q s :=
  ensures_bind (h.mono fun _ _ => ensures_pure)

theorem keeps_compositional (I : State S → Prop) : Compositional (S := S) (Keeps I) where
  pure _ _ hs := ensures_pure hs
  bind hm hf s hs := ensures_bind ((hm s hs).mono fun a t ht => hf a t ht)
  get _ hs := ensures_get_bind (f := pure) (ensures_pure hs)

theorem keeps_reach (stage : Stage S) : (reach stage).Keeps I :=
  fun _ hs => ensures_reach hs

end Run

namespace Program

variable {reply : (r : Request S) → Run S r.Reply} {s : State S} {p : Program S α}

theorem run_bind (p : Program S α) (f : α → Program S β)
    (reply : (r : Request S) → Run S r.Reply) :
    (p >>= f).run reply = p.run reply >>= fun a => (f a).run reply := by
  change (p.bind f).run reply = _
  induction p with
  | done a => rfl
  | ask r next ih => simp only [bind, run, ih, LawfulMonad.bind_assoc]

theorem ensures_run_bind {f : α → Program S β} {Q : β → State S → Prop}
    (h : (p.run reply).Ensures (fun a t => ((f a).run reply).Ensures Q t) s) :
    ((p >>= f).run reply).Ensures Q s := by
  rw [run_bind]
  exact Run.ensures_bind h

theorem ensures_run_pure {Q : α → State S → Prop} {a : α} (h : Q a s) :
    ((pure a : Program S α).run reply).Ensures Q s :=
  Run.ensures_pure h

theorem ensures_ask {r : Request S} {next : r.Reply → Program S α} {Q : α → State S → Prop}
    (h : (reply r).Ensures (fun x t => ((next x).run reply).Ensures Q t) s) :
    ((ask r next).run reply).Ensures Q s :=
  Run.ensures_bind (Run.ensures_note (Run.ensures_bind h))

theorem ensures_request {r : Request S} {Q : r.Reply → State S → Prop}
    (h : (reply r).Ensures Q s) : ((request r).run reply).Ensures Q s :=
  ensures_ask (h.mono fun _ _ => ensures_run_pure)

end Program

namespace Run

/-- From this state the run comes to its end so that `Q` holds, or breaks off with a fault that `F`
admits. -/
structure Secures (F : Fault → Prop) (m : Run S α) (Q : α → State S → Prop) (s : State S) :
    Prop where
  faults : ∀ fault, (m s).result = .error fault → F fault
  ensures : m.Ensures Q s

variable {F : Fault → Prop} {m : Run S α} {f : α → Run S β} {s t : State S} {a : α}

theorem Secures.mono {Q Q' : α → State S → Prop} (h : m.Secures F Q s)
    (hQ : ∀ a t, Q a t → Q' a t) : m.Secures F Q' s :=
  ⟨h.faults, h.ensures.mono hQ⟩

theorem Secures.and {Q Q' : α → State S → Prop} (h : m.Secures F Q s) (h' : m.Ensures Q' s) :
    m.Secures F (fun a t => Q a t ∧ Q' a t) s :=
  ⟨h.faults, fun a ha => ⟨h.ensures a ha, h' a ha⟩⟩

theorem secures_pure {Q : α → State S → Prop} (h : Q a s) : (pure a : Run S α).Secures F Q s :=
  ⟨nofun, ensures_pure h⟩

theorem secures_bind {Q : β → State S → Prop}
    (h : m.Secures F (fun a t => (f a).Secures F Q t) s) : (m >>= f).Secures F Q s := by
  refine ⟨fun fault hfault => ?_, ensures_bind (h.ensures.mono fun _ _ hrest => hrest.ensures)⟩
  rcases hm : m s with ⟨seen, other | a, t⟩
  · rw [bind_of_error hm] at hfault
    cases hfault
    exact h.faults fault (by rw [hm])
  · have hrest := h.ensures a (by rw [hm])
    rw [hm] at hrest
    rw [bind_of_ok hm] at hfault
    exact hrest.faults fault hfault

theorem secures_get_bind {f : State S → Run S β} {Q : β → State S → Prop}
    (h : (f s).Secures F Q s) : ((get : Run S (State S)) >>= f).Secures F Q s :=
  ⟨h.faults, h.ensures⟩

theorem secures_gets_bind {g : State S → α} {Q : β → State S → Prop}
    (h : (f (g s)).Secures F Q s) : (gets g >>= f).Secures F Q s :=
  ⟨h.faults, h.ensures⟩

theorem secures_update {g : State S → State S} {Q : Unit → State S → Prop} (h : Q () (g s)) :
    (update g).Secures F Q s :=
  ⟨nofun, ensures_update h⟩

theorem secures_note {e : Event S} {Q : Unit → State S → Prop} (h : Q () s) :
    (note e).Secures F Q s :=
  ⟨nofun, ensures_note h⟩

theorem secures_set {Q : Unit → State S → Prop} (h : Q () t) :
    (set t : Run S Unit).Secures F Q s :=
  secures_update h

theorem secures_discard {Q : Unit → State S → Prop} (h : m.Secures F (fun _ t => Q () t) s) :
    (discard m : Run S Unit).Secures F Q s :=
  secures_bind (h.mono fun _ _ => secures_pure)

theorem secures_reach {stage : Stage S} {Q : Unit → State S → Prop} (h : Q () s) :
    (reach stage).Secures F Q s :=
  secures_note h

theorem secures_compositional (F : Fault → Prop) (I : State S → Prop) :
    Compositional (S := S) fun m => ∀ s, I s → m.Secures F (fun _ => I) s where
  pure _ _ hs := secures_pure hs
  bind hm hf s hs := secures_bind ((hm s hs).mono fun a t ht => hf a t ht)
  get _ hs := secures_get_bind (f := pure) (secures_pure hs)

end Run

namespace Program

variable {F : Fault → Prop} {reply : (r : Request S) → Run S r.Reply} {s : State S}

theorem secures_run_bind {p : Program S α} {f : α → Program S β} {Q : β → State S → Prop}
    (h : (p.run reply).Secures F (fun a t => ((f a).run reply).Secures F Q t) s) :
    ((p >>= f).run reply).Secures F Q s := by
  rw [run_bind]
  exact Run.secures_bind h

theorem secures_ask {r : Request S} {next : r.Reply → Program S α} {Q : α → State S → Prop}
    (h : (reply r).Secures F (fun x t => ((next x).run reply).Secures F Q t) s) :
    ((ask r next).run reply).Secures F Q s :=
  Run.secures_bind (Run.secures_note (Run.secures_bind h))

theorem secures_request {r : Request S} {Q : r.Reply → State S → Prop}
    (h : (reply r).Secures F Q s) : ((request r).run reply).Secures F Q s :=
  secures_ask (h.mono fun _ _ => Run.secures_pure)

end Program

/-! What programs ask for. -/

/-- Whatever the program is told on its way, all it asks for is `ok`. -/
def Program.Asks (ok : Request S → Prop) : Program S α → Prop
  | .done _ => True
  | .ask r next => ok r ∧ ∀ x, (next x).Asks ok

namespace Program

variable {ok ok' : Request S → Prop}

theorem asks_pure (a : α) : (pure a : Program S α).Asks ok := trivial

theorem asks_request {r : Request S} (h : ok r) : (request r).Asks ok := ⟨h, fun _ => trivial⟩

theorem Asks.bind {p : Program S α} {f : α → Program S β} (hp : p.Asks ok)
    (hf : ∀ a, (f a).Asks ok) : (p >>= f).Asks ok := by
  change (p.bind f).Asks ok
  induction p with
  | done a => exact hf a
  | ask r next ih => exact ⟨hp.1, fun x => ih x (hp.2 x)⟩

theorem Asks.discard {p : Program S α} (hp : p.Asks ok) : (discard p : Program S Unit).Asks ok :=
  hp.bind fun _ => asks_pure ()

theorem Asks.mono {p : Program S α} (hp : p.Asks ok) (hok : ∀ r, ok r → ok' r) : p.Asks ok' := by
  induction p with
  | done a => trivial
  | ask r next ih => exact ⟨hok r hp.1, fun x => ih x (hp.2 x)⟩

end Program

namespace Rules

variable {rules : Rules S} {depth : Nat} {actor : CharacterId} {command : Command} {s : State S}

theorem ensures_ask {level : Responder} {answer : Run S CommandOutcome}
    {Q : Option Responder → State S → Prop}
    (h : answer.Ensures (fun outcome t => Q (if outcome.isHandled then some level else none) t) s) :
    (ask level answer).Ensures Q s :=
  Run.ensures_bind (Run.ensures_reach (Run.ensures_bind
    (h.mono fun _ _ hQ => Run.ensures_bind (Run.ensures_reach (Run.ensures_pure hQ)))))

/-- A registry leaves a line to others, keeps the actor waiting, or runs the handler of the
definition that the word stands for, with arguments that were read in the world as it is. -/
theorem ensures_handle {registry : Registry (Handler S)} {origin : Origin}
    {Q : CommandOutcome → State S → Prop} (hleft : Q .notHandled s)
    (hbarred : ∀ text, Q .blocked (s.emit actor text))
    (hrun : ∀ d c inv, registry.lookup command.word = some d → s.world.character? actor = some c →
      (d.adminOnly = true → c.isAdmin = true) → inv.actor = actor →
      (∀ g, d.grammar = some g → inv.args = g.resolve s.world actor command.params) →
      (rules.execute depth (d.run inv)).Ensures Q s) :
    (rules.handle depth registry actor command origin).Ensures Q s := by
  refine Run.ensures_gets_bind (f := fun world => _) ?_
  dsimp only
  split
  · rename_i d c hd hc
    split
    · exact Run.ensures_pure hleft
    · rename_i hadmin
      split
      · exact Run.ensures_bind (Run.ensures_reach (Run.ensures_bind
          (Run.ensures_update (Run.ensures_pure (hbarred _)))))
      · refine Run.ensures_bind (Run.ensures_reach (hrun d c _ hd hc ?_ rfl ?_))
        · intro honly
          simpa [honly] using hadmin
        · intro g hg
          rw [hg]
  · exact Run.ensures_pure hleft

/-- Only lines of the actor are queued, and they are dispatched until none is left. -/
theorem ensures_drain {I : State S → Prop}
    (hown : ∀ t, I t → ∀ f ∈ t.followUps.toList, f.actor = actor)
    (hcleared : ∀ t, I t → I { t with followUps := .empty })
    (hline : ∀ depth line, (rules.dispatchLine depth actor line).Keeps I) (hs : I s) :
    rules.drain.Ensures (fun _ t => I t ∧ t.followUps.toList = []) s := by
  have hqueued (fs : List FollowUp) (hfs : ∀ f ∈ fs, f.actor = actor) :
      (rules.dispatchQueued fs).Keeps I := by
    induction fs with
    | nil => exact fun t ht => Run.ensures_pure ht
    | cons f fs ih =>
      have hrest := ih fun g hg => hfs g (List.mem_cons_of_mem f hg)
      rw [dispatchQueued, hfs f List.mem_cons_self]
      intro t ht
      split
      · exact Run.ensures_bind (Run.ensures_discard ((hline _ _ t ht).mono fun _ => hrest))
      · exact hrest t ht
  have hgenerations (generations : Nat) (t : State S) (ht : I t) :
      (rules.drainGenerations generations).Ensures
        (fun _ t => I t ∧ t.followUps.toList = []) t := by
    induction generations generalizing t with
    | zero => exact Run.ensures_update ⟨hcleared t ht, rfl⟩
    | succ generations ih =>
      refine Run.ensures_get_bind ?_
      dsimp only
      split
      · rename_i hempty
        exact Run.ensures_pure ⟨ht, Queue.isEmpty_iff.1 hempty⟩
      · refine Run.ensures_bind (Run.ensures_update (Run.ensures_bind ?_))
        exact (hqueued _ (hown t ht) _ (hcleared t ht)).mono fun _ => ih
  exact hgenerations _ s hs

end Rules

end TextWorld

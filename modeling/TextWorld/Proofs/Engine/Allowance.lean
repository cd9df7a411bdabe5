import TextWorld.Proofs.Engine.Going

/-!
Room for deliveries. The limit on how many of them bring about one another is there for those that
would do so for ever; a computation that ends within the limit takes the same course under every
larger one.
-/

namespace TextWorld

variable {S : Setting} {α β : Type}

/-- The same rules with room for so many deliveries in a row. -/
def Rules.allowing (rules : Rules S) (n : Nat) : Rules S := { rules with maxDeliveries := n }

namespace Rules

@[simp] theorem config_allowing (rules : Rules S) (n : Nat) :
    (rules.allowing n).config = rules.config := rfl

@[simp] theorem registries_allowing (rules : Rules S) (n : Nat) :
    (rules.allowing n).registries = rules.registries := rfl

@[simp] theorem hooks_allowing (rules : Rules S) (n : Nat) :
    (rules.allowing n).hooks = rules.hooks := rfl

@[simp] theorem behaviour_allowing (rules : Rules S) (n : Nat) :
    (rules.allowing n).behaviour = rules.behaviour := rfl

end Rules

/-- With more room a course is the same, or it goes on from where it had no more room. -/
structure Course.ExtendsTo (c c' : Course S α) : Prop where
  same : c.result ≠ .error .endlessDeliveries → c' = c
  sights : c.sights <+: c'.sights

namespace Course.ExtendsTo

variable {c c' c'' : Course S α}

theorem refl (c : Course S α) : c.ExtendsTo c := ⟨fun _ => rfl, List.prefix_refl _⟩

theorem trans (h : c.ExtendsTo c') (h' : c'.ExtendsTo c'') : c.ExtendsTo c'' := by
  refine ⟨fun hends => ?_, h.sights.trans h'.sights⟩
  have hsame := h.same hends
  rw [hsame] at h'
  exact h'.same hends

end Course.ExtendsTo

namespace Run

/-- The computation needs no room. -/
def Roomless (m : Run S α) : Prop := ∀ s, (m s).result ≠ .error .endlessDeliveries

variable {m : Run S α} {f : α → Run S β}

theorem roomless_pure (a : α) : (pure a : Run S α).Roomless := fun _ => nofun

theorem roomless_get : (get : Run S (State S)).Roomless := fun _ => nofun

theorem roomless_gets (f : State S → α) : (gets f).Roomless := fun _ => nofun

theorem roomless_set (s : State S) : (set s : Run S Unit).Roomless := fun _ => nofun

theorem roomless_update (f : State S → State S) : (update f).Roomless := fun _ => nofun

theorem roomless_note (e : Event S) : (note e).Roomless := fun _ => nofun

theorem roomless_overflow : (breakOff .clockOverflow : Run S α).Roomless := fun _ => nofun

theorem Roomless.bind (hm : m.Roomless) (hf : ∀ a, (f a).Roomless) : (m >>= f).Roomless := by
  intro s
  have hfirst := hm s
  rcases hcourse : m s with ⟨seen, fault | a, t⟩
  · rw [bind_of_error hcourse]
    rintro ⟨⟩
    exact hfirst (congrArg Course.result hcourse)
  · rw [bind_of_ok hcourse]
    exact hf a t

end Run

namespace Rules

/-- Nothing but an end makes a delivery. -/
theorem reply_congr (rules : Rules S) (depth : Nat) (deliver deliver' : Delivery S → Run S Unit)
    {r : Request S} (hr : ∀ id data, r ≠ .finish id data) :
    rules.reply depth deliver r = rules.reply depth deliver' r := by
  cases r with
  | finish id data => exact absurd rfl (hr id data)
  | _ => rfl

theorem roomless_reply (rules : Rules S) (depth : Nat) (deliver : Delivery S → Run S Unit)
    {r : Request S} (hr : ∀ id data, r ≠ .finish id data) :
    (rules.reply depth deliver r).Roomless := by
  intro s hcut
  cases ((reply_course rules depth deliver r hr s).2.2 _ hcut).1

end Rules

/-- Holds of what needs no room, and of one thing after another if it holds of both; what is done is
given for each limit. -/
structure Uniform (P : ∀ {α : Type}, (Nat → Run S α) → Prop) : Prop where
  const : ∀ {α : Type} {m : Run S α}, m.Roomless → P fun _ => m
  bind : ∀ {α β : Type} {m : Nat → Run S α} {f : Nat → α → Run S β}, P m →
    (∀ a, P fun n => f n a) → P fun n => m n >>= f n

namespace Uniform

variable {P : ∀ {α : Type}, (Nat → Run S α) → Prop} {rules : Rules S} {depth : Nat}
variable {deliver : Nat → Delivery S → Run S Unit}

section

variable (h : Uniform P)
include h

theorem pure (a : α) : P fun _ => (Pure.pure a : Run S α) := h.const (Run.roomless_pure a)

theorem get {f : Nat → State S → Run S β} (hf : ∀ s, P fun n => f n s) :
    P fun n => MonadState.get >>= f n :=
  h.bind (h.const Run.roomless_get) hf

theorem gets {γ : Type} (g : State S → γ) {f : Nat → γ → Run S β} (hf : ∀ x, P fun n => f n x) :
    P fun n => Run.gets g >>= f n :=
  h.bind (h.const (Run.roomless_gets g)) hf

theorem update (g : State S → State S) {f : Nat → Unit → Run S β} (hf : P fun n => f n ()) :
    P fun n => Run.update g >>= f n :=
  h.bind (h.const (Run.roomless_update g)) fun _ => hf

theorem note (e : Event S) {f : Nat → Unit → Run S β} (hf : P fun n => f n ()) :
    P fun n => Run.note e >>= f n :=
  h.bind (h.const (Run.roomless_note e)) fun _ => hf

theorem reach (stage : Stage S) {f : Nat → Unit → Run S β} (hf : P fun n => f n ()) :
    P fun n => Run.reach stage >>= f n :=
  h.note _ hf

theorem discard {m : Nat → Run S α} (hm : P m) : P fun n => (discard (m n) : Run S Unit) :=
  h.bind hm fun _ => h.pure ()

theorem orAsk {first second : Nat → Run S (Option Responder)} (hfirst : P first)
    (hsecond : P second) : P fun n => Rules.orAsk (first n) (second n) := by
  refine h.bind hfirst fun answer => ?_
  cases answer with
  | some responder => exact h.pure _
  | none => exact hsecond

theorem ask (level : Responder) {answer : Nat → Run S CommandOutcome} (hanswer : P answer) :
    P fun n => Rules.ask level (answer n) :=
  h.reach _ (h.bind hanswer fun _ => h.reach _ (h.pure _))

/-! What is done with programs and callbacks, for any way of delivering. -/

section

variable (hd : ∀ d, P fun n => deliver n d)
include hd

theorem finish (id : ConversationId) (data : Value) :
    P fun n => Rules.finish (deliver n) id data := by
  refine h.get fun s => ?_
  split
  · exact h.pure _
  · rename_i c _
    refine h.get fun below => h.update _ (h.note _ ?_)
    dsimp only
    split
    · exact h.bind (hd _) fun _ => h.pure _
    · exact h.bind (hd _) fun _ => h.pure _
    · exact h.pure _

theorem reply (r : Request S) : P fun n => rules.reply depth (deliver n) r := by
  rcases r.finish_or_other with ⟨id, data, rfl⟩ | hother
  · exact h.finish hd id data
  · simp only [fun n => Rules.reply_congr rules depth (deliver n) (deliver 0) hother]
    exact h.const (Rules.roomless_reply rules depth (deliver 0) hother)

theorem run (p : Program S α) : P fun n => p.run (rules.reply depth (deliver n)) := by
  induction p with
  | done a => exact h.pure a
  | ask r next ih => exact h.note _ (h.bind (h.reply hd r) ih)

theorem callback (id : ConversationId) (occasion : Occasion)
    (body : S.Talk → Program S (α × S.Talk)) :
    P fun n => rules.callback depth (deliver n) id occasion body := by
  refine h.get fun s => ?_
  split
  · exact h.pure none
  · refine h.update _ (h.note _ (h.bind (h.run hd _) fun result => ?_))
    exact h.update _ (h.note _ (h.pure _))

theorem handOn (id : ConversationId) : P fun n => Rules.handOn (deliver n) id := by
  refine h.get fun s => ?_
  split
  · exact h.pure ()
  · exact h.update _ (hd _)

end

/-- A delivery is made with what it brings about, for which there is room for one less. -/
theorem deliver_succ (hd : ∀ d, P fun n => rules.deliver depth n d) (d : Delivery S) :
    P fun n => rules.deliver depth (n + 1) d := by
  cases d with
  | toEnding id ending data => exact h.note _ (h.run hd _)
  | toParent parent data =>
    refine h.get fun s => ?_
    split
    · exact h.const (Run.roomless_update _)
    · exact h.bind (h.callback hd _ _ _) fun _ => h.handOn hd _

end

end Uniform

namespace Rules

variable {P : ∀ {α : Type}, (Nat → Run S α) → Prop} {rules : Rules S} {depth : Nat}

theorem deliver_allowing (rules : Rules S) (n depth count : Nat) :
    (rules.allowing n).deliver depth count = rules.deliver depth count := by
  induction count with
  | zero => rfl
  | succ count ih =>
    funext d
    cases d with
    | toEnding id ending data =>
      rw [deliver, deliver, ih]
      rfl
    | toParent parent data =>
      rw [deliver, deliver, ih]
      rfl

theorem withTalk_allowing (rules : Rules S) (n depth : Nat) (id : ConversationId)
    (occasion : Occasion) (body : S.Talk → Program S (α × S.Talk)) :
    (rules.allowing n).withTalk depth id occasion body = (do
      let result ← rules.callback depth (rules.deliver depth n) id occasion body
      if result.isSome then handOn (rules.deliver depth n) id
      pure result) := by
  rw [withTalk]
  simp only [deliver_allowing]
  rfl

theorem roomless_passTime (delta : Duration) : (passTime delta : Run S Unit).Roomless := by
  refine (Run.roomless_note _).bind fun _ => Run.roomless_get.bind fun s => ?_
  split
  · exact Run.roomless_overflow
  · exact Run.roomless_update _

theorem roomless_takeDue (through : Nat) :
    (takeDue through : Run S (Option ScheduledLine)).Roomless := by
  refine Run.roomless_get.bind fun s => ?_
  split
  · exact Run.roomless_pure none
  · exact (Run.roomless_note _).bind fun _ => (Run.roomless_set _).bind fun _ =>
      Run.roomless_pure _

/-! What is done by rules that have room for so many deliveries. -/

section

variable (h : Uniform P) (hd : ∀ depth d, P fun n => rules.deliver depth n d)
include h hd

theorem uniform_execute (depth : Nat) (p : Program S α) :
    P fun n => (rules.allowing n).execute depth p := by
  have hrun (n : Nat) : (rules.allowing n).execute depth p =
      p.run (rules.reply depth (rules.deliver depth n)) := by
    rw [execute, deliver_allowing]
    rfl
  simp only [hrun]
  exact h.run (hd depth) p

theorem uniform_withTalk (depth : Nat) (id : ConversationId) (occasion : Occasion)
    (body : S.Talk → Program S (α × S.Talk)) :
    P fun n => (rules.allowing n).withTalk depth id occasion body := by
  simp only [withTalk_allowing]
  refine h.bind (h.callback (hd depth) id occasion body) fun result => ?_
  cases result with
  | none => exact h.pure none
  | some a => exact h.bind (h.handOn (hd depth) id) fun _ => h.pure _

theorem uniform_turn (id : ConversationId) :
    P fun n => (rules.allowing n).tickConversation id := by
  simp only [tickConversation, behaviour_allowing]
  exact h.reach _ (h.discard (uniform_withTalk h hd 0 id .tick _))

theorem uniform_handle (depth : Nat) (registry : Registry (Handler S)) (actor : CharacterId)
    (command : Command) (origin : Origin) :
    P fun n => (rules.allowing n).handle depth registry actor command origin := by
  simp only [handle, config_allowing]
  refine h.gets _ fun world => ?_
  split
  · split
    · exact h.pure _
    · split
      · exact h.reach _ (h.update _ (h.pure _))
      · exact h.reach _ (uniform_execute h hd depth _)
  · exact h.pure _

theorem uniform_askLevel (depth : Nat) (level : Responder) (registry : Registry (Handler S))
    (actor : CharacterId) (command : Command) (origin : Origin) :
    P fun n => ask level ((rules.allowing n).handle depth registry actor command origin) :=
  h.ask level (uniform_handle h hd depth registry actor command origin)

theorem uniform_askCharacters (depth : Nat) (actor : CharacterId) (command : Command)
    (others : List CharacterId) :
    P fun n => (rules.allowing n).askCharacters depth actor command others := by
  induction others with
  | nil => exact h.pure none
  | cons other others ih =>
    simp only [askCharacters, registries_allowing]
    split
    · exact ih
    · exact h.orAsk (uniform_askLevel h hd depth _ _ actor command _) ih

theorem uniform_askSurroundings (depth : Nat) (actor : CharacterId) (command : Command) :
    P fun n => (rules.allowing n).askSurroundings depth actor command := by
  simp only [askSurroundings, askRoom, askOccupants, registries_allowing]
  refine h.get fun s => ?_
  split
  · exact h.pure none
  · refine h.orAsk ?_ (h.gets _ fun occupants => uniform_askCharacters h hd depth actor command _)
    split
    · exact h.pure none
    · exact uniform_askLevel h hd depth _ _ actor command _

theorem uniform_askConversation (depth : Nat) (actor : CharacterId) (command : Command) :
    P fun n => (rules.allowing n).askConversation depth actor command := by
  simp only [askConversation, offer, behaviour_allowing]
  refine h.get fun s => ?_
  split
  · exact h.pure none
  · rename_i id _
    refine h.ask _ (h.bind ?_ fun result => h.pure _)
    exact uniform_withTalk h hd depth id _ _

theorem uniform_dispatchLine (depth : Nat) (actor : CharacterId) (line : String) :
    P fun n => (rules.allowing n).dispatchLine depth actor line := by
  simp only [dispatchLine, respond, route, askGlobal, registries_allowing, config_allowing]
  refine h.reach _ (h.bind ?_ fun outcome => h.reach _ (h.pure outcome))
  split
  · exact h.pure _
  · refine h.bind ?_ fun answer => ?_
    · refine h.orAsk (uniform_askConversation h hd depth actor _) (h.orAsk ?_ ?_)
      · exact uniform_askSurroundings h hd depth actor _
      · exact uniform_askLevel h hd depth _ _ actor _ _
    · cases answer with
      | some responder => exact h.pure _
      | none => exact h.update _ (h.pure _)

theorem uniform_dispatchQueued (queued : List FollowUp) :
    P fun n => (rules.allowing n).dispatchQueued queued := by
  induction queued with
  | nil => exact h.pure ()
  | cons f queued ih =>
    simp only [dispatchQueued, config_allowing]
    by_cases hdepth : f.depth ≤ rules.config.maxFollowUpDepth
    · simp only [hdepth, if_true]
      exact h.bind (h.discard (uniform_dispatchLine h hd _ _ _)) fun _ => ih
    · simp only [hdepth, if_false]
      exact ih

theorem uniform_drainGenerations (generations : Nat) :
    P fun n => (rules.allowing n).drainGenerations generations := by
  induction generations with
  | zero => exact h.const (Run.roomless_update _)
  | succ generations ih =>
    refine h.get fun s => ?_
    dsimp only
    split
    · exact h.pure ()
    · exact h.update _ (h.bind (uniform_dispatchQueued h hd _) fun _ => ih)

theorem uniform_drain : P fun n => (rules.allowing n).drain := by
  simp only [drain, config_allowing]
  exact uniform_drainGenerations h hd _

theorem uniform_dispatch (actor : CharacterId) (line : String) :
    P fun n => (rules.allowing n).dispatch actor line := by
  refine h.bind (uniform_dispatchLine h hd 0 actor line) fun outcome => ?_
  exact h.bind (uniform_drain h hd) fun _ => h.pure outcome

theorem uniform_withContext (p : Program S α) :
    P fun n => (rules.allowing n).withContext p := by
  refine h.reach _ (h.bind (uniform_execute h hd 0 p) fun a => ?_)
  exact h.bind (uniform_drain h hd) fun _ => h.pure a

theorem uniform_fireDue (through count : Nat) :
    P fun n => (rules.allowing n).fireDue through count := by
  induction count with
  | zero => exact h.pure ()
  | succ count ih =>
    refine h.bind (h.const (roomless_takeDue through)) fun fired => ?_
    cases fired with
    | none => exact h.pure ()
    | some line => exact h.bind (h.discard (uniform_dispatch h hd _ _)) fun _ => ih

theorem uniform_tickConversations (ids : List ConversationId) :
    P fun n => (rules.allowing n).tickConversations ids := by
  induction ids with
  | nil => exact h.pure ()
  | cons id ids ih => exact h.bind (uniform_turn h hd id) fun _ => ih

theorem uniform_runHooks (delta : Duration) (hooks : List (TickHook S)) :
    P fun n => (rules.allowing n).runHooks delta hooks := by
  induction hooks with
  | nil => exact h.pure ()
  | cons hook hooks ih => exact h.reach _ (h.bind (uniform_execute h hd 0 _) fun _ => ih)

theorem uniform_tick (delta : Duration) : P fun n => (rules.allowing n).tick delta := by
  refine h.bind (h.const (roomless_passTime delta)) fun _ => h.gets _ fun scheduler => ?_
  refine h.bind (uniform_fireDue h hd _ _) fun _ => h.gets _ fun active => ?_
  refine h.bind (uniform_tickConversations h hd active) fun _ => ?_
  exact h.bind (uniform_runHooks h hd delta _) fun _ => uniform_drain h hd

end

end Rules

/-! What more room makes of a course. -/

/-- With room for one more the course is the same, or it goes on. -/
def Steady (n : Nat) (m : Nat → Run S α) : Prop := ∀ s, (m n s).ExtendsTo (m (n + 1) s)

theorem Run.sights_bind (m : Run S α) (f : α → Run S β) (s : State S) :
    (m s).sights <+: ((m >>= f) s).sights := by
  rcases hcourse : m s with ⟨seen, fault | a, t⟩
  · have hsame : ((m >>= f) s).sights = seen := congrArg Course.sights (bind_of_error hcourse)
    exact hsame ▸ List.prefix_refl seen
  · rw [bind_of_ok hcourse]
    exact List.prefix_append _ _

theorem Course.ExtendsTo.bind {m m' : Run S α} {f f' : α → Run S β} {s : State S}
    (h : (m s).ExtendsTo (m' s)) (hf : ∀ a t, (f a t).ExtendsTo (f' a t)) :
    ((m >>= f) s).ExtendsTo ((m' >>= f') s) := by
  obtain ⟨hsame, hsights⟩ := h
  rcases hcourse : m s with ⟨seen, fault | a, t⟩
  · -- It may be the lack of room that broke it off, and then the rest comes on top.
    rw [hcourse] at hsame hsights
    rw [Run.bind_of_error hcourse]
    constructor
    · intro hends
      have hfirst : m' s = ⟨seen, .error fault, t⟩ := hsame fun hcut => hends (by cases hcut; rfl)
      rw [Run.bind_of_error hfirst]
    · exact hsights.trans (Run.sights_bind m' f' s)
  · rw [hcourse] at hsame
    have hfirst : m' s = ⟨seen, .ok a, t⟩ := hsame nofun
    obtain ⟨hsame', hsights'⟩ := hf a t
    rw [Run.bind_of_ok hcourse, Run.bind_of_ok hfirst]
    constructor
    · intro hends
      rw [hsame' hends]
    · exact (List.prefix_append_right_inj seen).2 hsights'

theorem steady_uniform (n : Nat) : Uniform (S := S) (Steady n) where
  const _ _ := .refl _
  bind hm hf s := (hm s).bind fun a t => hf a t

/-- By the room there is: what a delivery brings about has room for one less. -/
theorem Rules.steady_deliver (rules : Rules S) (depth n : Nat) (d : Delivery S) :
    Steady n fun n => rules.deliver depth n d := by
  induction n generalizing d with
  | zero => exact fun s => ⟨fun hends => absurd rfl hends, List.nil_prefix⟩
  | succ n ih => exact (steady_uniform n).deliver_succ ih d

theorem Steady.extendsTo {m : Nat → Run S α} (h : ∀ n, Steady n m) (s : State S) {n n' : Nat}
    (hle : n ≤ n') : (m n s).ExtendsTo (m n' s) := by
  obtain ⟨more, rfl⟩ := Nat.exists_eq_add_of_le hle
  clear hle
  induction more with
  | zero => exact .refl _
  | succ more ih => exact ih.trans (h (n + more) s)

end TextWorld

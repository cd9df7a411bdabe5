import TextWorld.Proofs.Engine.Ensuring
import TextWorld.Proofs.World.Errands

/-!
Tame programs. A program is tame if it only tells things, remembers things, queues lines for its
actor and does errands for it. Whatever it is told on its way, it leaves the conversations alone.
-/

namespace TextWorld

open World (Errand Errands)

variable {S : Setting} {α β : Type}

/-- What a tame program may ask for, in a world as it is. -/
def Request.Tame (w : World) (actor : CharacterId) : Request S → Prop
  | .emit .. | .emitRoom .. | .world | .catalogue | .getMemory | .setMemory _ | .add .. => True
  | .send who _ => who = actor
  | .perform op => w.Allows actor op
  | _ => False

/-- What a tame request can be answered with, and the world that there is then. -/
def Request.Answered (w : World) : (r : Request S) → r.Reply → World → Prop
  | .perform op, x, v => w.perform op = some (x, v)
  | .world, x, v => x = w ∧ v = w
  | _, _, v => v = w

/-- The program makes tame requests only, whatever they are answered with. -/
def Program.Tame (actor : CharacterId) : Program S α → World → Prop
  | .done _, _ => True
  | .ask r next, w => r.Tame w actor ∧ ∀ x v, r.Answered w x v → (next x).Tame actor v

/-- What tame programs of an actor do to the state: they do errands and queue lines. -/
structure State.Tamely (actor : CharacterId) (s t : State S) : Prop where
  errands : Errands actor s.world t.world
  forest : t.forest = s.forest
  followUps : ∀ f ∈ t.followUps.toList, f ∈ s.followUps.toList ∨ f.actor = actor

namespace State.Tamely

variable {actor : CharacterId} {s t u : State S}

theorem refl (s : State S) : s.Tamely actor s := ⟨.refl, rfl, fun _ hf => .inl hf⟩

theorem trans (h : s.Tamely actor t) (h' : t.Tamely actor u) : s.Tamely actor u where
  errands := Relation.ReflTransGen.trans h.errands h'.errands
  forest := h'.forest.trans h.forest
  followUps f hf := by
    rcases h'.followUps f hf with hold | hnew
    · exact h.followUps f hold
    · exact .inr hnew

theorem emit (s : State S) (recipient : CharacterId) (text : String) :
    s.Tamely actor (s.emit recipient text) :=
  ⟨.refl, rfl, fun _ hf => .inl hf⟩

end State.Tamely

namespace Program

variable {actor : CharacterId} {w : World}

theorem tame_pure (a : α) : (pure a : Program S α).Tame actor w := trivial

theorem Tame.bind {p : Program S α} {f : α → Program S β} (hp : p.Tame actor w)
    (hf : ∀ a v, (f a).Tame actor v) : (p >>= f).Tame actor w := by
  change (p.bind f).Tame actor w
  induction p generalizing w with
  | done a => exact hf a w
  | ask r next ih => exact ⟨hp.1, fun x v hx => ih x (hp.2 x v hx)⟩

/-! What a program goes on with once a tame request is answered. -/

theorem tame_emit_bind {recipient : CharacterId} {text : String}
    {f : Unit → Program S β} : (emit recipient text >>= f).Tame actor w ↔ (f ()).Tame actor w :=
  ⟨fun h => h.2 () w rfl, fun h => ⟨trivial, fun _ _ hv => by cases hv; exact h⟩⟩

theorem tame_emitRoom_bind {room : RoomId} {except : Option CharacterId} {text : String}
    {f : Unit → Program S β} :
    (emitRoom room except text >>= f).Tame actor w ↔ (f ()).Tame actor w :=
  ⟨fun h => h.2 () w rfl, fun h => ⟨trivial, fun _ _ hv => by cases hv; exact h⟩⟩

theorem tame_emitRoom {room : RoomId} {except : Option CharacterId} {text : String} :
    (emitRoom room except text : Program S Unit).Tame actor w :=
  ⟨trivial, fun _ _ _ => trivial⟩

theorem tame_send_bind {who : CharacterId} {line : String} {f : Unit → Program S β} :
    (send who line >>= f).Tame actor w ↔ who = actor ∧ (f ()).Tame actor w :=
  ⟨fun h => ⟨h.1, h.2 () w rfl⟩, fun h => ⟨h.1, fun _ _ hv => by cases hv; exact h.2⟩⟩

theorem tame_world_bind {f : World → Program S β} :
    (world >>= f).Tame actor w ↔ (f w).Tame actor w :=
  ⟨fun h => h.2 w w ⟨rfl, rfl⟩,
    fun h => ⟨trivial, fun _ _ hv => by obtain ⟨rfl, rfl⟩ := hv; exact h⟩⟩

theorem tame_catalogue_bind {f : Registries Unit → Program S β} :
    (catalogue >>= f).Tame actor w ↔ ∀ c, (f c).Tame actor w :=
  ⟨fun h c => h.2 c w rfl, fun h => ⟨trivial, fun c _ hv => by cases hv; exact h c⟩⟩

theorem tame_getMemory_bind {f : S.Memory → Program S β} :
    (getMemory >>= f).Tame actor w ↔ ∀ memory, (f memory).Tame actor w :=
  ⟨fun h memory => h.2 memory w rfl,
    fun h => ⟨trivial, fun memory _ hv => by cases hv; exact h memory⟩⟩

theorem tame_setMemory_bind {memory : S.Memory} {f : Unit → Program S β} :
    (setMemory memory >>= f).Tame actor w ↔ (f ()).Tame actor w :=
  ⟨fun h => h.2 () w rfl, fun h => ⟨trivial, fun _ _ hv => by cases hv; exact h⟩⟩

theorem tame_add_bind {a b : Duration} {f : Duration → Program S β} :
    (add a b >>= f).Tame actor w ↔ ∀ sum, (f sum).Tame actor w :=
  ⟨fun h sum => h.2 sum w rfl, fun h => ⟨trivial, fun sum _ hv => by cases hv; exact h sum⟩⟩

theorem tame_perform_bind {op : World.Op} {f : Except Error op.Result → Program S β}
    (hallows : w.Allows actor op) (hf : ∀ x v, (f x).Tame actor v) :
    (perform op >>= f).Tame actor w :=
  ⟨hallows, fun x v _ => hf x v⟩

end Program

namespace Rules

variable {rules : Rules S} {depth : Nat} {deliver : Delivery S → Run S Unit}
variable {actor : CharacterId} {s : State S}

/-- A tame request is answered as the world has it, and is done tamely. -/
theorem reply_tame {r : Request S} (h : r.Tame s.world actor) :
    (rules.reply depth deliver r).Ensures
      (fun x t => r.Answered s.world x t.world ∧ s.Tamely actor t) s := by
  cases r with
  | emit recipient text => exact Run.ensures_update ⟨rfl, .emit s recipient text⟩
  | emitRoom room except text =>
    obtain ⟨mailbox, hemit⟩ := s.emitRoom_eq room except text
    refine Run.ensures_update ?_
    rw [hemit]
    exact ⟨rfl, .refl, rfl, fun _ hf => .inl hf⟩
  | send who line =>
    refine Run.ensures_update ⟨rfl, .refl, rfl, fun f hf => ?_⟩
    rw [Queue.toList_push, List.mem_append, List.mem_singleton] at hf
    rcases hf with hold | rfl
    · exact .inl hold
    · exact .inr h
  | perform op =>
    refine Run.ensures_get_bind ?_
    cases hop : s.world.perform op with
    | none => exact Run.ensures_breakOff _ _
    | some reply =>
      refine Run.ensures_bind (Run.ensures_update (Run.ensures_pure ⟨hop, ?_⟩))
      exact ⟨.single ⟨op, reply, h, hop, rfl⟩, rfl, fun _ hf => .inl hf⟩
  | world => exact Run.ensures_gets_bind (f := pure) (Run.ensures_pure ⟨⟨rfl, rfl⟩, .refl s⟩)
  | catalogue => exact Run.ensures_pure ⟨rfl, .refl s⟩
  | getMemory => exact Run.ensures_gets_bind (f := pure) (Run.ensures_pure ⟨rfl, .refl s⟩)
  | setMemory memory => exact Run.ensures_update ⟨rfl, .refl, rfl, fun _ hf => .inl hf⟩
  | add a b =>
    rw [reply]
    cases a.add? b with
    | none => exact Run.ensures_breakOff _ _
    | some sum => exact Run.ensures_pure ⟨rfl, .refl s⟩
  | _ => exact absurd h (by rintro ⟨⟩)

/-- A tame program does tame things, one after another. -/
theorem run_tamely {p : Program S α} (h : p.Tame actor s.world) :
    (p.run (rules.reply depth deliver)).Ensures (fun _ t => s.Tamely actor t) s := by
  induction p generalizing s with
  | done a => exact Run.ensures_pure (.refl s)
  | ask r next ih =>
    refine Program.ensures_ask ((reply_tame h.1).mono fun x t ht => ?_)
    exact (ih x (h.2 x t.world ht.1)).mono fun _ _ hmore => ht.2.trans hmore

/-- What follows a tame program starts from what the program has left. -/
theorem ensures_tame_bind {p : Program S α} {f : α → Program S β} {Q : β → State S → Prop}
    (hp : p.Tame actor s.world)
    (hf : ∀ a t, s.Tamely actor t → ((f a).run (rules.reply depth deliver)).Ensures Q t) :
    ((p >>= f).run (rules.reply depth deliver)).Ensures Q s :=
  Program.ensures_run_bind ((run_tamely hp).mono hf)

end Rules

end TextWorld

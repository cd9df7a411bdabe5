import TextWorld.Proofs.Engine.Mirroring
import TextWorld.Proofs.World.Veiling

/-!
Programs that take no notice of an exit. They go on in the same way whether they are shown the world
with it or the one without it, and do nothing to it. Run in both worlds they leave two worlds that
differ in that exit only.
-/

namespace TextWorld

variable {S : Setting} {α β : Type} {room : RoomId} {d : Direction} {e : Exit} {w : World}

/-- From this world on the program takes no notice of the exit in a direction of a room. -/
inductive Program.Heedless (room : RoomId) (d : Direction) : Program S α → World → Prop
  | done (a : α) (w : World) : Heedless room d (.done a) w
  | emit {recipient : CharacterId} {text : String} {next : Unit → Program S α} {w : World} :
    Heedless room d (next ()) w → Heedless room d (.ask (.emit recipient text) next) w
  | emitRoom {here : RoomId} {except : Option CharacterId} {text : String}
    {next : Unit → Program S α} {w : World} :
    Heedless room d (next ()) w → Heedless room d (.ask (.emitRoom here except text) next) w
  | send {actor : CharacterId} {line : String} {next : Unit → Program S α} {w : World} :
    Heedless room d (next ()) w → Heedless room d (.ask (.send actor line) next) w
  | catalogue {next : Registries Unit → Program S α} {w : World} :
    (∀ registries, Heedless room d (next registries) w) →
      Heedless room d (.ask .catalogue next) w
  | world {next : World → Program S α} {w : World} :
    next (w.without room d) = next w → Heedless room d (next w) w →
      Heedless room d (.ask .world next) w
  | perform {op : World.Op} {next : Except Error op.Result → Program S α} {w : World} :
    w.Spares op → (∀ x v, w.perform op = some (x, v) → Heedless room d (next x) v) →
      Heedless room d (.ask (.perform op) next) w

namespace Program

theorem heedless_pure (a : α) : (pure a : Program S α).Heedless room d w := .done a w

theorem Heedless.bind {p : Program S α} {f : α → Program S β} (hp : p.Heedless room d w)
    (hf : ∀ a v, (f a).Heedless room d v) : (p >>= f).Heedless room d w := by
  change (p.bind f).Heedless room d w
  induction hp with
  | done a w => exact hf a w
  | emit _ ih => exact .emit ih
  | emitRoom _ ih => exact .emitRoom ih
  | send _ ih => exact .send ih
  | catalogue _ ih => exact .catalogue ih
  | world hsame _ ih => exact .world (congrArg (Program.bind · f) hsame) ih
  | perform hspares _ ih => exact .perform hspares ih

/-! What a program goes on with once a request is answered. -/

theorem heedless_emit_bind {recipient : CharacterId} {text : String} {f : Unit → Program S β}
    (h : (f ()).Heedless room d w) : (Program.emit recipient text >>= f).Heedless room d w :=
  .emit h

theorem heedless_emitRoom_bind {here : RoomId} {except : Option CharacterId} {text : String}
    {f : Unit → Program S β} (h : (f ()).Heedless room d w) :
    (Program.emitRoom here except text >>= f).Heedless room d w :=
  .emitRoom h

theorem heedless_send_bind {actor : CharacterId} {line : String} {f : Unit → Program S β}
    (h : (f ()).Heedless room d w) : (Program.send actor line >>= f).Heedless room d w :=
  .send h

theorem heedless_catalogue_bind {f : Registries Unit → Program S β}
    (h : ∀ registries, (f registries).Heedless room d w) :
    (Program.catalogue >>= f).Heedless room d w :=
  .catalogue h

theorem heedless_world_bind {f : World → Program S β} (hsame : f (w.without room d) = f w)
    (h : (f w).Heedless room d w) : (Program.world >>= f).Heedless room d w :=
  .world hsame h

theorem heedless_perform_bind {op : World.Op} {f : Except Error op.Result → Program S β}
    (hspares : w.Spares op) (h : ∀ x v, (f x).Heedless room d v) :
    (Program.perform op >>= f).Heedless room d w :=
  .perform hspares fun x v _ => h x v

end Program

/-- Two states that differ only in an exit with a closed secret door, which the second lacks, while
nobody is in a conversation. -/
structure State.Veils (room : RoomId) (d : Direction) (e : Exit) (s t : State S) : Prop where
  eq : t = { s with world := s.world.without room d }
  quiet : s.forest.isEmpty = true
  filed : s.world.Filed
  concealed : s.world.Concealed room d e

namespace State.Veils

variable {s t : State S}

/-- Who is in a room is told the same in both. -/
theorem emitRoom (h : s.Veils room d e t) (here : RoomId) (except : Option CharacterId)
    (text : String) :
    (s.emitRoom here except text).Veils room d e (t.emitRoom here except text) := by
  obtain ⟨rfl, hquiet, hfiled, hconcealed⟩ := h
  have hfold (ids : List CharacterId) (s : State S) :
      ids.foldl (fun s id => s.emit id text) { s with world := s.world.without room d } =
        { ids.foldl (fun s id => s.emit id text) s with
          world := (ids.foldl (fun s id => s.emit id text) s).world.without room d } := by
    induction ids generalizing s with
    | nil => rfl
    | cons id ids ih => exact ih (s.emit id text)
  obtain ⟨mailbox, hmailbox⟩ := s.emitRoom_eq here except text
  refine ⟨?_, by rw [hmailbox]; exact hquiet, by rw [hmailbox]; exact hfiled,
    by rw [hmailbox]; exact hconcealed⟩
  unfold State.emitRoom
  rcases s.world.room?_without_cases room d here with ⟨h, h'⟩ | ⟨r, exits, h, h'⟩
  all_goals rw [h, h']
  exact hfold _ s

theorem perform (h : s.Veils room d e t) {op : World.Op} (hs : s.world.Spares op)
    {reply : World.Reply op.Result} (hr : s.world.perform op = some reply) :
    State.Veils room d e { s with world := reply.2 }
      { t with world := reply.2.without room d } := by
  obtain ⟨rfl, hquiet, hfiled, hconcealed⟩ := h
  exact ⟨rfl, hquiet, hfiled.perform hr, hconcealed.perform hfiled hs hr⟩

/-- Both states show the engine the same. -/
theorem correspondence : Correspondence (S := S) (State.Veils room d e) where
  forest h := by rw [h.eq]
  followUps h := by rw [h.eq]
  now h := by rw [h.eq]; rfl
  characterRoom h _ := by rw [h.eq]; rfl
  occupants h here := by
    rw [h.eq]
    exact World.map_room?_without (fun _ => rfl) _ _ here
  emit h _ _ := ⟨by rw [h.eq]; rfl, h.quiet, h.filed, h.concealed⟩
  queue h _ := ⟨by rw [h.eq], h.quiet, h.filed, h.concealed⟩
  schedule h _ := ⟨by rw [h.eq], h.quiet, h.filed, h.concealed⟩
  pass h _ := ⟨by rw [h.eq]; rfl, h.quiet, ⟨h.filed.room, h.filed.exit, h.filed.item⟩,
    ⟨h.concealed.exit, h.concealed.door, h.concealed.one_way⟩⟩

end State.Veils

namespace Rules

variable {rules : Rules S} {depth : Nat} {deliver : Delivery S → Run S Unit}
variable {P : State S → Prop} {s t : State S}

open Run

/-- A program that takes no notice of an exit does the same in both worlds. -/
theorem mirroredAt_run {p : Program S α} (h : p.Heedless room d s.world)
    (hst : s.Veils room d e t) :
    (p.run (rules.reply depth deliver)).MirroredAt (State.Veils room d e) P
      (p.run (rules.reply depth deliver)) s t := by
  -- The world of the first state is an index of the derivation, which the induction is on.
  generalize hw : s.world = w at h
  induction h generalizing s t with
  | done a w => exact mirroredAt_pure hst
  | emit _ ih =>
    refine mirroredAt_note_bind hst fun _ => mirroredAt_update_bind ?_
    exact ih (State.Veils.correspondence.emit hst _ _) hw
  | emitRoom _ ih =>
    rename_i here except text _ _ _
    refine mirroredAt_note_bind hst fun _ => mirroredAt_update_bind ?_
    refine ih (hst.emitRoom here except text) ?_
    obtain ⟨mailbox, hmailbox⟩ := s.emitRoom_eq here except text
    rw [hmailbox]
    exact hw
  | send _ ih =>
    refine mirroredAt_note_bind hst fun _ => mirroredAt_update_bind ?_
    rw [State.Veils.correspondence.followUps hst]
    exact ih (State.Veils.correspondence.queue hst _) hw
  | catalogue _ ih => exact mirroredAt_note_bind hst fun _ => ih _ hst hw
  | world hsame _ ih =>
    subst hw
    refine mirroredAt_note_bind hst fun _ => mirroredAt_gets_bind ?_
    rw [hst.eq, hsame, ← hst.eq]
    exact ih hst rfl
  | perform hspares _ ih =>
    -- The operation has the same result in both worlds, and leaves them differing as before.
    subst hw
    have hworld : t.world = s.world.without room d := by rw [hst.eq]
    refine mirroredAt_note_bind hst fun _ => ?_
    rw [reply, bind_assoc]
    refine mirroredAt_get_bind ?_
    rw [hworld, World.perform_without hst.concealed hspares]
    cases hr : s.world.perform _ with
    | none => exact fun _ => ⟨.nil, rfl, hst⟩
    | some reply =>
      rw [Option.map_some]
      dsimp only
      rw [bind_assoc, bind_assoc]
      refine mirroredAt_update_bind ?_
      rw [pure_bind]
      exact ih reply.1 reply.2 hr (hst.perform hspares hr) rfl

end Rules

end TextWorld

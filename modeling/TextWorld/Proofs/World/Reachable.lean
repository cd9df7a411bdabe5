import TextWorld.World.Operation

/-! Operations carried out one after another, and the worlds that come about in this way. -/

namespace TextWorld

namespace World

/-- Carries out operations one after another, whether they are refused or not; `none` if one of
them would lead beyond the last time a clock can show. -/
def run (w : World) : List Op → Option World
  | [] => some w
  | op :: ops => (w.perform op).bind fun reply => reply.2.run ops

def Reaches (w v : World) : Prop := ∃ ops, w.run ops = some v

/-- The world comes about by operations from the one without anything in it. -/
def Reachable (w : World) : Prop := empty.Reaches w

variable {w v u : World}

theorem run_append (w : World) (ops more : List Op) :
    w.run (ops ++ more) = (w.run ops).bind fun v => v.run more := by
  induction ops generalizing w with
  | nil => rfl
  | cons op ops ih =>
    rw [List.cons_append, run, run, Option.bind_assoc]
    congr 1
    funext reply
    exact ih reply.2

theorem run_concat (w : World) (ops : List Op) (op : Op) :
    w.run (ops ++ [op]) = (w.run ops).bind fun v => (v.perform op).map (·.2) := by
  rw [run_append]
  congr 1
  funext v
  rw [run]
  cases v.perform op <;> rfl

theorem Reaches.refl (w : World) : w.Reaches w := ⟨[], rfl⟩

theorem Reaches.trans (h : w.Reaches v) (h' : v.Reaches u) : w.Reaches u := by
  obtain ⟨ops, hops⟩ := h
  obtain ⟨more, hmore⟩ := h'
  refine ⟨ops ++ more, ?_⟩
  rw [run_append, hops, Option.bind_some, hmore]

theorem Reaches.perform {op : Op} {reply : Reply op.Result} (h : w.perform op = some reply) :
    w.Reaches reply.2 := by
  refine ⟨[op], ?_⟩
  rw [run, h, Option.bind_some, run]

/-- What every operation keeps, every run keeps. -/
theorem Reaches.keeps {P : World → Prop}
    (hstep : ∀ (w : World) (op : Op) (reply : Reply op.Result), P w →
      w.perform op = some reply → P reply.2)
    (h : w.Reaches v) (hw : P w) : P v := by
  obtain ⟨ops, hops⟩ := h
  induction ops generalizing w with
  | nil =>
    cases hops
    exact hw
  | cons op ops ih =>
    rw [run] at hops
    obtain ⟨reply, hreply, hrest⟩ := Option.bind_eq_some_iff.1 hops
    exact ih (hstep w op reply hw hreply) hrest

end World

end TextWorld

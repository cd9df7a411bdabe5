import TextWorld.ZonedKey
import TextWorld.World.Container

/-! Items, and the places where an item can be. -/

namespace TextWorld

inductive ItemLocation where
  | room (room : RoomId)
  | inventory (owner : CharacterId)
  | equipped (owner : CharacterId) (slot : String)
  | inside (parent : ItemId)
  deriving DecidableEq, Repr

structure Item where
  id : ItemId
  key : ZonedKey
  name : String
  keywords : List String
  location : Option ItemLocation
  contents : Container
  deriving DecidableEq

structure ItemTemplate where
  key : String
  name : String
  keywords : List String
  deriving DecidableEq, Repr

/-- An item that is nowhere yet; a bare key belongs to `zone`. -/
def ItemTemplate.build (t : ItemTemplate) (id : ItemId) (zone : String) : Except Error Item :=
  (ZonedKey.resolve t.key zone).map fun key =>
    { id, key, name := t.name, keywords := t.keywords, location := none, contents := .empty }

theorem ItemTemplate.of_build {t : ItemTemplate} {id : ItemId} {zone : String} {i : Item}
    (h : t.build id zone = .ok i) :
    i.id = id ∧ i.location = none ∧ i.contents = .empty := by
  unfold build at h
  cases hkey : ZonedKey.resolve t.key zone with
  | error e => simp [hkey, Except.map] at h
  | ok key =>
    rw [hkey] at h
    cases h
    exact ⟨rfl, rfl, rfl⟩

end TextWorld

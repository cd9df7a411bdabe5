import TextWorld.Duration
import TextWorld.Table
import TextWorld.ZonedKey
import TextWorld.World.Container

/-! Characters: players, and those nobody plays. -/

namespace TextWorld

structure Character where
  id : CharacterId
  key : ZonedKey
  name : String
  keywords : List String
  isPlayer : Bool
  isAdmin : Bool
  room : Option RoomId
  inventory : Container
  equipment : Table String ItemId
  /-- Until when the character is off balance. -/
  balanceUntil : Option Duration
  /-- The outermost conversation that holds the character's input. -/
  conversation : Option ConversationId

def Character.balanceRemaining (c : Character) (now : Duration) : Option Duration :=
  c.balanceUntil.bind (·.remaining? now)

def Character.belongings (c : Character) : List ItemId := c.inventory.items ++ c.equipment.values

structure CharacterTemplate where
  key : String
  name : String
  keywords : List String
  isPlayer : Bool
  isAdmin : Bool
  deriving DecidableEq, Repr

namespace CharacterTemplate

def player (key name : String) (keywords : List String) : CharacterTemplate :=
  ⟨key, name, keywords, true, false⟩

def npc (key name : String) (keywords : List String) : CharacterTemplate :=
  ⟨key, name, keywords, false, false⟩

/-- A character that stands nowhere yet; a bare key belongs to `zone`. -/
def build (t : CharacterTemplate) (id : CharacterId) (zone : String) : Except Error Character :=
  (ZonedKey.resolve t.key zone).map fun key =>
    { id, key, name := t.name, keywords := t.keywords, isPlayer := t.isPlayer,
      isAdmin := t.isAdmin, room := none, inventory := .empty, equipment := .empty,
      balanceUntil := none, conversation := none }

theorem of_build {t : CharacterTemplate} {id : CharacterId} {zone : String} {c : Character}
    (h : t.build id zone = .ok c) :
    c.id = id ∧ c.room = none ∧ c.inventory = .empty ∧ c.equipment = .empty ∧
      c.balanceUntil = none ∧ c.conversation = none := by
  unfold build at h
  cases hkey : ZonedKey.resolve t.key zone with
  | error e => simp [hkey, Except.map] at h
  | ok key =>
    rw [hkey] at h
    cases h
    exact ⟨rfl, rfl, rfl, rfl, rfl, rfl⟩

end CharacterTemplate

end TextWorld

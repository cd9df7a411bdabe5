import TextWorld.Play.Session
import TextWorld.Play.Settings
import TextWorld.Play.StandardCommands

/-!
A small village to walk around in. The temple has a command of its own, talking to the innkeeper
starts a conversation, and buying a drink nests a question in it; a bell tolls every minute.
-/

namespace TextWorld

namespace Village

open Program

/-- The conversations of the village. -/
inductive Talk where
  /-- The customer's side of a chat with the innkeeper. -/
  | haggle (customer keeper : CharacterId)
  /-- A question that ends with yes or no. -/
  | confirm
  deriving DecidableEq, Repr

/-- What is to be done when a conversation of the village ends: a word to the customer. -/
inductive Ending where
  | farewell (customer : CharacterId)
  deriving DecidableEq, Repr

/-- How the village finds its own data in those of a larger setting. -/
structure Lodging (S : Setting) where
  talk : Talk → S.Talk
  ending : Ending → S.Ending
  /-- The time since the bell tolled last. -/
  sinceBell : S.Memory → Duration
  setSinceBell : S.Memory → Duration → S.Memory

/-- The setting of the village alone; its memory is the time since the bell tolled last. -/
def setting : Setting := ⟨Talk, Ending, Duration⟩

def lodging : Lodging setting := ⟨id, id, id, fun _ d => d⟩

def zoneKey : String := "village"

/-- How long the innkeeper waits for a customer. -/
def idleTimeout : Duration := .ofSeconds 30

def bellInterval : Duration := .ofSeconds 60

theorem bellInterval_pos : 0 < bellInterval.nanos := by decide +kernel

variable {S : Setting}

/-- Gives the customer another while before the innkeeper turns away. -/
def keepWaiting (me : ConversationId) (customer : CharacterId) : Program S Unit :=
  discard <| schedule me customer "bye" idleTimeout

def pray : Handler S := fun inv => do
  emit inv.actor "You kneel at the altar. A calm settles over you."
  let w ← world
  StandardCommands.tellOthers inv.actor (w.characterName inv.actor ++ " kneels in prayer.")
  pure .handled

/-- Talking to the innkeeper; talk to anyone else is left to others. -/
def talkToKeeper (lodging : Lodging S) (keeper : CharacterId) : Handler S := fun inv => do
  if StandardCommands.argCharacter? inv 0 ≠ some keeper then pure .notHandled
  else
    let customer := inv.actor
    let started ← start [customer, keeper] (lodging.talk (.haggle customer keeper))
      (some (lodging.ending (.farewell customer)))
    match started with
    | .ok me =>
      emit customer ("Maren looks up. \"What'll it be? I can tell you the menu, or you can buy "
        ++ "an ale. Say bye when you're done.\"")
      keepWaiting me customer
    | .error _ => emit customer "Maren is busy with someone else."
    pure .handled

/-- The innkeeper's answer to the customer; other participants are left to others. -/
def haggleInput (lodging : Lodging S) (customer keeper : CharacterId) (me : ConversationId)
    (actor : CharacterId) (command : Command) : Program S CommandOutcome := do
  if actor ≠ customer then pure .notHandled
  else if command.word = "menu" then
    emit actor "\"Ale, one coin. That's the menu.\""
    keepWaiting me actor
    pure .handled
  else if command.word = "buy" then
    discard <| cancel me
    match ← startChild me [actor] (lodging.talk .confirm) with
    | .ok _ => emit actor "\"One ale, then?\" (yes/no)"
    | .error _ => pure ()
    pure .handled
  else if command.word = "bye" then
    let w ← world
    emit actor ("You nod to " ++ w.characterName keeper ++ ".")
    discard <| finish me .nil
    pure .handled
  else
    keepWaiting me actor
    pure .notHandled

/-- What the innkeeper does once the customer has answered. -/
def haggleReturn (customer : CharacterId) (me : ConversationId) (data : Value) :
    Program S Unit := do
  if data.bool? = some true then
    match ← perform (.spawnItem (.inventory customer) ⟨"ale", "a mug of ale", ["ale", "mug"]⟩) with
    | .ok _ => emit customer "Maren slides a mug of ale across the bar."
    | .error _ => pure ()
  else emit customer "\"Suit yourself.\""
  keepWaiting me customer

def confirmInput (me : ConversationId) (actor : CharacterId) (command : Command) :
    Program S CommandOutcome := do
  if command.word = "yes" ∨ command.word = "y" then
    discard <| finish me (.bool true)
    pure .handled
  else if command.word = "no" ∨ command.word = "n" then
    discard <| finish me (.bool false)
    pure .handled
  else
    emit actor "Please answer yes or no."
    pure .handled

/-- What the village's conversations do with a line. -/
def onInput (lodging : Lodging S) (talk : Talk) (me : ConversationId) (actor : CharacterId)
    (command : Command) : Program S CommandOutcome :=
  match talk with
  | .haggle customer keeper => haggleInput lodging customer keeper me actor command
  | .confirm => confirmInput me actor command

/-- What the village's conversations do with what a child hands back. -/
def onReturn (talk : Talk) (me : ConversationId) (data : Value) : Program S Unit :=
  match talk with
  | .haggle customer _ => haggleReturn customer me data
  | .confirm => pure ()

def onEnd (ending : Ending) : Program S Unit :=
  match ending with
  | .farewell customer => emit customer "Maren turns back to polishing mugs."

/-- What the village's conversations do; they remember what they began with. -/
def behaviour : Behaviour setting where
  onInput talk me actor command := do
    let outcome ← onInput lodging talk me actor command
    pure (outcome, talk)
  onReturn talk me data := do
    onReturn talk me data
    pure talk
  onTick talk _ := pure talk
  onEnd ending _ := onEnd ending

/-- Tolls the bell once, in each of the rooms. -/
def toll (rooms : List RoomId) : Program S Unit :=
  rooms.forM fun room => emitRoom room none "The temple bell tolls."

/-- Takes one full interval after another off the time since the bell tolled last, and tolls the
bell for each. -/
def ring (lodging : Lodging S) (rooms : List RoomId) (memory : S.Memory) (since : Duration) :
    Program S Unit := do
  if bellInterval ≤ since then
    let left : Duration := ⟨since.nanos - bellInterval.nanos⟩
    setMemory (lodging.setSinceBell memory left)
    toll rooms
    ring lodging rooms memory left
termination_by since.nanos
decreasing_by
  have hfull : bellInterval.nanos ≤ since.nanos := ‹bellInterval ≤ since›
  exact Nat.sub_lt (Nat.lt_of_lt_of_le bellInterval_pos hfull) bellInterval_pos

theorem ring_of_full (lodging : Lodging S) (rooms : List RoomId) (memory : S.Memory)
    {since : Duration} (hfull : bellInterval ≤ since) :
    ring lodging rooms memory since = (do
      setMemory (lodging.setSinceBell memory ⟨since.nanos - bellInterval.nanos⟩)
      toll rooms
      ring lodging rooms memory ⟨since.nanos - bellInterval.nanos⟩) := by
  rw [ring.eq_1, if_pos hfull]

theorem ring_of_not_full (lodging : Lodging S) (rooms : List RoomId) (memory : S.Memory)
    {since : Duration} (hshort : ¬bellInterval ≤ since) :
    ring lodging rooms memory since = pure () := by
  rw [ring.eq_1, if_neg hshort]

def bell (lodging : Lodging S) (rooms : List RoomId) : TickHook S := fun delta => do
  let memory ← getMemory
  let since ← add (lodging.sinceBell memory) delta
  setMemory (lodging.setSinceBell memory since)
  ring lodging rooms memory since

/-- The rooms of the village, and those who live there. -/
structure Residents where
  square : RoomId
  temple : RoomId
  player : CharacterId
  keeper : CharacterId

abbrev Building := ExceptT Error (StateM World)

/-- One step of building the village. -/
def building {α : Type} (f : World → World.Reply α) : Building α := ExceptT.mk f

def addRoom (zone : ZoneId) (key title description : String) : Building RoomId :=
  building fun w => w.addRoom zone key title description

/-- Adds an exit to the room with the given key. -/
def link (room : RoomId) (direction : Direction) (key : String) (door : Option Door) :
    Building Unit := do
  let destination ← ExceptT.mk (pure (ZonedKey.ofParts key zoneKey))
  building fun w => w.addExit room { direction, destination, door }

def spawnItem (location : ItemLocation) (key name : String) (keywords : List String) :
    Building ItemId :=
  building fun w => w.spawnItem location ⟨key, name, keywords⟩

def spawnCharacter (room : RoomId) (template : CharacterTemplate) : Building CharacterId :=
  building fun w => w.spawnCharacter room template

/-- The rooms in which characters first appear. -/
structure Places where
  square : RoomId
  inn : RoomId
  temple : RoomId
  gate : RoomId
  deriving DecidableEq, Repr

/-- Builds rooms, doors and what lies about. -/
def buildPlaces : Building Places := do
  let zone ← building fun w => w.addZone zoneKey "Millbrook"
  let square ← addRoom zone "square" "Village Square"
    "Cobblestones ring a dry fountain. An inn stands to the north and a temple to the east."
  let inn ← addRoom zone "inn" "The Crooked Kettle"
    "Low beams, a smoky hearth, and the smell of spilled ale."
  let temple ← addRoom zone "temple" "Temple of the Dawn" "Pale light falls across a worn altar."
  let gate ← addRoom zone "gate" "South Gate"
    "A heavy gate keeps the road out. Guards let no beast through."
  let road ← addRoom zone "road" "Muddy Road" "The road winds south into the hills."
  let cellar ← addRoom zone "cellar" "Hidden Cellar" "Dust, barrels, and a single locked hatch."
  let vault ← addRoom zone "vault" "Smugglers' Vault" "Crates stamped with foreign seals."
  link square .north "inn" none
  link inn .south "square" none
  link square .east "temple" none
  link temple .west "square" none
  link square .south "gate" none
  link gate .north "square" none
  link gate .south "road" (some Door.shut.barMobs)
  link road .north "gate" (some Door.shut.barMobs)
  link inn .down "cellar" (some Door.shut.hide)
  link cellar .up "inn" (some Door.shut)
  link cellar .east "vault" (some Door.shut.lock)
  link vault .west "cellar" (some Door.shut.lock)
  discard <| spawnItem (.room square) "lantern" "a brass lantern" ["lantern", "brass"]
  discard <| spawnItem (.room temple) "candle" "a stub of candle" ["candle", "stub"]
  pure { square, inn, temple, gate }

/-- Builds rooms, doors, items and characters. -/
def build (settings : Settings) : Building Residents := do
  let { square, inn, temple, gate } ← buildPlaces
  let player ← spawnCharacter square
    { key := "player", name := settings.playerName,
      keywords := [Text.lowercase settings.playerName], isPlayer := true,
      isAdmin := settings.admin }
  discard <| spawnItem (.inventory player) "cloak" "a travel-stained cloak" ["cloak"]
  let keeper ← spawnCharacter inn (.npc "innkeeper" "Maren the innkeeper" ["maren", "innkeeper"])
  discard <| spawnCharacter gate (.npc "guard" "a bored guard" ["guard"])
  pure { square, temple, player, keeper }

/-- The commands of the village: the standard ones for all, praying in the temple, and the
innkeeper's way of talking. -/
def registries (lodging : Lodging S) (r : Residents) : Except Error (Registries (Handler S)) := do
  let global ← StandardCommands.addTo .empty
  let talk ← (Definition.named "talk" (talkToKeeper lodging r.keeper)).withGrammar
    "char.room.noself"
  pure
    { global
      rooms := Table.empty.insert r.temple (Registry.empty.add (.named "pray" pray))
      characters := Table.empty.insert r.keeper (Registry.empty.add talk) }

/-- A session of a fresh character in the village square, in a setting that has a place for the
village. -/
def session (lodging : Lodging S) (behaviour : Behaviour S) (memory : S.Memory)
    (settings : Settings) : Except Error (Session S) := do
  let (built, world) := (build settings).run.run World.empty
  let r ← built
  let registries ← registries lodging r
  Session.playing
    { config := settings.dispatch, registries, hooks := [bell lodging [r.square, r.temple]],
      behaviour, maxDeliveries := ampleDeliveries }
    (State.initial world memory) r.player

end Village

end TextWorld

import TextWorld.Engine.Program
import TextWorld.Play.Describe

/-!
The commands every world starts with: looking around, talking, moving, handling items and doors.
They are registered for all; a room or a character with a command of the same name goes first.
-/

namespace TextWorld

namespace StandardCommands

open Program

variable {S : Setting}

/-- How long a character that rests is off balance. -/
def restDuration : Duration := .ofSeconds 3

def argCharacter? (inv : Invocation) (i : Nat) : Option CharacterId :=
  (inv.arg? i).bind Argument.character?

def argItem? (inv : Invocation) (i : Nat) : Option ItemId := (inv.arg? i).bind Argument.item?

def argExit? (inv : Invocation) (i : Nat) : Option Direction := (inv.arg? i).bind Argument.exit?

def argText? (inv : Invocation) (i : Nat) : Option String := (inv.arg? i).bind Argument.text?

/-- Tells the actor something, which settles the line. -/
def tellActor (inv : Invocation) (text : String) : Program S CommandOutcome := do
  emit inv.actor text
  pure .handled

/-- Tells everyone else in the actor's room something. -/
def tellOthers (actor : CharacterId) (text : String) : Program S Unit := do
  match (← world).characterRoom actor with
  | some room => emitRoom room (some actor) text
  | none => pure ()

/-- Moves a character through an exit and announces it on both sides. Tells whether it moved. -/
def moveActor (actor : CharacterId) (d : Direction) : Program S Bool := do
  let w ← world
  match w.characterRoom actor with
  | none => pure false
  | some here =>
    match w.exitDestination here d with
    | none => pure false
    | some there =>
      match ← perform (.moveCharacter actor there) with
      | .error _ => pure false
      | .ok () =>
        let name := w.characterName actor
        emitRoom here (some actor) (name ++ " leaves " ++ d.name ++ ".")
        emitRoom there (some actor) (name ++ " arrives from the " ++ d.opposite.name ++ ".")
        pure true

def look : Handler S := fun inv => do
  let w ← world
  tellActor inv <| match w.characterRoom inv.actor with
    | some room => w.describeRoom room inv.actor
    | none => "You are nowhere."

def peek : Handler S := fun inv => do
  let w ← world
  let beyond : Option RoomId := do
    let d ← argExit? inv 0
    let room ← w.characterRoom inv.actor
    w.exitDestination room d
  tellActor inv <| match beyond with
    | some room => w.describeRoom room inv.actor
    | none => "You can't see that way."

def say : Handler S := fun inv => do
  match argText? inv 0 with
  | none => tellActor inv "Say what?"
  | some text =>
    let w ← world
    tellOthers inv.actor (w.characterName inv.actor ++ " says: " ++ text)
    tellActor inv ("You say: " ++ text)

def tell : Handler S := fun inv => do
  match argCharacter? inv 0, argText? inv 1 with
  | some target, some text =>
    let w ← world
    emit target (w.characterName inv.actor ++ " tells you: " ++ text)
    tellActor inv ("You tell " ++ w.characterName target ++ ": " ++ text)
  | _, _ => tellActor inv "Tell whom what?"

def talk : Handler S := fun inv => do
  let w ← world
  tellActor inv <| match argCharacter? inv 0 with
    | some target => w.characterName target ++ " has nothing to say."
    | none => "Talk to whom?"

/-- Moves an item and tells the actor how that went. -/
def moveAndTell (inv : Invocation) (item : ItemId) (target : ItemLocation) (done refused : String) :
    Program S CommandOutcome := do
  match ← perform (.moveItem item target) with
  | .ok () => tellActor inv done
  | .error _ => tellActor inv refused

def get : Handler S := fun inv => do
  match argItem? inv 0 with
  | none => tellActor inv "You don't see that here."
  | some item =>
    let name := (← world).itemName item
    moveAndTell inv item (.inventory inv.actor) ("You pick up " ++ name ++ ".")
      ("You can't pick up " ++ name ++ ".")

def drop : Handler S := fun inv => do
  let w ← world
  match argItem? inv 0, w.characterRoom inv.actor with
  | some item, some room =>
    let name := w.itemName item
    moveAndTell inv item (.room room) ("You drop " ++ name ++ ".")
      ("You can't drop " ++ name ++ ".")
  | _, _ => tellActor inv "You aren't carrying that."

def give : Handler S := fun inv => do
  match argItem? inv 0, argCharacter? inv 1 with
  | some item, some target =>
    let w ← world
    let gift := w.itemName item ++ " to " ++ w.characterName target ++ "."
    match ← perform (.moveItem item (.inventory target)) with
    | .ok () =>
      emit inv.actor ("You give " ++ gift)
      emit target (w.characterName inv.actor ++ " gives you " ++ w.itemName item ++ ".")
      pure .handled
    | .error _ => tellActor inv ("You can't give " ++ gift)
  | _, _ => tellActor inv "Give what to whom?"

/-- What a character carries and wears. -/
def inventoryText (w : World) (c : Character) : String :=
  let carried := c.inventory.items.map fun i => "\n  " ++ w.itemName i
  let worn := c.equipment.toList.map fun e => "\n  " ++ w.itemName e.2 ++ " (" ++ e.1 ++ ")"
  "You are carrying:" ++ (if carried.isEmpty then "\n  nothing" else String.join carried)
    ++ (if worn.isEmpty then "" else "\nYou are wearing:" ++ String.join worn)

def inventory : Handler S := fun inv => do
  let w ← world
  match w.character? inv.actor with
  | none => pure .notHandled
  | some c => tellActor inv (inventoryText w c)

def equip : Handler S := fun inv => do
  match argItem? inv 0, (argText? inv 1).map Text.lowercase with
  | some item, some slot =>
    let name := (← world).itemName item
    let fitting := name ++ " on your " ++ slot ++ "."
    moveAndTell inv item (.equipped inv.actor slot) ("You wear " ++ fitting)
      ("You can't wear " ++ fitting)
  | _, _ => tellActor inv "Equip what, where?"

def go : Handler S := fun inv => do
  let moved ← match argExit? inv 0 with
    | some d => moveActor inv.actor d
    | none => pure false
  if moved then
    send inv.actor "look"
    pure .handled
  else tellActor inv "You can't go that way."

/-- A direction as a command of its own stands for `go` in that direction. -/
def walk : Handler S := fun inv => do
  match inv.data.bind Value.text? with
  | none => pure .notHandled
  | some d =>
    send inv.actor ("go " ++ d)
    pure .handled

/-- Opens or closes a door; a lock keeps it closed. -/
def setDoor (closed : Bool) : Handler S := fun inv => do
  let verb := if closed then "close" else "open"
  let w ← world
  match argExit? inv 0, w.characterRoom inv.actor with
  | some d, some room =>
    let door := ((w.room? room).bind (·.exit? d)).bind (·.door)
    if !closed && door.any (·.locked) then tellActor inv "It is locked."
    else
      match ← perform (.setDoorClosed room d closed) with
      | .ok true =>
        emit inv.actor ("You " ++ verb ++ " the door " ++ d.name ++ ".")
        emitRoom room (some inv.actor)
          (w.characterName inv.actor ++ " " ++ verb ++ "s the door " ++ d.name ++ ".")
        pure .handled
      | _ => pure .handled
  | _, _ => tellActor inv ("There is nothing to " ++ verb ++ " there.")

def rest : Handler S := fun inv => do
  match ← perform (.putOffBalance inv.actor restDuration) with
  | .ok () => tellActor inv "You sit down and rest."
  | .error _ => pure .notHandled

/-- The texts in ascending order. -/
def sortTexts (texts : List String) : List String := texts.mergeSort fun a b => decide (a ≤ b)

/-- The texts in ascending order, each once. -/
def sortDistinct (texts : List String) : List String :=
  (Table.ofList (texts.map fun t => (t, ()))).keys

def who : Handler S := fun inv => do
  let w ← world
  let names := (w.characters.values.filter (·.isPlayer)).map (·.name)
  tellActor inv ("Players online: " ++ World.commaList (sortTexts names))

def goto : Handler S := fun inv => do
  let w ← world
  let zoneKey := match (w.characterZone inv.actor).bind w.zone? with
    | some z => z.key
    | none => ""
  match (argText? inv 0).bind (w.lookupRoom · zoneKey) with
  | none => tellActor inv "No such room."
  | some room =>
    match ← perform (.moveCharacter inv.actor room) with
    | .error _ => tellActor inv "No such room."
    | .ok () =>
      send inv.actor "look"
      pure .handled

/-- The names of the commands for all, without those of admins unless asked by one, and of those
of a room. -/
def commandNames (catalogue : Registries Unit) (isAdmin : Bool) (room : Option RoomId) :
    List String :=
  let global := (catalogue.global.definitions.filter fun d => isAdmin || !d.adminOnly).map (·.name)
  let here := match room.bind catalogue.rooms.get? with
    | some r => r.definitions.map (·.name)
    | none => []
  sortDistinct (global ++ here)

def commands : Handler S := fun inv => do
  let w ← world
  let registries ← catalogue
  let isAdmin := (w.character? inv.actor).any (·.isAdmin)
  let names := commandNames registries isAdmin (w.characterRoom inv.actor)
  tellActor inv ("Commands: " ++ World.commaList names)

/-- A command for every direction, with its name as data. -/
def walkDefinition (d : Direction) : Definition (Handler S) :=
  ((Definition.named d.name walk).withAliases [d.short]).withData (.text d.name)

/-- All standard commands, in the order they are registered; fails if a grammar is malformed. -/
def definitions : Except Error (List (Definition (Handler S))) := do
  let peek ← (Definition.named "peek" peek).withGrammar "exit.visible.peekable"
  let say ← ((Definition.named "say" say).withAliases ["'"]).withGrammar "string"
  let tell ← (Definition.named "tell" tell).withGrammar "char.zone.player.noself string"
  let get ← ((Definition.named "get" get).withAliases ["take"]).withGrammar "item.room"
  let drop ← (Definition.named "drop" drop).withGrammar "item.inv"
  let give ← (Definition.named "give" give).withGrammar "item.inv [to] char.room.noself"
  let equip ← ((Definition.named "equip" equip).withAliases ["wear"]).withGrammar
    "item.inv [on] word"
  let go ← (Definition.named "go" go).withGrammar "exit.visible.passable"
  let open_ ← (Definition.named "open" (setDoor false)).withGrammar "exit.visible.openable"
  let close ← (Definition.named "close" (setDoor true)).withGrammar "exit.visible.closeable"
  let goto ← (Definition.named "goto" goto).forAdmins.withGrammar "word"
  let talk ← (Definition.named "talk" talk).withGrammar "char.room.noself"
  pure ([(Definition.named "look" look).withAliases ["l"], peek, say, tell, get, drop, give,
      (Definition.named "inventory" inventory).withAliases ["i", "inv"], equip, go]
    ++ Direction.all.map walkDefinition
    ++ [open_, close, (Definition.named "rest" rest).needingBalance, .named "who" who, goto,
      .named "commands" commands, talk])

/-- Registers the standard commands whose names are free. -/
def addTo (registry : Registry (Handler S)) : Except Error (Registry (Handler S)) := do
  let ds ← definitions
  pure (ds.foldl Registry.add registry)

end StandardCommands

end TextWorld

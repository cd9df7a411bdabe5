import TextWorld.Command.Grammar
import TextWorld.Command.Matching
import TextWorld.World.Basic

/-! Binding the parameters of a command to things in the world, as a grammar says. -/

namespace TextWorld

/-- A bound argument. -/
inductive Argument where
  | character (id : CharacterId)
  | item (id : ItemId)
  | exit (d : Direction)
  | zone (id : ZoneId)
  | word (text : String)
  | text (text : String)
  deriving DecidableEq, Repr

namespace Argument

def character? : Argument → Option CharacterId
  | .character id => some id
  | _ => none

def item? : Argument → Option ItemId
  | .item id => some id
  | _ => none

def exit? : Argument → Option Direction
  | .exit d => some d
  | _ => none

def text? : Argument → Option String
  | .word s => some s
  | .text s => some s
  | _ => none

end Argument

namespace Resolution

open Grammar

/-- The characters that a `char` token lets an actor choose from. -/
def characterCandidates (w : World) (actor : CharacterId) (f : CharacterFilter) :
    Option (List Character) := do
  let pool ← match f.scope with
    | .room => do
      let r ← w.room? (← w.characterRoom actor)
      some r.characters
    | .zone => do
      let z ← w.zone? (← w.characterZone actor)
      some z.characters
  let others := pool.filter fun id => !(f.noSelf && id == actor)
  some ((others.filterMap w.character?).filter fun c =>
    !(f.npcOnly && c.isPlayer) && !(f.playerOnly && !c.isPlayer))

/-- The items that an `item` token lets an actor choose from: carried, worn, and lying about. -/
def itemCandidates (w : World) (actor : CharacterId) (f : ItemFilter) : Option (List Item) := do
  let c ← w.character? actor
  let floor := match c.room.bind w.room? with
    | some r => r.items.items
    | none => []
  let ids := (if f.inventory then c.inventory.items else [])
    ++ (if f.equipment then c.equipment.values else [])
    ++ (if f.room then floor else [])
  some (ids.filterMap w.item?)

def ExitFilter.accepts (f : ExitFilter) (c : Character) (e : Exit) : Bool :=
  (!f.visible || e.isVisible) && (!f.passable || e.isPassableBy c)
    && (!f.peekable || e.isPeekable) && (!f.closeable || e.isCloseable)
    && (!f.openable || e.isOpenable)

/-- The direction of the exit that a parameter names. -/
def exitNamed (w : World) (actor : CharacterId) (f : ExitFilter) (param : String) :
    Option Direction := do
  let c ← w.character? actor
  let r ← w.room? (← c.room)
  let e ← (r.exitList.filter (ExitFilter.accepts f c)).find? (·.direction.accepts param)
  some e.direction

/-- Binds one parameter to a token that takes exactly one. -/
def bindOne (w : World) (actor : CharacterId) (param : String) : Token → Option Argument
  | .character f => do
    let c ← Matching.select Character.labels (← characterCandidates w actor f) param
    some (.character c.id)
  | .item f => do
    let i ← Matching.select Item.labels (← itemCandidates w actor f) param
    some (.item i.id)
  | .exit f => (exitNamed w actor f param).map .exit
  | .zone => (w.lookupZone param).map .zone
  | .word => some (.word param)
  | .rest | .literal _ | .bestEffort => none

/-- Binds parameters to elements from left to right. `lenient` tells whether a bar was passed:
then an element that cannot be bound ends the list of arguments. -/
def bindAll (w : World) (actor : CharacterId) :
    Bool → List Element → List String → Option (List Argument)
  | _, [], _ => some []
  | lenient, ⟨token, optional⟩ :: es, params =>
    let stop := if lenient then some [] else none
    match token, params with
    | .bestEffort, _ => bindAll w actor true es params
    | .literal _, [] => if optional then bindAll w actor lenient es [] else stop
    | .literal word, p :: ps =>
      if p = word then bindAll w actor lenient es ps
      else if optional then bindAll w actor lenient es params
      else stop
    | .rest, [] => stop
    | .rest, _ :: _ => (bindAll w actor lenient es []).map (.text (Text.unwords params) :: ·)
    | _, [] => stop
    | token, p :: ps =>
      match bindOne w actor p token with
      | some a => (bindAll w actor lenient es ps).map (a :: ·)
      | none => stop

end Resolution

/-- The arguments that the parameters give under a grammar, if they fit it. Parameters left over
at the end are ignored. -/
def Grammar.resolve (g : Grammar) (w : World) (actor : CharacterId) (params : List String) :
    Option (List Argument) :=
  Resolution.bindAll w actor false g.elements params

end TextWorld

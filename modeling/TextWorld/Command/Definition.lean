import TextWorld.Command.Grammar
import TextWorld.Text.Lowercase
import TextWorld.Value

/-! Named commands, the gates in front of them, and the registries that map words to them. -/

namespace TextWorld

/-- A command that `run` carries out. Name and aliases are in lower case. -/
structure Definition (ρ : Type) where
  name : String
  aliases : List String
  /-- Only admins may use it. -/
  adminOnly : Bool
  /-- It is refused while the actor is off balance. -/
  balanceGated : Bool
  grammar : Option Grammar
  /-- Whatever the definition wants its handler to know. -/
  data : Option Value
  run : ρ

namespace Definition

variable {ρ μ : Type}

/-- A command without aliases, gates, grammar and data. -/
def named (name : String) (run : ρ) : Definition ρ :=
  { name := Text.lowercase name, aliases := [], adminOnly := false, balanceGated := false,
    grammar := none, data := none, run }

def withAliases (d : Definition ρ) (aliases : List String) : Definition ρ :=
  { d with aliases := d.aliases ++ aliases.map Text.lowercase }

def withGrammar (d : Definition ρ) (source : String) : Except Error (Definition ρ) :=
  (Grammar.compile source).map fun grammar => { d with grammar := some grammar }

def withData (d : Definition ρ) (data : Value) : Definition ρ := { d with data := some data }

def forAdmins (d : Definition ρ) : Definition ρ := { d with adminOnly := true }

def needingBalance (d : Definition ρ) : Definition ρ := { d with balanceGated := true }

def map (f : ρ → μ) (d : Definition ρ) : Definition μ := { d with run := f d.run }

/-- The definition in diagnostics. -/
def shown (d : Definition ρ) : String :=
  let flag (b : Bool) : String := if b then "true" else "false"
  let grammar := match d.grammar with
    | some g => "Some(" ++ Text.quoted g.source ++ ")"
    | none => "None"
  "CommandDefinition \x7b name: " ++ Text.quoted d.name
    ++ ", aliases: [" ++ ", ".intercalate (d.aliases.map Text.quoted)
    ++ "], requires_admin: " ++ flag d.adminOnly
    ++ ", requires_balance: " ++ flag d.balanceGated
    ++ ", grammar: " ++ grammar ++ ", .. \x7d"

end Definition

/-- Words and the definitions they stand for: every definition under its name, and under those of
its aliases that were free when it was registered. -/
structure Registry (ρ : Type) where
  words : Table String (Definition ρ)

namespace Registry

variable {ρ μ : Type}

def empty : Registry ρ := ⟨.empty⟩

instance : Inhabited (Registry ρ) := ⟨empty⟩

/-- Lets a word stand for a definition unless it is taken. -/
def bindWord (d : Definition ρ) (words : Table String (Definition ρ)) (word : String) :
    Table String (Definition ρ) :=
  if words.contains word then words else words.insert word d

/-- Registers a definition; its name must be free, and aliases that are taken are skipped. -/
def register (r : Registry ρ) (d : Definition ρ) : Except Error (Registry ρ) :=
  if r.words.contains d.name then .error (.duplicateRegistration d.name)
  else .ok ⟨d.aliases.foldl (bindWord d) (r.words.insert d.name d)⟩

/-- Registers a definition, or leaves the registry alone if its name is taken. -/
def add (r : Registry ρ) (d : Definition ρ) : Registry ρ :=
  match r.register d with
  | .ok r => r
  | .error _ => r

/-- The definition of a name, which is no alias. -/
def named? (r : Registry ρ) (name : String) : Option (Definition ρ) :=
  (r.words.get? name).filter fun d => d.name == name

/-- Removes the definition of that name, in any case, with all words that stand for it. -/
def unregister (r : Registry ρ) (name : String) : Option (Definition ρ × Registry ρ) :=
  (r.named? (Text.lowercase name)).map fun d =>
    (d, ⟨r.words.filter fun _ e => e.name != d.name⟩)

/-- The definition a word stands for, in any case. -/
def lookup (r : Registry ρ) (word : String) : Option (Definition ρ) :=
  r.words.get? (Text.lowercase word)

/-- Every definition once, by ascending name. -/
def definitions (r : Registry ρ) : List (Definition ρ) :=
  (r.words.toList.filter fun e => e.1 == e.2.name).map (·.2)

/-- How many words are the names of what they stand for. -/
def size (r : Registry ρ) : Nat := r.words.toList.countP fun e => e.1 == e.2.name

theorem size_eq (r : Registry ρ) : r.size = r.definitions.length := by
  rw [size, definitions, List.length_map, List.countP_eq_length_filter]

def isEmpty (r : Registry ρ) : Bool := r.words.isEmpty

def map (f : ρ → μ) (r : Registry ρ) : Registry μ := ⟨r.words.map fun _ d => d.map f⟩

end Registry

/-- The registries of a world: one for all, and those of single rooms and characters. -/
structure Registries (ρ : Type) where
  global : Registry ρ
  rooms : Table RoomId (Registry ρ)
  characters : Table CharacterId (Registry ρ)

namespace Registries

variable {ρ μ : Type}

def empty : Registries ρ := ⟨.empty, .empty, .empty⟩

/-- The registries of the same shape whose definitions run what `f` makes of them. -/
def map (f : ρ → μ) (rs : Registries ρ) : Registries μ :=
  ⟨rs.global.map f, rs.rooms.map fun _ r => r.map f, rs.characters.map fun _ r => r.map f⟩

end Registries

end TextWorld

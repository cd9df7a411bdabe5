import TextWorld.Engine.Config

/-! Settings of a session and of the shell around it. -/

namespace TextWorld

structure Settings where
  /-- Shown in front of each line. -/
  prompt : String
  showBanner : Bool
  /-- The logical time that passes after each line. -/
  tickInterval : Duration
  /-- What to log; left to the environment if absent. -/
  logFilter : Option String
  /-- Whether the local player is an admin. -/
  admin : Bool
  playerName : String
  dispatch : DispatchConfig
  deriving DecidableEq, Repr

namespace Settings

def default : Settings :=
  { prompt := "> ", showBanner := true, tickInterval := .ofSeconds 1, logFilter := none,
    admin := false, playerName := "Wanderer", dispatch := .default }

instance : Inhabited Settings := ⟨default⟩

/-- The settings of scripted runs: no banner, and an admin as the player. -/
def scripted : Settings := { default with showBanner := false, admin := true }

end Settings

end TextWorld

import TextWorld.Duration

/-! Settings of the dispatch of lines. -/

namespace TextWorld

structure DispatchConfig where
  /-- Told to an actor whose line nobody accepts. -/
  unknownCommand : String
  /-- Told to an actor who is off balance; the time left is added. -/
  cooldownNotice : String
  /-- How many generations of follow-up lines one line may have. -/
  maxFollowUpDepth : Nat
  deriving DecidableEq, Repr

namespace DispatchConfig

def default : DispatchConfig := ⟨"Huh?", "You are still recovering.", 8⟩

instance : Inhabited DispatchConfig := ⟨default⟩

def strict : DispatchConfig := { default with maxFollowUpDepth := 0 }

def cooldownMessage (c : DispatchConfig) (left : Duration) : String :=
  c.cooldownNotice ++ " (" ++ left.secondsText ++ " seconds remaining)"

end DispatchConfig

end TextWorld

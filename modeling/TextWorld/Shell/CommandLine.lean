import TextWorld.Play.Village
import TextWorld.Shell.Basic

/-!
The program on the command line: its options, the scripts it runs, and the shell in the village
that it starts then.
-/

namespace TextWorld

namespace CommandLine

structure Options where
  scripts : List String
  batch : Bool
  help : Bool
  version : Bool
  noBanner : Bool
  admin : Bool
  prompt : Option String
  name : Option String
  tickMillis : Option Nat
  logFilter : Option String
  deriving DecidableEq, Repr

def Options.none : Options :=
  { scripts := [], batch := false, help := false, version := false, noBanner := false,
    admin := false, prompt := Option.none, name := Option.none, tickMillis := Option.none,
    logFilter := Option.none }

/-- Why the arguments make no sense. -/
inductive UsageProblem where
  | missingValue (flag : String)
  | badMillis (value : String)
  | unknownOption (option : String)
  deriving DecidableEq, Repr

def UsageProblem.message : UsageProblem → String
  | .missingValue flag => flag ++ " requires a value"
  | .badMillis value => "invalid --tick-ms value: " ++ value
  | .unknownOption option => "unknown option: " ++ option

/-- The greatest number of milliseconds that can be given. -/
def maxMillis : Nat := Nat.pow 2 64 - 1

def millis? (value : String) : Option Nat :=
  (Decimal.natural? value.toList).filter (· ≤ maxMillis)

/-- The options that take no value. -/
def switch (o : Options) (arg : String) : Option Options :=
  if arg = "-h" ∨ arg = "--help" then some { o with help := true }
  else if arg = "-V" ∨ arg = "--version" then some { o with version := true }
  else if arg = "-b" ∨ arg = "--batch" then some { o with batch := true }
  else if arg = "--no-banner" then some { o with noBanner := true }
  else if arg = "--admin" then some { o with admin := true }
  else none

/-- The options that take a value. -/
def valued (o : Options) (flag value : String) : Option (Except UsageProblem Options) :=
  if flag = "--prompt" then some (.ok { o with prompt := some value })
  else if flag = "--name" then some (.ok { o with name := some value })
  else if flag = "--log" then some (.ok { o with logFilter := some value })
  else if flag = "--tick-ms" then
    match millis? value with
    | some n => some (.ok { o with tickMillis := some n })
    | none => some (.error (.badMillis value))
  else none

/-- What an argument is that is neither a switch nor followed by its value. -/
def plain (o : Options) (arg : String) : Except UsageProblem Options :=
  if arg.toList.head? = some '-' then .error (.unknownOption arg)
  else .ok { o with scripts := o.scripts ++ [arg] }

def takesValue (arg : String) : Bool := ["--prompt", "--name", "--log", "--tick-ms"].contains arg

/-- Reads the arguments from left to right. -/
def parse (o : Options) : List String → Except UsageProblem Options
  | [] => .ok o
  | [arg] =>
    match switch o arg with
    | some o => .ok o
    | none => if takesValue arg then .error (.missingValue arg) else plain o arg
  | arg :: value :: rest =>
    match switch o arg with
    | some o => parse o (value :: rest)
    | none =>
      -- A value is taken as it stands, even if it looks like an option.
      match valued o arg value with
      | some (.ok o) => parse o rest
      | some (.error e) => .error e
      | none =>
        match plain o arg with
        | .ok o => parse o (value :: rest)
        | .error e => .error e

def Options.settings (o : Options) : Settings :=
  let d := Settings.default
  { d with
    showBanner := !o.noBanner && o.scripts.isEmpty
    admin := o.admin
    prompt := o.prompt.getD d.prompt
    playerName := o.name.getD d.playerName
    tickInterval := (o.tickMillis.map Duration.ofMillis).getD d.tickInterval
    logFilter := o.logFilter }

def help : String :=
  "\x1b[1mmudcore\x1b[0m - command dispatch and conversations for text worlds\n\n"
    ++ "\x1b[1mUSAGE:\x1b[0m\n"
    ++ "    mudcore [OPTIONS] [SCRIPTS...]\n\n"
    ++ "\x1b[1mARGUMENTS:\x1b[0m\n"
    ++ "    [SCRIPTS...]    Files of commands to run, one per line, before the shell starts\n\n"
    ++ "\x1b[1mOPTIONS:\x1b[0m\n"
    ++ "    -h, --help         Print help information\n"
    ++ "    -V, --version      Print version information\n"
    ++ "    -b, --batch        Run scripts and exit (no shell)\n"
    ++ "    --no-banner        Skip the welcome banner\n"
    ++ "    --admin            Grant admin commands to the player\n"
    ++ "    --name NAME        Player name (default: Wanderer)\n"
    ++ "    --prompt TEXT      Prompt to show before each line\n"
    ++ "    --tick-ms N        Logical milliseconds that pass per line (default: 1000)\n"
    ++ "    --log FILTER       tracing filter, e.g. mudcore_dispatch=debug "
    ++ "(default: RUST_LOG or warn)\n\n"
    ++ "\x1b[1mEXAMPLES:\x1b[0m\n"
    ++ "    mudcore                              Start the shell in the demo village\n"
    ++ "    mudcore --admin --name Ash           Play as an admin called Ash\n"
    ++ "    mudcore -b walk.txt                  Run walk.txt and exit\n"
    ++ "    mudcore --log mudcore_dispatch=trace Show dispatch decisions on stderr\n\n"
    ++ "\x1b[1mSHELL COMMANDS:\x1b[0m\n"
    ++ "    /help                Show shell commands\n"
    ++ "    /wait [SECS]         Let time pass\n"
    ++ "    /status              Show world and scheduler counts\n"
    ++ "    /quit                Leave\n"
    ++ "    Ctrl+D               Leave\n"
    ++ "    Ctrl+C               Cancel the current line\n"

/-- How a run ended: its exit code and all it printed. -/
structure Result where
  code : Nat
  stdout : String
  stderr : String
  deriving DecidableEq, Repr

/-- The exit code of a run that broke off. -/
def faultCode : Nat := 101

/-- The result of a run that ended in the given state of the shell. -/
def Result.ofShell (result : Except Failure Unit) (t : Transcript) : Result :=
  match result with
  | .ok () => ⟨0, t.stdout, t.stderr⟩
  | .error (.error e) => ⟨1, t.stdout, t.stderr ++ errorLine e.message⟩
  | .error (.fault _) => ⟨faultCode, t.stdout, t.stderr⟩

abbrev VillageShell := Shell Village.setting

/-- What is left to do after the scripts: nothing, or to run the shell on the rest of the input. -/
inductive Launch where
  | finished (result : Result)
  | shell (sh : VillageShell) (input : String)

/-- What comes of reading a file: its text and what it has left of the input, or why it cannot be
read, in the system's words. -/
abbrev Reading := Except String (String × String)

/-- Runs the scripts in order; `read` tells what comes of reading the file of a name while there is
so much of the input. -/
def runScripts (read : String → String → Reading) (batch : Bool) (input : String)
    (sh : VillageShell) : List String → Launch
  | [] => if batch then .finished (.ofShell (.ok ()) sh.transcript) else .shell sh input
  | name :: names =>
    match read name input with
    | .error problem =>
      .finished ⟨1, sh.transcript.stdout,
        sh.transcript.stderr ++ errorLine ("cannot read " ++ name ++ ": " ++ problem)⟩
    | .ok (script, input) =>
      match sh.runScript script with
      | (.ok (), sh) => runScripts read batch input sh names
      | (.error failure, sh) => .finished (.ofShell (.error failure) sh.transcript)

/-- A shell in a fresh village. -/
def villageShell (settings : Settings) : Except Error VillageShell :=
  (Village.session Village.lodging Village.behaviour Duration.zero settings).map
    (Shell.ofSession · settings)

/-- Carries out the arguments up to the point where lines are read. -/
def launch (args : List String) (read : String → String → Reading) (input : String) : Launch :=
  match parse .none args with
  | .error problem => .finished ⟨1, "", errorLine problem.message⟩
  | .ok o =>
    if o.help then .finished ⟨0, help, ""⟩
    else if o.version then .finished ⟨0, "mudcore " ++ version ++ "\n", ""⟩
    else
      match villageShell o.settings with
      | .error e => .finished ⟨1, "", errorLine e.message⟩
      | .ok sh => runScripts read o.batch input sh o.scripts

/-- The files that the arguments name. -/
def scriptNames (args : List String) : List String :=
  match parse .none args with
  | .ok o => o.scripts
  | .error _ => []

/-- Runs the program on the given arguments, files and input; `edit` tells what a line editor makes
of the input that the scripts have left. -/
def run (args : List String) (read : String → String → Reading) (edit : String → List ReadEvent)
    (input : String) : Result :=
  match launch args read input with
  | .finished result => result
  | .shell sh input =>
    let (result, _, sh) := sh.run (edit input)
    .ofShell result sh.transcript

end CommandLine

end TextWorld

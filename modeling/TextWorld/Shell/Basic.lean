import TextWorld.Decimal.Reading
import TextWorld.Play.Session
import TextWorld.Play.Settings
import TextWorld.Play.StandardCommands

/-!
The interactive shell. Each line is dispatched for the session's player, then time passes; lines
that start with a slash are commands of the shell itself and never reach the world.
-/

namespace TextWorld

/-- What the shell has printed and read. -/
structure Transcript where
  stdout : String
  stderr : String
  /-- The lines that went into the history. -/
  history : Queue String
  /-- How often a line was asked for. -/
  reads : Nat
  deriving DecidableEq, Repr

def Transcript.empty : Transcript := ⟨"", "", .empty, 0⟩

structure Shell (S : Setting) where
  session : Session S
  settings : Settings
  transcript : Transcript

/-- What a line editor gives back when it is asked for a line. -/
inductive ReadEvent where
  | line (text : String)
  | interrupted
  | endOfInput
  | failed (message : String)
  deriving DecidableEq, Repr

/-- Why a line or a script was given up. -/
inductive Failure where
  | error (e : Error)
  | fault (f : Fault)
  deriving DecidableEq, Repr

/-- What to do after a line. -/
inductive Flow where
  | proceed
  | quit
  deriving DecidableEq, Repr

def version : String := "0.1.0"

def banner : String :=
  "\x1b[1;36m\n"
    ++ "  __  __           _                    \n"
    ++ " |  \\/  |_   _  __| | ___ ___  _ __ ___ \n"
    ++ " | |\\/| | | | |/ _` |/ __/ _ \\| '__/ _ \\\n"
    ++ " | |  | | |_| | (_| | (_| (_) | | |  __/\n"
    ++ " |_|  |_|\\__,_|\\__,_|\\___\\___/|_|  \\___|\n"
    ++ "\x1b[0m\n"
    ++ "Welcome to mudcore v" ++ version ++ "\n"
    ++ "Type `commands` for the command list, `/help` for the shell. Ctrl+D leaves.\n\n"

def shellHelp : String :=
  "Shell commands:\n"
    ++ "  /help          Show this help\n"
    ++ "  /time          Show logical time\n"
    ++ "  /wait [SECS]   Let time pass\n"
    ++ "  /status        Show world and scheduler counts\n"
    ++ "  /quit          Leave"

/-- An error as it is printed on a terminal. -/
def errorLine (message : String) : String := "\x1b[31mError: " ++ message ++ "\x1b[0m\n"

namespace Shell

variable {S : Setting}

/-- A shell in which nothing has happened. -/
def ofSession (session : Session S) (settings : Settings) : Shell S :=
  ⟨session, settings, .empty⟩

def withoutBanner (sh : Shell S) : Shell S := { sh with settings.showBanner := false }

def print (sh : Shell S) (text : String) : Shell S :=
  { sh with transcript.stdout := sh.transcript.stdout ++ text }

/-- Prints a text and ends the line, unless there is no text. -/
def printText (sh : Shell S) (text : String) : Shell S :=
  if text = "" then sh else sh.print (text ++ "\n")

def printError (sh : Shell S) (e : Error) : Shell S :=
  { sh with transcript.stderr := sh.transcript.stderr ++ errorLine e.message }

/-- The words offered for completion: all commands for everyone, and those of the shell. -/
def keywords (sh : Shell S) : List String :=
  let commands := sh.session.rules.registries.global.definitions.flatMap fun d =>
    d.name :: d.aliases
  StandardCommands.sortDistinct (commands ++ ["/help", "/time", "/wait", "/status", "/quit"])

/-- The time, what there is in the world, and what is to come. -/
def statusText (sh : Shell S) : String :=
  let world := sh.session.state.world
  let forest := sh.session.state.forest
  let next := match forest.scheduler.nextDue with
    | some due => ", next at " ++ due.secondsText ++ "s"
    | none => ""
  "time " ++ world.now.secondsText ++ "s, " ++ toString world.characters.size ++ " characters, "
    ++ toString forest.size ++ " conversations, " ++ toString forest.scheduler.size
    ++ " scheduled" ++ next

/-- What evaluating a line gives: a text to print, or why it was given up. -/
abbrev Evaluation (S : Setting) := Except Failure (String × Flow) × Shell S

/-- How long `/wait` waits, by default as long as a line takes. -/
def waitTime (sh : Shell S) (argument : Option String) : Except ShellProblem Duration := do
  let seconds ← match argument with
    | none => pure sh.settings.tickInterval.inSeconds
    | some text =>
      match Decimal.Binary64.ofText? text with
      | some x => pure x
      | none => throw (.notANumber text)
  (Duration.ofBinary64 seconds).mapError .badDuration

/-- Lets time pass. -/
def wait (sh : Shell S) (delta : Duration) : Except Failure (List String) × Shell S :=
  let (result, session) := sh.session.tick delta
  (result.mapError .fault, { sh with session })

/-- Evaluates a command of the shell, given without its slash. -/
def evaluateOwn (sh : Shell S) (line : String) : Evaluation S :=
  let shown (text : String) : Evaluation S := (.ok (text, .proceed), sh)
  let refused (problem : ShellProblem) : Evaluation S := (.error (.error (.shell problem)), sh)
  let words := Text.words line
  let name := words.headD ""
  if name = "quit" ∨ name = "q" then (.ok ("", .quit), sh)
  else if name = "help" ∨ name = "h" then shown shellHelp
  else if name = "time" then
    shown ("Logical time: " ++ sh.session.state.world.now.secondsText ++ "s")
  else if name = "wait" then
    match sh.waitTime words[1]? with
    | .error problem => refused problem
    | .ok delta =>
      let (result, sh) := sh.wait delta
      (result.map fun texts => ("\n".intercalate texts, .proceed), sh)
  else if name = "status" then shown sh.statusText
  else refused (.unknownCommand name)

/-- Dispatches a line for the player, then lets time pass. -/
def evaluateWorld (sh : Shell S) (line : String) : Evaluation S :=
  match sh.session.submit line with
  | (.error fault, session) => (.error (.fault fault), { sh with session })
  | (.ok told, session) =>
    match session.tick sh.settings.tickInterval with
    | (.error fault, session) => (.error (.fault fault), { sh with session })
    | (.ok more, session) =>
      -- Without a player there is nobody left to tell anything.
      match session.checkPlayer with
      | .error e => (.error (.error e), { sh with session })
      | .ok () => (.ok ("\n".intercalate (told ++ more), .proceed), { sh with session })

def evaluate (sh : Shell S) (line : String) : Evaluation S :=
  match (Text.trim line).toList with
  | '/' :: rest => sh.evaluateOwn (String.ofList rest)
  | _ => sh.evaluateWorld line

/-- Runs the lines of a script, each printed after the prompt, until one leaves the shell or is
given up. -/
def runLines (sh : Shell S) : List String → Except Failure Unit × Shell S
  | [] => (.ok (), sh)
  | line :: lines =>
    let sh := sh.print (sh.settings.prompt ++ line ++ "\n")
    match sh.evaluate line with
    | (.error failure, sh) => (.error failure, sh)
    | (.ok (text, flow), sh) =>
      let sh := sh.printText text
      match flow with
      | .quit => (.ok (), sh)
      | .proceed => sh.runLines lines

/-- The lines of a script that count: trimmed, neither blank nor a comment. -/
def scriptLines (script : String) : List String :=
  ((Text.lines script).map Text.trim).filter fun line => line ≠ "" && line.toList.head? ≠ some '#'

def runScript (sh : Shell S) (script : String) : Except Failure Unit × Shell S :=
  sh.runLines (scriptLines script)

/-- Greets the player and shows the surroundings. -/
def greet (sh : Shell S) : Except Failure Unit × Shell S :=
  let sh := if sh.settings.showBanner then sh.print banner else sh
  match sh.session.submit "look" with
  | (.error fault, session) => (.error (.fault fault), { sh with session })
  | (.ok told, session) => (.ok (), { sh with session }.printText ("\n".intercalate told))

def farewell (sh : Shell S) : Shell S := sh.print "\nFarewell!\n"

/-- What a read led to: the shell goes on, or it is over. -/
inductive Progress (S : Setting) where
  | running (sh : Shell S)
  | over (result : Except Failure Unit) (sh : Shell S)

/-- Deals with what came back from a read. -/
def step (sh : Shell S) (event : ReadEvent) : Progress S :=
  let sh := { sh with transcript.reads := sh.transcript.reads + 1 }
  match event with
  | .failed message => .over (.error (.error (.internal message))) sh
  | .interrupted => .running (sh.print "\n")
  | .endOfInput => .over (.ok ()) sh.farewell
  | .line line =>
    if Text.trim line = "" then .running sh
    else
      let sh := { sh with transcript.history := sh.transcript.history.push line }
      match sh.evaluate line with
      | (.error (.fault fault), sh) => .over (.error (.fault fault)) sh
      | (.error (.error e), sh) => .running (sh.printError e)
      | (.ok (text, .proceed), sh) => .running (sh.printText text)
      | (.ok (text, .quit), sh) => .over (.ok ()) (sh.printText text).farewell

/-- Reads events until the shell is over; where they end, so does the input. Gives the events left
unread too. -/
def runEvents (sh : Shell S) : List ReadEvent → Except Failure Unit × List ReadEvent × Shell S
  | [] =>
    match sh.step .endOfInput with
    | .running sh => (.ok (), [], sh)
    | .over result sh => (result, [], sh)
  | event :: events =>
    match sh.step event with
    | .running sh => sh.runEvents events
    | .over result sh => (result, events, sh)

/-- Runs the shell on the given events. -/
def run (sh : Shell S) (events : List ReadEvent) :
    Except Failure Unit × List ReadEvent × Shell S :=
  match sh.greet with
  | (.error failure, sh) => (.error failure, events, sh)
  | (.ok (), sh) => sh.runEvents events

end Shell

end TextWorld

import TextWorld.Shell.CommandLine

/-! The program: arguments, files and terminal around the shell. -/

namespace TextWorld.Terminal

/-- Why a file cannot be read, in the system's words. -/
def problemText : IO.Error → String
  | .noFileOrDirectory .. => "No such file or directory (os error 2)"
  | .permissionDenied .. => "Permission denied (os error 13)"
  | e => toString e

def readScript (name : String) : IO (String × Except String String) := do
  try
    let text ← IO.FS.readFile name
    pure (name, .ok text)
  catch e => pure (name, .error (problemText e))

/-- A line of input without its end: a line feed, and a carriage return in front of it. -/
def readEvent (line : String) : ReadEvent :=
  match line.toList.reverse with
  | [] => .endOfInput
  | '\n' :: '\r' :: rest | '\n' :: rest => .line (String.ofList rest.reverse)
  | _ => .line line

/-- Prints what the shell has said since the last time. -/
def flushTranscript (sh : CommandLine.VillageShell) : IO CommandLine.VillageShell := do
  IO.print sh.transcript.stdout
  (← IO.getStdout).flush
  IO.eprint sh.transcript.stderr
  pure { sh with transcript := .empty }

def printResult (result : CommandLine.Result) : IO UInt32 := do
  IO.print result.stdout
  IO.eprint result.stderr
  pure result.code.toUInt32

partial def readLines (sh : CommandLine.VillageShell) : IO UInt32 := do
  let stdin ← IO.getStdin
  if ← stdin.isTty then
    IO.print sh.settings.prompt
    (← IO.getStdout).flush
  match sh.step (readEvent (← stdin.getLine)) with
  | .running sh => readLines (← flushTranscript sh)
  | .over result sh => printResult (.ofShell result sh.transcript)

end TextWorld.Terminal

open TextWorld Terminal in
def main (args : List String) : IO UInt32 := do
  let scripts ← (CommandLine.scriptNames args).mapM readScript
  let read (name input : String) : CommandLine.Reading :=
    ((scripts.lookup name).getD (.error "")).map fun text => (text, input)
  match CommandLine.launch args read "" with
  | .finished result => printResult result
  | .shell sh _ =>
    match (← flushTranscript sh).greet with
    | (.error failure, sh) => printResult (.ofShell (.error failure) sh.transcript)
    | (.ok (), sh) => readLines (← flushTranscript sh)

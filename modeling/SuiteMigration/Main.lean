import SuiteMigration.Run

/-!
# The command line

The program: a run on the files of the machine. Its output goes to standard output, and what else it
says to standard error. Both are coloured on a terminal.

## Main definitions

* `main` - the program
-/

namespace SuiteMigration.CommandLine

/-- The names of an entry of a folder and below it. Links are not followed. -/
partial def shapeOf (entry : IO.FS.DirEntry) : IO (String × FileTree.Shape) := do
  match (← entry.path.symlinkMetadata).type with
  | .file => return (entry.fileName, .file ())
  | .dir => return (entry.fileName, .folder (← (← entry.path.readDir).toList.mapM shapeOf))
  | _ => return (entry.fileName, .device)

/-- What is at a path. A link is followed. -/
def surveyOf (path : Path) : IO Survey := do
  let place : IO.FS.DirEntry := { root := path.text, fileName := "" }
  try
    match (← place.root.metadata).type with
    | .file => return .found (.file ())
    | .dir =>
      try
        return .found (.folder (← (← place.root.readDir).toList.mapM shapeOf))
      catch _ => return .unreadable
    | _ => return .found .device
  catch _ => return .missing

/-- Replaces a file as a whole: the content goes to a new file beside it, which then takes its
name. -/
def replaceFile (path : Path) (content : ByteArray) : IO Bool := do
  let draft := path.text ++ ".migrated"
  try
    IO.FS.writeBinFile draft content
    IO.FS.rename draft path.text
    return true
  catch _ => return false

/-- Runs on the files of the machine. -/
instance : FileAccess IO where
  survey := surveyOf
  read path := do
    try return some (← IO.FS.readBinFile path.text)
    catch _ => return none
  replace := replaceFile
  forEach action items := do
    let tasks ← items.mapM fun item => IO.asTask (action item)
    tasks.mapM fun task => do IO.ofExcept (← IO.wait task)

/-- What is said about arguments that do not lead to a run. -/
def usageMessage : EarlyExit → String
  | .unknownArgument => "unexpected argument found"
  | .conflict => "an argument cannot be used with another one, or was given twice"
  | .badStrategy => "invalid value for '--strategy <STRATEGY>'"
  | .missingValue => "a value is required but none was supplied"
  | .unexpectedValue => "unexpected value for a switch"
  | .missingPath => "the following required arguments were not provided: <PATH>"
  | .help | .version => ""

/-- The lines of a notice. -/
def noticeSpans : Notice → List Span
  | .status line => line
  | .failure failure =>
    let help := match failure.help with
      | some text => "  help: " ++ text ++ "\n"
      | none => ""
    [{ style := some { colour := some .red }, text := failure.code },
      { text := "\n  " ++ failure.message ++ "\n" ++ help }]
  | .usage reason =>
    [{ style := some { bold := true, colour := some .red }, text := "error:" },
      { text := " " ++ usageMessage reason ++ "\n" }]

/-- Prints spans, with their styles if the stream is a terminal. -/
def printSpans (stream : IO.FS.Stream) (spans : List Span) : IO Unit := do
  stream.putStr (if ← stream.isTty then ansiText spans else plainText spans)

end SuiteMigration.CommandLine

open SuiteMigration in
open SuiteMigration.CommandLine in
/-- Runs with the given words and gives the exit code. -/
def main (words : List String) : IO UInt32 := do
  let transcript ← runWords words
  printSpans (← IO.getStdout) transcript.output
  transcript.notices.forM fun notice => do printSpans (← IO.getStderr) (noticeSpans notice)
  return transcript.exitCode.toUInt32

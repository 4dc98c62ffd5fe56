import GuestLibrary.CommandLine.Plan
import GuestLibrary.Log.Timestamp
import Std.Time.DateTime.Timestamp

/-!
The program. It reads the files that a command may need, and carries the plan of the command out.
-/
namespace GuestLibrary.CommandLine

/-- The content of a file below the current folder; none when it cannot be read. -/
def readFile? (path : String) : IO (Option Bytes) := do
  let here ← IO.currentDir
  try
    let content ← IO.FS.readBinFile (here / path)
    pure (some content.toList)
  catch _ => pure none

/-- The names directly inside a folder. -/
def namesIn (path : String) : IO (List String) := do
  let here ← IO.currentDir
  try
    let entries ← (here / path).readDir
    pure (entries.toList.map (·.fileName))
  catch _ => pure []

/-- The fixture files that a command names. -/
def fixtureTree (words : List String) : IO Folder := do
  match Command.ofWords words with
  | .ok (.verify o) =>
    match ← readFile? o.fixture with
    | some content => pure ⟨[(o.fixture, content)]⟩
    | none =>
      let paths := (← namesIn o.fixture).map (Path.join o.fixture)
      let files ← paths.mapM fun path => do pure (path, ← readFile? path)
      pure ⟨files.filterMap fun (path, content) => content.map (path, ·)⟩
  | _ => pure ⟨[]⟩

/-- Writes files in order, up to the first one that cannot be written. -/
def writeFiles : List (String × String) → IO (Option Failure)
  | [] => pure none
  | (path, text) :: rest => do
    let here ← IO.currentDir
    let written ← try IO.FS.writeFile (here / path) text; pure true catch _ => pure false
    if written then writeFiles rest else pure (some (.unwritable path))

/-- Runs the program on the words of its command line. -/
def run (words : List String) : IO UInt32 := do
  let tree ← fixtureTree words
  let now ← Std.Time.Timestamp.now
  let milliseconds := now.toMillisecondsSinceUnixEpoch.val
  let timestamp := Log.timestamp (milliseconds / 1000) (milliseconds % 1000).toNat
  match Plan.ofWords tree timestamp words with
  | .error stop =>
    (← IO.getStderr).putStrLn stop.message
    pure (UInt32.ofNat Plan.stopped)
  | .ok plan =>
    let failure := (← writeFiles plan.writes).or plan.failure
    match failure with
    | some failure => (← IO.getStderr).putStrLn ("error: " ++ failure.message)
    | none => IO.print plan.output
    pure (UInt32.ofNat (Plan.statusOf failure))

end GuestLibrary.CommandLine

def main (words : List String) : IO UInt32 := GuestLibrary.CommandLine.run words

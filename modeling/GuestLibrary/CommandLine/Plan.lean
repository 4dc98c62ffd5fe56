import GuestLibrary.CommandLine.Command
import GuestLibrary.Conformance.Report
import GuestLibrary.Log.AllocationTrace
import GuestLibrary.Log.Emitter

/-!
What a command does. A plan says which files to write, what to print and how to end; it is made
from the words, the files that can be read and the present time, and carried out afterwards. A
program that is stopped has no plan.
-/
namespace GuestLibrary.CommandLine

open Conformance Log

/-- Why a command fails. -/
inductive Failure
  | usage (e : UsageError)
  | load (e : LoadError) (path : String)
  /-- An instant has no broken-down time. -/
  | unrepresentable (epoch : Int)
  | unwritable (path : String)
  /-- A case did not pass. -/
  | nonconforming
  deriving DecidableEq, Repr

namespace Failure

/-- The exit status: wrong words are told from all other failures. -/
def status : Failure → Nat
  | usage _ => 2
  | _ => 1

def message : Failure → String
  | usage e => e.message
  | load .unreadable path => "cannot read " ++ path
  | load .malformed path => "no fixture set in " ++ path
  | load .noFixtures path => "no fixture JSON files under " ++ path
  | unrepresentable epoch => "epoch " ++ toString epoch ++ " does not fit a calendar year"
  | unwritable path => "cannot write " ++ path
  | nonconforming => "Conformance verification failed"

end Failure

structure Plan where
  /-- Files to write, in order, with their texts. -/
  writes : List (String × String) := []
  /-- What is printed. -/
  output : String := ""
  /-- How it ends when every file could be written. -/
  failure : Option Failure := none
  deriving DecidableEq, Repr

namespace Plan

def failing (failure : Failure) : Plan := { failure := some failure }

/-- The run that names log lines of verdicts. -/
def runId : String := "fixture-verify"

/-- The log entry of a verdict, without a trace id. -/
def entryOf (now : String) (v : Verdict) : Entry :=
  { timestamp := now
    traceId := ""
    severity := if v.passed then .info else .error
    event := "case_verified"
    family := some v.family
    symbol := some v.function
    outcome := some (if v.passed then .pass else .fail)
    errorNumber := some v.actualErrorNumber
    details := some (.ofMembers [("case", .text v.caseName), ("reference", .text v.reference)]) }

/-- The log of verdicts. -/
def logText (now : String) (verdicts : List Verdict) : String :=
  let emitter := (verdicts.map (entryOf now)).foldl Emitter.write { runId }
  textOf emitter.lines

/-- The report on fixtures that were loaded. -/
def reportOn (now : String) (o : VerifyOptions) (loaded : List LoadedFixture) :
    Except Stop Report := do
  let functions := if o.functions.isEmpty then none else some o.functions
  return {
    title := "sandlibc Conformance Report"
    timestamp := o.timestamp.getD now
    fixtures := loaded.map FixtureDigest.ofLoaded
    summary := ← Summary.ofSets functions (loaded.map (·.set)) }

/-- Runs fixtures, and writes the log and the reports that are asked for. -/
def verify (tree : Folder) (now : String) (o : VerifyOptions) : Except Stop Plan := do
  match LoadedFixture.load tree o.fixture with
  | .error e => return failing (.load e o.fixture)
  | .ok loaded =>
    let report ← reportOn now o loaded
    return {
      writes :=
        (o.log.map fun path => (path, logText now report.summary.verdicts)).toList
          ++ (o.report.map fun path => (path, report.markdown)).toList
          ++ (o.json.map fun path => (path, report.json)).toList
      failure := if report.summary.allPassed then none else some .nonconforming }

/-- Prints a formatted instant. -/
def strftime (epoch : Int) (format : String) (offset : Int) : Plan :=
  match Calendar.ofInstant? epoch offset with
  | none => failing (.unrepresentable epoch)
  | some c => { output := Utf8.decodeLossy (c.render (Bytes.ofText format) offset) ++ "\n" }

/-- Prints the trace of some allocations, or writes it to a file. -/
def allocTrace (now : String) (sizes : List Nat) (maxPages : Option Nat)
    (output : Option String) : Except Stop Plan := do
  let limits : HeapLimits := {}
  let limits := { limits with maxPages := maxPages.getD limits.maxPages }
  let text := textOf ((← Machine.allocationTrace now sizes limits).map (·.line))
  match output with
  | some path => return { writes := [(path, text)] }
  | none => return { output := text }

def ofCommand (tree : Folder) (now : String) : Command → Except Stop Plan
  | .verify o => verify tree now o
  | .strftime epoch format offset => return strftime epoch format offset
  | .allocTrace sizes maxPages output => allocTrace now sizes maxPages output

/-- The plan of some words. -/
def ofWords (tree : Folder) (now : String) (words : List String) : Except Stop Plan :=
  match Command.ofWords words with
  | .ok command => ofCommand tree now command
  | .error (.help text) => return { output := text }
  | .error (.usage e) => return failing (.usage e)

/-- Writes files in order, up to the first one that cannot be written. -/
def writeAll : List (String × String) → Folder → Folder × Option Failure
  | [], tree => (tree, none)
  | (path, text) :: rest, tree =>
    match tree.write? path (Bytes.ofText text) with
    | some tree => writeAll rest tree
    | none => (tree, some (.unwritable path))

/-- The exit status of a program that is stopped. -/
def stopped : Nat := 101

/-- The exit status of an ending. -/
def statusOf (failure : Option Failure) : Nat := failure.elim 0 (·.status)

/-- Carries a plan out on a folder tree: the exit status, what was printed, and the tree
afterwards. -/
def carryOut (plan : Plan) (tree : Folder) : Nat × String × Folder :=
  match writeAll plan.writes tree with
  | (tree, some failure) => (failure.status, "", tree)
  | (tree, none) => (statusOf plan.failure, plan.output, tree)

/-- The whole program on a folder tree. One that is stopped has written and printed nothing. -/
def run (tree : Folder) (now : String) (words : List String) : Nat × String × Folder :=
  match ofWords tree now words with
  | .ok plan => plan.carryOut tree
  | .error _ => (stopped, "", tree)

end Plan
end GuestLibrary.CommandLine

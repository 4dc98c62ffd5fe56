import GuestLibrary.Conformance.Difference
import GuestLibrary.Conformance.Execution
import GuestLibrary.Conformance.Fixture

/-!
Verdicts on fixture cases. A case passes when both its text and its error number are as expected.
-/
namespace GuestLibrary.Conformance

structure Verdict where
  caseName : String
  family : String
  function : String
  reference : String
  passed : Bool
  expected : String
  actual : String
  expectedErrorNumber : Int
  actualErrorNumber : Int
  /-- What differs. -/
  difference : Option String
  deriving DecidableEq, Repr

namespace Verdict

/-- The answer of a case, and how its text differs. A call without an answer answers what is
wrong, and is always said to differ; a call that is stopped answers nothing. -/
def textOutcome (c : FixtureCase) : Except Stop (Execution × Option String) := do
  match ← execute c.function c.inputs with
  | .ok r =>
    return (r, if r.output = c.expectedOutput then none
      else some (Conformance.difference c.expectedOutput r.output))
  | .error e =>
    let actual := "unsupported:" ++ e.message
    return ({ output := actual }, some (Conformance.difference c.expectedOutput actual))

/-- How the error numbers of a case differ. -/
def mismatchNote (expected actual : Int) : String :=
  "errno mismatch: expected=" ++ toString expected ++ ", actual=" ++ toString actual

/-- The verdict on a case. -/
def ofCase (family : String) (c : FixtureCase) : Except Stop Verdict := do
  let (r, difference) ← textOutcome c
  let agrees := r.errorNumber == c.expectedErrorNumber
  let note := mismatchNote c.expectedErrorNumber r.errorNumber
  return {
    caseName := c.name
    family
    function := c.function
    reference := c.reference
    passed := r.output == c.expectedOutput && agrees
    expected := c.expectedOutput
    actual := r.output
    expectedErrorNumber := c.expectedErrorNumber
    actualErrorNumber := r.errorNumber
    difference :=
      if agrees then difference else some (difference.elim note fun d => d ++ "\n" ++ note) }

/-- The cases of a set that are run; given names of calls, only those of these. -/
def selected (functions : Option (List String)) (set : FixtureSet) : List FixtureCase :=
  set.cases.filter fun c => functions.all (·.contains c.function)

/-- The verdicts on the cases of a set. A case that is stopped stops the run. -/
def ofSet (functions : Option (List String)) (set : FixtureSet) : Except Stop (List Verdict) :=
  (selected functions set).mapM (ofCase set.family)

def toJson (v : Verdict) : Json :=
  .object [("case_name", .text v.caseName), ("family", .text v.family),
    ("function", .text v.function), ("reference", .text v.reference), ("passed", .bool v.passed),
    ("expected", .text v.expected), ("actual", .text v.actual),
    ("expected_errno", .integer v.expectedErrorNumber),
    ("actual_errno", .integer v.actualErrorNumber),
    ("diff", v.difference.elim .null .text)]

end Verdict

/-- Verdicts with their counts. -/
structure Summary where
  verdicts : List Verdict
  deriving DecidableEq, Repr

namespace Summary

/-- Runs sets one after the other. -/
def ofSets (functions : Option (List String)) (sets : List FixtureSet) : Except Stop Summary := do
  return ⟨(← sets.mapM (Verdict.ofSet functions)).flatten⟩

def total (s : Summary) : Nat := s.verdicts.length

def passed (s : Summary) : Nat := (s.verdicts.filter (·.passed)).length

def failed (s : Summary) : Nat := s.total - s.passed

def allPassed (s : Summary) : Bool := s.failed == 0

/-- The verdicts on cases that failed. -/
def failures (s : Summary) : List Verdict := s.verdicts.filter (!·.passed)

def toJson (s : Summary) : Json :=
  .object [("total", .integer s.total), ("passed", .integer s.passed),
    ("failed", .integer s.failed), ("results", .array (s.verdicts.map Verdict.toJson))]

end Summary
end GuestLibrary.Conformance

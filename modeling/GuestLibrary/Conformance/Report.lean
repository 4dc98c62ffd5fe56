import GuestLibrary.Conformance.Verdict

/-!
Reports on a run of fixtures: what ran, against which files, and how it went.
-/
namespace GuestLibrary.Conformance

/-- A fixture file by its digest. -/
structure FixtureDigest where
  path : String
  family : String
  sha256 : String
  cases : Nat
  deriving DecidableEq, Repr

def FixtureDigest.ofLoaded (f : LoadedFixture) : FixtureDigest :=
  ⟨f.path, f.set.family, f.sha256, f.set.cases.length⟩

structure Report where
  title : String
  timestamp : String
  fixtures : List FixtureDigest
  summary : Summary
  deriving DecidableEq, Repr

namespace Report

def fixtureLine (f : FixtureDigest) : String :=
  "- \x60" ++ f.path ++ "\x60 (" ++ f.family ++ ", " ++ toString f.cases ++ " cases) sha256 \x60"
    ++ f.sha256 ++ "\x60\n"

def caseLine (v : Verdict) : String :=
  "| " ++ v.caseName ++ " | " ++ v.function ++ " | " ++ v.reference ++ " | "
    ++ (if v.passed then "PASS" else "FAIL") ++ " |\n"

def failureText (v : Verdict) : String :=
  "\n### " ++ v.caseName ++ "\n\n\x60\x60\x60\n" ++ v.difference.getD "(no diff)"
    ++ "\n\x60\x60\x60\n"

/-- The report as Markdown. -/
def markdown (r : Report) : String :=
  let section_ := fun (head : String) (parts : List String) (tail : String) =>
    if parts.isEmpty then "" else head ++ String.join parts ++ tail
  "# " ++ r.title ++ "\n\n- Timestamp: " ++ r.timestamp ++ "\n- Total: "
    ++ toString r.summary.total ++ "\n- Passed: " ++ toString r.summary.passed ++ "\n- Failed: "
    ++ toString r.summary.failed ++ "\n\n"
    ++ section_ "## Fixtures\n\n" (r.fixtures.map fixtureLine) "\n"
    ++ "| Case | Function | Reference | Status |\n|------|----------|-----------|--------|\n"
    ++ String.join (r.summary.verdicts.map caseLine)
    ++ section_ "\n## Failures\n" (r.summary.failures.map failureText) ""

def digestJson (f : FixtureDigest) : Json :=
  .object [("path", .text f.path), ("family", .text f.family), ("sha256", .text f.sha256),
    ("cases", .integer f.cases)]

/-- The report as JSON. -/
def json (r : Report) : String :=
  Json.pretty (.object [("title", .text r.title), ("timestamp", .text r.timestamp),
    ("fixtures", .array (r.fixtures.map digestJson)), ("summary", r.summary.toJson)])

end Report
end GuestLibrary.Conformance

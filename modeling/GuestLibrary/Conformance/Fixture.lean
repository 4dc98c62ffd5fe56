import GuestLibrary.Digest.Sha256
import GuestLibrary.Host.Path
import GuestLibrary.Json.Document
import GuestLibrary.Json.Writer

/-!
Fixture sets: cases with the inputs of a call and its expected answer, kept as JSON texts in
files.
-/
namespace GuestLibrary.Conformance

structure FixtureCase where
  name : String
  /-- The call under test. -/
  function : String
  /-- Where the expected behaviour is laid down. -/
  reference : String
  inputs : Json
  expectedOutput : String
  expectedErrorNumber : Int
  deriving Repr

structure FixtureSet where
  version : String
  family : String
  /-- When the answers were captured. -/
  capturedAt : String
  cases : List FixtureCase
  deriving Repr

/-- A document that is a string. -/
def textOf? : Document → Option String
  | .text s => s
  | _ => none

/-- A document that is an `int`. -/
def intOf? : Document → Option Int
  | .number n => (n.value?.bind Json.integer?).filter fun i => SignedRange.int.contains i
  | _ => none

namespace FixtureCase

/-- The containers around the inputs of a case. -/
def depth : Nat := 3

/-- The case that a document describes. The expected error number is 0 where it is left out. -/
def ofDocument? (d : Document) : Option FixtureCase := do
  let fields ← d.fields?
    ["name", "function", "reference", "inputs", "expected_output", "expected_errno"]
  match fields with
  | [some name, some function, some reference, some inputs, some output, number] =>
    let name ← textOf? name
    let function ← textOf? function
    let reference ← textOf? reference
    let inputs ← inputs.valueWithin? (Document.mostNested - depth)
    let expectedOutput ← textOf? output
    let expectedErrorNumber ← number.elim (some 0) intOf?
    pure { name, function, reference, inputs, expectedOutput, expectedErrorNumber }
  | _ => none

def toJson (c : FixtureCase) : Json :=
  .object [("name", .text c.name), ("function", .text c.function),
    ("reference", .text c.reference), ("inputs", c.inputs),
    ("expected_output", .text c.expectedOutput),
    ("expected_errno", .integer c.expectedErrorNumber)]

end FixtureCase

namespace FixtureSet

/-- The cases that documents describe. -/
def casesOf? : List Document → Option (List FixtureCase)
  | [] => some []
  | d :: rest => do
    let c ← FixtureCase.ofDocument? d
    let rest ← casesOf? rest
    pure (c :: rest)

/-- The set that a document describes. -/
def ofDocument? (d : Document) : Option FixtureSet := do
  let fields ← d.fields? ["version", "family", "captured_at", "cases"]
  match fields with
  | [some version, some family, some capturedAt, some (.array cases)] =>
    let version ← textOf? version
    let family ← textOf? family
    let capturedAt ← textOf? capturedAt
    let cases ← casesOf? cases
    pure { version, family, capturedAt, cases }
  | _ => none

/-- Reads a set. -/
def ofText? (s : String) : Option FixtureSet := (Document.read? s).bind ofDocument?

def toJson (set : FixtureSet) : Json :=
  .object [("version", .text set.version), ("family", .text set.family),
    ("captured_at", .text set.capturedAt), ("cases", .array (set.cases.map (·.toJson)))]

/-- Writes a set. -/
def toText (set : FixtureSet) : String := set.toJson.pretty

end FixtureSet

/-- Why fixtures could not be loaded. -/
inductive LoadError
  /-- A path leads to nothing that can be read. -/
  | unreadable
  /-- A file holds no fixture set. -/
  | malformed
  /-- A folder holds no JSON files. -/
  | noFixtures
  deriving DecidableEq, Repr

/-- A set with the file it came from. -/
structure LoadedFixture where
  path : String
  /-- The digest of the file. -/
  sha256 : String
  set : FixtureSet
  deriving Repr

namespace LoadedFixture

/-- Loads the set in a file. -/
def ofFile (tree : Folder) (path : String) : Except LoadError LoadedFixture :=
  match tree.read? path with
  | none => .error .unreadable
  | some content =>
    match (Document.readBytes? content).bind FixtureSet.ofDocument? with
    | none => .error .malformed
    | some set => .ok ⟨path, Sha256.hex content, set⟩

/-- A file name that ends in `.json` and has more in front of it. -/
def isJsonName (name : String) : Bool :=
  let suffix := ".json".toList
  suffix.isSuffixOf name.toList && suffix.length < name.length

/-- Loads every file in a list. -/
def ofFiles (tree : Folder) : List String → Except LoadError (List LoadedFixture)
  | [] => .ok []
  | path :: rest => do
    let loaded ← ofFile tree path
    let rest ← ofFiles tree rest
    pure (loaded :: rest)

/-- Loads a file, or the JSON files directly inside a folder by the order of their names. -/
def load (tree : Folder) (path : String) : Except LoadError (List LoadedFixture) :=
  if (tree.read? path).isSome then ofFiles tree [path]
  else if path = "" || !(tree.isFolder path) then .error .unreadable
  else
    let names := ((tree.names path).filter isJsonName).mergeSort fun a b => decide (a ≤ b)
    if names.isEmpty then .error .noFixtures
    else ofFiles tree (names.map (Path.join path))

end LoadedFixture
end GuestLibrary.Conformance

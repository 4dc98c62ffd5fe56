import GuestLibrary.Numeral.Literal
import GuestLibrary.Text.Split

/-!
The commands of the program and their options, as they are read and as they are explained.
-/
namespace GuestLibrary.CommandLine

/-- What the value of an option is. -/
inductive ValueKind
  | text
  /-- A path, which is not empty. -/
  | path
  | signed (range : SignedRange)
  | natural
  /-- Naturals between commas. -/
  | naturals

/-- The value of an option. -/
inductive Value
  | text (s : String)
  | integer (i : Int)
  | natural (n : Nat)
  | naturals (ns : List Nat)
  deriving DecidableEq, Repr

/-- Naturals from their texts. -/
def naturalsOf? : List String → Option (List Nat)
  | [] => some []
  | s :: rest =>
    match Numeral.unsignedOf? s, naturalsOf? rest with
    | some n, some rest => some (n :: rest)
    | _, _ => none

/-- Reads a value of a kind. -/
def ValueKind.read? : ValueKind → String → Option Value
  | text, s => some (.text s)
  | path, s => if s = "" then none else some (.text s)
  | signed range, s => (Numeral.signedOf? range s).map .integer
  | natural, s => (Numeral.unsignedOf? s).map .natural
  | naturals, s => (naturalsOf? (Text.split ',' s)).map .naturals

structure OptionSpec where
  name : String
  kind : ValueKind
  /-- What stands for the value in explanations. -/
  placeholder : String
  about : String := ""
  /-- The value of an option that is not given. -/
  default : Option String := none
  required : Bool := false
  /-- The option may be given more than once. -/
  repeats : Bool := false
  /-- The value may begin with a hyphen. -/
  hyphens : Bool := false

structure CommandSpec where
  name : String
  about : String
  options : List OptionSpec

def verifySpec : CommandSpec where
  name := "verify"
  about := "Verify the runtime against fixture files"
  options := [
    { name := "fixture", kind := .path, placeholder := "FIXTURE", required := true
      about := "Fixture JSON file, or a directory of them" },
    { name := "report", kind := .path, placeholder := "REPORT"
      about := "Output report path (markdown)" },
    { name := "json", kind := .path, placeholder := "JSON", about := "Output report path (JSON)" },
    { name := "log", kind := .path, placeholder := "LOG", about := "Per-case JSONL log path" },
    { name := "timestamp", kind := .text, placeholder := "TIMESTAMP"
      about := "Fixed report timestamp, for reproducible reports" },
    { name := "function", kind := .text, placeholder := "FUNCTIONS", repeats := true
      about := "Only run cases for these functions (repeatable)" }]

def strftimeSpec : CommandSpec where
  name := "strftime"
  about := "Format an epoch instant with strftime"
  options := [
    { name := "epoch", kind := .signed .long, placeholder := "EPOCH", required := true
      hyphens := true },
    { name := "format", kind := .text, placeholder := "FORMAT"
      default := some "%a %b %e %H:%M:%S %Y" },
    { name := "offset", kind := .signed .int, placeholder := "OFFSET", default := some "0"
      hyphens := true, about := "Minutes west of UTC" }]

def allocTraceSpec : CommandSpec where
  name := "alloc-trace"
  about := "Trace allocator lifecycle for a list of sizes as JSONL"
  options := [
    { name := "sizes", kind := .naturals, placeholder := "SIZES", default := some "16,256,4096"
      repeats := true, about := "Comma-separated allocation sizes" },
    { name := "max-pages", kind := .natural, placeholder := "MAX_PAGES"
      about := "Heap page ceiling" },
    { name := "output", kind := .path, placeholder := "OUTPUT"
      about := "Output path; stdout when absent" }]

def commandSpecs : List CommandSpec := [verifySpec, strftimeSpec, allocTraceSpec]

/-! Explanations -/

/-- The name of the program. -/
def program : String := "harness"

/-- Labels padded to one width, each with its text. -/
def table (rows : List (String × String × String)) : String :=
  let width := (rows.map fun (_, label, _) => label.length).foldl max 0 + 2
  "\n".intercalate (rows.map fun (margin, label, text) =>
    margin ++ label ++ String.ofList (List.replicate (width - label.length) ' ') ++ text)

def helpRow : String × String × String := ("  -h, ", "--help", "Print help")

/-- An option with its placeholder. -/
def OptionSpec.label (o : OptionSpec) : String := "--" ++ o.name ++ " <" ++ o.placeholder ++ ">"

/-- What is said of an option: its purpose and its default, quoted where it holds blanks. -/
def OptionSpec.text (o : OptionSpec) : String :=
  let shown := fun (s : String) => if s.toList.contains ' ' then "\"" ++ s ++ "\"" else s
  " ".intercalate ([o.about].filter (· ≠ "")
    ++ (o.default.map fun s => "[default: " ++ shown s ++ "]").toList)

/-- The explanation of a command. -/
def CommandSpec.help (c : CommandSpec) : String :=
  let required := (c.options.filter (·.required)).map (" " ++ ·.label)
  c.about ++ "\n\nUsage: " ++ program ++ " " ++ c.name ++ " [OPTIONS]" ++ String.join required
    ++ "\n\nOptions:\n" ++ table (c.options.map (fun o => ("      ", o.label, o.text)) ++ [helpRow])
    ++ "\n"

/-- The command that explains others. -/
def helpName : String := "help"

def helpAbout : String := "Print this message or the help of the given subcommand(s)"

/-- The explanation of the command that explains others. -/
def helpOfHelp : String :=
  helpAbout ++ "\n\nUsage: " ++ program ++ " " ++ helpName ++ " [COMMAND]...\n\nArguments:\n"
    ++ table [("  ", "[COMMAND]...", "Print help for the subcommand(s)")] ++ "\n"

/-- The explanation of the program. -/
def help : String :=
  let commands := commandSpecs.map fun c => ("  ", c.name, c.about)
  let own := ("  ", helpName, helpAbout)
  "Conformance testing harness for sandlibc\n\nUsage: " ++ program
    ++ " <COMMAND>\n\nCommands:\n" ++ table (commands ++ [own]) ++ "\n\nOptions:\n"
    ++ table [helpRow] ++ "\n"

end GuestLibrary.CommandLine

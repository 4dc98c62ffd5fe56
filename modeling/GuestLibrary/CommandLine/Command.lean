import GuestLibrary.CommandLine.Usage

/-!
Reading the words of a command line, from the left. A word that asks for an explanation is
answered at once, so what is wrong further right does not matter.
-/
namespace GuestLibrary.CommandLine

/-- Options of a run of fixtures. -/
structure VerifyOptions where
  fixture : String
  report : Option String := none
  json : Option String := none
  log : Option String := none
  timestamp : Option String := none
  /-- Only cases of these calls run; all when there are none. -/
  functions : List String := []
  deriving DecidableEq, Repr

inductive Command
  | verify (options : VerifyOptions)
  | strftime (epoch : Int) (format : String) (offset : Int)
  | allocTrace (sizes : List Nat) (maxPages : Option Nat) (output : Option String)
  deriving DecidableEq, Repr

/-- What is wrong with the words. -/
inductive UsageError
  | missingCommand
  | unknownCommand (word : String)
  | unexpected (word : String)
  | missingValue (option : String)
  | invalidValue (option value : String)
  | repeatedOption (option : String)
  | missingOption (option : String)
  deriving DecidableEq, Repr

def UsageError.message : UsageError → String
  | missingCommand => "a command is required"
  | unknownCommand word => "unrecognized command '" ++ word ++ "'"
  | unexpected word => "unexpected argument '" ++ word ++ "'"
  | missingValue option => "a value is required for '--" ++ option ++ "'"
  | invalidValue option value => "invalid value '" ++ value ++ "' for '--" ++ option ++ "'"
  | repeatedOption option => "'--" ++ option ++ "' cannot be used multiple times"
  | missingOption option => "'--" ++ option ++ "' is required"

/-- Why words are not a command. -/
inductive Refusal
  /-- They ask for an explanation. -/
  | help (text : String)
  | usage (e : UsageError)
  deriving DecidableEq, Repr

/-- The options given, in order. -/
abbrev Given := List (String × Value)

namespace Given

/-- The values given for an option. -/
def values (given : Given) (name : String) : List Value :=
  (given.filter (·.1 = name)).map (·.2)

/-- The values of an option, or its default. -/
def valuesOr (given : Given) (o : OptionSpec) : List Value :=
  match given.values o.name with
  | [] => (o.default.bind o.kind.read?).toList
  | values => values

def texts (values : List Value) : List String :=
  values.filterMap fun
    | .text s => some s
    | _ => none

def integers (values : List Value) : List Int :=
  values.filterMap fun
    | .integer i => some i
    | _ => none

def naturals (values : List Value) : List Nat :=
  values.flatMap fun
    | .natural n => [n]
    | .naturals ns => ns
    | _ => []

/-- Adds an option. -/
def add (given : Given) (o : OptionSpec) (value : String) : Except Refusal Given :=
  if !o.repeats && (given.any (·.1 = o.name)) then .error (.usage (.repeatedOption o.name))
  else
    match o.kind.read? value with
    | some v => .ok (given ++ [(o.name, v)])
    | none => .error (.usage (.invalidValue o.name value))

end Given

/-- The name of an option and the value attached to it by an equals sign. -/
def nameAndValue (cs : List Char) : String × Option String :=
  let name := String.ofList (cs.takeWhile (· ≠ '='))
  match cs.dropWhile (· ≠ '=') with
  | _ :: value => (name, some (String.ofList value))
  | [] => (name, none)

/-- A word that is read as an option: a hyphen by itself is not. -/
def isOption (word : String) : Bool :=
  match word.toList with
  | '-' :: _ :: _ => true
  | _ => false

/-- Reads the options of a command behind those `given` so far. -/
def readOptions (c : CommandSpec) : List String → Given → Except Refusal Given
  | [], given => .ok given
  | word :: rest, given =>
    match word.toList with
    | ['-', '-'] =>
      match rest with
      | [] => .ok given
      | next :: _ => .error (.usage (.unexpected next))
    | '-' :: '-' :: cs =>
      match nameAndValue cs with
      | ("help", none) => .error (.help c.help)
      | (name, attached) =>
        match c.options.find? (·.name = name), attached, rest with
        | none, _, _ => .error (.usage (.unexpected word))
        | some o, some value, rest =>
          match given.add o value with
          | .ok given => readOptions c rest given
          | .error e => .error e
        | some o, none, [] => .error (.usage (.missingValue o.name))
        | some o, none, value :: rest =>
          if isOption value && !o.hyphens then .error (.usage (.missingValue o.name))
          else
            match given.add o value with
            | .ok given => readOptions c rest given
            | .error e => .error e
    | '-' :: 'h' :: _ => .error (.help c.help)
    | _ => .error (.usage (.unexpected word))

/-- The values of the options of a command, in the order of its options. -/
def readValues (c : CommandSpec) (words : List String) : Except Refusal (List (List Value)) :=
  match readOptions c words [] with
  | .error e => .error e
  | .ok given =>
    match c.options.find? fun o => o.required && (given.values o.name).isEmpty with
    | some o => .error (.usage (.missingOption o.name))
    | none => .ok (c.options.map given.valuesOr)

/-- A command from the values of its options. -/
def Command.ofValues? (name : String) (values : List (List Value)) : Option Command :=
  match name, values with
  | "verify", [fixture, report, json, log, timestamp, functions] =>
    (Given.texts fixture).head?.map fun fixture => .verify {
      fixture
      report := (Given.texts report).head?
      json := (Given.texts json).head?
      log := (Given.texts log).head?
      timestamp := (Given.texts timestamp).head?
      functions := Given.texts functions }
  | "strftime", [epoch, format, offset] =>
    match Given.integers epoch, Given.texts format, Given.integers offset with
    | [epoch], [format], [offset] => some (.strftime epoch format offset)
    | _, _, _ => none
  | "alloc-trace", [sizes, maxPages, output] =>
    some (.allocTrace (Given.naturals sizes) (Given.naturals maxPages).head?
      (Given.texts output).head?)
  | _, _ => none

/-- The explanation that words ask for: of a command, of the one that explains, or of the
program. -/
def explain : List String → Refusal
  | [] => .help help
  | [word] =>
    match commandSpecs.find? (·.name = word) with
    | some c => .help c.help
    | none => if word = helpName then .help helpOfHelp else .usage (.unknownCommand word)
  | _ :: word :: _ => .usage (.unknownCommand word)

/-- Reads a command. -/
def Command.ofWords : List String → Except Refusal Command
  | [] => .error (.usage .missingCommand)
  | word :: rest =>
    match commandSpecs.find? (·.name = word) with
    | some c =>
      match readValues c rest with
      | .error e => .error e
      | .ok values =>
        match Command.ofValues? c.name values with
        | some command => .ok command
        | none => .error (.usage .missingCommand)
    | none =>
      if word = helpName then .error (explain rest)
      else if word = "--help" ∨ ['-', 'h'].isPrefixOf word.toList then .error (.help help)
      else .error (.usage (.unknownCommand word))

end GuestLibrary.CommandLine

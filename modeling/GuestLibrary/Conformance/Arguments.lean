import GuestLibrary.Calendar.Basic
import GuestLibrary.Json.Basic
import GuestLibrary.Numeral.Stop

/-!
The inputs of a call that is checked for conformance. They are the members of a JSON object; a
member that is null counts as missing.
-/
namespace GuestLibrary.Conformance

/-- What is wrong with an input. -/
inductive Fault
  | notInteger (key : String)
  | outOfRange (key : String)
  | notNatural (key : String)
  | notString (key : String)
  | nonByte (key : String)
  | notBytes (key : String)
  | notArray (key : String)
  | notStrings (key : String)
  | unknownOperation (name : String)
  | unknownStream (name : String)
  | unknownBufferMode (name : String)
  deriving DecidableEq, Repr

def Fault.message : Fault → String
  | notInteger key => "'" ++ key ++ "' must be an integer"
  | outOfRange key => "'" ++ key ++ "' out of range"
  | notNatural key => "'" ++ key ++ "' must be a non-negative integer"
  | notString key => "'" ++ key ++ "' must be a string"
  | nonByte key => "'" ++ key ++ "' holds a non-byte"
  | notBytes key => "'" ++ key ++ "' must be a string or byte array"
  | notArray key => "'" ++ key ++ "' must be an array"
  | notStrings key => "'" ++ key ++ "' must hold strings"
  | unknownOperation name => "unknown op '" ++ name ++ "'"
  | unknownStream name => "unknown stream '" ++ name ++ "'"
  | unknownBufferMode name => "unknown buffer mode '" ++ name ++ "'"

/-- An answer, or what is wrong with an input; and a program may be stopped before it has either. -/
abbrev Checked (α : Type) := ExceptT Fault (Except Stop) α

/-- The inputs of a call. -/
structure Arguments where
  inputs : Json
  deriving Repr

namespace Arguments

/-- The input of a key. -/
def get? (args : Arguments) (key : String) : Option Json :=
  (args.inputs.member? key).filter (!·.isNull)

/-- An integer that fits a `long`. -/
def long? (value : Json) : Option Int := value.integer?.filter fun i => SignedRange.long.contains i

/-- A natural that fits a word. -/
def word? (value : Json) : Option Nat := (value.integer?.filter (0 ≤ ·)).map Int.toNat

def integer (args : Arguments) (key : String) : Except Fault Int :=
  match (args.get? key).bind long? with
  | some i => .ok i
  | none => .error (.notInteger key)

/-- An `int`, or its default. -/
def int (args : Arguments) (key : String) (default : Int) : Except Fault Int :=
  match args.get? key with
  | none => .ok default
  | some _ =>
    match args.integer key with
    | .error fault => .error fault
    | .ok i => if SignedRange.int.contains i then .ok i else .error (.outOfRange key)

/-- A natural, or its default. -/
def natural (args : Arguments) (key : String) (default : Nat) : Except Fault Nat :=
  match args.get? key with
  | none => .ok default
  | some value =>
    match word? value with
    | some n => .ok n
    | none => .error (.notNatural key)

def text (args : Arguments) (key : String) : Except Fault String :=
  match (args.get? key).bind Json.text? with
  | some s => .ok s
  | none => .error (.notString key)

/-- A text, or its default. -/
def textOr (args : Arguments) (key default : String) : Except Fault String :=
  match args.get? key with
  | none => .ok default
  | some _ => args.text key

/-- An array of bytes. -/
def byteArray (key : String) : List Json → Except Fault Bytes
  | [] => .ok []
  | item :: rest =>
    match (word? item).filter (· < 256) with
    | none => .error (.nonByte key)
    | some n => (byteArray key rest).map (UInt8.ofNat n :: ·)

/-- Bytes: those of a string, or the numbers of an array. -/
def bytes (args : Arguments) (key : String) : Except Fault Bytes :=
  match args.get? key with
  | some (.text s) => .ok (Bytes.ofText s)
  | some (.array items) => byteArray key items
  | _ => .error (.notBytes key)

/-- Bytes, with a NUL behind those of a string. -/
def cString (args : Arguments) (key : String) : Except Fault Bytes :=
  match args.get? key with
  | some (.text s) => .ok (Bytes.ofText s ++ [0])
  | _ => args.bytes key

def array (args : Arguments) (key : String) : Except Fault (List Json) :=
  match (args.get? key).bind Json.array? with
  | some items => .ok items
  | none => .error (.notArray key)

/-- The years from 1900 to a year of the era. -/
def yearsSince1900 (year : Int) : Except Stop Int :=
  if SignedRange.long.contains (year - 1900) then .ok (year - 1900) else .error .difference

/-- Broken-down time. The year is counted from the beginning of the era. -/
def calendar (args : Arguments) : Checked Calendar := do
  let year ← yearsSince1900 (← args.integer "year")
  if !SignedRange.int.contains year then throw (.outOfRange "year")
  let month ← args.int "mon" 0
  let day ← args.int "mday" 1
  let hour ← args.int "hour" 0
  let minute ← args.int "min" 0
  let second ← args.int "sec" 0
  let weekday ← args.int "wday" 0
  let yearDay ← args.int "yday" 0
  let daylight ← args.int "isdst" 0
  return ⟨second, minute, hour, day, month, year, weekday, yearDay, daylight⟩

end Arguments
end GuestLibrary.Conformance

import GuestLibrary.Json.Number
import GuestLibrary.Text.Hexadecimal
import GuestLibrary.Text.Utf8

/-!
JSON texts. A document is what a text says before anything is known about its numbers and
strings: numbers are kept as they are written, strings may hold what denotes no character, and
members may repeat. `Document.read?` accepts exactly the texts of the grammar; `value?` is
the stricter reading as a value.
-/
namespace GuestLibrary

inductive Document
  | null
  | bool (b : Bool)
  | number (n : NumberText)
  /-- None when the string holds what denotes no character. -/
  | text (s : Option String)
  | array (items : List Document)
  | object (members : List (Option String × Document))
  deriving Repr

namespace Document

def isBlank (c : Char) : Bool := c == ' ' || c == '\n' || c == '\t' || c == '\r'

def skipBlanks (cs : List Char) : List Char := cs.dropWhile isBlank

/-- The character that a backslash and a letter stand for. -/
def escape? (c : Char) : Option Nat :=
  match c with
  | '"' | '\\' | '/' => some c.toNat
  | 'b' => some 8
  | 'f' => some 12
  | 'n' => some 10
  | 'r' => some 13
  | 't' => some 9
  | _ => none

/-- The value of four hexadecimal digits. -/
def hexUnit? (a b c d : Char) : Option Nat := do
  let a ← Text.hexDigit? a
  let b ← Text.hexDigit? b
  let c ← Text.hexDigit? c
  let d ← Text.hexDigit? d
  pure (((a * 16 + b) * 16 + c) * 16 + d)

/-- The rest of a string behind its opening quote: the numbers of its characters, where an escape
in hexadecimal stands for itself, and what follows the closing quote. -/
def readUnits : List Char → Option (List Nat × List Char)
  | [] => none
  | '"' :: rest => some ([], rest)
  | '\\' :: 'u' :: a :: b :: c :: d :: rest =>
    match hexUnit? a b c d, readUnits rest with
    | some n, some (units, rest) => some (n :: units, rest)
    | _, _ => none
  | '\\' :: c :: rest =>
    match escape? c, readUnits rest with
    | some n, some (units, rest) => some (n :: units, rest)
    | _, _ => none
  | c :: rest =>
    if c.toNat < 32 then none
    else
      match readUnits rest with
      | some (units, rest) => some (c.toNat :: units, rest)
      | none => none

def isHighSurrogate (n : Nat) : Bool := 0xD800 ≤ n && n < 0xDC00

def isLowSurrogate (n : Nat) : Bool := 0xDC00 ≤ n && n < 0xE000

/-- The characters of a string. A high surrogate and a low one behind it are one character; a
surrogate by itself is none. -/
def join? : List Nat → Option (List Char)
  | [] => some []
  | n :: rest =>
    if isHighSurrogate n then
      match rest with
      | m :: rest =>
        if isLowSurrogate m then
          (join? rest).map (Char.ofNat (0x10000 + (n - 0xD800) * 0x400 + (m - 0xDC00)) :: ·)
        else none
      | [] => none
    else if isLowSurrogate n then none
    else (join? rest).map (Char.ofNat n :: ·)

/-- The rest of a string behind its opening quote. -/
def readText (cs : List Char) : Option (Option String × List Char) :=
  (readUnits cs).map fun (units, rest) => ((join? units).map String.ofList, rest)

/-- The decimal digits at the front, and what follows them. -/
def takeDigits (cs : List Char) : List Nat × List Char :=
  ((cs.takeWhile Char.isDigit).map fun c => c.toNat - 48, cs.dropWhile Char.isDigit)

/-- Digits behind a point. -/
def readFraction (cs : List Char) : Option (List Nat × List Char) :=
  match cs with
  | '.' :: rest =>
    let (digits, rest) := takeDigits rest
    if digits.isEmpty then none else some (digits, rest)
  | _ => some ([], cs)

/-- A sign and digits behind an `e`. -/
def readExponent (cs : List Char) : Option (Option (Bool × List Nat) × List Char) :=
  let signed := fun (cs : List Char) =>
    let (negative, cs) : Bool × List Char := match cs with
      | '-' :: rest => (true, rest)
      | '+' :: rest => (false, rest)
      | _ => (false, cs)
    let (digits, rest) := takeDigits cs
    if digits.isEmpty then none else some (some (negative, digits), rest)
  match cs with
  | 'e' :: rest => signed rest
  | 'E' :: rest => signed rest
  | _ => some (none, cs)

/-- A number. Its first digit is 0 only if it has no other one before the point. -/
def readNumber (cs : List Char) : Option (NumberText × List Char) := do
  let (negative, cs) : Bool × List Char := match cs with
    | '-' :: rest => (true, rest)
    | _ => (false, cs)
  let (whole, cs) ← match cs with
    | '0' :: rest => some ([0], rest)
    | _ =>
      let (digits, rest) := takeDigits cs
      if digits.isEmpty then none else some (digits, rest)
  let (fraction, cs) ← readFraction cs
  let (exponent, cs) ← readExponent cs
  pure (⟨negative, whole, fraction, exponent⟩, cs)

/-- A list of members so far, the newest first. -/
abbrev Members := List (Option String × Document)

mutual

/-- The value at the front of a text, and what follows it. -/
def readValue : Nat → List Char → Option (Document × List Char)
  | 0, _ => none
  | fuel + 1, cs =>
    match skipBlanks cs with
    | 'n' :: 'u' :: 'l' :: 'l' :: rest => some (null, rest)
    | 't' :: 'r' :: 'u' :: 'e' :: rest => some (bool true, rest)
    | 'f' :: 'a' :: 'l' :: 's' :: 'e' :: rest => some (bool false, rest)
    | '"' :: rest => (readText rest).map fun (s, rest) => (text s, rest)
    | '[' :: rest =>
      match skipBlanks rest with
      | ']' :: rest => some (array [], rest)
      | rest => readItems fuel rest []
    | '\x7b' :: rest =>
      match skipBlanks rest with
      | '\x7d' :: rest => some (object [], rest)
      | rest => readMembers fuel rest []
    | cs => (readNumber cs).map fun (n, rest) => (number n, rest)

/-- The items of an array that are left, behind those `read` so far, the newest first. -/
def readItems : Nat → List Char → List Document → Option (Document × List Char)
  | 0, _, _ => none
  | fuel + 1, cs, read =>
    match readValue fuel cs with
    | none => none
    | some (item, rest) =>
      match skipBlanks rest with
      | ',' :: rest => readItems fuel rest (item :: read)
      | ']' :: rest => some (array (item :: read).reverse, rest)
      | _ => none

/-- The members of an object that are left, behind those `read` so far. -/
def readMembers : Nat → List Char → Members → Option (Document × List Char)
  | 0, _, _ => none
  | fuel + 1, cs, read =>
    match skipBlanks cs with
    | '"' :: rest =>
      match readText rest with
      | none => none
      | some (key, rest) =>
        match skipBlanks rest with
        | ':' :: rest =>
          match readValue fuel rest with
          | none => none
          | some (value, rest) =>
            match skipBlanks rest with
            | ',' :: rest => readMembers fuel rest ((key, value) :: read)
            | '\x7d' :: rest => some (object ((key, value) :: read).reverse, rest)
            | _ => none
        | _ => none
    | _ => none

end

/-- The document that a text is, blanks around it aside. Every level of nesting and every part
of a container takes a character of the text. -/
def read? (s : String) : Option Document :=
  let cs := s.toList
  match readValue (2 * cs.length + 2) cs with
  | some (document, rest) => if (skipBlanks rest).isEmpty then some document else none
  | none => none

/-- What stands for malformed bytes: an escape that denotes no character, behind a letter that
keeps it from joining an escape before it. A string may hold it, and nothing else may. -/
def malformed : List Char := ['x', '\\', 'u', 'd', '8', '0', '0']

/-- The document that bytes are. A string with malformed bytes denotes nothing, so it may only
stand where it is passed over. -/
def readBytes? (s : Bytes) : Option Document := read? (Utf8.decodeWith malformed s)

/-- Containers that may be open at once in a value. -/
def mostNested : Nat := 127

mutual

/-- The document as a value, with at most `levels` containers open at once. None when a string
or a number denotes nothing. -/
def valueWithin? (levels : Nat) : Document → Option Json
  | null => some .null
  | bool b => some (.bool b)
  | number n => n.value?
  | text s => s.map .text
  | array items =>
    if levels = 0 then none else (itemsWithin? (levels - 1) items).map .array
  | object members =>
    if levels = 0 then none else (membersWithin? (levels - 1) members).map .ofMembers

def itemsWithin? (levels : Nat) : List Document → Option (List Json)
  | [] => some []
  | item :: rest =>
    match valueWithin? levels item, itemsWithin? levels rest with
    | some item, some rest => some (item :: rest)
    | _, _ => none

def membersWithin? (levels : Nat) : List (Option String × Document) → Option (List (String × Json))
  | [] => some []
  | (key, value) :: rest =>
    match key, valueWithin? levels value, membersWithin? levels rest with
    | some key, some value, some rest => some ((key, value) :: rest)
    | _, _, _ => none

end

/-- The document as a value. -/
def value? (d : Document) : Option Json := d.valueWithin? mostNested

/-- The place of a key in a list of names, and whether something is there yet. -/
def place (names : List String) (found : List (Option Document)) (key : String) :
    Option (Nat × Bool) :=
  (names.findIdx? (· == key)).map fun i => (i, (found.getD i none).isSome)

/-- Sorts members under the names of a record. Members of other names are passed over; a name
that repeats is refused. -/
def gather (names : List String) :
    List (Option Document) → List (Option String × Document) → Option (List (Option Document))
  | found, [] => some found
  | _, (none, _) :: _ => none
  | found, (some key, value) :: rest =>
    match place names found key with
    | none => gather names found rest
    | some (_, true) => none
    | some (i, false) => gather names (found.set i (some value)) rest

/-- The fields of a record in the order of their names: an object has them by name, an array by
position. -/
def fields? (names : List String) : Document → Option (List (Option Document))
  | object members => gather names (List.replicate names.length none) members
  | array items =>
    if names.length < items.length then none
    else some (items.map some ++ List.replicate (names.length - items.length) none)
  | _ => none

end Document

/-- The value that a text denotes. -/
def Json.read? (s : String) : Option Json := (Document.read? s).bind (·.value?)

end GuestLibrary

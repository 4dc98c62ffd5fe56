import GuestLibrary.Json.Basic
import GuestLibrary.Numeral.Decimal
import GuestLibrary.Text.Hexadecimal

/-!
JSON texts of values, on one line or indented by two blanks a level.
-/
namespace GuestLibrary.Json

/-- A character of a string as it is written: quotes, backslashes and control characters are
escaped. -/
def quoteChar (c : Char) : List Char :=
  match c with
  | '"' => ['\\', '"']
  | '\\' => ['\\', '\\']
  | '\n' => ['\\', 'n']
  | '\r' => ['\\', 'r']
  | '\t' => ['\\', 't']
  | '\x08' => ['\\', 'b']
  | '\x0c' => ['\\', 'f']
  | c => if c.toNat < 32 then '\\' :: 'u' :: (Text.hexPadded 4 c.toNat).toList else [c]

/-- A string between quotes. -/
def quote (s : String) : String :=
  String.ofList ('"' :: s.toList.flatMap quoteChar ++ ['"'])

/-- The text of a value that holds no others. -/
def atom : Json → String
  | null => "null"
  | bool b => if b then "true" else "false"
  | integer i => toString i
  | real x => Decimal.text x
  | text s => quote s
  | array _ => "[]"
  | object _ => "\x7b\x7d"

mutual

/-- The text on one line, without blanks. -/
def compact : Json → String
  | array items => "[" ++ String.intercalate "," (compactItems items) ++ "]"
  | object members => "\x7b" ++ String.intercalate "," (compactMembers members) ++ "\x7d"
  | value => atom value

def compactItems : List Json → List String
  | [] => []
  | item :: rest => compact item :: compactItems rest

def compactMembers : List (String × Json) → List String
  | [] => []
  | (key, value) :: rest => (quote key ++ ":" ++ compact value) :: compactMembers rest

end

/-- A container written over several lines, its parts indented one level further. -/
def block (opening closing : String) (level : Nat) (parts : List String) : String :=
  let indent := fun (n : Nat) => "\n" ++ String.ofList (List.replicate (2 * n) ' ')
  if parts.isEmpty then opening ++ closing
  else
    opening ++ String.intercalate "," (parts.map (indent (level + 1) ++ ·)) ++ indent level
      ++ closing

mutual

/-- The text of a value at a level of indentation. -/
def indented (level : Nat) : Json → String
  | array items => block "[" "]" level (indentedItems level items)
  | object members => block "\x7b" "\x7d" level (indentedMembers level members)
  | value => atom value

def indentedItems (level : Nat) : List Json → List String
  | [] => []
  | item :: rest => indented (level + 1) item :: indentedItems level rest

def indentedMembers (level : Nat) : List (String × Json) → List String
  | [] => []
  | (key, value) :: rest =>
    (quote key ++ ": " ++ indented (level + 1) value) :: indentedMembers level rest

end

/-- The text over several lines. -/
def pretty (value : Json) : String := indented 0 value

end GuestLibrary.Json

import GuestLibrary.Text.Hexadecimal
import GuestLibrary.Text.Printable

/-!
Texts with everything escaped that would not show: control characters, quotes, backslashes and
characters without a visible form.
-/
namespace GuestLibrary.Text

/-- A character by its number. -/
def numbered (c : Char) : List Char :=
  '\\' :: 'u' :: '\x7b' :: (hexPadded 1 c.toNat).toList ++ ['\x7d']

/-- A character as it shows. One that extends a grapheme shows only behind another one. -/
def escapeChar (isFirst : Bool) (c : Char) : List Char :=
  match c with
  | '\x00' => ['\\', '0']
  | '\t' => ['\\', 't']
  | '\r' => ['\\', 'r']
  | '\n' => ['\\', 'n']
  | '\\' => ['\\', '\\']
  | '"' => ['\\', '"']
  | '\'' => ['\\', '\'']
  | c => if isPrintable c && !(isFirst && extendsGrapheme c) then [c] else numbered c

/-- The characters of a text, escaped. -/
def escaped : List Char → List Char
  | [] => []
  | c :: rest => escapeChar true c ++ rest.flatMap (escapeChar false)

/-- A text, escaped. -/
def escape (s : String) : String := String.ofList (escaped s.toList)

end GuestLibrary.Text

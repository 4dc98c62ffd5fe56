import GuestLibrary.Bytes.CString

/-!
Cutting a string into tokens. Each step writes a NUL over the delimiter that ends its token and
resumes one byte past it; the resume point is the caller's.
-/
namespace GuestLibrary.Token

/-- A token of a block and the offset at which the scan resumes. -/
structure Found where
  start : Nat
  length : Nat
  next : Nat
  deriving DecidableEq, Repr

/-- The next token at or after `from_`, and the block with the delimiter behind it overwritten. -/
def next? (s delimiters : Bytes) (from_ : Nat) : Option (Found × Bytes) :=
  if s.length < from_ then none
  else
    let isDelimiter := fun b => (CString.content delimiters).contains b
    let rest := CString.content (s.drop from_)
    let skipped := (rest.takeWhile isDelimiter).length
    let token := (rest.drop skipped).takeWhile fun b => !isDelimiter b
    if token.isEmpty then none
    else
      let start := from_ + skipped
      let fin := start + token.length
      if fin < from_ + rest.length then some (⟨start, token.length, fin + 1⟩, s.set fin 0)
      else some (⟨start, token.length, fin⟩, s)

/-- The resume point of a scan in progress; none before the first token. -/
structure Cursor where
  next : Option Nat := none
  deriving DecidableEq, Repr

/-- One step of a scan: the token's bounds, the cursor after it, and the block. When the string
is used up the cursor rests on its end. -/
def Cursor.advance (c : Cursor) (s delimiters : Bytes) :
    Option (Nat × Nat) × Cursor × Bytes :=
  let start := c.next.getD 0
  match next? s delimiters start with
  | some (found, s) => (some (found.start, found.start + found.length), ⟨some found.next⟩, s)
  | none =>
    let fin := if start ≤ s.length then start + CString.length (s.drop start) else start
    (none, ⟨some fin⟩, s)

end GuestLibrary.Token

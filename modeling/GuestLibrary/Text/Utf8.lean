import GuestLibrary.Bytes.Block

/-!
Decoding bytes as UTF-8. Every maximal run of bytes that starts a character but cannot end one is
replaced; the lossy reading replaces it by a single U+FFFD.
-/
namespace GuestLibrary.Utf8

/-- What a decoder has seen of the current character. -/
inductive State
  | between
  /-- `count` more bytes are owed to `code`, the next one from `low` to `high`. -/
  | owing (code count : Nat) (low high : UInt8)
  deriving DecidableEq, Repr

def replacement : Char := '\uFFFD'

/-- Reads the first byte of a character; `replaced` stands for what is malformed. -/
def enter (replaced : List Char) (b : UInt8) : List Char × State :=
  let code := b.toNat
  if b < 0x80 then ([Char.ofNat code], .between)
  else if 0xC2 ≤ b ∧ b ≤ 0xDF then ([], .owing (code % 32) 1 0x80 0xBF)
  else if b = 0xE0 then ([], .owing (code % 16) 2 0xA0 0xBF)
  else if b = 0xED then ([], .owing (code % 16) 2 0x80 0x9F)
  else if 0xE1 ≤ b ∧ b ≤ 0xEF then ([], .owing (code % 16) 2 0x80 0xBF)
  else if b = 0xF0 then ([], .owing (code % 8) 3 0x90 0xBF)
  else if 0xF1 ≤ b ∧ b ≤ 0xF3 then ([], .owing (code % 8) 3 0x80 0xBF)
  else if b = 0xF4 then ([], .owing (code % 8) 3 0x80 0x8F)
  else (replaced, .between)

/-- Reads one byte: the characters it settles and what is seen of the next one. -/
def step (replaced : List Char) : State → UInt8 → List Char × State
  | .between, b => enter replaced b
  | .owing code count low high, b =>
    if low ≤ b ∧ b ≤ high then
      let code := code * 64 + b.toNat % 64
      if count ≤ 1 then ([Char.ofNat code], .between) else ([], .owing code (count - 1) 0x80 0xBF)
    else
      let (cs, state) := enter replaced b
      (replaced ++ cs, state)

/-- The characters of a text, from a state of its decoder. -/
def decodeFrom (replaced : List Char) : State → Bytes → List Char
  | .between, [] => []
  | .owing .., [] => replaced
  | state, b :: rest => (step replaced state b).1 ++ decodeFrom replaced (step replaced state b).2 rest

/-- The text with `replaced` for every malformed part. -/
def decodeWith (replaced : List Char) (s : Bytes) : String :=
  String.ofList (decodeFrom replaced .between s)

/-- The text, malformed parts replaced. -/
def decodeLossy (s : Bytes) : String := decodeWith [replacement] s

/-- The text, when its bytes are well formed. -/
def decode? (s : Bytes) : Option String := String.fromUTF8? ⟨s.toArray⟩

end GuestLibrary.Utf8

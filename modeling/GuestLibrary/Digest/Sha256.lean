import GuestLibrary.Bytes.Block
import GuestLibrary.Text.Hexadecimal

/-!
The SHA-256 digest of a block of bytes.
-/
namespace GuestLibrary.Sha256

/-- The eight words of a running digest. -/
structure State where
  a : UInt32
  b : UInt32
  c : UInt32
  d : UInt32
  e : UInt32
  f : UInt32
  g : UInt32
  h : UInt32
  deriving DecidableEq, Repr

/-- The digest of nothing yet: fractions of the square roots of the first eight primes. -/
def initial : State := ⟨
  0x6a09e667, 0xbb67ae85, 0x3c6ef372, 0xa54ff53a,
  0x510e527f, 0x9b05688c, 0x1f83d9ab, 0x5be0cd19⟩

/-- A word for each round: fractions of the cube roots of the first 64 primes. -/
def roundWords : List UInt32 := [
  0x428a2f98, 0x71374491, 0xb5c0fbcf, 0xe9b5dba5, 0x3956c25b, 0x59f111f1,
  0x923f82a4, 0xab1c5ed5, 0xd807aa98, 0x12835b01, 0x243185be, 0x550c7dc3,
  0x72be5d74, 0x80deb1fe, 0x9bdc06a7, 0xc19bf174, 0xe49b69c1, 0xefbe4786,
  0x0fc19dc6, 0x240ca1cc, 0x2de92c6f, 0x4a7484aa, 0x5cb0a9dc, 0x76f988da,
  0x983e5152, 0xa831c66d, 0xb00327c8, 0xbf597fc7, 0xc6e00bf3, 0xd5a79147,
  0x06ca6351, 0x14292967, 0x27b70a85, 0x2e1b2138, 0x4d2c6dfc, 0x53380d13,
  0x650a7354, 0x766a0abb, 0x81c2c92e, 0x92722c85, 0xa2bfe8a1, 0xa81a664b,
  0xc24b8b70, 0xc76c51a3, 0xd192e819, 0xd6990624, 0xf40e3585, 0x106aa070,
  0x19a4c116, 0x1e376c08, 0x2748774c, 0x34b0bcb5, 0x391c0cb3, 0x4ed8aa4a,
  0x5b9cca4f, 0x682e6ff3, 0x748f82ee, 0x78a5636f, 0x84c87814, 0x8cc70208,
  0x90befffa, 0xa4506ceb, 0xbef9a3f7, 0xc67178f2]

def rotate (x : UInt32) (n : UInt32) : UInt32 := (x >>> n) ||| (x <<< (32 - n))

def smallSigma0 (x : UInt32) : UInt32 := rotate x 7 ^^^ rotate x 18 ^^^ (x >>> 3)
def smallSigma1 (x : UInt32) : UInt32 := rotate x 17 ^^^ rotate x 19 ^^^ (x >>> 10)
def bigSigma0 (x : UInt32) : UInt32 := rotate x 2 ^^^ rotate x 13 ^^^ rotate x 22
def bigSigma1 (x : UInt32) : UInt32 := rotate x 6 ^^^ rotate x 11 ^^^ rotate x 25

/-- Bits of `y` where `x` is set and of `z` elsewhere. -/
def choose (x y z : UInt32) : UInt32 := (x &&& y) ^^^ (~~~x &&& z)

/-- Bits that two of three words have. -/
def majority (x y z : UInt32) : UInt32 := (x &&& y) ^^^ (x &&& z) ^^^ (y &&& z)

/-- The word behind a window of 16 words of the message schedule. -/
def nextWord (w : List UInt32) : UInt32 :=
  smallSigma1 (w.getD 14 0) + w.getD 9 0 + smallSigma0 (w.getD 1 0) + w.getD 0 0

/-- One round with a word of the schedule and the word of the round. -/
def round (s : State) (w k : UInt32) : State :=
  let t1 := s.h + bigSigma1 s.e + choose s.e s.f s.g + k + w
  let t2 := bigSigma0 s.a + majority s.a s.b s.c
  ⟨t1 + t2, s.a, s.b, s.c, s.d + t1, s.e, s.f, s.g⟩

/-- A round for each of the round words, over a sliding window of the message schedule. -/
def rounds : List UInt32 → List UInt32 → State → State
  | [], _, s => s
  | k :: ks, w, s => rounds ks (w.tail ++ [nextWord w]) (round s (w.getD 0 0) k)

def add (s t : State) : State :=
  ⟨s.a + t.a, s.b + t.b, s.c + t.c, s.d + t.d, s.e + t.e, s.f + t.f, s.g + t.g, s.h + t.h⟩

/-- Takes in the words of one block of 64 bytes. -/
def compress (s : State) (block : List UInt32) : State := add s (rounds roundWords block s)

/-- The message, a marker bit, zeros up to whole blocks, and its length in bits. -/
def padded (message : Bytes) : Bytes :=
  let n := message.length
  let length := (List.range 8).map fun i => UInt8.ofNat (8 * n / Nat.pow 256 (7 - i))
  message ++ 0x80 :: List.replicate ((119 - n % 64) % 64) 0 ++ length

/-- Bytes as words, most significant byte first. -/
def words : Bytes → List UInt32
  | a :: b :: c :: d :: rest =>
    (a.toUInt32 <<< 24 ||| b.toUInt32 <<< 16 ||| c.toUInt32 <<< 8 ||| d.toUInt32) :: words rest
  | _ => []

/-- Takes in words, 16 at a time. -/
def absorb : Nat → List UInt32 → State → State
  | 0, _, s => s
  | blocks + 1, ws, s => absorb blocks (ws.drop 16) (compress s (ws.take 16))

/-- The digest of a message. -/
def digest (message : Bytes) : State :=
  let ws := words (padded message)
  absorb (ws.length / 16) ws initial

/-- The digest in lower-case hexadecimal digits. -/
def hex (message : Bytes) : String :=
  let s := digest message
  String.join ([s.a, s.b, s.c, s.d, s.e, s.f, s.g, s.h].map fun w => Text.hexPadded 8 w.toNat)

end GuestLibrary.Sha256

import GuestLibrary.Text.Escape
import GuestLibrary.Proofs.Text.Splitting

/-! Escaped texts read back. The escape of a character shows where it ends, so no two texts are
escaped alike; and it never has a newline. -/
namespace GuestLibrary.Text

section Hexadecimal

/-- The value of hexadecimal digits. -/
def hexValue (digits : List Char) : Nat :=
  digits.foldl (fun v c => 16 * v + (hexDigit? c).getD 0) 0

theorem hexDigit?_digitChar : ∀ d < 16, hexDigit? d.digitChar = some d := by decide

theorem hexValue_toDigits (n : Nat) : hexValue (Nat.toDigits 16 n) = n := by
  induction n using Nat.strongRecOn with
  | ind n ih =>
    rw [Nat.toDigits_eq_if (by decide)]
    split
    · next hn => simp [hexValue, hexDigit?_digitChar n hn]
    · next hn =>
      have hrest := ih (n / 16) (by omega)
      rw [hexValue] at hrest
      rw [hexValue, List.foldl_append, hrest]
      simp [hexDigit?_digitChar (n % 16) (Nat.mod_lt _ (by decide))]
      omega

theorem isSome_hexDigit?_of_mem {n : Nat} {c : Char} (h : c ∈ Nat.toDigits 16 n) :
    (hexDigit? c).isSome := by
  induction n using Nat.strongRecOn with
  | ind n ih =>
    rw [Nat.toDigits_eq_if (by decide)] at h
    split at h
    · next hn =>
      rw [List.mem_singleton.mp h, hexDigit?_digitChar n hn, Option.isSome_some]
    · rcases List.mem_append.mp h with h | h
      · exact ih (n / 16) (by omega) h
      · rw [List.mem_singleton.mp h, hexDigit?_digitChar _ (Nat.mod_lt _ (by decide)),
          Option.isSome_some]

theorem toList_hexPadded_one (n : Nat) : (hexPadded 1 n).toList = Nat.toDigits 16 n := by
  have hlength : 1 - (Nat.toDigits 16 n).length = 0 :=
    Nat.sub_eq_zero_of_le Nat.length_toDigits_pos
  rw [hexPadded]
  simp [hlength]

end Hexadecimal

/-- The character that a letter behind a backslash stands for. -/
def ofMark? : Char → Option Char
  | '0' => some '\x00'
  | 't' => some '\t'
  | 'r' => some '\r'
  | 'n' => some '\n'
  | '\\' => some '\\'
  | '"' => some '"'
  | '\'' => some '\''
  | _ => none

/-- Reads the first character of an escaped text, and leaves the rest. -/
def unescape? : List Char → Option (Char × List Char)
  | [] => none
  | '\\' :: 'u' :: '\x7b' :: rest =>
    let digits := rest.takeWhile (· != '\x7d')
    some (Char.ofNat (hexValue digits), rest.drop (digits.length + 1))
  | '\\' :: mark :: rest => (ofMark? mark).map (·, rest)
  | c :: rest => some (c, rest)

theorem unescape?_numbered (c : Char) (rest : List Char) :
    unescape? (numbered c ++ rest) = some (c, rest) := by
  have hbrace : ∀ d ∈ Nat.toDigits 16 c.toNat, (d != '\x7d') = true := by
    intro d hd
    rw [bne_iff_ne]
    rintro rfl
    have hdigit := isSome_hexDigit?_of_mem hd
    revert hdigit
    decide
  have hdigits : (Nat.toDigits 16 c.toNat ++ '\x7d' :: rest).takeWhile (· != '\x7d') =
      Nat.toDigits 16 c.toNat := by
    rw [List.takeWhile_append_of_pos hbrace]
    simp
  simp [numbered, unescape?, toList_hexPadded_one, hdigits, hexValue_toDigits]

theorem unescape?_escapeChar (isFirst : Bool) (c : Char) (rest : List Char) :
    unescape? (escapeChar isFirst c ++ rest) = some (c, rest) := by
  unfold escapeChar
  split <;> try rfl
  case h_8 hbackslash _ _ =>
    split
    · rw [List.singleton_append, unescape?.eq_4 _ _ (fun _ h _ => hbackslash h)
        (fun _ _ h _ => hbackslash h)]
    · exact unescape?_numbered c rest

theorem newline_not_mem_escapeChar (isFirst : Bool) (c : Char) : '\n' ∉ escapeChar isFirst c := by
  unfold escapeChar
  split <;> try decide
  case h_8 hnewline _ _ _ =>
    split
    · simpa using Ne.symm hnewline
    · have hdigits : '\n' ∉ Nat.toDigits 16 c.toNat := fun h => by
        have hdigit := isSome_hexDigit?_of_mem h
        revert hdigit
        decide
      simp [numbered, toList_hexPadded_one, hdigits]

theorem escapeChar_append_inj {isFirst : Bool} {c d : Char} {s t : List Char}
    (h : escapeChar isFirst c ++ s = escapeChar isFirst d ++ t) : c = d ∧ s = t := by
  have hread := unescape?_escapeChar isFirst c s
  rw [h, unescape?_escapeChar] at hread
  simpa using hread.symm

theorem escapeChar_ne_nil (isFirst : Bool) (c : Char) : escapeChar isFirst c ≠ [] := by
  intro h
  have hread := unescape?_escapeChar isFirst c []
  rw [h] at hread
  cases hread

theorem flatMap_escapeChar_injective :
    Function.Injective fun s : List Char => s.flatMap (escapeChar false) := by
  intro s t h
  induction s generalizing t with
  | nil =>
    cases t with
    | nil => rfl
    | cons d t => exact absurd h.symm (by simp [escapeChar_ne_nil])
  | cons c s ih =>
    cases t with
    | nil => exact absurd h (by simp [escapeChar_ne_nil])
    | cons d t =>
      obtain ⟨hhead, htail⟩ := escapeChar_append_inj h
      rw [hhead, ih htail]

theorem escaped_injective : Function.Injective escaped := by
  intro s t h
  cases s with
  | nil =>
    cases t with
    | nil => rfl
    | cons d t => exact absurd h.symm (by simp [escaped, escapeChar_ne_nil])
  | cons c s =>
    cases t with
    | nil => exact absurd h (by simp [escaped, escapeChar_ne_nil])
    | cons d t =>
      obtain ⟨hhead, htail⟩ := escapeChar_append_inj h
      rw [hhead, flatMap_escapeChar_injective htail]

theorem escape_inj {s t : String} : escape s = escape t ↔ s = t := by
  refine ⟨fun h => ?_, congrArg _⟩
  exact String.toList_injective (escaped_injective (String.ofList_injective h))

theorem newline_not_mem_escape (s : String) : '\n' ∉ (escape s).toList := by
  rw [escape, String.toList_ofList]
  cases s.toList with
  | nil => simp [escaped]
  | cons c rest => simp [escaped, newline_not_mem_escapeChar]

end GuestLibrary.Text

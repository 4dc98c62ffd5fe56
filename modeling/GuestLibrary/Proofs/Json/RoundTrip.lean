import GuestLibrary.Proofs.Json.Reading

/-! Values read back from the lines they are written as. A text denotes a value when it is read as
that value before anything that can stand behind a value, so the text of a container denotes what
its parts denote; by induction over a value the line it is written as denotes the value itself. -/
namespace GuestLibrary

namespace Json

section Members

theorem lookup_cons_if {α : Type} (key k : String) (v : α) (members : List (String × α)) :
    ((k, v) :: members).lookup key = if key = k then some v else members.lookup key := by
  rw [List.lookup_cons]
  by_cases h : key = k
  · simp [h]
  · rw [beq_false_of_ne h, if_neg h]

theorem lookup_insertMember (key k : String) (v : Json) (members : List (String × Json)) :
    (insertMember k v members).lookup key = if key = k then some v else members.lookup key := by
  induction members with
  | nil => rw [insertMember, lookup_cons_if]
  | cons member rest ih =>
    obtain ⟨k', v'⟩ := member
    unfold insertMember
    split
    · rw [lookup_cons_if]
    split
    · rename_i hsame
      rw [lookup_cons_if, lookup_cons_if, hsame]
      split <;> rfl
    · rename_i hne
      rw [lookup_cons_if, ih, lookup_cons_if]
      by_cases hk : key = k
      · rw [if_neg (by rwa [hk]), if_pos hk, if_pos hk]
      · rw [if_neg hk, if_neg hk]

theorem lookup_foldl_insertMember (key : String) (members sorted : List (String × Json)) :
    (members.foldl (fun sorted (key, value) => insertMember key value sorted) sorted).lookup key =
      (members.reverse.lookup key).or (sorted.lookup key) := by
  induction members generalizing sorted with
  | nil => rfl
  | cons member rest ih =>
    obtain ⟨k, v⟩ := member
    rw [List.foldl_cons, ih, lookup_insertMember, List.reverse_cons, List.lookup_append,
      Option.or_assoc, lookup_cons_if]
    congr 1
    split <;> rfl

/-- Of members with one key the last one is found. -/
theorem member?_ofMembers (members : List (String × Json)) (key : String) :
    (ofMembers members).member? key = members.reverse.lookup key := by
  refine (lookup_foldl_insertMember key members []).trans ?_
  cases members.reverse.lookup key <;> rfl

theorem lookup_eq_none {α : Type} {key : String} {members : List (String × α)}
    (h : key ∉ members.map Prod.fst) : members.lookup key = none :=
  List.lookup_eq_none_iff.mpr fun p hp => bne_iff_ne.mpr fun hkey =>
    h (List.mem_map.mpr ⟨p, hp, hkey.symm⟩)

theorem lookup_of_mem {α : Type} {key : String} {v : α} {members : List (String × α)}
    (h : (members.map Prod.fst).Nodup) (hmem : (key, v) ∈ members) :
    members.lookup key = some v := by
  induction members with
  | nil => cases hmem
  | cons member rest ih =>
    obtain ⟨k, v'⟩ := member
    obtain ⟨hfresh, hrest⟩ := List.nodup_cons.mp h
    rw [lookup_cons_if]
    obtain hhead | htail := List.mem_cons.mp hmem
    · cases hhead
      exact if_pos rfl
    · have hne : key ≠ k := by
        rintro rfl
        exact hfresh (List.mem_map.mpr ⟨_, htail, rfl⟩)
      rw [if_neg hne]
      exact ih hrest htail

/-- Where no key is used twice, the order of members makes no difference. -/
theorem lookup_reverse {members : List (String × Json)} (h : (members.map Prod.fst).Nodup)
    (key : String) : members.reverse.lookup key = members.lookup key := by
  induction members with
  | nil => rfl
  | cons member rest ih =>
    obtain ⟨k, v⟩ := member
    obtain ⟨hfresh, hrest⟩ := List.nodup_cons.mp h
    rw [List.reverse_cons, List.lookup_append, ih hrest, lookup_cons_if, lookup_cons_if]
    split
    · rename_i hk
      subst hk
      rw [lookup_eq_none hfresh]
      rfl
    · exact Option.or_none

/-- Members stand in the strict order of their keys. -/
def Sorted (members : List (String × Json)) : Prop := members.Pairwise fun a b => a.1 < b.1

theorem insertMember_last {k : String} {members : List (String × Json)}
    (h : ∀ member ∈ members, member.1 < k) (v : Json) :
    insertMember k v members = members ++ [(k, v)] := by
  induction members with
  | nil => rfl
  | cons member rest ih =>
    obtain ⟨k', v'⟩ := member
    have hlt : k' < k := h (k', v') (by simp)
    rw [insertMember, if_neg (lt_asymm hlt), if_neg (ne_of_gt hlt),
      ih fun m hm => h m (by simp [hm]), List.cons_append]

/-- Members in the order of their keys stay as they are. -/
theorem ofMembers_of_sorted {members : List (String × Json)} (h : Sorted members) :
    ofMembers members = object members := by
  have hinsert : ∀ rest sorted : List (String × Json), Sorted (sorted ++ rest) →
      rest.foldl (fun sorted (key, value) => insertMember key value sorted) sorted =
        sorted ++ rest := by
    intro rest
    induction rest with
    | nil => simp
    | cons member rest ih =>
      obtain ⟨k, v⟩ := member
      intro sorted hsorted
      have hlast : ∀ m ∈ sorted, m.1 < k := fun m hm =>
        (List.pairwise_append.mp hsorted).2.2 m hm (k, v) (by simp)
      rw [List.foldl_cons]
      dsimp only
      rw [insertMember_last hlast, ih _ (by simpa using hsorted), List.append_assoc]
      rfl
  rw [ofMembers, hinsert members [] h]
  rfl

end Members

mutual

/-- What reading a line can give with at most `levels` containers open at once: integers fit a
word, members are sorted, and doubles are read back from their own decimals. -/
def Readable (levels : Nat) : Json → Prop
  | integer i => -SignedRange.long.limit ≤ i ∧ i < wordLimit
  | real x => read? (Decimal.text x) = some (real x)
  | array items => 0 < levels ∧ ReadableItems (levels - 1) items
  | object members => 0 < levels ∧ Sorted members ∧ ReadableMembers (levels - 1) members
  | _ => True

def ReadableItems (levels : Nat) : List Json → Prop
  | [] => True
  | item :: rest => Readable levels item ∧ ReadableItems levels rest

def ReadableMembers (levels : Nat) : List (String × Json) → Prop
  | [] => True
  | (_, value) :: rest => Readable levels value ∧ ReadableMembers levels rest

end

theorem readableItems_iff {levels : Nat} {items : List Json} :
    ReadableItems levels items ↔ ∀ item ∈ items, item.Readable levels := by
  induction items with
  | nil => simp [ReadableItems]
  | cons item rest ih => simp [ReadableItems, ih]

theorem readableMembers_iff {levels : Nat} {members : List (String × Json)} :
    ReadableMembers levels members ↔ ∀ member ∈ members, member.2.Readable levels := by
  induction members with
  | nil => simp [ReadableMembers]
  | cons member rest ih => simp [ReadableMembers, ih]

end Json

namespace Document

/-- The text is read as a document with the value, with at most `levels` containers open at once.
Blanks may be left in front of what follows. -/
def Denotes (levels : Nat) (cs : List Char) (v : Json) : Prop :=
  ∃ d : Document, d.valueWithin? levels = some v ∧
    ∀ fuel rest, cs.length < fuel → Follows rest →
      ∃ left, readValue fuel (cs ++ rest) = some (d, left) ∧ skipBlanks left = skipBlanks rest

section Atoms

variable {levels fuel : Nat} {cs left : List Char} {n : NumberText} {v : Json}

theorem denotes_null : Denotes levels "null".toList .null := by
  refine ⟨null, rfl, fun fuel rest hfuel _ => ⟨rest, ?_, rfl⟩⟩
  obtain ⟨fuel, rfl⟩ := Nat.exists_eq_add_of_lt hfuel
  rfl

theorem denotes_bool (b : Bool) :
    Denotes levels (if b then "true" else "false").toList (.bool b) := by
  refine ⟨bool b, rfl, fun fuel rest hfuel _ => ⟨rest, ?_, rfl⟩⟩
  obtain ⟨fuel, rfl⟩ := Nat.exists_eq_add_of_lt hfuel
  cases b <;> rfl

theorem toList_quote (s : String) (rest : List Char) :
    (Json.quote s).toList ++ rest = '"' :: (s.toList.flatMap Json.quoteChar ++ '"' :: rest) := by
  rw [Json.quote, String.toList_ofList]
  simp

theorem denotes_text (s : String) : Denotes levels (Json.quote s).toList (.text s) := by
  refine ⟨text (some s), rfl, fun fuel rest hfuel _ => ⟨rest, ?_, rfl⟩⟩
  obtain ⟨fuel, rfl⟩ := Nat.exists_eq_add_of_lt hfuel
  rw [toList_quote]
  change (readText _).map _ = _
  rw [readText_quote]
  rfl

theorem readValue_number (h : readNumber (skipBlanks cs) = some (n, left)) :
    readValue (fuel + 1) cs = some (number n, left) := by
  unfold readValue
  split
  case h_7 => rw [h]; rfl
  all_goals
    rename_i heq
    rw [heq] at h
    cases h

theorem skipBlanks_append (cs rest : List Char) :
    skipBlanks (cs ++ rest) =
      if skipBlanks cs = [] then skipBlanks rest else skipBlanks cs ++ rest := by
  simp [skipBlanks, List.dropWhile_append]

theorem denotes_number (h : readNumber (skipBlanks cs) = some (n, left))
    (hleft : skipBlanks left = []) (hv : n.value? = some v) : Denotes levels cs v := by
  refine ⟨number n, hv, fun fuel rest hfuel hrest => ⟨left ++ rest, ?_, ?_⟩⟩
  · obtain ⟨fuel, rfl⟩ := Nat.exists_eq_add_of_lt hfuel
    refine readValue_number ?_
    have hne : skipBlanks cs ≠ [] := by
      intro hnil
      rw [hnil] at h
      cases h
    rw [skipBlanks_append, if_neg hne, readNumber_append hrest, h]
    rfl
  · rw [skipBlanks_append, if_pos hleft]

theorem denotes_integer {i : Int} (hlo : -SignedRange.long.limit ≤ i) (hhi : i < wordLimit) :
    Denotes levels (toString i).toList (.integer i) := by
  have hread := readNumber_toString i
  have hstart : skipBlanks (toString i).toList = (toString i).toList := by
    cases hcs : (toString i).toList with
    | nil => rfl
    | cons c cs =>
      refine List.dropWhile_cons_of_neg fun hblank => ?_
      rw [hcs] at hread
      simp only [isBlank, Bool.or_eq_true, beq_iff_eq] at hblank
      obtain ((rfl | rfl) | rfl) | rfl := hblank <;> cases hread
  exact denotes_number (by rwa [hstart]) rfl (value?_toDigits hlo hhi)

end Atoms

section Containers

variable {levels : Nat} {cs : List Char} {texts : List (List Char)} {items : List Json}
  {members : List (String × Json)}

/-- Parts of a container with commas between them. -/
def joined (texts : List (List Char)) : List Char := [','].intercalate texts

@[simp] theorem joined_singleton (cs : List Char) : joined [cs] = cs := by simp [joined]

@[simp] theorem joined_cons_cons (cs next : List Char) (texts : List (List Char)) :
    joined (cs :: next :: texts) = cs ++ ',' :: joined (next :: texts) := by
  simp [joined, List.intercalate_cons_cons]

theorem follows_comma (rest : List Char) : Follows (',' :: rest) := by
  rintro c ⟨⟩
  exact Or.inl rfl

theorem follows_bracket (rest : List Char) : Follows (']' :: rest) := by
  rintro c ⟨⟩
  exact Or.inr (Or.inl rfl)

theorem follows_brace (rest : List Char) : Follows ('\x7d' :: rest) := by
  rintro c ⟨⟩
  exact Or.inr (Or.inr rfl)

theorem readItems_next {fuel : Nat} {left rest : List Char} {d : Document}
    (hread : readValue fuel cs = some (d, left)) (hleft : skipBlanks left = ',' :: rest)
    (read : List Document) : readItems (fuel + 1) cs read = readItems fuel rest (d :: read) := by
  rw [readItems, hread]
  dsimp only
  rw [hleft]
  rfl

theorem readItems_last {fuel : Nat} {left rest : List Char} {d : Document}
    (hread : readValue fuel cs = some (d, left)) (hleft : skipBlanks left = ']' :: rest)
    (read : List Document) :
    readItems (fuel + 1) cs read = some (array (read.reverse ++ [d]), rest) := by
  rw [readItems, hread]
  dsimp only
  rw [hleft]
  simp

/-- Items are read one behind the other to the end of their array. -/
theorem readItems_joined (h : List.Forall₂ (Denotes levels) texts items) (hne : texts ≠ []) :
    ∃ ds, itemsWithin? levels ds = some items ∧
      ∀ fuel rest read, (joined texts).length + 1 < fuel →
        readItems fuel (joined texts ++ ']' :: rest) read =
          some (array (read.reverse ++ ds), rest) := by
  induction h with
  | nil => exact absurd rfl hne
  | @cons cs item texts items hitem htexts ih =>
    obtain ⟨d, hd, hread⟩ := hitem
    cases htexts with
    | nil =>
      refine ⟨[d], by simp [itemsWithin?, hd], fun fuel rest read hfuel => ?_⟩
      obtain ⟨fuel, rfl⟩ := Nat.exists_eq_add_of_le' (Nat.zero_lt_of_lt hfuel)
      rw [joined_singleton] at hfuel ⊢
      obtain ⟨left, hvalue, hleft⟩ :=
        hread fuel (']' :: rest) (by omega) (follows_bracket rest)
      exact readItems_last hvalue hleft read
    | @cons next item' texts items' hnext htexts =>
      obtain ⟨ds, hds, hitems⟩ := ih (by simp)
      refine ⟨d :: ds, by simp [itemsWithin?, hd, hds], fun fuel rest read hfuel => ?_⟩
      obtain ⟨fuel, rfl⟩ := Nat.exists_eq_add_of_le' (Nat.zero_lt_of_lt hfuel)
      rw [joined_cons_cons] at hfuel ⊢
      rw [List.length_append, List.length_cons] at hfuel
      obtain ⟨left, hvalue, hleft⟩ :=
        hread fuel (',' :: (joined (next :: texts) ++ ']' :: rest)) (by omega) (follows_comma _)
      rw [List.append_assoc, List.cons_append, readItems_next hvalue hleft,
        hitems fuel rest (d :: read) (by omega)]
      simp

theorem readValue_skipBlanks (fuel : Nat) (cs : List Char) :
    readValue fuel (skipBlanks cs) = readValue fuel cs := by
  have htwice : skipBlanks (skipBlanks cs) = skipBlanks cs := List.dropWhile_idempotent isBlank cs
  cases fuel with
  | zero => rfl
  | succ fuel => rw [readValue, readValue, htwice]

theorem readItems_skipBlanks (fuel : Nat) (cs : List Char) (read : List Document) :
    readItems fuel (skipBlanks cs) read = readItems fuel cs read := by
  cases fuel with
  | zero => rfl
  | succ fuel => rw [readItems, readItems, readValue_skipBlanks]

/-- A bracket that closes an array is not the start of an item. -/
theorem readItems_bracket {rest : List Char} (h : skipBlanks cs = ']' :: rest) (fuel : Nat)
    (read : List Document) : readItems fuel cs read = none := by
  have hvalue : ∀ fuel, readValue fuel cs = none := by
    intro fuel
    cases fuel with
    | zero => rfl
    | succ fuel =>
      rw [readValue, h]
      rfl
  cases fuel with
  | zero => rfl
  | succ fuel => rw [readItems, hvalue]

theorem readValue_bracket (fuel : Nat) (cs : List Char) :
    readValue (fuel + 1) ('[' :: cs) = match skipBlanks cs with
      | ']' :: rest => some (array [], rest)
      | rest => readItems fuel rest [] :=
  rfl

theorem readValue_array {fuel : Nat} {r : Document × List Char}
    (h : readItems fuel cs [] = some r) : readValue (fuel + 1) ('[' :: cs) = some r := by
  rw [readValue_bracket]
  split
  · rename_i hclosed
    rw [readItems_bracket hclosed] at h
    cases h
  · rwa [readItems_skipBlanks]

theorem denotes_array (h : List.Forall₂ (Denotes levels) texts items) :
    Denotes (levels + 1) ('[' :: (joined texts ++ [']'])) (.array items) := by
  by_cases hne : texts = []
  · subst hne
    cases h
    refine ⟨array [], rfl, fun fuel rest hfuel _ => ⟨rest, ?_, rfl⟩⟩
    obtain ⟨fuel, rfl⟩ := Nat.exists_eq_add_of_lt hfuel
    rfl
  · obtain ⟨ds, hds, hitems⟩ := readItems_joined h hne
    refine ⟨array ds, by simp [valueWithin?, hds], fun fuel rest hfuel _ => ⟨rest, ?_, rfl⟩⟩
    obtain ⟨fuel, rfl⟩ := Nat.exists_eq_add_of_le' (Nat.zero_lt_of_lt hfuel)
    rw [List.length_cons, List.length_append, List.length_singleton] at hfuel
    rw [List.cons_append, List.append_assoc, List.singleton_append]
    exact readValue_array (hitems fuel rest [] (by omega))

/-- Members of an object: a key and, behind a colon, what denotes its value. -/
def MemberDenotes (levels : Nat) (cs : List Char) (member : String × Json) : Prop :=
  ∃ valueText, cs = (Json.quote member.1).toList ++ ':' :: valueText ∧
    Denotes levels valueText member.2

/-- A member is read as its key and what its value is read as. -/
theorem readMembers_member {fuel : Nat} (key : String) (cs : List Char) (read : Members) :
    readMembers (fuel + 1) ((Json.quote key).toList ++ ':' :: cs) read =
      (readValue fuel cs).bind fun (d, left) => match skipBlanks left with
        | ',' :: rest => readMembers fuel rest ((some key, d) :: read)
        | '\x7d' :: rest => some (object ((some key, d) :: read).reverse, rest)
        | _ => none := by
  rw [toList_quote]
  have hquote : ∀ rest, skipBlanks ('"' :: rest) = '"' :: rest := fun _ => rfl
  have hcolon : ∀ rest, skipBlanks (':' :: rest) = ':' :: rest := fun _ => rfl
  simp only [readMembers, hquote, readText_quote, hcolon]
  cases readValue fuel cs <;> rfl

theorem readMembers_next {fuel : Nat} {left rest : List Char} {d : Document} {key : String}
    (hread : readValue fuel cs = some (d, left)) (hleft : skipBlanks left = ',' :: rest)
    (read : Members) :
    readMembers (fuel + 1) ((Json.quote key).toList ++ ':' :: cs) read =
      readMembers fuel rest ((some key, d) :: read) := by
  rw [readMembers_member, hread, Option.bind_some]
  dsimp only
  rw [hleft]
  rfl

theorem readMembers_last {fuel : Nat} {left rest : List Char} {d : Document} {key : String}
    (hread : readValue fuel cs = some (d, left)) (hleft : skipBlanks left = '\x7d' :: rest)
    (read : Members) :
    readMembers (fuel + 1) ((Json.quote key).toList ++ ':' :: cs) read =
      some (object (read.reverse ++ [(some key, d)]), rest) := by
  rw [readMembers_member, hread, Option.bind_some]
  dsimp only
  rw [hleft]
  simp

/-- Members are read one behind the other to the end of their object. -/
theorem readMembers_joined (h : List.Forall₂ (MemberDenotes levels) texts members)
    (hne : texts ≠ []) :
    ∃ ds, membersWithin? levels ds = some members ∧
      ∀ fuel rest read, (joined texts).length + 1 < fuel →
        readMembers fuel (joined texts ++ '\x7d' :: rest) read =
          some (object (read.reverse ++ ds), rest) := by
  induction h with
  | nil => exact absurd rfl hne
  | @cons cs member texts members hmember htexts ih =>
    obtain ⟨key, value⟩ := member
    obtain ⟨valueText, rfl, d, hd, hread⟩ := hmember
    cases htexts with
    | nil =>
      refine ⟨[(some key, d)], by simp [membersWithin?, hd], fun fuel rest read hfuel => ?_⟩
      obtain ⟨fuel, rfl⟩ := Nat.exists_eq_add_of_le' (Nat.zero_lt_of_lt hfuel)
      rw [joined_singleton] at hfuel ⊢
      rw [List.length_append, List.length_cons] at hfuel
      obtain ⟨left, hvalue, hleft⟩ :=
        hread fuel ('\x7d' :: rest) (by omega) (follows_brace rest)
      rw [List.append_assoc, List.cons_append]
      exact readMembers_last hvalue hleft read
    | @cons next member' texts members' hnext htexts =>
      obtain ⟨ds, hds, hmembers⟩ := ih (by simp)
      refine ⟨(some key, d) :: ds, by simp [membersWithin?, hd, hds],
        fun fuel rest read hfuel => ?_⟩
      obtain ⟨fuel, rfl⟩ := Nat.exists_eq_add_of_le' (Nat.zero_lt_of_lt hfuel)
      rw [joined_cons_cons] at hfuel ⊢
      simp only [List.length_append, List.length_cons] at hfuel
      obtain ⟨left, hvalue, hleft⟩ :=
        hread fuel (',' :: (joined (next :: texts) ++ '\x7d' :: rest)) (by omega) (follows_comma _)
      rw [List.append_assoc, List.append_assoc, List.cons_append, List.cons_append,
        readMembers_next hvalue hleft, hmembers fuel rest _ (by omega)]
      simp

theorem denotes_object (h : List.Forall₂ (MemberDenotes levels) texts members) :
    Denotes (levels + 1) ('\x7b' :: (joined texts ++ ['\x7d'])) (.ofMembers members) := by
  by_cases hne : texts = []
  · subst hne
    cases h
    refine ⟨object [], rfl, fun fuel rest hfuel _ => ⟨rest, ?_, rfl⟩⟩
    obtain ⟨fuel, rfl⟩ := Nat.exists_eq_add_of_lt hfuel
    rfl
  · obtain ⟨ds, hds, hmembers⟩ := readMembers_joined h hne
    refine ⟨object ds, by simp [valueWithin?, hds], fun fuel rest hfuel _ => ⟨rest, ?_, rfl⟩⟩
    obtain ⟨fuel, rfl⟩ := Nat.exists_eq_add_of_le' (Nat.zero_lt_of_lt hfuel)
    rw [List.length_cons, List.length_append, List.length_singleton] at hfuel
    have hread := hmembers fuel rest [] (by omega)
    have hquote : ∃ t, joined texts ++ '\x7d' :: rest = '"' :: t := by
      cases h with
      | nil => exact absurd rfl hne
      | @cons cs member texts members hmember htexts =>
        obtain ⟨valueText, rfl, -⟩ := hmember
        cases htexts with
        | nil => rw [joined_singleton, List.append_assoc, toList_quote]; exact ⟨_, rfl⟩
        | cons =>
          rw [joined_cons_cons, List.append_assoc, List.append_assoc, toList_quote]
          exact ⟨_, rfl⟩
    obtain ⟨t, ht⟩ := hquote
    rw [List.cons_append, List.append_assoc, List.singleton_append, ht]
    rw [ht] at hread
    exact hread

end Containers

section Values

theorem readItems_isArray {fuel : Nat} {cs left : List Char} {read : List Document} {d : Document}
    (h : readItems fuel cs read = some (d, left)) : ∃ items, d = array items := by
  induction fuel generalizing cs read with
  | zero => cases h
  | succ fuel ih =>
    rw [readItems] at h
    split at h
    · cases h
    split at h
    · exact ih h
    · cases h
      exact ⟨_, rfl⟩
    · cases h

theorem readMembers_isObject {fuel : Nat} {cs left : List Char} {read : Members} {d : Document}
    (h : readMembers fuel cs read = some (d, left)) : ∃ members, d = object members := by
  induction fuel generalizing cs read with
  | zero => cases h
  | succ fuel ih =>
    rw [readMembers] at h
    split at h
    case h_2 => cases h
    split at h
    case h_1 => cases h
    split at h
    case h_2 => cases h
    split at h
    case h_1 => cases h
    split at h
    case h_1 => exact ih h
    case h_2 =>
      cases h
      exact ⟨_, rfl⟩
    case h_3 => cases h

/-- A number is read from its characters alone. -/
theorem readNumber_of_readValue {fuel : Nat} {cs left : List Char} {n : NumberText}
    (h : readValue fuel cs = some (number n, left)) :
    readNumber (skipBlanks cs) = some (n, left) := by
  cases fuel with
  | zero => cases h
  | succ fuel =>
    rw [readValue] at h
    split at h
    case h_4 =>
      obtain ⟨_, _, htext⟩ := Option.map_eq_some_iff.mp h
      cases htext
    case h_5 =>
      split at h
      · cases h
      · obtain ⟨_, harray⟩ := readItems_isArray h
        cases harray
    case h_6 =>
      split at h
      · cases h
      · obtain ⟨_, hobject⟩ := readMembers_isObject h
        cases hobject
    case h_7 =>
      obtain ⟨_, hread, hnumber⟩ := Option.map_eq_some_iff.mp h
      cases hnumber
      exact hread
    all_goals cases h

theorem value?_eq_real {levels : Nat} {d : Document} {x : Double}
    (h : d.valueWithin? levels = some (.real x)) :
    ∃ n, d = number n ∧ n.value? = some (.real x) := by
  cases d with
  | number n => exact ⟨n, rfl, h⟩
  | null | bool => cases h
  | text s => cases s <;> cases h
  | array | object =>
    rw [valueWithin?] at h
    split at h
    · cases h
    · obtain ⟨_, _, heq⟩ := Option.map_eq_some_iff.mp h
      cases heq

theorem denotes_real {levels : Nat} {x : Double}
    (h : Json.read? (Decimal.text x) = some (.real x)) :
    Denotes levels (Decimal.text x).toList (.real x) := by
  obtain ⟨d, hread, hvalue⟩ := Option.bind_eq_some_iff.mp h
  obtain ⟨n, rfl, hn⟩ := value?_eq_real hvalue
  rw [read?] at hread
  split at hread
  · rename_i heq
    split at hread
    · rename_i hleft
      cases hread
      exact denotes_number (readNumber_of_readValue heq) (List.isEmpty_iff.mp hleft) hn
    · cases hread
  · cases hread

theorem toList_compact_array (items : List Json) : (Json.array items).compact.toList =
    '[' :: (joined ((Json.compactItems items).map String.toList) ++ [']']) := by
  simp [Json.compact, joined, String.toList_intercalate]

theorem toList_compact_object (members : List (String × Json)) :
    (Json.object members).compact.toList =
      '\x7b' :: (joined ((Json.compactMembers members).map String.toList) ++ ['\x7d']) := by
  simp [Json.compact, joined, String.toList_intercalate]

mutual

/-- The line that a value is written as denotes it. -/
theorem denotes_compact {levels : Nat} : ∀ {v : Json}, v.Readable levels →
    Denotes levels v.compact.toList v
  | .null, _ => denotes_null
  | .bool b, _ => denotes_bool b
  | .integer _, h => by
    rw [Json.Readable] at h
    exact denotes_integer h.1 h.2
  | .real _, h => by
    rw [Json.Readable] at h
    exact denotes_real h
  | .text s, _ => denotes_text s
  | .array items, h => by
    rw [Json.Readable] at h
    obtain ⟨hlevels, hitems⟩ := h
    obtain ⟨levels, rfl⟩ := Nat.exists_eq_add_of_le' hlevels
    rw [toList_compact_array]
    exact denotes_array (forall₂_compactItems hitems)
  | .object members, h => by
    rw [Json.Readable] at h
    obtain ⟨hlevels, hsorted, hmembers⟩ := h
    obtain ⟨levels, rfl⟩ := Nat.exists_eq_add_of_le' hlevels
    rw [toList_compact_object, ← Json.ofMembers_of_sorted hsorted]
    exact denotes_object (forall₂_compactMembers hmembers)

theorem forall₂_compactItems {levels : Nat} : ∀ {items : List Json},
    Json.ReadableItems levels items →
      List.Forall₂ (Denotes levels) ((Json.compactItems items).map String.toList) items
  | [], _ => List.Forall₂.nil
  | item :: rest, h => by
    rw [Json.ReadableItems] at h
    exact .cons (denotes_compact h.1) (forall₂_compactItems h.2)

theorem forall₂_compactMembers {levels : Nat} : ∀ {members : List (String × Json)},
    Json.ReadableMembers levels members →
      List.Forall₂ (MemberDenotes levels) ((Json.compactMembers members).map String.toList) members
  | [], _ => List.Forall₂.nil
  | (key, value) :: rest, h => by
    rw [Json.ReadableMembers] at h
    refine .cons ⟨value.compact.toList, ?_, denotes_compact h.1⟩ (forall₂_compactMembers h.2)
    simp

end

theorem read?_of_denotes {s : String} {v : Json} (h : Denotes mostNested s.toList v) :
    Json.read? s = some v := by
  obtain ⟨d, hd, hread⟩ := h
  have hend : Follows [] := by rintro c ⟨⟩
  obtain ⟨left, hvalue, hleft⟩ := hread (2 * s.toList.length + 2) [] (by omega) hend
  rw [List.append_nil] at hvalue
  have hblank : skipBlanks left = [] := hleft
  have hdocument : Document.read? s = some d := by
    rw [Document.read?, hvalue]
    dsimp only
    rw [hblank]
    rfl
  rw [Json.read?, hdocument]
  exact hd

end Values

end Document

namespace Json

/-- A value is read back from its line. -/
theorem read?_compact {v : Json} (h : v.Readable Document.mostNested) :
    read? v.compact = some v :=
  Document.read?_of_denotes (Document.denotes_compact h)

/-- Members in any order are read back in the order of their keys. -/
theorem read?_compact_object {members : List (String × Json)}
    (h : ReadableMembers (Document.mostNested - 1) members) :
    read? (object members).compact = some (ofMembers members) := by
  refine Document.read?_of_denotes ?_
  rw [Document.toList_compact_object]
  exact Document.denotes_object (Document.forall₂_compactMembers h)

end Json
end GuestLibrary

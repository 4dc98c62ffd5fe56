import GuestLibrary.Log.Validation
import GuestLibrary.Proofs.Json.RoundTrip

/-! Entries read back from their lines. Checking a line looks its fields up by name, and under every
name it finds the field that the entry was written with; so no field is found at fault and each is
taken for what it was. -/
namespace GuestLibrary.Log

namespace Entry

variable {α β : Type} {e : Entry}

section Members

theorem lookup_filterMap {fields : List (String × Option α)} (h : (fields.map Prod.fst).Nodup)
    (key : String) :
    (fields.filterMap fun (key, value) => value.map (key, ·)).lookup key =
      (fields.lookup key).join := by
  induction fields with
  | nil => rfl
  | cons field rest ih =>
    obtain ⟨k, value⟩ := field
    obtain ⟨hfresh, hrest⟩ := List.nodup_cons.mp h
    rw [Json.lookup_cons_if]
    cases value with
    | none =>
      refine (ih hrest).trans ?_
      split
      · rename_i hk
        rw [hk, Json.lookup_eq_none hfresh]
        rfl
      · rfl
    | some v =>
      refine (Json.lookup_cons_if key k v _).trans ?_
      split
      · rfl
      · exact ih hrest

theorem nodup_fields (e : Entry) : (e.fields.map Prod.fst).Nodup := by
  have hnames : e.fields.map Prod.fst = ["timestamp", "trace_id", "level", "event", "api_family",
    "symbol", "mode", "outcome", "errno", "latency_ns", "artifact_refs", "details"] := rfl
  rw [hnames]
  decide

theorem lookup_members (e : Entry) (key : String) :
    e.members.lookup key = (e.fields.lookup key).join :=
  lookup_filterMap e.nodup_fields key

theorem nodup_members (e : Entry) : (e.members.map Prod.fst).Nodup := by
  have hkeys : e.members.map Prod.fst =
      (e.fields.filter (·.2.isSome)).map Prod.fst := by
    unfold members
    induction e.fields with
    | nil => rfl
    | cons field rest ih =>
      obtain ⟨k, value⟩ := field
      cases value <;> simp [ih]
  rw [hkeys]
  exact (List.filter_sublist.map Prod.fst).nodup e.nodup_fields

/-- What an entry is read back as: the fields it has, in the order of their names. -/
def value (e : Entry) : Json := .ofMembers e.members

/-- Among the members every field is found under its name. -/
def Holds (e : Entry) (members : List (String × Json)) : Prop :=
  ∀ field ∈ e.fields, members.lookup field.1 = field.2

theorem holds_value (e : Entry) : Holds e (e.value.members?.getD []) := by
  rintro ⟨key, value⟩ hfield
  refine (Json.member?_ofMembers e.members key).trans ?_
  rw [Json.lookup_reverse e.nodup_members, lookup_members,
    Json.lookup_of_mem e.nodup_fields hfield]
  rfl

end Members

section Fields

/-- A field is read as what it was written for, or left out. -/
theorem optional_map {read? : Json → Option α} {write : α → Json} (o : Option α)
    (hnull : ∀ a ∈ o, write a ≠ .null) (hread : ∀ a ∈ o, read? (write a) = some a) :
    optional read? (o.map write) = some o := by
  cases o with
  | none => rfl
  | some a =>
    have hne := hnull a rfl
    have ha := hread a rfl
    unfold optional
    split
    · rename_i h
      cases h
    · rename_i h
      exact absurd (Option.some.inj h) hne
    · rename_i h
      rw [← Option.some.inj h, ha]
      rfl

theorem severity?_name (s : Severity) : severity? (.text s.name) = some s := by
  cases s <;> rfl

theorem outcome?_name (o : Outcome) : outcome? (.text o.name) = some o := by
  cases o <;> rfl

theorem texts?_map (names : List String) : texts? (names.map .text) = some names := by
  induction names with
  | nil => rfl
  | cons name rest ih => rw [List.map_cons, texts?, ih]; rfl

/-- Numbers in their range and details that are not null: what an entry can be written with. -/
structure Written (e : Entry) : Prop where
  errorNumber : ∀ i ∈ e.errorNumber, SignedRange.int.contains i = true
  latency : ∀ n ∈ e.latency, n < wordLimit
  details : e.details ≠ some .null

variable {members : List (String × Json)}

theorem Written.ofJson? (h : Written e) (hmembers : Holds e members) :
    ofJson? (.object members) = some e := by
  have htext : ∀ o : Option String, optional Json.text? (o.map .text) = some o :=
    fun o => optional_map o (fun _ _ => Json.noConfusion) fun _ _ => rfl
  have houtcome : optional outcome? (e.outcome.map fun o => .text o.name) = some e.outcome :=
    optional_map _ (fun _ _ => Json.noConfusion) fun o _ => outcome?_name o
  have herror : optional int? (e.errorNumber.map .integer) = some e.errorNumber :=
    optional_map _ (fun _ _ => Json.noConfusion) fun i hi => by
      rw [int?, Json.integer?, Option.filter_some, h.errorNumber i hi, if_pos rfl]
  have hlatency : optional word? (e.latency.map fun n : Nat => .integer n) = some e.latency :=
    optional_map _ (fun _ _ => Json.noConfusion) fun n hn => by
      simp [word?, Json.integer?]
  have hartifacts : optional (fun v => v.array?.bind texts?)
      (e.artifacts.map fun names => .array (names.map .text)) = some e.artifacts :=
    optional_map _ (fun _ _ => Json.noConfusion) fun names _ => texts?_map names
  have hdetails : optional some e.details = some e.details := by
    have hwrite := @optional_map Json some id e.details
      (fun a ha hnull => h.details (by rw [ha, ← hnull]; rfl)) fun _ _ => rfl
    rwa [Option.map_id] at hwrite
  simp only [Holds, fields, List.forall_mem_cons] at hmembers
  obtain ⟨htimestamp, htrace, hseverity, hevent, hfamily, hsymbol, hmode, hended, herrno, htime,
    hrefs, hextra, -⟩ := hmembers
  have hlevel : (some (Json.text e.severity.name)).bind severity? = some e.severity :=
    severity?_name e.severity
  unfold Entry.ofJson?
  rw [Json.members?]
  dsimp only [Option.bind_eq_bind, Option.bind_some]
  rw [htimestamp, htrace, hseverity, hlevel, hevent, hfamily, htext, hsymbol, htext, hmode, htext,
    hended, houtcome, herrno, herror, htime, hlatency, hrefs, hartifacts, hextra, hdetails]
  rfl

end Fields
end Entry

section Lines

variable {e : Entry} {members : List (String × Json)}

/-- A text that is allowed is no fault. -/
theorem filter_allowed {text : Option String} {allowed : List String}
    (h : ∀ s ∈ text, s ∈ allowed) : text.filter (!allowed.contains ·) = none := by
  rw [Option.filter_eq_none_iff]
  intro s hs
  simp [h s hs]

/-- With a timestamp and a mode that are allowed there is nothing to find fault with. -/
theorem faults_eq_nil (hstamp : isTimestamp e.timestamp = true)
    (hmode : ∀ mode ∈ e.mode, mode = "report" ∨ mode = "silent") (hmembers : e.Holds members) :
    faults members = [] := by
  simp only [Entry.Holds, Entry.fields, List.forall_mem_cons] at hmembers
  obtain ⟨htimestamp, htrace, hlevel, hevent, -, -, hwritten, houtcome, -⟩ := hmembers
  have habsent : requiredFields.filter (fun field => (members.lookup field).isNone) = [] := by
    simp [requiredFields, htimestamp, htrace, hlevel, hevent]
  have hseverities : ∀ s ∈ fieldText? members "level", s ∈ Severity.all.map (·.name) := by
    rw [fieldText?, hlevel]
    rintro s ⟨⟩
    cases e.severity <;> decide
  have houtcomes : ∀ s ∈ fieldText? members "outcome", s ∈ Outcome.all.map (·.name) := by
    rw [fieldText?, houtcome]
    intro s hs
    cases ho : e.outcome with
    | none => rw [ho] at hs; cases hs
    | some o =>
      rw [ho] at hs
      cases hs
      cases o <;> decide
  have hmodes : ∀ s ∈ fieldText? members "mode",
      s ∈ [DiagnosticMode.report.name, DiagnosticMode.silent.name] := by
    rw [fieldText?, hwritten]
    intro s hs
    cases hm : e.mode with
    | none => rw [hm] at hs; cases hs
    | some mode =>
      rw [hm] at hs
      cases hs
      obtain rfl | rfl := hmode s (by rw [hm]; rfl) <;> decide
  have hzone : (fieldText? members "timestamp").filter (!isTimestamp ·) = none := by
    rw [fieldText?, htimestamp, Option.filter_eq_none_iff]
    rintro s ⟨⟩
    simp [hstamp]
  unfold faults
  simp only [habsent, hzone, closedFields, List.filterMap_cons, filter_allowed hseverities,
    filter_allowed houtcomes, filter_allowed hmodes]
  rfl

theorem validateLine_of_read (h : e.Written) (hstamp : isTimestamp e.timestamp = true)
    (hmode : ∀ mode ∈ e.mode, mode = "report" ∨ mode = "silent")
    (hread : Json.read? e.line = some e.value) (n : Nat) : validateLine e.line n = .ok e := by
  obtain ⟨members, hvalue⟩ : ∃ members, e.value = .object members := ⟨_, rfl⟩
  have hmembers : e.Holds members := by
    have hholds := e.holds_value
    rwa [hvalue] at hholds
  have hcheck : checkLine e.line = .ok e := by
    rw [checkLine, hread, hvalue]
    dsimp only
    rw [faults_eq_nil hstamp hmode hmembers]
    dsimp only
    rw [h.ofJson? hmembers]
  rw [validateLine, hcheck]
  rfl

/-- Every field but the details is read back as it is. -/
theorem Entry.Written.readable_fields (h : e.Written)
    (hdetails : ∀ v ∈ e.details, v.Readable (Document.mostNested - 1)) :
    ∀ field ∈ e.fields, ∀ v ∈ field.2, v.Readable (Document.mostNested - 1) := by
  have htext : ∀ (o : Option String) (levels : Nat), ∀ v ∈ o.map Json.text, v.Readable levels := by
    rintro o levels v hv
    obtain ⟨s, -, rfl⟩ := Option.map_eq_some_iff.mp hv
    trivial
  have houtcome : ∀ v ∈ e.outcome.map fun o => Json.text o.name,
      v.Readable (Document.mostNested - 1) := by
    intro v hv
    obtain ⟨o, -, rfl⟩ := Option.map_eq_some_iff.mp hv
    trivial
  have herror : ∀ v ∈ e.errorNumber.map Json.integer, v.Readable (Document.mostNested - 1) := by
    intro v hv
    obtain ⟨i, hi, rfl⟩ := Option.map_eq_some_iff.mp hv
    have hrange := (SignedRange.contains_iff _ _).mp (h.errorNumber i hi)
    have hleast : SignedRange.int.least = -2147483648 := rfl
    have hgreatest : SignedRange.int.greatest = 2147483647 := rfl
    have hlimit : SignedRange.long.limit = 9223372036854775808 := rfl
    have hword : wordLimit = 18446744073709551616 := rfl
    rw [Json.Readable]
    omega
  have hlatency : ∀ v ∈ e.latency.map fun n : Nat => Json.integer n,
      v.Readable (Document.mostNested - 1) := by
    intro v hv
    obtain ⟨n, hn, rfl⟩ := Option.map_eq_some_iff.mp hv
    have hlimit : SignedRange.long.limit = 9223372036854775808 := rfl
    have hword := h.latency n hn
    rw [Json.Readable]
    omega
  have hartifacts : ∀ v ∈ e.artifacts.map fun names => Json.array (names.map .text),
      v.Readable (Document.mostNested - 1) := by
    intro v hv
    obtain ⟨names, -, rfl⟩ := Option.map_eq_some_iff.mp hv
    rw [Json.Readable, Json.readableItems_iff]
    refine ⟨by decide, fun item hitem => ?_⟩
    obtain ⟨name, -, rfl⟩ := List.mem_map.mp hitem
    trivial
  simp only [Entry.fields, List.forall_mem_cons]
  exact ⟨htext (some _) _, htext (some _) _, htext (some _) _, htext (some _) _, htext _ _,
    htext _ _, htext _ _, houtcome, herror, hlatency, hartifacts, hdetails, by simp⟩

theorem Entry.Written.read?_line (h : e.Written)
    (hdetails : ∀ v ∈ e.details, v.Readable (Document.mostNested - 1)) :
    Json.read? e.line = some e.value := by
  refine Json.read?_compact_object (Json.readableMembers_iff.mpr fun member hmember => ?_)
  obtain ⟨⟨key, field⟩, hfield, hwritten⟩ := List.mem_filterMap.mp hmember
  obtain ⟨v, rfl, rfl⟩ := Option.map_eq_some_iff.mp hwritten
  exact h.readable_fields hdetails _ hfield v rfl

/-- An entry whose timestamp has the length and the marks of one, whose mode is one of the two there
are and whose details are not null: the check of its line, under whatever number, gives the entry
back in every field, if only the line is read as the value that it was written for. It is, if the
details are among the values that reading can give at all. -/
theorem validateLine_line (e : Entry) (n : Nat) (h : e.Written)
    (htimestamp : (Bytes.ofText e.timestamp).length = 24 ∧
      (Bytes.ofText e.timestamp)[10]? = some 84 ∧ (Bytes.ofText e.timestamp).getLast? = some 90)
    (hmode : e.mode = none ∨ e.mode = some "report" ∨ e.mode = some "silent") :
    (Json.read? e.line = some e.value → validateLine e.line n = .ok e) ∧
    ((∀ v ∈ e.details, v.Readable (Document.mostNested - 1)) → validateLine e.line n = .ok e) := by
  have hstamp : isTimestamp e.timestamp = true := by
    obtain ⟨hlength, hmark, hlast⟩ := htimestamp
    rw [isTimestamp, hlength, hmark, hlast]
    rfl
  have hallowed : ∀ mode ∈ e.mode, mode = "report" ∨ mode = "silent" := by
    intro mode hm
    obtain hnone | hreport | hsilent := hmode
    · rw [hnone] at hm
      cases hm
    · rw [hreport] at hm
      cases hm
      exact Or.inl rfl
    · rw [hsilent] at hm
      cases hm
      exact Or.inr rfl
  have hread := fun hvalue => validateLine_of_read h hstamp hallowed hvalue n
  exact ⟨hread, fun hdetails => hread (h.read?_line hdetails)⟩

/-- Members with every kind of value and with characters that are escaped. -/
def fullDetails : List (String × Json) :=
  [("addr", .null),
    ("notes", .array [.bool true, .text "\"\n", .real (.ofMagnitude false 0x3fe0000000000000)]),
    ("size", .integer (-9223372036854775808))]

/-- An entry with all of its fields. -/
def fullEntry : Entry where
  timestamp := "2024-02-29T12:00:00.042Z"
  traceId := "core::malloc::malloc::\x01"
  severity := .warn
  event := "alloc"
  family := some "allocator"
  symbol := some "realloc"
  mode := some "silent"
  outcome := some .error
  errorNumber := some (-12)
  latency := some 18446744073709551615
  artifacts := some ["a.json", ""]
  details := some (.object fullDetails)

theorem validateLine_line_full : fullEntry.Written ∧
    (∀ v ∈ fullEntry.details, v.Readable (Document.mostNested - 1)) ∧
    validateLine fullEntry.line 7 = .ok fullEntry := by
  have hwritten : fullEntry.Written := by
    refine ⟨?_, ?_, by rintro ⟨⟩⟩
    · rintro i ⟨⟩
      decide
    · rintro n ⟨⟩
      decide
  have hreadable : ∀ v ∈ fullEntry.details, v.Readable (Document.mostNested - 1) := by
    rintro v ⟨⟩
    have hsorted : Json.Sorted fullDetails := by
      simp only [Json.Sorted, fullDetails]
      decide
    have hhalf : Json.read? (Decimal.text (.ofMagnitude false 0x3fe0000000000000)) =
        some (.real (.ofMagnitude false 0x3fe0000000000000)) := by rfl
    have hleast : -SignedRange.long.limit ≤ (-9223372036854775808 : Int) ∧
        (-9223372036854775808 : Int) < wordLimit := by decide
    simp only [Json.Readable, fullDetails, Json.ReadableMembers, Json.ReadableItems]
    exact ⟨by decide, hsorted, trivial, ⟨by decide, trivial, trivial, hhalf, trivial⟩, hleast,
      trivial⟩
  have htimestamp : (Bytes.ofText fullEntry.timestamp).length = 24 ∧
      (Bytes.ofText fullEntry.timestamp)[10]? = some 84 ∧
      (Bytes.ofText fullEntry.timestamp).getLast? = some 90 := by
    simp only [fullEntry, Bytes.ofText_eq]
    decide
  exact ⟨hwritten, hreadable,
    (validateLine_line fullEntry 7 hwritten htimestamp (Or.inr (Or.inr rfl))).2 hreadable⟩

end Lines

end GuestLibrary.Log

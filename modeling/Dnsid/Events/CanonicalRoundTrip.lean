import Mathlib.Data.List.Sigma
import Dnsid.Events.CanonicalTree

/-! # One spelling for one value (`log-c2sp-tlog/src/canonical.ts`, `log-c2sp-tlog/src/event-codec.ts`)

`parseJsonNoDuplicateMembers` reads back what `canonicalBytes` wrote, and bytes that pass `assertCanonicalJsonBytes` are what
`canonicalBytes` writes for their value. So there is one accepted byte string for each value, whatever the order of members.
-/
namespace Dnsid.Events.JsonDepth
open Dnsid.Foundations Dnsid.Foundations.JsonText
open Dnsid.Protocol (Bytes utf8 byteOrderMark StrictJsonError)
set_option autoImplicit false

variable {N : Type}

/-! ## The functions of the source -/

section Canonical
variable (readNumber : List Char → N) (numbers : NumberText N) (message : StrictJsonError → String)

/-- `message` is the message of what the strict parser threw. -/
def parseJsonNoDuplicateMembers (bytes : Bytes) : Except Thrown (Value N) := do
  let _ ← assertJsonDepth bytes
  (Dnsid.Protocol.parseJsonNoDuplicateMembers readNumber bytes).mapError fun cause =>
    .parseError ("malformed UTF-8 JSON: " ++ message cause)

def canonicalBytes (value : Value N) : Except Thrown Bytes := do
  let text ← canonicalJson numbers value
  return utf8 text

/-- `textDecoder.decode(bytes)`, with `ignoreBOM`: a byte order mark is kept. -/
def decodeKeepingMark (bytes : Bytes) : Option (List Char) := bytes.toByteArray.utf8Decode?.map Array.toList

def assertCanonicalJsonBytes (bytes : Bytes) (value : Value N) : Except Thrown Unit := do
  let got ← orThrow (.other "The encoded data was not valid for encoding utf-8") (decodeKeepingMark bytes)
  let want ← canonicalJson numbers value
  throwIf (got ≠ want) (.parseError "entry bytes are not canonical JCS")

def sigsName : CodeUnits := [0x73, 0x69, 0x67, 0x73]

/-- The name of the member that an index becomes. -/
def indexName (n : ℕ) : CodeUnits := Utf16.ofScalars (Nat.toDigits 10 n)

/-- The own members that `{ ...obj }` takes. -/
def spread : Value N → List (CodeUnits × Value N)
  | .object members => members
  | .array items => items.zipIdx.map fun item => (indexName item.2, item.1)
  | .string text => text.zipIdx.map fun unit => (indexName unit.2, .string [unit.1])
  | _ => []

def canonicalizeUnknownC2spEnvelope (obj : Value N) (includeSigs : Bool) : Except Thrown Bytes :=
  canonicalBytes numbers (.object ((spread obj).filter fun member => includeSigs || member.1 ≠ sigsName))

def assertEntrySize (bytes : Bytes) : Except Thrown Unit :=
  throwIf (bytes.length = 0 ∨ 0xffff < bytes.length) (.parseError "C2SP entry must be between 1 and 65535 bytes")

def signedC2spEntryBytes (bytes : Bytes) : Except Thrown Bytes := do
  let _ ← assertEntrySize bytes
  let obj ← parseJsonNoDuplicateMembers readNumber message bytes
  let _ ← assertCanonicalJsonBytes numbers bytes obj
  canonicalizeUnknownC2spEnvelope numbers obj false

end Canonical

/-! ## Parsed values -/

section Parsed
variable (readNumber : List Char → N)

mutual

theorem tree_value_distinct : ∀ t : Tree, t.Distinct → Distinct (t.value readNumber)
  | .word w, _ => by cases w <;> simp [Tree.value, Word.value, Distinct]
  | .number n, _ => by simp [Tree.value, Distinct]
  | .string parts, _ => by simp [Tree.value, Distinct]
  | .emptyArray blank, _ => by simp [Tree.value, Distinct, DistinctItems]
  | .array items, h => by
    rw [Tree.value, Distinct]
    exact items_value_distinct items h
  | .emptyObject blank, _ => by simp [Tree.value, Distinct, DistinctMembers, DistinctNames]
  | .object members, h => by
    rw [Tree.Distinct, ← entries_names readNumber] at h
    rw [Tree.value, foldl_setMember_nil h.1, Distinct]
    exact ⟨h.1, members_value_distinct members h.2⟩

theorem items_value_distinct : ∀ items : Items, items.Distinct → DistinctItems (items.values readNumber)
  | .last before item after, h => by
    rw [Items.values, DistinctItems]
    exact ⟨tree_value_distinct item h, trivial⟩
  | .more before item after rest, h => by
    rw [Items.values, DistinctItems]
    exact ⟨tree_value_distinct item h.1, items_value_distinct rest h.2⟩

theorem members_value_distinct : ∀ members : Members, members.Distinct → DistinctMembers (members.entries readNumber)
  | .last before name colon space value after, h => by
    rw [Members.entries, DistinctMembers]
    exact ⟨tree_value_distinct value h, trivial⟩
  | .more before name colon space value after rest, h => by
    rw [Members.entries, DistinctMembers]
    exact ⟨tree_value_distinct value h.1, members_value_distinct rest h.2⟩

end

end Parsed

/-- Sorting what is sorted changes nothing. -/
theorem sorted_sorted (value : Value N) : sorted (sorted value) = sorted value := by
  match value with
  | .null => simp only [sorted]
  | .bool b => simp only [sorted]
  | .number n => simp only [sorted]
  | .string text => simp only [sorted]
  | .array items =>
    rw [sorted, sorted, sortedItems_eq, sortedItems_eq, List.map_map]
    have hitems : items.map (sorted ∘ sorted) = items.map sorted :=
      List.map_congr_left fun item hitem => sorted_sorted item
    rw [hitems]
  | .object members =>
    have hmembers : members.map (onValue sorted ∘ onValue sorted) = members.map (onValue sorted) :=
      List.map_congr_left fun member hmember =>
        have hsize := sizeOf_member hmember
        congrArg (Prod.mk member.1) (sorted_sorted member.2)
    rw [sorted, sorted, sortedMembers_eq, sortedMembers_eq, sortNames_map sorted (sortNames _), sortNames_idem, ← sortNames_map,
      List.map_map, hmembers]
termination_by sizeOf value
decreasing_by
  · have hlt := List.sizeOf_lt_of_mem hitem
    simp only [Value.array.sizeOf_spec]
    omega
  · simp only [Value.object.sizeOf_spec]
    omega

/-! ## Reading what was written -/

section RoundTrip
variable {readNumber : List Char → N} {numbers : NumberText N} {message : StrictJsonError → String}

theorem canonicalBytes_ok {value : Value N} {bytes : Bytes} :
    canonicalBytes numbers value = .ok bytes ↔ ∃ text, canonicalJson numbers value = .ok text ∧ utf8 text = bytes := by
  simp only [canonicalBytes, bind_eq_ok, pure_eq_ok]

theorem canonicalBytes_sorted {value : Value N} {bytes : Bytes} :
    canonicalBytes numbers (sorted value) = .ok bytes ↔ canonicalBytes numbers value = .ok bytes := by
  simp only [canonicalBytes_ok, canonicalJson_sorted]

/-- The canonical bytes are read as the value, with its members in order. -/
theorem parse_canonicalBytes (hnumbers : ReadsNumbers readNumber numbers) {value : Value N} (hdistinct : Distinct value)
    {bytes : Bytes} (h : canonicalBytes numbers value = .ok bytes) :
    parseJsonNoDuplicateMembers readNumber message bytes = .ok (sorted value) := by
  obtain ⟨text, htext, rfl⟩ := canonicalBytes_ok.mp h
  obtain ⟨hwithin, hserialized⟩ := canonicalJson_ok.mp htext
  obtain ⟨t, rfl, hvalue, ht⟩ := serializeJson_tree hnumbers value hdistinct hserialized
  let d : Document := ⟨noBlank, t, noBlank⟩
  have hd : d.text = t.text := by simp [d, Document.text, noBlank]
  have hdepth : assertJsonDepth (utf8 t.text) = .ok () := by
    rw [← hd, assertJsonDepth_ok, ← within_value_iff readNumber ht, hvalue, within_sorted]
    exact hwithin
  have hparse : Dnsid.Protocol.parseJsonNoDuplicateMembers readNumber (utf8 t.text) = .ok (sorted value) := by
    refine (Dnsid.Protocol.parseJsonNoDuplicateMembers_exact readNumber _ _).mpr ⟨d, ht, .inl (by rw [hd]), ?_⟩
    rw [parse, d.parse, Option.map_some, hvalue]
  rw [parseJsonNoDuplicateMembers, hdepth, hparse]
  rfl

theorem distinct_of_parse {bytes : Bytes} {value : Value N}
    (h : parseJsonNoDuplicateMembers readNumber message bytes = .ok value) : Distinct value := by
  simp only [parseJsonNoDuplicateMembers, bind_eq_ok, mapError_eq_ok] at h
  obtain ⟨_, -, hstrict⟩ := h
  obtain ⟨d, ht, -, hparse⟩ := (Dnsid.Protocol.parseJsonNoDuplicateMembers_exact readNumber bytes value).mp hstrict
  rw [parse, d.parse, Option.map_some, Option.some.injEq] at hparse
  rw [← hparse]
  exact tree_value_distinct readNumber d.tree ht

/-- Bytes that pass are the canonical bytes of their value. -/
theorem canonicalBytes_of_assert {bytes : Bytes} {value : Value N} (h : assertCanonicalJsonBytes numbers bytes value = .ok ()) :
    canonicalBytes numbers value = .ok bytes := by
  simp only [assertCanonicalJsonBytes, bind_eq_ok, orThrow_eq_ok, throwIf_eq_ok, not_not] at h
  obtain ⟨got, hgot, want, hwant, rfl⟩ := h
  rw [decodeKeepingMark, Option.map_eq_some_iff] at hgot
  obtain ⟨chars, hchars, rfl⟩ := hgot
  refine canonicalBytes_ok.mpr ⟨_, hwant, ?_⟩
  have hsome : bytes.toByteArray.utf8Decode?.isSome := by rw [hchars]; rfl
  have hencode := ByteArray.utf8Encode_get_utf8Decode? (h := hsome)
  simp only [hchars, Option.get_some] at hencode
  rw [← List.toByteArray_inj, Dnsid.Protocol.utf8_toByteArray, hencode]

/-! ## Entries -/

theorem indexName_injective : Function.Injective indexName := by
  intro m n h
  have hscalars := congrArg Utf16.scalars h
  rw [indexName, indexName, Utf16.scalars_ofScalars, Utf16.scalars_ofScalars] at hscalars
  have hdigits := congrArg (fun digits => Nat.ofDigitChars 10 digits 0) hscalars
  simpa only [Nat.ofDigitChars_ten_toDigits] using hdigits

theorem distinct_indices {A B : Type} (items : List A) (f : A → B) :
    DistinctNames (items.zipIdx.map fun item => (indexName item.2, f item.1)) := by
  have hnames : (items.zipIdx.map fun item => (indexName item.2, f item.1)).map Prod.fst =
      (items.zipIdx.map Prod.snd).map indexName := by
    rw [List.map_map, List.map_map]
    rfl
  rw [DistinctNames, hnames]
  exact (List.nodup_zipIdx_map_snd items).map indexName_injective

theorem distinct_spread {value : Value N} (h : Distinct value) :
    DistinctNames (spread value) ∧ ∀ member ∈ spread value, Distinct member.2 := by
  cases value with
  | object members =>
    rw [Distinct, distinctMembers_iff] at h
    exact h
  | array items =>
    rw [Distinct, distinctItems_iff] at h
    refine ⟨distinct_indices items id, fun member hmember => ?_⟩
    obtain ⟨item, hitem, rfl⟩ := List.mem_map.mp hmember
    exact h item.1 (List.fst_mem_of_mem_zipIdx hitem)
  | string text =>
    refine ⟨distinct_indices text fun unit => Value.string (N := N) [unit], fun member hmember => ?_⟩
    obtain ⟨unit, -, rfl⟩ := List.mem_map.mp hmember
    simp [Distinct]
  | null => simp [spread, DistinctNames]
  | bool b => simp [spread, DistinctNames]
  | number n => simp [spread, DistinctNames]

/-- The members that are signed. -/
def signedMembers (value : Value N) : List (CodeUnits × Value N) := (spread value).filter fun member => member.1 ≠ sigsName

theorem distinct_signedMembers {value : Value N} (h : Distinct value) : Distinct (.object (signedMembers value)) := by
  obtain ⟨hnames, hvalues⟩ := distinct_spread h
  rw [Distinct, distinctMembers_iff]
  exact ⟨hnames.sublist (List.filter_sublist.map Prod.fst), fun member hmember => hvalues member (List.mem_of_mem_filter hmember)⟩

/-- The same members up to the order inside their values, but for `sigs`. -/
def SameSigned (a b : Value N) : Prop :=
  ∀ name ≠ sigsName, ∀ value,
    (name, value) ∈ (spread a).map (onValue sorted) ↔ (name, value) ∈ (spread b).map (onValue sorted)

theorem mem_signedMembers {value : Value N} {name : CodeUnits} {v : Value N} :
    (name, v) ∈ (signedMembers value).map (onValue sorted) ↔
      name ≠ sigsName ∧ (name, v) ∈ (spread value).map (onValue sorted) := by
  simp only [signedMembers, List.mem_map, List.mem_filter, decide_eq_true_eq]
  constructor
  · rintro ⟨member, ⟨hmember, hne⟩, heq⟩
    obtain ⟨rfl, rfl⟩ := Prod.mk.inj heq
    exact ⟨hne, member, hmember, rfl⟩
  · rintro ⟨hne, member, hmember, heq⟩
    obtain ⟨rfl, rfl⟩ := Prod.mk.inj heq
    exact ⟨member, ⟨hmember, hne⟩, rfl⟩

/-- The signed parts are the same value iff all members but `sigs` are. -/
theorem sorted_signedMembers_iff {a b : Value N} (ha : Distinct a) (hb : Distinct b) :
    sorted (.object (signedMembers a)) = sorted (.object (signedMembers b)) ↔ SameSigned a b := by
  have hnodup : ∀ {value : Value N}, Distinct value → DistinctNames ((signedMembers value).map (onValue sorted)) := by
    intro value hvalue
    have hdistinct := distinct_signedMembers hvalue
    rw [Distinct] at hdistinct
    rw [DistinctNames, List.map_map]
    exact hdistinct.1
  rw [sorted, sorted, sortedMembers_eq, sortedMembers_eq, Value.object.injEq]
  constructor
  · intro h name hname v
    have hmem : (name, v) ∈ (signedMembers a).map (onValue sorted) ↔ (name, v) ∈ (signedMembers b).map (onValue sorted) := by
      rw [← (sortNames_perm _).mem_iff, h, (sortNames_perm _).mem_iff]
    rwa [mem_signedMembers, mem_signedMembers, and_iff_right hname, and_iff_right hname] at hmem
  · intro h
    refine sortNames_congr (hnodup ha) ((List.perm_ext_iff_of_nodup (hnodup ha).of_map (hnodup hb).of_map).mpr ?_)
    rintro ⟨name, v⟩
    rw [mem_signedMembers, mem_signedMembers]
    exact and_congr_right fun hname => h name hname v

theorem signedC2spEntryBytes_ok {bytes signed : Bytes} (h : signedC2spEntryBytes readNumber numbers message bytes = .ok signed) :
    ∃ value, parseJsonNoDuplicateMembers readNumber message bytes = .ok value ∧
      canonicalBytes numbers (.object (signedMembers value)) = .ok signed := by
  simp only [signedC2spEntryBytes, bind_eq_ok] at h
  obtain ⟨_, -, value, hparse, _, -, hsigned⟩ := h
  refine ⟨value, hparse, ?_⟩
  simpa only [canonicalizeUnknownC2spEnvelope, Bool.false_or, signedMembers] using hsigned

/-- **Canonical JSON is one spelling for each value.** What is written is read back, bytes that are accepted are what is written
for their value, and accepted bytes are the same iff their values are, up to the order of members. The signed parts of two
entries are the same bytes iff the entries have the same members but for `sigs`. -/
theorem canonicalJson_bijective (readNumber : List Char → N) (numbers : NumberText N) (message : StrictJsonError → String)
    (hnumbers : ReadsNumbers readNumber numbers) :
    (∀ value bytes, Distinct value → canonicalBytes numbers value = .ok bytes →
      ∃ parsed, parseJsonNoDuplicateMembers readNumber message bytes = .ok parsed ∧ sorted parsed = sorted value) ∧
    (∀ bytes value, parseJsonNoDuplicateMembers readNumber message bytes = .ok value →
      assertCanonicalJsonBytes numbers bytes value = .ok () → canonicalBytes numbers value = .ok bytes) ∧
    (∀ bytes bytes' value value', parseJsonNoDuplicateMembers readNumber message bytes = .ok value →
      assertCanonicalJsonBytes numbers bytes value = .ok () →
      parseJsonNoDuplicateMembers readNumber message bytes' = .ok value' →
      assertCanonicalJsonBytes numbers bytes' value' = .ok () → (bytes = bytes' ↔ sorted value = sorted value')) ∧
    ∀ bytes bytes' signed signed', signedC2spEntryBytes readNumber numbers message bytes = .ok signed →
      signedC2spEntryBytes readNumber numbers message bytes' = .ok signed' →
      ∃ value value', parseJsonNoDuplicateMembers readNumber message bytes = .ok value ∧
        parseJsonNoDuplicateMembers readNumber message bytes' = .ok value' ∧ (signed = signed' ↔ SameSigned value value') := by
  have hsame : ∀ {a b : Value N} {bytes bytes' : Bytes}, Distinct a → Distinct b → canonicalBytes numbers a = .ok bytes →
      canonicalBytes numbers b = .ok bytes' → (bytes = bytes' ↔ sorted a = sorted b) := by
    intro a b bytes bytes' ha hb hbytes hbytes'
    constructor
    · rintro rfl
      have hparse : parseJsonNoDuplicateMembers readNumber message bytes = .ok (sorted a) :=
        parse_canonicalBytes hnumbers ha hbytes
      rw [parse_canonicalBytes hnumbers hb hbytes', Except.ok.injEq] at hparse
      exact hparse.symm
    · intro hsorted
      rw [← canonicalBytes_sorted, hsorted, canonicalBytes_sorted, hbytes'] at hbytes
      exact (Except.ok.inj hbytes).symm
  refine ⟨?_, ?_, ?_, ?_⟩
  · intro value bytes hdistinct hbytes
    exact ⟨sorted value, parse_canonicalBytes hnumbers hdistinct hbytes, sorted_sorted value⟩
  · intro bytes value _ hassert
    exact canonicalBytes_of_assert hassert
  · intro bytes bytes' value value' hparse hassert hparse' hassert'
    exact hsame (distinct_of_parse hparse) (distinct_of_parse hparse') (canonicalBytes_of_assert hassert)
      (canonicalBytes_of_assert hassert')
  · intro bytes bytes' signed signed' hsigned hsigned'
    obtain ⟨value, hparse, hbytes⟩ := signedC2spEntryBytes_ok hsigned
    obtain ⟨value', hparse', hbytes'⟩ := signedC2spEntryBytes_ok hsigned'
    have ha := distinct_of_parse hparse
    have hb := distinct_of_parse hparse'
    refine ⟨value, value', hparse, hparse', ?_⟩
    rw [hsame (distinct_signedMembers ha) (distinct_signedMembers hb) hbytes hbytes', sorted_signedMembers_iff ha hb]

end RoundTrip

/-- The digits, and a number that is not finite. -/
def digitNumbers : NumberText (Option (Fin 10)) where
  isCanonical := Option.isSome
  text
    | some digit => [Nat.digitChar digit]
    | none => ['n', 'u', 'l', 'l']

def readDigit (text : List Char) : Option (Fin 10) := (List.finRange 10).find? fun digit => text = [Nat.digitChar digit]

theorem readsNumbers_digits : ReadsNumbers readDigit digitNumbers := by
  intro n hn
  cases n with
  | none => cases hn
  | some digit =>
    have hdigits : ∀ digit : Fin 10, isNumber [Nat.digitChar digit] = true ∧ readDigit [Nat.digitChar digit] = some digit := by
      decide
    exact hdigits digit

/-- An object with the members not in order, and a quote and a line feed in the value of one. -/
def sampleObject : Value (Option (Fin 10)) :=
  .object [([0x62], .number (some 7)), ([0x61], .array [.string [0x78, 0x22, 0x0a], .null])]

def sampleText : List Char := "\x7b\"a\":[\"x\\\"\\n\",null],\"b\":7\x7d".toList

theorem sampleObject_canonical : canonicalBytes digitNumbers sampleObject = .ok (utf8 sampleText) := by
  have hsorted : sortNames [(([0x62] : CodeUnits), Value.number (some (7 : Fin 10))),
      ([0x61], .array [.string [0x78, 0x22, 0x0a], .null])] =
        [([0x61], .array [.string [0x78, 0x22, 0x0a], .null]), ([0x62], .number (some 7))] := by
    rw [sortNames_congr (by simp [DistinctNames]) (List.Perm.swap _ _ [])]
    exact List.mergeSort_of_pairwise (List.pairwise_pair.mpr (by decide))
  have htext : serializeJson digitNumbers sampleObject = .ok sampleText := by
    rw [sampleObject, serializeJson_object, hsorted]
    decide
  have hdepth : checkDepth [(sampleObject, 0)] = .ok () := by simp [sampleObject, checkDepth, children, maxJsonDepth]
  rw [canonicalBytes, canonicalJson, hdepth, ok_bind, htext, ok_bind]
  rfl

/-- It is written in order and escaped, and read back. -/
theorem canonicalJson_bijective_digits :
    canonicalBytes digitNumbers sampleObject = .ok (utf8 sampleText) ∧
      ∃ parsed, parseJsonNoDuplicateMembers readDigit (fun _ => "") (utf8 sampleText) = .ok parsed ∧
        sorted parsed = sorted sampleObject := by
  refine ⟨sampleObject_canonical, ?_⟩
  refine (canonicalJson_bijective readDigit digitNumbers (fun _ => "") readsNumbers_digits).1 _ _ ?_ sampleObject_canonical
  simp [sampleObject, Distinct, DistinctItems, DistinctMembers, DistinctNames]

end Dnsid.Events.JsonDepth

import Mathlib.Data.Rat.Encodable
import Mathlib.Data.Set.List
import Dnsid.Events.CanonicalRoundTrip

/-! # The JSON functions of the codec (`log-c2sp-tlog/src/canonical.ts`)

The codec reads and writes `Json`, whose strings are texts and whose numbers are finite. The functions of `canonical.ts` work
on every value of the runtime. `JsonRuntime.codec` is a platform with these functions, so what holds for all platforms holds
for them; on the values of the codec both serializers write the same text (`canonicalJson_toValue`).
-/
namespace Dnsid.Events
open Dnsid.Foundations Dnsid.Foundations.JsonText
open Dnsid.Protocol (Bytes utf8 decodeUtf8 StrictJsonError)
set_option autoImplicit false

/-! ## Values of the runtime -/

/-- A number that is not finite, or `-0`, is `none`. -/
abbrev RuntimeValue := Value (Option ℚ)

namespace Json

mutual

def toValue : Json → RuntimeValue
  | .null => .null
  | .bool value => .bool value
  | .num value => .number (some value)
  | .str value => .string (Utf16.ofText value)
  | .arr items => .array (toItems items)
  | .obj members => .object (toMembers members)

def toItems : List Json → List RuntimeValue
  | [] => []
  | item :: items => toValue item :: toItems items

def toMembers : List (String × Json) → List (CodeUnits × RuntimeValue)
  | [] => []
  | (name, value) :: members => (Utf16.ofText name, toValue value) :: toMembers members

end

theorem toItems_eq (items : List Json) : toItems items = items.map toValue := by
  induction items with
  | nil => rw [toItems, List.map_nil]
  | cons item items ih => rw [toItems, ih, List.map_cons]

def toMember (member : String × Json) : CodeUnits × RuntimeValue := (Utf16.ofText member.1, toValue member.2)

theorem toMembers_eq (members : List (String × Json)) : toMembers members = members.map toMember := by
  induction members with
  | nil => rw [toMembers, List.map_nil]
  | cons member members ih =>
    obtain ⟨name, value⟩ := member
    rw [toMembers, ih, List.map_cons]
    rfl

end Json

/-- The text of units without lone surrogates. -/
def textOf? (units : CodeUnits) : Option String :=
  if Utf16.IsWellFormed units then some (Utf16.toText units) else none

theorem textOf?_eq_some {units : CodeUnits} {text : String} : textOf? units = some text ↔ Utf16.ofText text = units := by
  unfold textOf?
  constructor
  · intro h
    split_ifs at h with hwell
    cases h
    exact Utf16.ofText_toText hwell
  · rintro rfl
    have hwell : Utf16.IsWellFormed (Utf16.ofText text) := Utf16.isWellFormed_ofScalars _
    rw [if_pos hwell, Utf16.toText_ofText]

mutual

/-- The value of the codec, where there is one. -/
def ofValue : RuntimeValue → Option Json
  | .null => some .null
  | .bool value => some (.bool value)
  | .number value => value.map .num
  | .string units => (textOf? units).map .str
  | .array items => (ofItems items).map .arr
  | .object members => (ofMembers members).map .obj

def ofItems : List RuntimeValue → Option (List Json)
  | [] => some []
  | item :: items => do return (← ofValue item) :: (← ofItems items)

def ofMembers : List (CodeUnits × RuntimeValue) → Option (List (String × Json))
  | [] => some []
  | (name, value) :: members => do return (← textOf? name, ← ofValue value) :: (← ofMembers members)

end

mutual

theorem ofValue_eq_some : ∀ {value : RuntimeValue} {json : Json}, ofValue value = some json ↔ json.toValue = value
  | .null, json => by
    rw [ofValue]
    cases json <;> simp [Json.toValue]
  | .bool b, json => by
    rw [ofValue]
    cases json <;> simp [Json.toValue, eq_comm]
  | .number n, json => by
    rw [ofValue]
    cases json <;> simp [Json.toValue, eq_comm]
  | .string units, json => by
    rw [ofValue]
    cases json <;> simp [Json.toValue, textOf?_eq_some]
  | .array items, json => by
    rw [ofValue]
    cases json <;> simp [Json.toValue, ofItems_eq_some]
  | .object members, json => by
    rw [ofValue]
    cases json <;> simp [Json.toValue, ofMembers_eq_some]

theorem ofItems_eq_some : ∀ {items : List RuntimeValue} {jsons : List Json},
    ofItems items = some jsons ↔ Json.toItems jsons = items
  | [], jsons => by
    rw [ofItems]
    cases jsons <;> simp [Json.toItems]
  | item :: items, jsons => by
    rw [ofItems]
    cases jsons <;> simp [Json.toItems, Option.bind_eq_some_iff, ofValue_eq_some, ofItems_eq_some]

theorem ofMembers_eq_some : ∀ {members : List (CodeUnits × RuntimeValue)} {jsons : List (String × Json)},
    ofMembers members = some jsons ↔ Json.toMembers jsons = members
  | [], jsons => by
    rw [ofMembers]
    cases jsons <;> simp [Json.toMembers]
  | (name, value) :: members, jsons => by
    rw [ofMembers]
    cases jsons with
    | nil => simp [Json.toMembers, Option.bind_eq_some_iff]
    | cons json jsons =>
      obtain ⟨text, json⟩ := json
      simp [Json.toMembers, Option.bind_eq_some_iff, textOf?_eq_some, ofValue_eq_some, ofMembers_eq_some, and_assoc]

end

theorem toValue_injective : Function.Injective Json.toValue := by
  intro a b h
  have hb := ofValue_eq_some.mpr h
  rw [ofValue_eq_some.mpr rfl] at hb
  exact (Option.some.inj hb).symm

/-! ## Order of members -/

theorem map_toNat_charUnits (c : Char) : (Utf16.charUnits c).map UInt16.toNat = utf16Units c := by
  unfold Utf16.charUnits utf16Units
  split_ifs with hsmall
  · simp only [List.map_cons, List.map_nil, Utf16.toNat_unit hsmall]
  · simp only [List.map_cons, List.map_nil, Utf16.toNat_high, Utf16.toNat_low]

theorem map_toNat_ofText (text : String) : (Utf16.ofText text).map UInt16.toNat = utf16 text := by
  rw [Utf16.ofText, utf16, Utf16.ofScalars, List.map_flatMap]
  simp only [map_toNat_charUnits]

/-- The runtime has one member for each name. -/
abbrev Json.Distinct (value : Json) : Prop := JsonDepth.Distinct value.toValue

theorem distinct_items {items : List Json} (h : (Json.arr items).Distinct) : ∀ item ∈ items, item.Distinct := by
  rw [Json.Distinct, Json.toValue, JsonDepth.Distinct, JsonDepth.distinctItems_iff, Json.toItems_eq, List.forall_mem_map] at h
  exact h

theorem distinct_members {members : List (String × Json)} (h : (Json.obj members).Distinct) :
    (members.map Prod.fst).Nodup ∧ ∀ member ∈ members, member.2.Distinct := by
  rw [Json.Distinct, Json.toValue, JsonDepth.Distinct, JsonDepth.distinctMembers_iff, Json.toMembers_eq, List.forall_mem_map,
    DistinctNames, List.map_map] at h
  refine ⟨?_, h.2⟩
  have hnames : members.map (Prod.fst ∘ Json.toMember) = (members.map Prod.fst).map Utf16.ofText := by
    rw [List.map_map]
    rfl
  rw [hnames] at h
  exact h.1.of_map

theorem mem_sortedMembers {members : List (String × Json)} {m : String × Json} (h : m ∈ Json.sortedMembers members) :
    ∃ member ∈ members, m = (member.1, member.2.sorted) := by
  induction members with
  | nil =>
    rw [Json.sortedMembers] at h
    cases h
  | cons member members ih =>
    obtain ⟨name, value⟩ := member
    rw [Json.sortedMembers] at h
    obtain rfl | h := mem_upsert h
    · exact ⟨_, List.mem_cons_self, rfl⟩
    · obtain ⟨member, hmember, rfl⟩ := ih h
      exact ⟨member, List.mem_cons_of_mem _ hmember, rfl⟩

theorem sortedMembers_perm {members : List (String × Json)} (h : (members.map Prod.fst).Nodup) :
    (Json.sortedMembers members).Perm (members.map fun member => (member.1, member.2.sorted)) := by
  induction members with
  | nil => rw [Json.sortedMembers]; exact .refl _
  | cons member members ih =>
    obtain ⟨name, value⟩ := member
    rw [List.map_cons, List.nodup_cons] at h
    rw [Json.sortedMembers, List.map_cons]
    refine (upsert_perm _ fun hmem => ?_).trans ((ih h.2).cons _)
    obtain ⟨m, hm, rfl⟩ := List.mem_map.mp hmem
    obtain ⟨member, hmember, rfl⟩ := mem_sortedMembers hm
    exact h.1 (List.mem_map.mpr ⟨member, hmember, rfl⟩)

/-- Members in order stay where they are. -/
theorem sortNames_sortedMembers (members : List (String × Json)) :
    JsonDepth.sortNames ((Json.sortedMembers members).map Json.toMember) = (Json.sortedMembers members).map Json.toMember := by
  refine List.mergeSort_of_pairwise (List.pairwise_map.mpr ?_)
  refine (Json.ordered_sortedMembers members).imp fun hlt => ?_
  simpa [JsonDepth.leName, Json.toMember, map_toNat_ofText] using hlt.le

theorem sizeOf_json_member {members : List (String × Json)} {member : String × Json} (h : member ∈ members) :
    sizeOf member.2 < sizeOf (Json.obj members) := by
  have hlt := sizeOf_member_lt h
  simp only [Json.obj.sizeOf_spec]
  omega

theorem sizeOf_json_item {items : List Json} {item : Json} (h : item ∈ items) : sizeOf item < sizeOf (Json.arr items) := by
  have hlt := List.sizeOf_lt_of_mem h
  simp only [Json.arr.sizeOf_spec]
  omega

theorem sortedItems_map (items : List Json) : Json.sortedItems items = items.map Json.sorted := by
  induction items with
  | nil => rw [Json.sortedItems, List.map_nil]
  | cons item items ih => rw [Json.sortedItems, ih, List.map_cons]

/-- Both models put the members of every object in the same order. -/
theorem sorted_toValue (value : Json) (h : value.Distinct) : JsonDepth.sorted value.toValue = value.sorted.toValue := by
  match value with
  | .null => simp only [Json.toValue, Json.sorted, JsonDepth.sorted]
  | .bool b => simp only [Json.toValue, Json.sorted, JsonDepth.sorted]
  | .num q => simp only [Json.toValue, Json.sorted, JsonDepth.sorted]
  | .str text => simp only [Json.toValue, Json.sorted, JsonDepth.sorted]
  | .arr items =>
    have hitems : items.map (JsonDepth.sorted ∘ Json.toValue) = items.map (Json.toValue ∘ Json.sorted) :=
      List.map_congr_left fun item hitem =>
        have hsize := sizeOf_json_item hitem
        sorted_toValue item (distinct_items h item hitem)
    rw [Json.toValue, JsonDepth.sorted, JsonDepth.sortedItems_eq, Json.toItems_eq, List.map_map, hitems, Json.sorted, Json.toValue,
      Json.toItems_eq, sortedItems_map, List.map_map]
  | .obj members =>
    obtain ⟨hnames, hdistinct⟩ := distinct_members h
    have hmembers : members.map (JsonDepth.onValue JsonDepth.sorted ∘ Json.toMember) =
        (members.map fun member => (member.1, member.2.sorted)).map Json.toMember := by
      rw [List.map_map]
      exact List.map_congr_left fun member hmember =>
        have hsize := sizeOf_json_member hmember
        congrArg (Prod.mk _) (sorted_toValue member.2 (hdistinct member hmember))
    have hnodup : DistinctNames (members.map (JsonDepth.onValue JsonDepth.sorted ∘ Json.toMember)) := by
      rw [Json.Distinct, Json.toValue, JsonDepth.Distinct, Json.toMembers_eq, DistinctNames, List.map_map] at h
      rw [DistinctNames, List.map_map]
      exact h.1
    rw [Json.toValue, JsonDepth.sorted, JsonDepth.sortedMembers_eq, Json.toMembers_eq, List.map_map, Json.sorted, Json.toValue,
      Json.toMembers_eq, JsonDepth.sortNames_congr hnodup, sortNames_sortedMembers]
    rw [hmembers]
    exact ((sortedMembers_perm hnames).map Json.toMember).symm
termination_by sizeOf value
decreasing_by all_goals exact hsize

/-- Members in order have different names. -/
theorem distinct_sorted (value : Json) : value.sorted.Distinct := by
  match value with
  | .null | .bool _ | .num _ | .str _ => simp only [Json.sorted, Json.Distinct, Json.toValue, JsonDepth.Distinct]
  | .arr items =>
    rw [Json.sorted, sortedItems_map, Json.Distinct, Json.toValue, JsonDepth.Distinct, JsonDepth.distinctItems_iff,
      Json.toItems_eq, List.forall_mem_map, List.forall_mem_map]
    intro item hitem
    have hsize := sizeOf_json_item hitem
    exact distinct_sorted item
  | .obj members =>
    rw [Json.sorted, Json.Distinct, Json.toValue, JsonDepth.Distinct, JsonDepth.distinctMembers_iff, Json.toMembers_eq,
      List.forall_mem_map]
    constructor
    · have hnames := (Json.ordered_sortedMembers members).imp fun hlt heq => hlt.ne (congrArg utf16 heq)
      rw [DistinctNames, List.map_map]
      exact List.pairwise_map.mpr (hnames.imp fun hne heq => hne (Utf16.ofText_injective heq))
    · intro m hm
      obtain ⟨member, hmember, rfl⟩ := mem_sortedMembers hm
      have hsize := sizeOf_json_member hmember
      exact distinct_sorted member.2
termination_by sizeOf value
decreasing_by all_goals exact hsize

/-! ## Depth -/

theorem depthItems_le (items : List Json) (limit : ℕ) : Json.depthItems items ≤ limit ↔ ∀ item ∈ items, item.depth + 1 ≤ limit := by
  induction items with
  | nil => simp [Json.depthItems]
  | cons item items ih => rw [Json.depthItems, max_le_iff, ih, List.forall_mem_cons]

theorem depthMembers_le (members : List (String × Json)) (limit : ℕ) :
    Json.depthMembers members ≤ limit ↔ ∀ member ∈ members, member.2.depth + 1 ≤ limit := by
  induction members with
  | nil => simp [Json.depthMembers]
  | cons member members ih =>
    obtain ⟨name, value⟩ := member
    rw [Json.depthMembers, max_le_iff, ih, List.forall_mem_cons]

/-- The walk of the runtime's value sees the depth. -/
theorem within_toValue (value : Json) (limit depth : ℤ) :
    Within JsonDepth.children limit depth value.toValue ↔ depth + value.depth ≤ limit := by
  match value with
  | .null | .bool _ | .num _ | .str _ =>
    rw [within_iff]
    simp [Json.toValue, JsonDepth.children, Json.depth]
  | .arr items =>
    have hitems : ∀ item ∈ items, Within JsonDepth.children limit (depth + 1) item.toValue ↔
        depth + 1 + item.depth ≤ limit := fun item hitem =>
      have hsize := sizeOf_json_item hitem
      within_toValue item limit (depth + 1)
    have hdepth := depthItems_le items (limit - depth).toNat
    rw [within_iff, Json.toValue, JsonDepth.children, Json.toItems_eq, List.forall_mem_map, Json.depth, forall₂_congr hitems]
    constructor
    · intro h
      have hle := hdepth.mpr fun item hitem => by
        have := h.2 item hitem
        omega
      omega
    · intro h
      refine ⟨by omega, fun item hitem => ?_⟩
      have := hdepth.mp (by omega) item hitem
      omega
  | .obj members =>
    have hmembers : ∀ member ∈ members, Within JsonDepth.children limit (depth + 1) member.2.toValue ↔
        depth + 1 + member.2.depth ≤ limit := fun member hmember =>
      have hsize := sizeOf_json_member hmember
      within_toValue member.2 limit (depth + 1)
    have hdepth := depthMembers_le members (limit - depth).toNat
    have hvalues : (members.map Json.toMember).map Prod.snd = members.map fun member => member.2.toValue := by
      rw [List.map_map]
      rfl
    rw [within_iff, Json.toValue, JsonDepth.children, Json.toMembers_eq, hvalues, List.forall_mem_map, Json.depth,
      forall₂_congr hmembers]
    constructor
    · intro h
      have hle := hdepth.mpr fun member hmember => by
        have := h.2 member hmember
        omega
      omega
    · intro h
      refine ⟨by omega, fun member hmember => ?_⟩
      have := hdepth.mp (by omega) member hmember
      omega
termination_by sizeOf value
decreasing_by all_goals exact hsize

/-! ## The text -/

theorem assertValidUnicode_single {u : UInt16} (hhigh : Utf16.isHigh u = false) (hlow : Utf16.isLow u = false)
    (rest : CodeUnits) : JsonDepth.assertValidUnicode (u :: rest) = JsonDepth.assertValidUnicode rest := by
  rw [JsonDepth.assertValidUnicode.eq_def]
  dsimp only
  rw [if_neg (Bool.eq_false_iff.mp hhigh), if_neg (Bool.eq_false_iff.mp hlow)]

theorem assertValidUnicode_pair {high low : UInt16} (hhigh : Utf16.isHigh high = true) (hlow : Utf16.isLow low = true)
    (rest : CodeUnits) : JsonDepth.assertValidUnicode (high :: low :: rest) = JsonDepth.assertValidUnicode rest := by
  rw [JsonDepth.assertValidUnicode.eq_def]
  dsimp only
  rw [if_pos hhigh, if_pos hlow]

theorem assertValidUnicode_ofScalars (chars : List Char) : JsonDepth.assertValidUnicode (Utf16.ofScalars chars) = .ok () := by
  induction chars with
  | nil => rfl
  | cons c chars ih =>
    rw [Utf16.ofScalars_cons]
    obtain ⟨u, hunits, hhigh, hlow, -⟩ | ⟨high, low, hunits, hhigh, hlow, -⟩ := Utf16.charUnits_cases c
    · rw [hunits, List.singleton_append, assertValidUnicode_single hhigh hlow, ih]
    · rw [hunits, List.cons_append, List.singleton_append, assertValidUnicode_pair hhigh hlow, ih]

theorem stringifyUnits_ofText (text : String) : JsonDepth.stringifyUnits (Utf16.ofText text) = stringifyString text := by
  rw [JsonDepth.stringifyUnits, ← Utf16.toText, Utf16.toText_ofText]

section Text
variable (numberText : ℚ → List Char)

/-- The numbers that `serializeJson` lets through, with their texts. -/
def runtimeNumbers : JsonDepth.NumberText (Option ℚ) where
  isCanonical := Option.isSome
  text
    | some value => numberText value
    | none => ['n', 'u', 'l', 'l']

theorem serializeItems_eq (items : List RuntimeValue) :
    JsonDepth.serializeItems (runtimeNumbers numberText) items =
      items.mapM (JsonDepth.serializeJson (runtimeNumbers numberText)) := by
  induction items with
  | nil => rfl
  | cons item items ih => rw [JsonDepth.serializeItems, ih, List.mapM_cons]

/-- On members in order both serializers write the same. -/
theorem serializeJson_sorted_toValue (value : Json) :
    JsonDepth.serializeJson (runtimeNumbers numberText) value.sorted.toValue = .ok (print numberText value.sorted) := by
  match value with
  | .null => rw [Json.sorted, Json.toValue, JsonDepth.serializeJson, print]
  | .bool true => rw [Json.sorted, Json.toValue, JsonDepth.serializeJson, print]
  | .bool false => rw [Json.sorted, Json.toValue, JsonDepth.serializeJson, print]
  | .num q =>
    rw [Json.sorted, Json.toValue, JsonDepth.serializeJson, print]
    rfl
  | .str text =>
    rw [Json.sorted, Json.toValue, JsonDepth.serializeJson, print, stringifyUnits_ofText, Utf16.ofText,
      assertValidUnicode_ofScalars]
    rfl
  | .arr items =>
    have hitems : ∀ item ∈ Json.sortedItems items,
        JsonDepth.serializeJson (runtimeNumbers numberText) item.toValue = .ok (print numberText item) := by
      rw [sortedItems_map, List.forall_mem_map]
      intro item hitem
      have hsize := sizeOf_json_item hitem
      exact serializeJson_sorted_toValue item
    have htexts : ((Json.sortedItems items).map Json.toValue).mapM (JsonDepth.serializeJson (runtimeNumbers numberText)) =
        .ok (printItems numberText (Json.sortedItems items)) := by
      rw [List.mapM_map, printItems_eq]
      exact mapM_of_forall hitems
    rw [Json.sorted, Json.toValue, JsonDepth.serializeJson, Json.toItems_eq, serializeItems_eq, htexts, print]
    rfl
  | .obj members =>
    have hmembers : ∀ m ∈ Json.sortedMembers members,
        JsonDepth.memberText (JsonDepth.onValue (JsonDepth.serializeJson (runtimeNumbers numberText)) (Json.toMember m)) =
          .ok (stringifyString m.1 ++ ':' :: print numberText m.2) := by
      intro m hm
      obtain ⟨member, hmember, rfl⟩ := mem_sortedMembers hm
      have hsize := sizeOf_json_member hmember
      have hvalue := serializeJson_sorted_toValue member.2
      rw [JsonDepth.memberText, JsonDepth.onValue, Json.toMember, hvalue, Utf16.ofText, assertValidUnicode_ofScalars, ← Utf16.ofText,
        stringifyUnits_ofText]
      rfl
    have htexts : (((Json.sortedMembers members).map Json.toMember).map
        (JsonDepth.onValue (JsonDepth.serializeJson (runtimeNumbers numberText)))).mapM JsonDepth.memberText =
          .ok (printMembers numberText (Json.sortedMembers members)) := by
      rw [List.map_map, List.mapM_map, printMembers_eq]
      exact mapM_of_forall hmembers
    rw [Json.sorted, Json.toValue, Json.toMembers_eq, JsonDepth.serializeJson_object, sortNames_sortedMembers, htexts, print]
    rfl
termination_by sizeOf value
decreasing_by all_goals exact hsize

/-- **Both models of `canonicalJson` write the same text.** -/
theorem canonicalJson_toValue {value : Json} (h : value.Distinct) (text : List Char) :
    JsonDepth.canonicalJson (runtimeNumbers numberText) value.toValue = .ok text ↔ canonicalJson numberText value = .ok text := by
  rw [← JsonDepth.canonicalJson_sorted, sorted_toValue value h, JsonDepth.canonicalJson_ok, serializeJson_sorted_toValue,
    within_toValue, canonicalJson, Except.ok.injEq]
  have hdepth : (0 : ℤ) + value.sorted.depth ≤ JsonDepth.maxJsonDepth ↔ ¬ 64 < value.sorted.depth := by
    simp only [JsonDepth.maxJsonDepth]
    omega
  rw [hdepth]
  split_ifs with hdeep
  · simp [hdeep]
  · simp [hdeep]

/-- What is written is a value of the codec. -/
theorem exists_toValue (value : RuntimeValue) {text : List Char}
    (h : JsonDepth.serializeJson (runtimeNumbers numberText) value = .ok text) : ∃ json : Json, json.toValue = value := by
  have hunits : ∀ {units : CodeUnits}, JsonDepth.assertValidUnicode units = .ok () → ∃ text, Utf16.ofText text = units := by
    intro units hvalid
    exact ⟨Utf16.toText units, Utf16.ofText_toText (JsonDepth.toWellFormed_of_valid hvalid)⟩
  match value with
  | .null => exact ⟨.null, by rw [Json.toValue]⟩
  | .bool b => exact ⟨.bool b, by rw [Json.toValue]⟩
  | .number none =>
    rw [JsonDepth.serializeJson] at h
    cases h
  | .number (some q) => exact ⟨.num q, by rw [Json.toValue]⟩
  | .string units =>
    simp only [JsonDepth.serializeJson, bind_eq_ok] at h
    obtain ⟨_, hvalid, -⟩ := h
    obtain ⟨text, rfl⟩ := hunits hvalid
    exact ⟨.str text, by rw [Json.toValue]⟩
  | .array items =>
    simp only [JsonDepth.serializeJson, serializeItems_eq, bind_eq_ok] at h
    obtain ⟨_, htexts, -⟩ := h
    have hitems : ∀ item ∈ items, item ∈ Set.range Json.toValue := by
      intro item hitem
      obtain ⟨text, htext⟩ := exists_of_mapM htexts item hitem
      have hsize := List.sizeOf_lt_of_mem hitem
      exact exists_toValue item htext
    obtain ⟨jsons, rfl⟩ : items ∈ Set.range (List.map Json.toValue) := by
      rw [Set.range_list_map]
      exact hitems
    exact ⟨.arr jsons, by rw [Json.toValue, Json.toItems_eq]⟩
  | .object members =>
    rw [JsonDepth.serializeJson_object, bind_eq_ok] at h
    obtain ⟨_, htexts, -⟩ := h
    have hmembers : ∀ member ∈ members, member ∈ Set.range Json.toMember := by
      rintro ⟨units, inner⟩ hmember
      have hmem := (JsonDepth.sortNames_perm members).mem_iff.mpr hmember
      obtain ⟨_, htext⟩ := exists_of_mapM htexts _ (List.mem_map_of_mem hmem)
      simp only [JsonDepth.memberText, JsonDepth.onValue, bind_eq_ok] at htext
      obtain ⟨_, hvalid, text, htext, -⟩ := htext
      have hsize := List.sizeOf_lt_of_mem hmember
      obtain ⟨name, hname⟩ := hunits hvalid
      obtain ⟨json, hjson⟩ := exists_toValue inner htext
      exact ⟨(name, json), Prod.ext hname hjson⟩
    obtain ⟨jsons, rfl⟩ : members ∈ Set.range (List.map Json.toMember) := by
      rw [Set.range_list_map]
      exact hmembers
    exact ⟨.obj jsons, by rw [Json.toValue, Json.toMembers_eq]⟩
termination_by sizeOf value
decreasing_by
  · simp only [Value.array.sizeOf_spec]
    omega
  · simp only [Prod.mk.sizeOf_spec] at hsize
    simp only [Value.object.sizeOf_spec]
    omega

end Text

/-! ## The platform -/

/-- The numbers of the runtime, the messages of its parser, and what its decoder makes of bytes that are no UTF-8. -/
structure JsonRuntime where
  readNumber : List Char → Option ℚ
  numberText : ℚ → List Char
  readsNumbers : JsonDepth.ReadsNumbers readNumber (runtimeNumbers numberText)
  message : StrictJsonError → String
  repaired : Bytes → List Char

theorem decodeKeepingMark_utf8 (text : List Char) : JsonDepth.decodeKeepingMark (utf8 text) = some text := by
  rw [JsonDepth.decodeKeepingMark, Dnsid.Protocol.utf8_toByteArray, List.utf8Decode?_utf8Encode]
  rfl

theorem assertCanonicalJsonBytes_ok {numbers : JsonDepth.NumberText (Option ℚ)} {bytes : Bytes} {value : RuntimeValue} :
    JsonDepth.assertCanonicalJsonBytes numbers bytes value = .ok () ↔ JsonDepth.canonicalBytes numbers value = .ok bytes := by
  refine ⟨JsonDepth.canonicalBytes_of_assert, fun h => ?_⟩
  obtain ⟨text, htext, rfl⟩ := JsonDepth.canonicalBytes_ok.mp h
  rw [JsonDepth.assertCanonicalJsonBytes, decodeKeepingMark_utf8, htext]
  exact throwIf_eq_ok.mpr (not_not.mpr rfl)

namespace JsonRuntime
variable (J : JsonRuntime)

theorem readNumber_numberText (q : ℚ) : isNumber (J.numberText q) = true ∧ J.readNumber (J.numberText q) = some q :=
  J.readsNumbers (some q) rfl

/-- The text half of the codec. -/
def text : CanonicalText Bytes where
  numberText := J.numberText
  encode := utf8
  numberText_ne_nil q h := by
    have hnumber := (J.readNumber_numberText q).1
    rw [h] at hnumber
    cases hnumber
  numberText_chars q := by
    have hnumber := (J.readNumber_numberText q).1
    rw [isNumber, Bool.and_eq_true] at hnumber
    exact List.all_eq_true.mp hnumber.1
  numberText_injective a b h := by
    have hread := (J.readNumber_numberText a).2
    rw [h, (J.readNumber_numberText b).2] at hread
    exact (Option.some.inj hread).symm
  encode_injective a b h := by
    have hdecode := decodeKeepingMark_utf8 a
    rw [h, decodeKeepingMark_utf8] at hdecode
    exact (Option.some.inj hdecode).symm

def parseJsonNoDuplicateMembers (bytes : Bytes) : Except Thrown Json := do
  let value ← JsonDepth.parseJsonNoDuplicateMembers J.readNumber J.message bytes
  -- What has no `Json` is refused by the canonical form that every reader asks for next.
  orThrow (.parseError "JSON contains an unpaired surrogate") (ofValue value)

def jsonParse (bytes : Bytes) : Option Json :=
  (parse J.readNumber ((decodeUtf8 bytes).getD (J.repaired bytes))).bind ofValue

theorem parseJsonNoDuplicateMembers_ok {bytes : Bytes} {json : Json} :
    J.parseJsonNoDuplicateMembers bytes = .ok json ↔
      JsonDepth.parseJsonNoDuplicateMembers J.readNumber J.message bytes = .ok json.toValue := by
  simp only [parseJsonNoDuplicateMembers, bind_eq_ok, orThrow_eq_ok, ofValue_eq_some]
  constructor
  · rintro ⟨value, hparse, rfl⟩
    exact hparse
  · intro h
    exact ⟨_, h, rfl⟩

theorem distinct_of_parse {bytes : Bytes} {json : Json} (h : J.parseJsonNoDuplicateMembers bytes = .ok json) : json.Distinct :=
  JsonDepth.distinct_of_parse (J.parseJsonNoDuplicateMembers_ok.mp h)

theorem canonicalBytes_toValue {json : Json} (h : json.Distinct) {bytes : Bytes} :
    JsonDepth.canonicalBytes (runtimeNumbers J.numberText) json.toValue = .ok bytes ↔ J.text.canonicalBytes json = .ok bytes := by
  simp only [JsonDepth.canonicalBytes_ok, canonicalJson_toValue J.numberText h]
  cases hjson : canonicalJson J.numberText json <;> simp [CanonicalText.canonicalBytes, text, hjson, Except.map]

/-- Strict parsing gives what `JSON.parse` gives. -/
theorem jsonParse_of_strict {bytes : Bytes} {json : Json} (h : J.parseJsonNoDuplicateMembers bytes = .ok json) :
    J.jsonParse bytes = some json := by
  have hparse := J.parseJsonNoDuplicateMembers_ok.mp h
  simp only [JsonDepth.parseJsonNoDuplicateMembers, bind_eq_ok, mapError_eq_ok] at hparse
  obtain ⟨_, -, hstrict⟩ := hparse
  obtain ⟨d, -, hbytes, hvalue⟩ := (Dnsid.Protocol.parseJsonNoDuplicateMembers_exact J.readNumber bytes _).mp hstrict
  rw [jsonParse, Dnsid.Protocol.decodeUtf8_document.mpr hbytes, Option.getD_some, hvalue, Option.bind_some]
  exact ofValue_eq_some.mpr rfl

/-- What was written is read with its members in order. -/
theorem parse_canonicalBytes {json : Json} (hdistinct : json.Distinct) {bytes : Bytes}
    (h : J.text.canonicalBytes json = .ok bytes) : J.parseJsonNoDuplicateMembers bytes = .ok json.sorted := by
  rw [parseJsonNoDuplicateMembers_ok, ← sorted_toValue json hdistinct]
  exact JsonDepth.parse_canonicalBytes J.readsNumbers hdistinct ((J.canonicalBytes_toValue hdistinct).mpr h)

/-- A value in order is written, and its text is read back. -/
theorem written {json : Json} (h : json.isCanonical = true) :
    J.text.canonicalBytes json = .ok (utf8 (print J.numberText json)) ∧
      J.parseJsonNoDuplicateMembers (utf8 (print J.numberText json)) = .ok json := by
  obtain ⟨horder, hdepth⟩ := Bool.and_eq_true_iff.mp h
  have hsorted := Json.sorted_of_inOrder horder
  rw [decide_eq_true_eq] at hdepth
  have hwritten : J.text.canonicalBytes json = .ok (utf8 (print J.numberText json)) := by
    rw [CanonicalText.canonicalBytes, canonicalJson, hsorted, if_neg (not_lt.mpr hdepth)]
    rfl
  have hread := J.parse_canonicalBytes (hsorted ▸ distinct_sorted json) hwritten
  rw [hsorted] at hread
  exact ⟨hwritten, hread⟩

theorem distinct_filter {members : List (String × Json)} (h : (Json.obj members).Distinct) (keep : String × Json → Bool) :
    (Json.obj (members.filter keep)).Distinct := by
  rw [Json.Distinct, Json.toValue, JsonDepth.Distinct, JsonDepth.distinctMembers_iff, Json.toMembers_eq] at h ⊢
  have hmembers := (List.filter_sublist (p := keep) (l := members)).map Json.toMember
  exact ⟨h.1.sublist (hmembers.map Prod.fst), fun member hmember => h.2 member (hmembers.subset hmember)⟩

/-- What was read from its canonical bytes was read in order, so the canonical bytes of some of its members are read as
these members. -/
theorem parse_kept {bytes : Bytes} {members : List (String × Json)}
    (hparse : J.parseJsonNoDuplicateMembers bytes = .ok (.obj members))
    (hbytes : J.text.canonicalBytes (.obj members) = .ok bytes) (keep : String → Bool) {kept : Bytes}
    (hkept : J.text.canonicalBytes (.obj (members.filter fun m => keep m.1)) = .ok kept) :
    J.parseJsonNoDuplicateMembers kept = .ok (.obj (members.filter fun m => keep m.1)) := by
  have hdistinct := J.distinct_of_parse hparse
  have hread := J.parse_canonicalBytes hdistinct hbytes
  rw [hparse, Except.ok.injEq, Json.sorted, Json.obj.injEq] at hread
  rw [J.parse_canonicalBytes (distinct_filter hdistinct _) hkept, Json.sorted, Json.sortedMembers_filter, ← hread]

theorem signed_envelope {bytes : Bytes} {members : List (String × Json)}
    (hparse : J.parseJsonNoDuplicateMembers bytes = .ok (.obj members))
    (hbytes : J.text.canonicalBytes (.obj members) = .ok bytes) :
    ∃ signed envelope, J.text.canonicalBytes (withoutSigs (.obj members)) = .ok signed ∧ J.jsonParse signed = some envelope ∧
      ∀ name, name ≠ "sigs" → envelope.get? name = (Json.obj members).get? name := by
  obtain ⟨signed, hsigned⟩ := J.text.canonicalBytes_withoutSigs_ok hbytes
  have hread := J.parse_kept hparse hbytes (fun name => decide (name ≠ "sigs")) hsigned
  exact ⟨signed, _, hsigned, J.jsonParse_of_strict hread, fun name hname => withoutSigs_get? members hname⟩

/-- A platform whose JSON functions are those of `canonical.ts`. -/
def codec (P : Platform Bytes) : Platform Bytes :=
  { P with
    byteLength := List.length
    parseJsonNoDuplicateMembers := J.parseJsonNoDuplicateMembers
    canonicalBytes := J.text.canonicalBytes
    jsonParse := J.jsonParse
    jsonParse_of_strict := J.jsonParse_of_strict
    signed_envelope := J.signed_envelope }

variable (P : Platform Bytes)

/-- **Entries are read alike.** The checks that open the entry readers let through the same bytes in both models, with the
same value. -/
theorem readEntry_codec {bytes : Bytes} (value : RuntimeValue) :
    (∃ json : Json, json.toValue = value ∧ readEntry (J.codec P) bytes = .ok json) ↔
      JsonDepth.assertEntrySize bytes = .ok () ∧
        JsonDepth.parseJsonNoDuplicateMembers J.readNumber J.message bytes = .ok value ∧
          JsonDepth.assertCanonicalJsonBytes (runtimeNumbers J.numberText) bytes value = .ok () := by
  simp only [readEntry, bind_eq_ok, pure_eq_ok, assertCanonicalJsonBytes, throwIf_eq_ok, not_not, assertCanonicalJsonBytes_ok]
  constructor
  · rintro ⟨json, rfl, _, hsize, _, hparse, _, ⟨want, hwant, rfl⟩, rfl⟩
    have hdistinct := J.distinct_of_parse hparse
    exact ⟨hsize, J.parseJsonNoDuplicateMembers_ok.mp hparse, (J.canonicalBytes_toValue hdistinct).mpr hwant⟩
  · rintro ⟨hsize, hparse, hcanonical⟩
    obtain ⟨text, htext, -⟩ := JsonDepth.canonicalBytes_ok.mp hcanonical
    obtain ⟨json, rfl⟩ := exists_toValue J.numberText value (JsonDepth.canonicalJson_ok.mp htext).2
    have hread := J.parseJsonNoDuplicateMembers_ok.mpr hparse
    exact ⟨json, rfl, (), hsize, json, hread, (),
      ⟨bytes, (J.canonicalBytes_toValue (J.distinct_of_parse hread)).mp hcanonical, rfl⟩, rfl⟩

theorem toValue_withoutSigs (members : List (String × Json)) :
    (withoutSigs (.obj members)).toValue =
      .object ((JsonDepth.spread (Json.obj members).toValue).filter fun member => false || member.1 ≠ JsonDepth.sigsName) := by
  have hname : ∀ m : String × Json, decide (m.1 ≠ "sigs") = (false || decide ((Json.toMember m).1 ≠ JsonDepth.sigsName)) := by
    intro m
    have hsigs : Utf16.ofText "sigs" = JsonDepth.sigsName := by decide
    rw [Bool.false_or, Json.toMember, ← hsigs]
    exact decide_eq_decide.mpr (Utf16.ofText_injective.ne_iff.symm)
  rw [withoutSigs, Json.toValue, Json.toValue, JsonDepth.spread, Json.toMembers_eq, Json.toMembers_eq, List.filter_map]
  exact congrArg (fun kept => Value.object (List.map Json.toMember kept)) (List.filter_congr fun m _ => hname m)

/-- **The signed bytes of an entry are the same in both models.** The entries that the readers sign and verify are objects. -/
theorem signedC2spEntryBytes_codec {bytes signed : Bytes} {members : List (CodeUnits × RuntimeValue)}
    (hobject : JsonDepth.parseJsonNoDuplicateMembers J.readNumber J.message bytes = .ok (.object members)) :
    signedC2spEntryBytes (J.codec P) bytes = .ok signed ↔
      JsonDepth.signedC2spEntryBytes J.readNumber (runtimeNumbers J.numberText) J.message bytes = .ok signed := by
  simp only [signedC2spEntryBytes, JsonDepth.signedC2spEntryBytes, bind_eq_ok]
  constructor
  · rintro ⟨json, hread, hsigned⟩
    obtain ⟨hsize, hparse, hcanonical⟩ := (J.readEntry_codec P _).mp ⟨json, rfl, hread⟩
    refine ⟨(), hsize, _, hparse, (), hcanonical, ?_⟩
    rw [hobject, Except.ok.injEq] at hparse
    cases json with
    | obj members =>
      have hdistinct : (withoutSigs (.obj members)).Distinct := distinct_filter (JsonDepth.distinct_of_parse (hparse ▸ hobject)) _
      rw [JsonDepth.canonicalizeUnknownC2spEnvelope, ← toValue_withoutSigs, J.canonicalBytes_toValue hdistinct]
      exact hsigned
    | null | bool _ | num _ | str _ | arr _ =>
      rw [Json.toValue] at hparse
      cases hparse
  · rintro ⟨_, hsize, value, hparse, _, hcanonical, hsigned⟩
    obtain ⟨json, rfl, hread⟩ := (J.readEntry_codec P value).mpr ⟨hsize, hparse, hcanonical⟩
    refine ⟨json, hread, ?_⟩
    rw [hobject, Except.ok.injEq] at hparse
    cases json with
    | obj members =>
      have hdistinct : (withoutSigs (.obj members)).Distinct := distinct_filter (JsonDepth.distinct_of_parse (hparse ▸ hobject)) _
      rw [JsonDepth.canonicalizeUnknownC2spEnvelope, ← toValue_withoutSigs, J.canonicalBytes_toValue hdistinct] at hsigned
      exact hsigned
    | null | bool _ | num _ | str _ | arr _ =>
      rw [Json.toValue] at hparse
      cases hparse

end JsonRuntime

/-! ## A sample runtime -/

theorem isNumber_of_digits {text : List Char} (hne : text ≠ []) (hdigits : ∀ c ∈ text, c.isDigit = true)
    (hzero : text = ['0'] ∨ text.head? ≠ some '0') : isNumber text = true ∧ isNumber ('-' :: text) = true := by
  have hall : text.all isNumberChar = true := List.all_eq_true.mpr fun c hc => by simp [isNumberChar, hdigits c hc]
  have htake : text.takeWhile Char.isDigit = text := List.takeWhile_eq_self_iff.mpr hdigits
  have hdrop : text.dropWhile Char.isDigit = [] := List.dropWhile_eq_nil_iff.mpr hdigits
  have hunsigned : isUnsigned text = true := by
    simp only [isUnsigned, htake, hdrop, ne_eq, hne, not_false_eq_true, decide_true, Bool.true_and, Bool.and_eq_true,
      Bool.or_eq_true, decide_eq_true_eq]
    exact ⟨hzero, by decide⟩
  have hsign : dropOne ['-'] text = text := by
    cases text with
    | nil => rfl
    | cons c rest =>
      have hc : c ≠ '-' := by
        rintro rfl
        exact absurd (hdigits '-' List.mem_cons_self) (by decide)
      simp [dropOne, hc]
  constructor
  · rw [isNumber, hall, hsign, hunsigned, Bool.and_self]
  · rw [isNumber, List.all_cons, hall, dropOne, if_pos (by decide), hunsigned]
    decide

theorem toDigits_head {n : ℕ} (h : n ≠ 0) : (Nat.toDigits 10 n).head? ≠ some '0' := by
  induction n using Nat.strong_induction_on with
  | _ n ih =>
    by_cases hsmall : n < 10
    · rw [Nat.toDigits_of_lt_base hsmall]
      interval_cases n
      · exact absurd rfl h
      all_goals decide
    · rw [Nat.toDigits_of_base_le (by decide) (by omega), List.head?_append_of_ne_nil _ Nat.toDigits_ne_nil]
      exact ih (n / 10) (by omega) (by omega)

theorem isNumber_toDigits (n : ℕ) : isNumber (Nat.toDigits 10 n) = true := by
  have hdigits : ∀ c ∈ Nat.toDigits 10 n, c.isDigit = true := fun c hc => Nat.isDigit_of_mem_toDigits (by decide) (by decide) hc
  refine (isNumber_of_digits Nat.toDigits_ne_nil hdigits ?_).1
  by_cases hn : n = 0
  · rw [hn]
    exact .inl rfl
  · exact .inr (toDigits_head hn)

theorem isNumber_ones (n : ℕ) : isNumber ('-' :: List.replicate (n + 1) '1') = true := by
  refine (isNumber_of_digits (by simp) (fun c hc => ?_) (.inr (by simp [List.replicate_succ]))).2
  rw [List.eq_of_mem_replicate hc]
  decide

/-- A natural number is written in decimal, any other by the place that it has among the rationals. -/
def decimalText (q : ℚ) : List Char :=
  if q.den = 1 ∧ 0 ≤ q.num then Nat.toDigits 10 q.num.toNat else '-' :: List.replicate (Encodable.encode q + 1) '1'

def readDecimal : List Char → Option ℚ
  | '-' :: ones => Encodable.decode (ones.length - 1)
  | digits => some (Nat.ofDigitChars 10 digits 0)

theorem isNumber_decimalText (q : ℚ) : isNumber (decimalText q) = true := by
  unfold decimalText
  split
  · exact isNumber_toDigits _
  · exact isNumber_ones _

theorem readDecimal_decimalText (q : ℚ) : readDecimal (decimalText q) = some q := by
  unfold decimalText
  split
  case isTrue hnat =>
    have hread : readDecimal (Nat.toDigits 10 q.num.toNat) = some (Nat.ofDigitChars 10 (Nat.toDigits 10 q.num.toNat) 0 : ℚ) := by
      unfold readDecimal
      split
      next ones heq =>
        have hmem : '-' ∈ Nat.toDigits 10 q.num.toNat := heq ▸ List.mem_cons_self
        exact absurd (Nat.isDigit_of_mem_toDigits (by decide) (by decide) hmem) (by decide)
      next => rfl
    have hcast : ((q.num.toNat : ℤ) : ℚ) = q := by
      rw [Int.toNat_of_nonneg hnat.2]
      exact Rat.coe_int_num_of_den_eq_one hnat.1
    rw [hread, Nat.ofDigitChars_ten_toDigits, Option.some.injEq, ← Int.cast_natCast, hcast]
  case isFalse => simp [readDecimal]

def decimalRuntime : JsonRuntime where
  readNumber := readDecimal
  numberText := decimalText
  readsNumbers := by
    intro n hn
    cases n with
    | none => cases hn
    | some q => exact ⟨isNumber_decimalText q, readDecimal_decimalText q⟩
  message _ := ""
  repaired _ := []

end Dnsid.Events

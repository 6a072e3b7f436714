import Mathlib.Data.Nat.Notation
import Mathlib.Logic.Function.Basic

/-! # Texts of UTF-16 code units

A text is any list of code units, with surrogates in pairs or alone. Encoding it as UTF-8 goes through its scalar values
and puts U+FFFD for a surrogate without a partner; decoding drops one byte order mark.
-/
namespace Dnsid.Foundations
set_option autoImplicit false

abbrev CodeUnits := List UInt16

namespace Utf16

def isHigh (u : UInt16) : Bool := 0xd800 ≤ u.toNat && u.toNat < 0xdc00

def isLow (u : UInt16) : Bool := 0xdc00 ≤ u.toNat && u.toNat < 0xe000

/-- A code unit that stands alone. -/
def mendUnit (u : UInt16) : UInt16 := if isHigh u || isLow u then 0xfffd else u

/-- Surrogates that have no partner become U+FFFD. -/
def toWellFormed : CodeUnits → CodeUnits
  | [] => []
  | [u] => [mendUnit u]
  | u :: v :: rest =>
    if isHigh u && isLow v then u :: v :: toWellFormed rest else mendUnit u :: toWellFormed (v :: rest)

/-! ## Scalar values -/

def pairScalar (high low : UInt16) : Char :=
  .ofNat (0x10000 + (high.toNat - 0xd800) * 0x400 + (low.toNat - 0xdc00))

def unitScalar (u : UInt16) : Char := .ofNat (mendUnit u).toNat

def scalars : CodeUnits → List Char
  | [] => []
  | [u] => [unitScalar u]
  | u :: v :: rest =>
    if isHigh u && isLow v then pairScalar u v :: scalars rest else unitScalar u :: scalars (v :: rest)

def charUnits (c : Char) : CodeUnits :=
  if c.toNat < 0x10000 then [.ofNat c.toNat]
  else [.ofNat (0xd800 + (c.toNat - 0x10000) / 0x400), .ofNat (0xdc00 + (c.toNat - 0x10000) % 0x400)]

def ofScalars (chars : List Char) : CodeUnits := chars.flatMap charUnits

/-! ## UTF-8 -/

/-- `new TextEncoder().encode(text)`. -/
def textEncode (text : CodeUnits) : List UInt8 := (scalars text).flatMap String.utf8EncodeChar

/-- One byte order mark at the start is not part of the text. -/
def dropMark : CodeUnits → CodeUnits
  | [] => []
  | u :: rest => if u = 0xfeff then rest else u :: rest

/-- `new TextDecoder().decode(bytes)`; `repaired` is what it makes of bytes that are no UTF-8. -/
def textDecode (repaired : List UInt8 → CodeUnits) (bytes : List UInt8) : CodeUnits :=
  match bytes.toByteArray.utf8Decode? with
  | some chars => dropMark (ofScalars chars.toList)
  | none => repaired bytes

/-! ## Laws -/

theorem mendUnit_eq (u : UInt16) : (mendUnit u = u ∧ isHigh u = false ∧ isLow u = false) ∨
    (mendUnit u = 0xfffd ∧ (isHigh u = true ∨ isLow u = true)) := by
  unfold mendUnit
  cases isHigh u <;> cases isLow u <;> simp

theorem mendUnit_not_surrogate (u : UInt16) : isHigh (mendUnit u) = false ∧ isLow (mendUnit u) = false := by
  rcases mendUnit_eq u with ⟨heq, h⟩ | ⟨heq, -⟩
  · rw [heq]
    exact h
  · rw [heq]
    decide

theorem toNat_ofNat_char {n : ℕ} (h : n < 0xd800 ∨ 0xdfff < n ∧ n < 0x110000) : (Char.ofNat n).toNat = n := by
  have hvalid : n.isValidChar := h
  rw [Char.ofNat, dif_pos hvalid]
  rfl

theorem charUnits_unitScalar (u : UInt16) : charUnits (unitScalar u) = [mendUnit u] := by
  obtain ⟨hhigh, hlow⟩ := mendUnit_not_surrogate u
  simp only [isHigh, isLow, Bool.and_eq_false_iff, decide_eq_false_iff_not] at hhigh hlow
  have hlt := (mendUnit u).toNat_lt
  have hnat : (unitScalar u).toNat = (mendUnit u).toNat := toNat_ofNat_char (by omega)
  rw [charUnits, hnat, if_pos (by omega), UInt16.ofNat_toNat]

theorem charUnits_pairScalar {high low : UInt16} (hhigh : isHigh high = true) (hlow : isLow low = true) :
    charUnits (pairScalar high low) = [high, low] := by
  simp only [isHigh, isLow, Bool.and_eq_true, decide_eq_true_eq] at hhigh hlow
  have hnat : (pairScalar high low).toNat = 0x10000 + (high.toNat - 0xd800) * 0x400 + (low.toNat - 0xdc00) :=
    toNat_ofNat_char (by omega)
  have hh : 0xd800 + ((pairScalar high low).toNat - 0x10000) / 0x400 = high.toNat := by omega
  have hl : 0xdc00 + ((pairScalar high low).toNat - 0x10000) % 0x400 = low.toNat := by omega
  rw [charUnits, if_neg (by omega), hh, hl, UInt16.ofNat_toNat, UInt16.ofNat_toNat]

theorem ofScalars_scalars (text : CodeUnits) : ofScalars (scalars text) = toWellFormed text := by
  induction text using scalars.induct with
  | case1 => rfl
  | case2 u => rw [scalars, ofScalars, List.flatMap_singleton, charUnits_unitScalar, toWellFormed]
  | case3 u v rest h ih =>
    rw [Bool.and_eq_true] at h
    rw [scalars, toWellFormed, if_pos (Bool.and_eq_true _ _ ▸ h), if_pos (Bool.and_eq_true _ _ ▸ h), ← ih, ofScalars,
      List.flatMap_cons, charUnits_pairScalar h.1 h.2]
    rfl
  | case4 u v rest h ih =>
    rw [scalars, toWellFormed, if_neg h, if_neg h, ← ih, ofScalars, List.flatMap_cons, charUnits_unitScalar]
    rfl

/-- Decoding what was encoded. -/
theorem textDecode_textEncode (repaired : List UInt8 → CodeUnits) (text : CodeUnits) :
    textDecode repaired (textEncode text) = dropMark (toWellFormed text) := by
  have hbytes : (textEncode text).toByteArray = (scalars text).utf8Encode := rfl
  rw [textDecode, hbytes, List.utf8Decode?_utf8Encode, ← ofScalars_scalars]

/-- A text is well formed part by part, when a part that is no surrogate stands between. -/
theorem toWellFormed_append {u : UInt16} (hhigh : isHigh u = false) (hlow : isLow u = false) (s t : CodeUnits) :
    toWellFormed (s ++ u :: t) = toWellFormed s ++ u :: toWellFormed t := by
  have hmend : mendUnit u = u := by simp [mendUnit, hhigh, hlow]
  have hcons : ∀ t, toWellFormed (u :: t) = u :: toWellFormed t := by
    intro t
    cases t with
    | nil => exact congrArg (fun w => [w]) hmend
    | cons v rest => rw [toWellFormed, hhigh, Bool.false_and, if_neg Bool.false_ne_true, hmend]
  induction s using toWellFormed.induct with
  | case1 => exact hcons t
  | case2 v =>
    rw [List.singleton_append, toWellFormed.eq_3, hlow, Bool.and_false, if_neg Bool.false_ne_true, hcons]
    rfl
  | case3 v w rest h ih =>
    rw [List.cons_append, List.cons_append, toWellFormed, if_pos h, ih, toWellFormed, if_pos h]
    rfl
  | case4 v w rest h ih =>
    rw [List.cons_append, List.cons_append, toWellFormed, if_neg h, ← List.cons_append, ih, toWellFormed, if_neg h]
    rfl

theorem scalars_unit {u : UInt16} (h : isHigh u = false) (rest : CodeUnits) :
    scalars (u :: rest) = unitScalar u :: scalars rest := by
  cases rest with
  | nil => rfl
  | cons v rest => rw [scalars, h, Bool.false_and, if_neg Bool.false_ne_true]

theorem scalars_pair {high low : UInt16} (hhigh : isHigh high = true) (hlow : isLow low = true) (rest : CodeUnits) :
    scalars (high :: low :: rest) = pairScalar high low :: scalars rest := by
  rw [scalars, hhigh, hlow, Bool.and_self, if_pos rfl]

theorem toNat_unit {c : Char} (h : c.toNat < 0x10000) : (UInt16.ofNat c.toNat).toNat = c.toNat := by
  rw [UInt16.toNat_ofNat']
  omega

theorem toNat_high (c : Char) :
    (UInt16.ofNat (0xd800 + (c.toNat - 0x10000) / 0x400)).toNat = 0xd800 + (c.toNat - 0x10000) / 0x400 := by
  have hvalid : c.toNat < 0xd800 ∨ 0xdfff < c.toNat ∧ c.toNat < 0x110000 := c.valid
  rw [UInt16.toNat_ofNat']
  omega

theorem toNat_low (c : Char) :
    (UInt16.ofNat (0xdc00 + (c.toNat - 0x10000) % 0x400)).toNat = 0xdc00 + (c.toNat - 0x10000) % 0x400 := by
  rw [UInt16.toNat_ofNat']
  omega

/-- A character is one unit that is no surrogate, or a pair. -/
theorem charUnits_cases (c : Char) :
    (∃ u, charUnits c = [u] ∧ isHigh u = false ∧ isLow u = false ∧ unitScalar u = c) ∨
      ∃ high low, charUnits c = [high, low] ∧ isHigh high = true ∧ isLow low = true ∧ pairScalar high low = c := by
  have hvalid : c.toNat < 0xd800 ∨ 0xdfff < c.toNat ∧ c.toNat < 0x110000 := c.valid
  by_cases hsmall : c.toNat < 0x10000
  · have hhigh : isHigh (.ofNat c.toNat) = false := by
      rw [isHigh, toNat_unit hsmall]
      simp only [Bool.and_eq_false_iff, decide_eq_false_iff_not]
      omega
    have hlow : isLow (.ofNat c.toNat) = false := by
      rw [isLow, toNat_unit hsmall]
      simp only [Bool.and_eq_false_iff, decide_eq_false_iff_not]
      omega
    have hmend : mendUnit (.ofNat c.toNat) = .ofNat c.toNat := by simp [mendUnit, hhigh, hlow]
    refine .inl ⟨_, if_pos hsmall, hhigh, hlow, ?_⟩
    rw [unitScalar, hmend, toNat_unit hsmall, Char.ofNat_toNat]
  · have hhigh : isHigh (.ofNat (0xd800 + (c.toNat - 0x10000) / 0x400)) = true := by
      rw [isHigh, toNat_high]
      simp only [Bool.and_eq_true, decide_eq_true_eq]
      omega
    have hlow : isLow (.ofNat (0xdc00 + (c.toNat - 0x10000) % 0x400)) = true := by
      rw [isLow, toNat_low]
      simp only [Bool.and_eq_true, decide_eq_true_eq]
      omega
    have hback : 0x10000 + (0xd800 + (c.toNat - 0x10000) / 0x400 - 0xd800) * 0x400 +
        (0xdc00 + (c.toNat - 0x10000) % 0x400 - 0xdc00) = c.toNat := by omega
    refine .inr ⟨_, _, if_neg hsmall, hhigh, hlow, ?_⟩
    rw [pairScalar, toNat_high, toNat_low, hback, Char.ofNat_toNat]

theorem ofScalars_cons (c : Char) (chars : List Char) : ofScalars (c :: chars) = charUnits c ++ ofScalars chars :=
  List.flatMap_cons

/-- A text made of scalar values has them back. -/
theorem scalars_ofScalars (chars : List Char) : scalars (ofScalars chars) = chars := by
  induction chars with
  | nil => rfl
  | cons c chars ih =>
    rw [ofScalars_cons]
    obtain ⟨u, hunits, hhigh, -, hscalar⟩ | ⟨high, low, hunits, hhigh, hlow, hscalar⟩ := charUnits_cases c
    · rw [hunits, List.singleton_append, scalars_unit hhigh, ih, hscalar]
    · rw [hunits, List.cons_append, List.singleton_append, scalars_pair hhigh hlow, ih, hscalar]

/-! ## Texts without lone surrogates -/

/-- `text.isWellFormed()`. -/
def IsWellFormed (text : CodeUnits) : Prop := toWellFormed text = text

instance : DecidablePred IsWellFormed := fun text => inferInstanceAs (Decidable (toWellFormed text = text))

def ofText (text : String) : CodeUnits := ofScalars text.toList

def toText (units : CodeUnits) : String := .ofList (scalars units)

theorem isWellFormed_ofScalars (chars : List Char) : IsWellFormed (ofScalars chars) := by
  rw [IsWellFormed, ← ofScalars_scalars, scalars_ofScalars]

theorem toText_ofText (text : String) : toText (ofText text) = text := by
  rw [toText, ofText, scalars_ofScalars, String.ofList_toList]

theorem ofText_injective : Function.Injective ofText := Function.LeftInverse.injective toText_ofText

theorem ofText_toText {units : CodeUnits} (h : IsWellFormed units) : ofText (toText units) = units := by
  rw [ofText, toText, String.toList_ofList, ofScalars_scalars, h]

/-- A text without lone surrogates is known by its characters. -/
theorem toText_inj {units units' : CodeUnits} (h : IsWellFormed units) (h' : IsWellFormed units') :
    toText units = toText units' ↔ units = units' := by
  constructor
  · intro heq
    rw [← ofText_toText h, heq, ofText_toText h']
  · rintro rfl
    rfl

/-- No surrogate. -/
def Plain (u : UInt16) : Prop := isHigh u = false ∧ isLow u = false

instance : DecidablePred Plain := fun u => inferInstanceAs (Decidable (isHigh u = false ∧ isLow u = false))

theorem length_toWellFormed (text : CodeUnits) : (toWellFormed text).length = text.length := by
  induction text using toWellFormed.induct with
  | case1 => rfl
  | case2 u => rfl
  | case3 u v rest h ih => rw [toWellFormed, if_pos h, List.length_cons, List.length_cons, ih]; rfl
  | case4 u v rest h ih => rw [toWellFormed, if_neg h, List.length_cons, ih]; rfl

theorem isWellFormed_middle {u : UInt16} (hu : Plain u) {s t : CodeUnits} :
    IsWellFormed (s ++ u :: t) ↔ IsWellFormed s ∧ IsWellFormed t := by
  rw [IsWellFormed, toWellFormed_append hu.1 hu.2, IsWellFormed, IsWellFormed]
  constructor
  · intro h
    obtain ⟨hs, ht⟩ := List.append_inj h (length_toWellFormed s)
    exact ⟨hs, (List.cons.inj ht).2⟩
  · rintro ⟨hs, ht⟩
    rw [hs, ht]

theorem isWellFormed_cons {u : UInt16} (hu : Plain u) {t : CodeUnits} : IsWellFormed (u :: t) ↔ IsWellFormed t := by
  have hmiddle : IsWellFormed ([] ++ u :: t) ↔ IsWellFormed [] ∧ IsWellFormed t := isWellFormed_middle hu
  rw [List.nil_append] at hmiddle
  exact hmiddle.trans (and_iff_right rfl)

theorem IsWellFormed.front {s t : CodeUnits} (h : IsWellFormed (s ++ t)) (ht : ∀ u ∈ t.head?, Plain u) : IsWellFormed s := by
  cases t with
  | nil => rwa [List.append_nil] at h
  | cons u t => exact ((isWellFormed_middle (ht u rfl)).mp h).1

theorem IsWellFormed.back {s t : CodeUnits} (h : IsWellFormed (s ++ t)) (hs : ∀ u ∈ s, Plain u) : IsWellFormed t := by
  induction s with
  | nil => exact h
  | cons u s ih =>
    rw [List.forall_mem_cons] at hs
    exact ih ((isWellFormed_cons hs.1).mp h) hs.2

theorem isWellFormed_of_mem_intercalate {u : UInt16} (hu : Plain u) {texts : List CodeUnits}
    (h : IsWellFormed ([u].intercalate texts)) : ∀ text ∈ texts, IsWellFormed text := by
  induction texts with
  | nil => exact List.forall_mem_nil _
  | cons text texts ih =>
    cases texts with
    | nil =>
      rw [List.intercalate_singleton] at h
      exact List.forall_mem_singleton.mpr h
    | cons next texts =>
      rw [List.intercalate_cons_cons, List.append_assoc, List.singleton_append, isWellFormed_middle hu] at h
      exact List.forall_mem_cons.mpr ⟨h.1, ih h.2⟩

/-- The parts between separators. -/
theorem IsWellFormed.splitOn {text : CodeUnits} (h : IsWellFormed text) {u : UInt16} (hu : Plain u) :
    ∀ part ∈ text.splitOn u, IsWellFormed part :=
  isWellFormed_of_mem_intercalate hu (by rwa [List.intercalate_splitOn])

end Utf16

end Dnsid.Foundations

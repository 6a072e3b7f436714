import Mathlib.Data.Nat.Notation
import Mathlib.Data.List.Basic

/-! # Form-encoded texts

The `application/x-www-form-urlencoded` parser of the URL Standard: pieces between ampersands, a name up to the first equals
sign, `+` for a space, percent-encoded bytes, and UTF-8 with U+FFFD in place of what is none.
-/
namespace Dnsid.Foundations
set_option autoImplicit false

/-! ## Splitting -/

section Split
variable {α β : Type} [DecidableEq α] [DecidableEq β]

theorem splitOn_append_of_not_mem {sep : α} {front : List α} (h : sep ∉ front) (text : List α) :
    (front ++ text).splitOn sep = (text.splitOn sep).modifyHead (front ++ ·) := by
  induction front with
  | nil =>
    rw [List.nil_append]
    cases text.splitOn sep <;> rfl
  | cons c front ih =>
    rw [List.mem_cons, not_or] at h
    rw [List.cons_append, List.splitOn_cons_eq_if_modifyHead, if_neg (by simpa using Ne.symm h.1), ih h.2]
    cases text.splitOn sep <;> rfl

theorem not_mem_of_mem_splitOn {sep : α} {text part : List α} (h : part ∈ text.splitOn sep) : sep ∉ part := by
  induction text generalizing part with
  | nil =>
    rw [List.splitOn_nil, List.mem_singleton] at h
    rw [h]
    exact List.not_mem_nil
  | cons c text ih =>
    rw [List.splitOn_cons_eq_if_modifyHead] at h
    split at h
    next =>
      rcases List.mem_cons.mp h with rfl | h
      · exact List.not_mem_nil
      · exact ih h
    next hc =>
      cases hparts : text.splitOn sep with
      | nil => exact absurd hparts (List.splitOn_ne_nil _ _)
      | cons first parts =>
        rw [hparts] at h ih
        rcases List.mem_cons.mp h with rfl | h
        · rw [List.mem_cons, not_or]
          exact ⟨fun heq => hc (by simp [heq]), ih List.mem_cons_self⟩
        · exact ih (List.mem_cons_of_mem _ h)

/-- Splitting goes through an encoding that keeps the separator apart. -/
theorem splitOn_flatMap {f : α → List β} {sep : α} {sep' : β} (hsep : f sep = [sep']) (hother : ∀ c, c ≠ sep → sep' ∉ f c)
    (text : List α) : (text.flatMap f).splitOn sep' = (text.splitOn sep).map (List.flatMap f) := by
  induction text with
  | nil => rfl
  | cons c text ih =>
    rw [List.flatMap_cons, List.splitOn_cons_eq_if_modifyHead]
    by_cases hc : c = sep
    · subst hc
      rw [if_pos (by simp), hsep, List.singleton_append, List.splitOn_cons_eq_if_modifyHead, if_pos (by simp), ih]
      rfl
    · rw [if_neg (by simpa using hc), splitOn_append_of_not_mem (hother c hc), ih]
      cases text.splitOn sep <;> rfl

end Split

/-! ## UTF-8 -/

def utf8Bytes (text : List Char) : List UInt8 := text.flatMap String.utf8EncodeChar

/-- A byte of a character is the character itself, or it is 128 at least. -/
theorem utf8EncodeChar_byte {c : Char} {byte : UInt8} (h : byte ∈ String.utf8EncodeChar c) :
    byte.toNat = c.toNat ∨ 0x80 ≤ byte.toNat := by
  rw [String.utf8EncodeChar.eq_def] at h
  dsimp only at h
  have hval : c.val.toNat = c.toNat := rfl
  split_ifs at h with h1 h2 h3
  · rw [List.mem_singleton] at h
    subst h
    left
    rw [UInt8.toNat_ofNat', hval]
    omega
  all_goals
    right
    simp only [List.mem_cons, List.not_mem_nil, or_false] at h
    rcases h with rfl | h
    · rw [UInt8.toNat_ofNat']
      omega
  · subst h
    rw [UInt8.toNat_ofNat']
    omega
  · rcases h with rfl | rfl <;> rw [UInt8.toNat_ofNat'] <;> omega
  · rcases h with rfl | rfl | rfl <;> rw [UInt8.toNat_ofNat'] <;> omega

namespace UrlEncoded

/-- The state of the decoder: the bytes still needed, what is read of the code point, the bounds of the next byte. -/
structure Decoder where
  needed : ℕ
  codePoint : ℕ
  lower : UInt8
  upper : UInt8

def Decoder.initial : Decoder := ⟨0, 0, 0x80, 0xbf⟩

/-- A byte at the start of a character. -/
def startByte (byte : UInt8) : List Char × Decoder :=
  if byte ≤ 0x7f then ([.ofNat byte.toNat], .initial)
  else if 0xc2 ≤ byte ∧ byte ≤ 0xdf then ([], ⟨1, byte.toNat % 0x20, 0x80, 0xbf⟩)
  else if 0xe0 ≤ byte ∧ byte ≤ 0xef then
    ([], ⟨2, byte.toNat % 0x10, if byte = 0xe0 then 0xa0 else 0x80, if byte = 0xed then 0x9f else 0xbf⟩)
  else if 0xf0 ≤ byte ∧ byte ≤ 0xf4 then
    ([], ⟨3, byte.toNat % 8, if byte = 0xf0 then 0x90 else 0x80, if byte = 0xf4 then 0x8f else 0xbf⟩)
  else (['\ufffd'], .initial)

/-- A byte that breaks a character off is read again as a first byte. -/
def Decoder.feed (decoder : Decoder) (byte : UInt8) : List Char × Decoder :=
  if decoder.needed = 0 then startByte byte
  else if decoder.lower ≤ byte ∧ byte ≤ decoder.upper then
    if decoder.needed = 1 then ([.ofNat (decoder.codePoint * 0x40 + byte.toNat % 0x40)], .initial)
    else ([], ⟨decoder.needed - 1, decoder.codePoint * 0x40 + byte.toNat % 0x40, 0x80, 0xbf⟩)
  else ('\ufffd' :: (startByte byte).1, (startByte byte).2)

def Decoder.decode (decoder : Decoder) : List UInt8 → List Char
  | [] => if decoder.needed = 0 then [] else ['\ufffd']
  | byte :: bytes => (decoder.feed byte).1 ++ (decoder.feed byte).2.decode bytes

/-- UTF-8 decode without BOM. -/
def decodeWithoutBom (bytes : List UInt8) : List Char := Decoder.initial.decode bytes

/-! ## The parser -/

def hexByteValue (byte : UInt8) : Option ℕ :=
  if 0x30 ≤ byte ∧ byte ≤ 0x39 then some (byte.toNat - 0x30)
  else if 0x41 ≤ byte ∧ byte ≤ 0x46 then some (byte.toNat - 0x37)
  else if 0x61 ≤ byte ∧ byte ≤ 0x66 then some (byte.toNat - 0x57)
  else none

/-- Two hexadecimal digits behind a percent sign. -/
def escapedByte : List UInt8 → Option UInt8
  | high :: low :: _ => do
    let h ← hexByteValue high
    let l ← hexByteValue low
    return .ofNat (h * 16 + l)
  | _ => none

def percentDecode : List UInt8 → List UInt8
  | [] => []
  | byte :: bytes =>
    if byte = 0x25 then
      match escapedByte bytes with
      | some value => value :: percentDecode (bytes.drop 2)
      | none => byte :: percentDecode bytes
    else byte :: percentDecode bytes
termination_by bytes => bytes.length
decreasing_by
  all_goals
    simp only [List.length_drop, List.length_cons]
    omega

/-- A name or a value. -/
def component (bytes : List UInt8) : List Char :=
  decodeWithoutBom (percentDecode (bytes.map fun byte => if byte = 0x2b then 0x20 else byte))

def nameBytes (piece : List UInt8) : List UInt8 := piece.takeWhile (· ≠ 0x3d)

def valueBytes (piece : List UInt8) : List UInt8 := (piece.dropWhile (· ≠ 0x3d)).drop 1

/-- An empty piece has no pair. -/
def pair (piece : List UInt8) : Option (List Char × List Char) :=
  if piece = [] then none else some (component (nameBytes piece), component (valueBytes piece))

def parse (bytes : List UInt8) : List (List Char × List Char) := (bytes.splitOn 0x26).filterMap pair

/-- A leading question mark is no part of a query. -/
def dropQuestionMark (text : List Char) : List Char := if text.head? = some '?' then text.tail else text

/-- The entries of `new URLSearchParams(text)`. -/
def entries (text : List Char) : List (List Char × List Char) := parse (utf8Bytes (dropQuestionMark text))

/-! ## Laws -/

theorem splitOn_utf8Bytes (text : List Char) : (utf8Bytes text).splitOn 0x26 = (text.splitOn '&').map utf8Bytes := by
  have hsep : String.utf8EncodeChar '&' = [0x26] := rfl
  refine splitOn_flatMap hsep ?_ text
  intro c hc hmem
  rcases utf8EncodeChar_byte hmem with hbyte | hlarge
  · exact hc (Char.toNat_inj.mp hbyte.symm)
  · exact absurd hlarge (by decide)

theorem component_nil : component [] = [] := by
  rw [component, List.map_nil, percentDecode.eq_def]
  rfl

/-- A character below 128 that is neither a plus nor a percent sign stands for itself. -/
theorem component_cons {byte : UInt8} (hascii : byte ≤ 0x7f) (hplus : byte ≠ 0x2b) (hpercent : byte ≠ 0x25)
    (bytes : List UInt8) : component (byte :: bytes) = .ofNat byte.toNat :: component bytes := by
  rw [component, List.map_cons, if_neg hplus, percentDecode.eq_def]
  dsimp only
  have hneeded : Decoder.initial.needed = 0 := rfl
  rw [if_neg hpercent, decodeWithoutBom, Decoder.decode, Decoder.feed, if_pos hneeded, startByte, if_pos hascii]
  rfl

/-- A text without an ampersand is one piece. -/
theorem entries_piece {text : List Char} (h : '&' ∉ text) : entries text = (pair (utf8Bytes (dropQuestionMark text))).toList := by
  have hpiece : '&' ∉ dropQuestionMark text := by
    rw [dropQuestionMark]
    split
    · exact fun hmem => h (List.mem_of_mem_tail hmem)
    · exact h
  rw [entries, parse, splitOn_utf8Bytes, List.splitOn_eq_singleton hpiece]
  cases hpair : pair (utf8Bytes (dropQuestionMark text)) <;> simp [hpair]

end UrlEncoded

end Dnsid.Foundations

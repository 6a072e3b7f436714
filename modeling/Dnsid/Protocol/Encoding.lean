import Mathlib.Data.Nat.Notation
import Mathlib.Logic.Function.Basic

/-! # Base64 and hexadecimal (`protocol/src/utils.ts`)

`atob` is the forgiving decoder of the platform.
-/
namespace Dnsid.Protocol
set_option autoImplicit false

abbrev Bytes := List UInt8

/-! ## Base64 -/

/-- The six bits of a base64 character. -/
def base64Value (c : Char) : Option ℕ :=
  if 'A' ≤ c ∧ c ≤ 'Z' then some (c.toNat - 65)
  else if 'a' ≤ c ∧ c ≤ 'z' then some (c.toNat - 71)
  else if '0' ≤ c ∧ c ≤ '9' then some (c.toNat + 4)
  else if c = '+' then some 62
  else if c = '/' then some 63
  else none

/-- Four characters give three bytes. One alone is an error; the bits left over after two or three are dropped. -/
def base64Groups : List ℕ → Option Bytes
  | [] => some []
  | [_] => none
  | [a, b] => some [UInt8.ofNat (a * 4 + b / 16)]
  | [a, b, c] => some [UInt8.ofNat (a * 4 + b / 16), UInt8.ofNat (b % 16 * 16 + c / 4)]
  | a :: b :: c :: d :: rest => (base64Groups rest).map fun bytes =>
      UInt8.ofNat (a * 4 + b / 16) :: UInt8.ofNat (b % 16 * 16 + c / 4) :: UInt8.ofNat (c % 4 * 64 + d) :: bytes

/-- At most two padding characters at the end of a text of full groups. -/
def dropPadding (text : List Char) : List Char :=
  if text.length % 4 ≠ 0 then text
  else if text.reverse.take 2 = ['=', '='] then text.dropLast.dropLast
  else if text.reverse.take 1 = ['='] then text.dropLast
  else text

/-- `atob`: ASCII white space is ignored. -/
def atob (text : List Char) : Option Bytes := do
  let spaces : List Char := [' ', '\t', '\n', '\r', '\x0c']
  let values ← (dropPadding (text.filter fun c => !spaces.contains c)).mapM base64Value
  base64Groups values

def fromBase64Url (b64 : List Char) : Option Bytes :=
  let normalized := b64.map fun c => if c = '-' then '+' else if c = '_' then '/' else c
  atob (normalized ++ ['=', '='].take ((4 - normalized.length % 4) % 4))

/-! ## Hexadecimal -/

def hexDigit (n : ℕ) : Char := "0123456789abcdef".toList.getD n '0'

/-- `toString('hex')`. -/
def toHex (bytes : Bytes) : List Char := bytes.flatMap fun b => [hexDigit (b.toNat / 16), hexDigit (b.toNat % 16)]

theorem hexDigit_injective : ∀ m < 16, ∀ n < 16, hexDigit m = hexDigit n → m = n := by decide

theorem toHex_injective : Function.Injective toHex := by
  intro a
  induction a with
  | nil =>
    intro b h
    cases b with
    | nil => rfl
    | cons y b => simp [toHex] at h
  | cons x a ih =>
    intro b h
    cases b with
    | nil => simp [toHex] at h
    | cons y b =>
      simp only [toHex, List.flatMap_cons, List.cons_append, List.nil_append, List.cons.injEq] at h
      have hx := x.toNat_lt
      have hy := y.toNat_lt
      have hhigh := hexDigit_injective _ (by omega) _ (by omega) h.1
      have hlow := hexDigit_injective _ (by omega) _ (by omega) h.2.1
      have hxy : x = y := UInt8.toNat_inj.mp (by omega)
      rw [hxy, ih h.2.2]

end Dnsid.Protocol

import Dnsid.Foundations.ExceptRun
import Dnsid.Protocol.Encoding
import Mathlib.Tactic.Ring

/-! # Signature keys (`protocol/src/jwks.ts`, `protocol/src/utils.ts`)

The algorithm of a JWK, the encoding rules for public keys and `verifyWithKey`. A JWK keeps the members that
`DnsIdJWK` names.

WebCrypto and `importJWK` of the `jose` package are the parameters of `WebCrypto`. A key of WebCrypto carries the
parameters it was imported with, a call gives its own, and `schemeOf` says which signature scheme the two amount to.
-/
namespace Dnsid.Protocol
open Dnsid.Foundations
set_option autoImplicit false

/-- The members that hold the key itself. -/
structure KeyMaterial where
  kty : String
  crv : Option String := none
  x : Option String := none
  y : Option String := none
  n : Option String := none
  e : Option String := none
  deriving DecidableEq

structure SignatureJwk extends KeyMaterial where
  kid : String := ""
  alg : Option String := none
  use : Option String := none
  deriving DecidableEq

inductive KeyError where
  | validationError (message : String)
  | argumentError (message : String)
  | verificationError (message : String)
  | runtime
  deriving DecidableEq, Repr

def KeyError.message : KeyError → String
  | .validationError message | .argumentError message | .verificationError message => message
  | .runtime => "TypeError"

/-! ## The algorithm of a key -/

def signingAlgs : List String :=
  ["EdDSA", "ES256", "ES384", "ES512", "RS256", "RS384", "RS512", "PS256", "PS384", "PS512"]

/-- `key.kid ? before + key.kid : ''`. -/
def kidSuffix (before kid : String) : String := if kid = "" then "" else before ++ kid

def derivedSignatureAlg (key : SignatureJwk) : Except KeyError String :=
  if key.kty = "OKP" ∧ key.crv = some "Ed25519" then .ok "EdDSA"
  else if key.kty = "EC" ∧ key.crv = some "P-256" then .ok "ES256"
  else if key.kty = "EC" ∧ key.crv = some "P-384" then .ok "ES384"
  else if key.kty = "EC" ∧ key.crv = some "P-521" then .ok "ES512"
  else .error (.validationError ("unsupported JWK signature key type" ++ kidSuffix ": " key.kid))

def isAlgConsistentWithKey (alg : String) (key : SignatureJwk) : Bool :=
  if key.kty = "OKP" then key.crv = some "Ed25519" && alg = "EdDSA"
  else if key.kty = "EC" then
    (key.crv = some "P-256" && alg = "ES256") || (key.crv = some "P-384" && alg = "ES384") ||
      (key.crv = some "P-521" && alg = "ES512")
  else if key.kty = "RSA" then ["RS256", "RS384", "RS512", "PS256", "PS384", "PS512"].contains alg
  else false

def jwkSignatureAlg (key : SignatureJwk) : Except KeyError String := do
  let use := key.use.getD "sig"
  throwIf (use ≠ "sig")
    (.validationError ("JWK use is not valid for signing" ++ kidSuffix " for " key.kid ++ ": " ++ use))
  match key.alg with
  | some alg =>
    throwIf (alg ∉ signingAlgs) (.validationError ("unsupported JWK alg" ++ kidSuffix " for " key.kid ++ ": " ++ alg))
    throwIf (!isAlgConsistentWithKey alg key)
      (.validationError ("JWK alg is inconsistent with kty/crv" ++ kidSuffix " for " key.kid ++ ": " ++ alg))
    return alg
  | none => derivedSignatureAlg key

/-! ## WebCrypto -/

/-- Parameters of an import, a signature or a verification. -/
structure AlgorithmParams where
  name : String
  hash : Option String := none
  namedCurve : Option String := none
  saltLength : Option ℕ := none
  deriving DecidableEq

/-- A signature scheme with all that it depends on. -/
structure Scheme where
  name : String
  hash : Option String
  namedCurve : Option String
  saltLength : Option ℕ
  deriving DecidableEq

/-- ECDSA takes the hash from the call and the curve from the key, the RSA schemes take the hash from the key. A call
for another algorithm than that of the key fails. -/
def schemeOf (key call : AlgorithmParams) : Option Scheme :=
  if key.name ≠ call.name then none
  else if key.name = "Ed25519" then some ⟨key.name, none, none, none⟩
  else if key.name = "ECDSA" then some ⟨key.name, call.hash, key.namedCurve, none⟩
  else if key.name = "RSASSA-PKCS1-v1_5" then some ⟨key.name, key.hash, none, none⟩
  else if key.name = "RSA-PSS" then some ⟨key.name, key.hash, none, call.saltLength⟩
  else none

structure WebCrypto where
  Private : Type
  Public : Type
  /-- `crypto.subtle.importKey('jwk', …, ['sign'])`: the key in `d` and the other members. -/
  importKey : KeyMaterial → String → AlgorithmParams → Option Private
  /-- `importJWK(key, alg)`: the key, and the parameters it carries. -/
  importJWK : KeyMaterial → String → Option (Public × AlgorithmParams)
  /-- A signature that `crypto.subtle.sign` may return. -/
  Signs : Scheme → Private → Bytes → Bytes → Prop
  verifies : Scheme → Public → Bytes → Bytes → Bool

/-! ## Verification -/

def getVerifyAlgorithm (alg : String) : Option AlgorithmParams :=
  match alg with
  | "ES256" => some { name := "ECDSA", hash := some "SHA-256" }
  | "ES384" => some { name := "ECDSA", hash := some "SHA-384" }
  | "ES512" => some { name := "ECDSA", hash := some "SHA-512" }
  | "EdDSA" => some { name := "Ed25519" }
  | "RS256" => some { name := "RSASSA-PKCS1-v1_5", hash := some "SHA-256" }
  | "RS384" => some { name := "RSASSA-PKCS1-v1_5", hash := some "SHA-384" }
  | "RS512" => some { name := "RSASSA-PKCS1-v1_5", hash := some "SHA-512" }
  | "PS256" => some { name := "RSA-PSS", saltLength := some 32 }
  | "PS384" => some { name := "RSA-PSS", saltLength := some 48 }
  | "PS512" => some { name := "RSA-PSS", saltLength := some 64 }
  | _ => none

def ed25519SmallOrder : List (List Char) := [
  "0100000000000000000000000000000000000000000000000000000000000000".toList,
  "0100000000000000000000000000000000000000000000000000000000000080".toList,
  "ecffffffffffffffffffffffffffffffffffffffffffffffffffffffffffff7f".toList,
  "ecffffffffffffffffffffffffffffffffffffffffffffffffffffffffffffff".toList,
  "0000000000000000000000000000000000000000000000000000000000000000".toList,
  "0000000000000000000000000000000000000000000000000000000000000080".toList,
  "26e8958fc2b227b045c3f489f2ef98f0d5dfac05d3c63339b13802886d53fc05".toList,
  "26e8958fc2b227b045c3f489f2ef98f0d5dfac05d3c63339b13802886d53fc85".toList,
  "c7176a703d4dd84fba3c0b760d10670f2a2053fa2c39ccc64ec7fd7792ac037a".toList,
  "c7176a703d4dd84fba3c0b760d10670f2a2053fa2c39ccc64ec7fd7792ac03fa".toList]

/-- `none` for a member that does not decode. -/
def decodeMember : Option String → Option Bytes
  | some text => fromBase64Url text.toList
  | none => some []

/-- The test of the source for `y >= p`. -/
def yAtLeastP (x : Bytes) : Bool :=
  x.getD 31 0 &&& 0x7f = 0x7f && ((x.take 31).drop 1).all (fun b => b = 0xff) && 0xed ≤ x.getD 0 0

/-- `none` when a member does not decode. -/
def publicKeyEncodingValid (key : KeyMaterial) : Option Bool :=
  if key.kty = "EC" then do
    let x ← decodeMember key.x
    if x.length ≠ 32 then return false
    let y ← decodeMember key.y
    return y.length = 32
  else if key.kty ≠ "OKP" then some true
  else do
    let x ← decodeMember key.x
    if x.length ≠ 32 then return false
    return !yAtLeastP x && !ed25519SmallOrder.contains (toHex x)

/-- Everything that throws makes it `false`. -/
def verifyWithKey (W : WebCrypto) (signingInput signature : Bytes) (key : SignatureJwk) (expectedAlg : Option String) :
    Bool :=
  match jwkSignatureAlg key with
  | .error _ => false
  | .ok alg =>
    if expectedAlg.any fun expected => alg ≠ expected then false
    else if publicKeyEncodingValid key.toKeyMaterial ≠ some true then false
    else
      match W.importJWK key.toKeyMaterial alg, getVerifyAlgorithm alg with
      | some (cryptoKey, algorithm), some call =>
        (schemeOf algorithm call).any fun scheme => W.verifies scheme cryptoKey signature signingInput
      | _, _ => false

/-! ## Canonical Ed25519 keys -/

def littleEndian (bytes : Bytes) : ℕ := bytes.foldr (fun b n => b.toNat + 256 * n) 0

/-- The `y` of an encoded point: the sign of `x` is the top bit. -/
def yCoordinate (x : Bytes) : ℕ := littleEndian x % 2 ^ 255

/-- The `y` of the points of order 1, 2, 4 and 8. -/
def smallOrderYs : List ℕ := [1, 2 ^ 255 - 20, 0,
  2707385501144840649318225287225658788936804267575313519463743609750303402022,
  55188659117513257062467267217118295137698188065244968500265048394206261417927]

/-- The encodings that `ed25519SmallOrder` spells. -/
def smallOrderBytes : List Bytes :=
  (smallOrderYs.flatMap fun y => [y, y + 2 ^ 255]).map fun n =>
    (List.range 32).map fun i => UInt8.ofNat (n / 256 ^ i)

theorem littleEndian_append (a b : Bytes) : littleEndian (a ++ b) = littleEndian a + 256 ^ a.length * littleEndian b := by
  induction a with
  | nil => simp [littleEndian]
  | cons x a ih =>
    have hcons : ∀ l, littleEndian (x :: l) = x.toNat + 256 * littleEndian l := fun _ => rfl
    rw [List.cons_append, hcons, hcons, ih, List.length_cons, pow_succ]
    ring

theorem littleEndian_cons (b : UInt8) (bytes : Bytes) : littleEndian (b :: bytes) = b.toNat + 256 * littleEndian bytes :=
  rfl

/-- The bytes that the test asks for are those of the numbers from `p` on. -/
theorem yCoordinate_of_yAtLeastP {x : Bytes} (hlen : x.length = 32) (h : yAtLeastP x = true) :
    2 ^ 255 - 19 ≤ yCoordinate x := by
  cases x with
  | nil => cases hlen
  | cons first rest =>
    have hrest : rest.length = 31 := by simpa using hlen
    obtain ⟨middle, last, rfl⟩ : ∃ middle last, rest = middle ++ [last] :=
      ⟨rest.dropLast, rest.getLast (by rintro rfl; cases hrest), (List.dropLast_append_getLast _).symm⟩
    have hmiddle : middle.length = 30 := by simpa using hrest
    simp only [yAtLeastP, Bool.and_eq_true, decide_eq_true_eq, List.all_eq_true] at h
    obtain ⟨⟨hlast, hall⟩, hfirst⟩ := h
    have hlast' : (first :: (middle ++ [last])).getD 31 0 = last := by
      rw [List.getD_cons_succ, List.getD_eq_getElem?_getD, List.getElem?_append_right (by omega), hmiddle]
      rfl
    have hmid : ((first :: (middle ++ [last])).take 31).drop 1 = middle := by
      rw [List.take_succ_cons, List.drop_succ_cons, List.drop_zero, List.take_append_of_le_length (by omega),
        List.take_of_length_le (by omega)]
    rw [hlast'] at hlast
    rw [hmid] at hall
    have hbits : last.toNat % 128 = 127 := by
      have hnat := congrArg UInt8.toNat hlast
      rw [UInt8.toNat_and] at hnat
      exact (Nat.and_two_pow_sub_one_eq_mod last.toNat 7).symm.trans hnat
    have hones : littleEndian middle = 256 ^ 30 - 1 := by
      rw [List.eq_replicate_iff.mpr ⟨hmiddle, hall⟩]
      decide
    have hhead : 237 ≤ first.toNat := hfirst
    have hvalue : littleEndian (first :: (middle ++ [last])) =
        first.toNat + 256 * (256 ^ 30 - 1 + 256 ^ 30 * last.toNat) := by
      rw [littleEndian_cons, littleEndian_append, hones, hmiddle, littleEndian_cons]
      rfl
    have hbyte := first.toNat_lt
    rw [yCoordinate, hvalue]
    omega

theorem smallOrderBytes_hex : smallOrderBytes.map toHex = ed25519SmallOrder := by
  rw [ed25519SmallOrder]
  repeat rw [String.toList_ofList]
  decide

theorem smallOrderBytes_y : ∀ x ∈ smallOrderBytes, yCoordinate x ∈ smallOrderYs := by decide

theorem yCoordinate_of_smallOrder {x : Bytes} (h : ed25519SmallOrder.contains (toHex x) = true) :
    yCoordinate x ∈ smallOrderYs := by
  rw [List.contains_iff_mem, ← smallOrderBytes_hex] at h
  obtain ⟨bytes, hmem, hhex⟩ := List.mem_map.mp h
  rw [← toHex_injective hhex]
  exact smallOrderBytes_y bytes hmem

end Dnsid.Protocol

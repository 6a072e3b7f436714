import Dnsid.Foundations.Effects
import Dnsid.Protocol.SignatureKeys
import Dnsid.Registry.Submission
import Dnsid.Writer.ReadBack

/-! # What the managed workflows share

Managed issuance and managed rotation (`sdk/src/managed-issuance.ts`, `managed-key-rotation.ts`) keep a durable
state, prepare an entry with the registry, and submit its exact bytes. Here are what they throw, the checks of a
key set (`protocol/src/jwks.ts`) and the runtime they need beyond the writer.
-/
namespace Dnsid.Managed
open Dnsid.Foundations Dnsid.Events Dnsid.Registry Dnsid.Writer
set_option autoImplicit false

structure ManagedPlatform (Bytes : Type) extends WriterPlatform Bytes where
  sha256Hex : Bytes → String
  sha256Hex_nonempty : ∀ bytes, sha256Hex bytes ≠ ""

/-! ## Thrown values -/

/-- `S` is the durable state that the errors of a workflow carry. -/
inductive Cause (S : Type) where
  /-- `VerificationError` with code `LogError`, not transient. -/
  | logError (message : String)
  | writer (error : Thrown)
  | validation (message : String)
  | outside (failure : Failure)
  /-- `VerificationError` with code `LogError`, transient. -/
  | unavailable (message : String) (cause : Cause S)
  | submission (message : String) (state : S) (retryWithSameBytes transient : Bool) (cause : Option (Cause S))
  | activation (message : String) (state : S) (cause : Cause S)

namespace Cause
variable {S : Type}

/-- `VerificationError` and its subclasses have `code`. -/
def codeOf (error : Thrown) : Option String :=
  if error.kind.isC2spTlogError || error.kind = .verificationError then some "LogError" else none

def structuredErrorCode : Cause S → Option String
  | logError _ => some "LogError"
  | writer error => codeOf error
  | validation _ => none
  | outside (.submission error) => some error.code
  | outside (.other _ code _ _ _) => code
  | unavailable .. => some "LogError"
  | submission .. => some "LogError"
  | activation .. => some "LogError"

/-- `cause.retryWithSameBytes`. -/
def retryWithSameBytes? : Cause S → Option Bool
  | outside failure => failure.retryWithSameBytes?
  | submission _ _ retryWithSameBytes _ _ => some retryWithSameBytes
  | _ => none

/-- `cause.retryable === false || cause.state === 'rejected'`. -/
def isRefusal : Cause S → Bool
  | outside (.submission error) => !error.retryable || error.state = .rejected
  | outside (.other _ _ state retryable _) => retryable = some false || state = some "rejected"
  | _ => false

def retryWithSameBytes (cause : Cause S) : Bool := cause.retryWithSameBytes? ≠ some false

def isTerminalFailure (cause : Cause S) : Bool := cause.isRefusal || cause.retryWithSameBytes? = some false

end Cause

/-! ## Key sets -/

/-- A JSON key as the record of its members. -/
def signatureJwk (key : DnsIdJWK) : Protocol.SignatureJwk where
  kty := (key.text? "kty").getD ""
  crv := key.text? "crv"
  x := key.text? "x"
  y := key.text? "y"
  n := key.text? "n"
  e := key.text? "e"
  kid := (key.text? "kid").getD ""
  alg := key.text? "alg"
  use := key.text? "use"

def draft01SigningAlgs : List String := ["EdDSA", "ES256"]

def isSigningUse (key : DnsIdJWK) : Bool := key.get? "use" = none || key.get? "use" = some (.str "sig")

def currentDraft01SigningKey (role : String) (keys : List DnsIdJWK) : Except String DnsIdJWK :=
  match keys.filter isSigningUse with
  | [key] => do
    throwIf ((key.text? "kid").getD "" = "") s!"draft-01 {role} key missing kid"
    throwIf ((key.text? "alg").getD "" = "") s!"draft-01 {role} key missing alg"
    let alg ← (Protocol.jwkSignatureAlg (signatureJwk key)).mapError Protocol.KeyError.message
    throwIf (alg ∉ draft01SigningAlgs) s!"unsupported draft-01 {role} key alg: {alg}"
    return key
  | _ => .error s!"draft-01 {role} JWKS must contain exactly one current signing key"

def currentOperationalSigningKey : List DnsIdJWK → Except String DnsIdJWK := currentDraft01SigningKey "operational"

/-- `new JWKS([key]).validateRecordSigning()`. -/
def validateRecordSigning (key : DnsIdJWK) : Except String Unit := do
  let _ ← currentDraft01SigningKey "record-signing" [key]

/-- `new JWKS([key]).validateOperational()`. -/
def validateOperational (key : DnsIdJWK) : Except String Unit := do
  let _ ← currentOperationalSigningKey [key]

/-- `key.kid` of a validated key. -/
def kidOf (key : DnsIdJWK) : String := (key.text? "kid").getD ""

/-! ## Checks of an answer -/

/-- `Number.isSafeInteger(index) && index >= 0`, with the index as it is printed. -/
def safeIndex (index : Option ℚ) : Option ℕ :=
  index.bind fun q => if isSafeIndex q then some q.num.toNat else none

/-- `options.logReference && reference !== options.logReference`. -/
def referenceDiffers (configured : Option String) (reference : String) : Prop :=
  ∃ lr ∈ configured, lr ≠ "" ∧ reference ≠ lr

instance (configured : Option String) (reference : String) : Decidable (referenceDiffers configured reference) :=
  inferInstanceAs (Decidable (∃ lr ∈ configured, lr ≠ "" ∧ reference ≠ lr))

section Lift
variable {S α : Type}

def liftWriter (x : Except Thrown α) : Except (Cause S) α := x.mapError .writer

def liftKeyCheck (x : Except String α) : Except (Cause S) α := x.mapError .validation

theorem liftWriter_eq_ok {x : Except Thrown α} {a : α} : (liftWriter x : Except (Cause S) α) = .ok a ↔ x = .ok a := by
  cases x <;> simp [liftWriter, Except.mapError]

theorem liftKeyCheck_eq_ok {x : Except String α} {a : α} :
    (liftKeyCheck x : Except (Cause S) α) = .ok a ↔ x = .ok a := by
  cases x <;> simp [liftKeyCheck, Except.mapError]

end Lift

end Dnsid.Managed

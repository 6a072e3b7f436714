import Dnsid.Events.EventCodec

/-! # What the readers throw

Apart from what strict JSON parsing and canonicalization throw, no reader throws a resource failure, the kind
of error that ends the verification of a whole stream.
-/
namespace Dnsid.Events
open Dnsid.Foundations
set_option autoImplicit false

/-- No error of `x` ends verification by its class alone. -/
def Harmless {α : Type} (x : Except Thrown α) : Prop :=
  ErrorsIn (fun thrown => thrown.isResourceFailure = false) x

namespace Harmless
variable {α β : Type}

theorem of_ok (a : α) : Harmless (.ok a : Except Thrown α) := ErrorsIn.of_ok a

theorem of_pure (a : α) : Harmless (pure a : Except Thrown α) := ErrorsIn.of_pure a

theorem of_eq_ok {x : Except Thrown α} {a : α} (h : x = .ok a) : Harmless x := by
  rw [h]
  exact of_ok a

theorem parseError (message : String) : Harmless (.error (.parseError message) : Except Thrown α) :=
  ErrorsIn.of_error rfl

theorem throwIf {c : Prop} [Decidable c] {thrown : Thrown} (h : thrown.isResourceFailure = false) :
    Harmless (throwIf c thrown) := ErrorsIn.throwIf h

theorem orThrow {thrown : Thrown} (h : thrown.isResourceFailure = false) (x : Option α) :
    Harmless (orThrow thrown x) := by
  cases x with
  | none => exact ErrorsIn.of_error h
  | some a => exact of_ok a

theorem bind {x : Except Thrown α} {f : α → Except Thrown β} (hx : Harmless x)
    (hf : ∀ a, Harmless (f a)) : Harmless (x >>= f) := ErrorsIn.bind hx fun a _ => hf a

theorem map {x : Except Thrown α} (f : α → β) (hx : Harmless x) : Harmless (f <$> x) := by
  intro thrown h
  cases x with
  | error thrown' =>
    cases h
    exact hx thrown rfl
  | ok a => cases h

end Harmless

/-! ## Members and signatures -/

theorem asString_harmless (value : Option Json) (name : String) : Harmless (asString value name) := by
  unfold asString
  split
  · split
    · exact .parseError _
    · exact .of_ok _
  · exact .parseError _

theorem asSafeInt_harmless (value : Option Json) (name : String) : Harmless (asSafeInt value name) := by
  unfold asSafeInt
  split
  · split
    · exact .of_ok _
    · exact .parseError _
  · exact .parseError _

theorem dateFromSeconds_harmless (seconds : ℤ) (name : String) :
    Harmless (dateFromSeconds seconds name) := by
  unfold dateFromSeconds
  split
  · exact .of_ok _
  · exact .parseError _

theorem asObject_harmless (value : Option Json) (message : String) :
    Harmless (asObject value (.parseError message)) := .orThrow rfl _

theorem asRevocationReason_harmless (value : Option Json) : Harmless (asRevocationReason value) := by
  unfold asRevocationReason
  split <;> first | exact .of_ok _ | exact .parseError _

theorem parseSignatureValue_harmless (value : Option Json) (name : String) :
    Harmless (parseSignatureValue value name) := by
  unfold parseSignatureValue
  refine .bind (asObject_harmless _ _) fun raw => .bind (.throwIf rfl) fun _ => ?_
  refine .bind (asString_harmless _ _) fun kid => .bind (asString_harmless _ _) fun sig => ?_
  exact .bind (.throwIf rfl) fun _ => .of_pure _

theorem requiredC2spSignatureNames_harmless (type : String) :
    Harmless (requiredC2spSignatureNames type) := by
  unfold requiredC2spSignatureNames
  split <;> first | exact .of_ok _ | exact .parseError _

theorem parseRole_harmless (raw : List (String × Json)) (role : SignatureRole) :
    Harmless (parseRole raw role) := by
  unfold parseRole
  split
  · exact .of_ok _
  · exact .map _ (parseSignatureValue_harmless _ _)

theorem assertAllowedRoles_harmless (raw : List (String × Json)) (allowed : List SignatureRole) :
    Harmless (assertAllowedRoles raw allowed) := by
  unfold assertAllowedRoles
  split
  · exact .parseError _
  · exact .of_ok _

theorem assertAllRoles_harmless (parsed : C2spSignatures) (allowed : List SignatureRole) :
    Harmless (assertAllRoles parsed allowed) := by
  unfold assertAllRoles
  split
  · exact .parseError _
  · exact .of_ok _

theorem parseC2spSignatures_harmless (value : Option Json) (type : String) :
    Harmless (parseC2spSignatures value type) := by
  unfold parseC2spSignatures
  refine .bind (asObject_harmless _ _) fun raw => ?_
  refine .bind (parseRole_harmless _ _) fun ae => .bind (parseRole_harmless _ _) fun op => ?_
  refine .bind (parseRole_harmless _ _) fun prevOp => .bind (parseRole_harmless _ _) fun newOp => ?_
  refine .bind (requiredC2spSignatureNames_harmless _) fun allowed => ?_
  refine .bind (assertAllowedRoles_harmless _ _) fun _ => ?_
  exact .bind (assertAllRoles_harmless _ _) fun _ => .of_pure _

theorem supportedType_harmless (type : String) : Harmless (supportedType type) := .orThrow rfl _

section Codec
variable {Bytes : Type} {P : Platform Bytes}

theorem assertSupportedLifecycleJwk_harmless (key : DnsIdJWK) (name : String) :
    Harmless (assertSupportedLifecycleJwk P key name) := by
  unfold assertSupportedLifecycleJwk
  refine .bind (.throwIf rfl) fun _ => .bind (.throwIf rfl) fun _ => .bind (.throwIf rfl) fun _ => ?_
  split
  · exact .bind (.throwIf rfl) fun _ => .of_pure _
  · split
    · exact .bind (.throwIf rfl) fun _ => .of_pure _
    · exact .parseError _

theorem asJwk_harmless (value : Option Json) (name : String) : Harmless (asJwk P value name) := by
  unfold asJwk
  refine .bind (asObject_harmless _ _) fun jwk => .bind (asString_harmless _ _) fun _ => ?_
  refine .bind (asString_harmless _ _) fun _ => .bind (asString_harmless _ _) fun _ => ?_
  exact assertSupportedLifecycleJwk_harmless _ _

theorem thumbprintOf_harmless (key : DnsIdJWK) : Harmless (thumbprintOf P key) := .orThrow rfl _

/-! ## Envelopes -/

theorem validatePublicField_harmless (e : Json) (name : String) (expected : Option String) :
    Harmless (validatePublicField e name expected) :=
  .bind (.throwIf rfl) fun _ => .throwIf rfl

theorem validatePublicFields_harmless (obj : Json) (context : C2spEventContext) :
    Harmless (validatePublicFields P obj context) := by
  unfold validatePublicFields
  refine .bind (asObject_harmless _ _) fun _ => .bind (.orThrow rfl _) fun fqdn => ?_
  refine .bind (.orThrow rfl _) fun normalized => .bind (.throwIf rfl) fun _ => ?_
  refine .bind (validatePublicField_harmless _ _ _) fun _ => ?_
  refine .bind (validatePublicField_harmless _ _ _) fun _ => ?_
  exact .bind (validatePublicField_harmless _ _ _) fun _ => validatePublicField_harmless _ _ _

theorem issuanceFromEnvelope_harmless (e : Json) (timestamp : ℤ) (domain : String)
    (sigs : C2spSignatures) : Harmless (issuanceFromEnvelope P e timestamp domain sigs) := by
  unfold issuanceFromEnvelope
  refine .bind (asJwk_harmless _ _) fun entityKey => .bind (asJwk_harmless _ _) fun operationalKey => ?_
  refine .bind (thumbprintOf_harmless _) fun _ => .bind (thumbprintOf_harmless _) fun _ => ?_
  refine .bind (.throwIf rfl) fun _ => .bind (.throwIf rfl) fun _ => ?_
  refine .bind (asString_harmless _ _) fun _ => .bind (asString_harmless _ _) fun _ => ?_
  exact .bind (asString_harmless _ _) fun _ => .of_pure _

theorem keyRotationFromEnvelope_harmless (e : Json) (timestamp : ℤ) (domain : String)
    (sigs : C2spSignatures) : Harmless (keyRotationFromEnvelope P e timestamp domain sigs) := by
  unfold keyRotationFromEnvelope
  refine .bind (asJwk_harmless _ _) fun newKey => .bind (.throwIf rfl) fun _ => ?_
  refine .bind (asString_harmless _ _) fun _ => .bind (asString_harmless _ _) fun _ => ?_
  exact .bind (asString_harmless _ _) fun _ => .of_pure _

theorem bodyFromEnvelope_harmless (type : LogEventType) (e : Json) (timestamp : ℤ) (domain : String)
    (sigs : C2spSignatures) : Harmless (bodyFromEnvelope P type e timestamp domain sigs) := by
  cases type with
  | issuance => exact issuanceFromEnvelope_harmless e timestamp domain sigs
  | keyRotation => exact keyRotationFromEnvelope_harmless e timestamp domain sigs
  | revocation => exact .bind (asRevocationReason_harmless _) fun _ => .of_pure _
  | retirement => exact .of_ok _
  | migration =>
    refine .bind (asString_harmless _ _) fun _ => .bind (asString_harmless _ _) fun _ => ?_
    exact .bind (asString_harmless _ _) fun _ => .of_pure _
  | delegation =>
    refine .bind (asString_harmless _ _) fun _ => .bind (asString_harmless _ _) fun _ => ?_
    refine .bind (asSafeInt_harmless _ _) fun _ => ?_
    exact .bind (dateFromSeconds_harmless _ _) fun _ => .of_pure _

theorem c2spEnvelopeToEvent_harmless (obj : Json) : Harmless (c2spEnvelopeToEvent P obj) := by
  unfold c2spEnvelopeToEvent
  refine .bind (asObject_harmless _ _) fun _ => .bind (.throwIf rfl) fun _ => ?_
  refine .bind (.throwIf rfl) fun _ => .bind (asString_harmless _ _) fun typeName => ?_
  refine .bind (supportedType_harmless _) fun type => .bind (asSafeInt_harmless _ _) fun seconds => ?_
  refine .bind (dateFromSeconds_harmless _ _) fun timestamp => .bind (asString_harmless _ _) fun domain => ?_
  refine .bind (parseC2spSignatures_harmless _ _) fun sigs => ?_
  exact bodyFromEnvelope_harmless type obj timestamp domain sigs

/-! ## Entries -/

variable [DecidableEq Bytes]

theorem parseC2spEventEntry_harmless {bytes : Bytes} (hread : Harmless (readEntry P bytes))
    (context : C2spEventContext) : Harmless (parseC2spEventEntry P bytes context) :=
  .bind hread fun obj => .bind (validatePublicFields_harmless obj context) fun _ =>
    c2spEnvelopeToEvent_harmless obj

theorem parseC2spAuthorization_harmless {bytes : Bytes} (hread : Harmless (readEntry P bytes))
    (context : C2spEventContext) : Harmless (parseC2spAuthorization P bytes context) := by
  unfold parseC2spAuthorization
  refine .bind hread fun obj => .bind (validatePublicFields_harmless obj context) fun _ => ?_
  refine .bind (asObject_harmless _ _) fun _ => .bind (.throwIf rfl) fun _ => ?_
  refine .bind (asString_harmless _ _) fun typeName => .bind (supportedType_harmless _) fun type => ?_
  refine .bind (asObject_harmless _ _) fun sigs => .bind (parseSignatureValue_harmless _ _) fun _ => ?_
  exact .bind (asString_harmless _ _) fun _ => .of_pure _

end Codec

end Dnsid.Events

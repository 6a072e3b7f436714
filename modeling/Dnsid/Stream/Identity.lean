import Dnsid.Events.ParsedEvents
import Dnsid.Stream.Lifecycle

/-! # The identity behind a lifecycle

`Identity` is what a lifecycle is about: a status, the accountable entity's key and the operational key in
force. `Identity.after` folds events over it. The replay of the verifier refines this machine: a replay that
returns tracks the identity (`Tracks`), and every event it lets through is `Accepted` by the identity that
the events before it give.
-/
namespace Dnsid.Stream
open Dnsid.Foundations Dnsid.Events
set_option autoImplicit false

inductive AgentStatus where
  | active
  | revoked
  | retired
  deriving DecidableEq, Repr

def AgentStatus.name : AgentStatus → String
  | .active => "ACTIVE"
  | .revoked => "REVOKED"
  | .retired => "RETIRED"

structure Identity where
  status : AgentStatus
  entityKey : DnsIdJWK
  operationalKey : DnsIdJWK
  deriving DecidableEq

namespace Identity

def apply (s : Identity) (event : LogEvent) : Identity :=
  match event.body with
  | .keyRotation rotation => { s with operationalKey := rotation.newOperationalPublicKey }
  | .revocation _ => { s with status := .revoked }
  | .retirement => { s with status := .retired }
  | _ => s

def after (s : Identity) (events : List LogEvent) : Identity := events.foldl apply s

@[simp] theorem after_nil (s : Identity) : s.after [] = s := rfl

@[simp] theorem after_cons (s : Identity) (event : LogEvent) (events : List LogEvent) :
    s.after (event :: events) = (s.apply event).after events := rfl

theorem after_append (s : Identity) (events more : List LogEvent) :
    s.after (events ++ more) = (s.after events).after more := List.foldl_append

@[simp] theorem apply_entityKey (s : Identity) (event : LogEvent) :
    (s.apply event).entityKey = s.entityKey := by
  unfold apply
  split <;> rfl

/-- The entity key never changes. -/
theorem after_entityKey (s : Identity) (events : List LogEvent) :
    (s.after events).entityKey = s.entityKey := by
  induction events generalizing s with
  | nil => rfl
  | cons event events ih => rw [after_cons, ih, apply_entityKey]

theorem apply_genesis (s : Identity) {event : LogEvent}
    (h : event.type = .issuance ∨ event.type = .migration) : s.apply event = s := by
  unfold apply
  cases hbody : event.body <;> simp_all [LogEvent.type, EventBody.type]

theorem apply_operationalKey (s : Identity) {event : LogEvent} (h : event.type ≠ .keyRotation) :
    (s.apply event).operationalKey = s.operationalKey := by
  unfold apply
  cases hbody : event.body <;> simp_all [LogEvent.type, EventBody.type]

end Identity

section Acceptance
variable {Bytes : Type} [DecidableEq Bytes] (P : Platform Bytes)

/-- The signature, over the entry without its `sigs`, verifies under the key. -/
def SignedBy (bytes : Bytes) (signature : String) (key : DnsIdJWK) : Prop :=
  ∃ signed signatureBytes, signedC2spEntryBytes P bytes = .ok signed ∧
    P.fromBase64Url signature = some signatureBytes ∧ P.verifyWithKey signed signatureBytes key = true

/-- Two keys with different thumbprints. -/
def DistinctKeys (a b : DnsIdJWK) : Prop :=
  ∃ ta tb, P.jwkThumbprint a = some ta ∧ P.jwkThumbprint b = some tb ∧ ta ≠ tb

/-- `hash` is the `prev_state_hash` of an event that follows the identity `s`. -/
def Identity.HasStateHash (s : Identity) (domain hash : String) : Prop :=
  ∃ entityThumb operationalThumb, P.jwkThumbprint s.entityKey = some entityThumb ∧
    P.jwkThumbprint s.operationalKey = some operationalThumb ∧
    stateHash P (lifecycleState domain s.status.name entityThumb operationalThumb) = .ok hash

def Timely (options : StreamVerifierOptions) (event : LogEvent) : Prop :=
  ∃ timestamp limit, event.timestamp = some timestamp ∧
    options.checkpointIntegrationTimeMs = some limit ∧ timestamp ≤ limit

/-- The signature members of an event under the identities before and after it. -/
def EventSigned (bytes : Bytes) (event : LogEvent) (before after : Identity) : Prop :=
  match event.body with
  | .issuance _ =>
    (∃ sig, event.sig = some sig ∧ SignedBy P bytes sig after.entityKey) ∧
      ∃ sig, event.operationalCountersig = some sig ∧ SignedBy P bytes sig after.operationalKey
  | .keyRotation rotation =>
    (∃ sig, event.sig = some sig ∧ SignedBy P bytes sig before.operationalKey) ∧
      (∃ sig, event.newOperationalProof = some sig ∧ SignedBy P bytes sig after.operationalKey) ∧
      some (.str rotation.previousOperationalKid) = before.operationalKey.get? "kid"
  | _ =>
    (∃ sig, event.sig = some sig ∧ SignedBy P bytes sig after.entityKey) ∧
      event.signingKid.map Json.str = after.entityKey.get? "kid"

/-- The keys that a genesis event establishes. -/
def GenesisKeys (verifyMigration : Option (LogEvent → Except Thrown MigrationVerificationResult))
    (event : LogEvent) (s : Identity) : Prop :=
  match event.body with
  | .issuance fields =>
    fields.initialEntityPublicKey = some s.entityKey ∧
      fields.initialOperationalPublicKey = some s.operationalKey
  | .migration _ =>
    ∃ callback result, verifyMigration = some callback ∧ callback event = .ok result ∧
      result.entityKey = s.entityKey ∧ result.activeOperationalKey = s.operationalKey
  | _ => False

/-- The entity key is the one the caller trusts, when it names one. -/
def TrustedEntity (signerKey : Option DnsIdJWK) (entityKey : DnsIdJWK) : Prop :=
  ∀ key, signerKey = some key → ∃ thumbprint, P.jwkThumbprint key = some thumbprint ∧
    P.jwkThumbprint entityKey = some thumbprint

structure GenesisAccepted (options : StreamVerifierOptions)
    (verifyMigration : Option (LogEvent → Except Thrown MigrationVerificationResult))
    (item : VerifiedLifecycleEvent Bytes) (s : Identity) : Prop where
  status : s.status = .active
  keys : GenesisKeys verifyMigration item.event s
  seq : item.event.chain.seq = some (.num 0)
  noPrevious : item.event.chain.prevEventId = none ∧ item.event.chain.prevStateHash = none
  timely : Timely options item.event
  supported : SupportedJwk s.entityKey ∧ SupportedJwk s.operationalKey
  distinct : DistinctKeys P s.entityKey s.operationalKey
  trusted : TrustedEntity P options.signerKey s.entityKey
  signed : EventSigned P item.bytes item.event s s

/-- The new operational key of a rotation. -/
structure RotationAccepted (s : Identity) (rotation : KeyRotationEvent) : Prop where
  supported : SupportedJwk rotation.newOperationalPublicKey
  thumbprint : P.jwkThumbprint rotation.newOperationalPublicKey = some rotation.newOperationalThumbprint
  previous : P.jwkThumbprint s.operationalKey = some rotation.previousOperationalThumbprint
  notActive : rotation.newOperationalThumbprint ≠ rotation.previousOperationalThumbprint
  notEntity : DistinctKeys P s.entityKey rotation.newOperationalPublicKey

/-- What makes `item` the next event after `prev`, for the identity `s` that the events before give. -/
structure Accepted (options : StreamVerifierOptions) (domain : String)
    (prev : VerifiedLifecycleEvent Bytes) (s : Identity) (item : VerifiedLifecycleEvent Bytes) :
    Prop where
  status : s.status = .active
  type : item.event.type ≠ .issuance ∧ item.event.type ≠ .migration
  timely : Timely options item.event
  seq : ∃ seq, nextSeq prev.event.chain.seq = some seq ∧ item.event.chain.seq = some seq
  prevEventId : ∃ signed, signedC2spEntryBytes P prev.bytes = .ok signed ∧
    item.event.chain.prevEventId = some (.str (c2spEventId P signed))
  prevStateHash : ∃ hash, s.HasStateHash P domain hash ∧
    item.event.chain.prevStateHash = some (.str hash)
  signed : EventSigned P item.bytes item.event s (s.apply item.event)
  rotation : ∀ r, item.event.body = .keyRotation r → RotationAccepted P s r
  reason : listedReason item.event.body = true

/-- Events that one after the other are accepted by the identity reached so far. -/
inductive Continues (options : StreamVerifierOptions) (domain : String) :
    VerifiedLifecycleEvent Bytes → Identity → List (VerifiedLifecycleEvent Bytes) → Prop
  | nil (prev : VerifiedLifecycleEvent Bytes) (s : Identity) : Continues options domain prev s []
  | cons {prev item : VerifiedLifecycleEvent Bytes} {s : Identity}
      {rest : List (VerifiedLifecycleEvent Bytes)} (head : Accepted P options domain prev s item)
      (tail : Continues options domain item (s.apply item.event) rest) :
      Continues options domain prev s (item :: rest)

/-- The replay's variables hold the identity. -/
structure Tracks (domain : String) (item : VerifiedLifecycleEvent Bytes) (s : Identity)
    (st : Replay Bytes) : Prop where
  terminal : st.terminal = decide (s.status ≠ .active)
  entityKey : st.entityKey = some s.entityKey
  operationalKey : st.activeOperationalKey = some s.operationalKey
  previous : st.previous = some item
  state : ∃ entityThumb operationalThumb, P.jwkThumbprint s.entityKey = some entityThumb ∧
    P.jwkThumbprint s.operationalKey = some operationalThumb ∧
    st.prevState = lifecycleState domain s.status.name entityThumb operationalThumb

end Acceptance

end Dnsid.Stream

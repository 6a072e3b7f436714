import Dnsid.Events.EventCodec

/-! # Replaying a lifecycle (`verifyLifecycle` in `log-c2sp-tlog/src/stream-verifier.ts`)

The loop of `verifyLifecycleWithinBudget` is a fold of `lifecycleStep` over the events; `Replay` holds its
variables, with the event of the turn before (`events[pos - 1]`). The time budget and the abort signal are
taken not to run out. A failure says whether it was the migration callback that threw, which is what the
caller's `migrationVerificationFailed` records.
-/
namespace Dnsid.Stream
open Dnsid.Foundations Dnsid.Events
set_option autoImplicit false

structure VerifiedLifecycleEvent (Bytes : Type) where
  index : ℕ
  leafHash : Bytes
  bytes : Bytes
  event : LogEvent
  deriving DecidableEq

structure MigrationVerificationResult where
  entityKey : DnsIdJWK
  activeOperationalKey : DnsIdJWK
  priorHistory : List LogEvent
  priorHistoryReferences : Option (List String)
  deriving DecidableEq

/-- The callback gets the event; the first argument numbers the calls, for one that does not answer the same
every time. -/
structure StreamVerifierOptions where
  context : C2spEventContext
  signerKey : Option DnsIdJWK
  checkpointIntegrationTimeMs : Option ℤ
  verifyMigration : Option (ℕ → LogEvent → Except Thrown MigrationVerificationResult)

structure LifecycleFailure where
  thrown : Thrown
  migrationVerificationFailed : Bool
  deriving DecidableEq, Repr

/-- A throw of the verifier itself. -/
def ownThrow {α : Type} : Except Thrown α → Except LifecycleFailure α
  | .ok a => .ok a
  | .error thrown => .error ⟨thrown, false⟩

/-- A throw of the callback. -/
def callbackThrow {α : Type} : Except Thrown α → Except LifecycleFailure α
  | .ok a => .ok a
  | .error thrown => .error ⟨thrown, true⟩

/-- A string that is neither `undefined` nor empty. -/
def nonEmpty (text : Option String) : Option String := text.filter (· ≠ "")

/-- The members that `assertC2spIssuanceEvent` makes certain. -/
structure C2spIssuanceEvent where
  initialOperationalKid : String
  initialOperationalAlg : String
  initialOperationalPublicKey : DnsIdJWK
  initialOperationalThumbprint : String
  initialEntityKid : String
  initialEntityAlg : String
  initialEntityPublicKey : DnsIdJWK
  initialEntityThumbprint : String

def assertC2spIssuanceEvent (event : IssuanceEvent) : Except Thrown C2spIssuanceEvent := do
  let missing : Thrown :=
    .verificationErrorOf .invalidIssuance "ISSUANCE is missing c2sp-tlog key metadata"
  let operationalKid ← orThrow missing (nonEmpty event.initialOperationalKid)
  let operationalAlg ← orThrow missing (nonEmpty event.initialOperationalAlg)
  let operationalKey ← orThrow missing (event.initialOperationalPublicKey.filter Json.truthy)
  let operationalThumbprint ← orThrow missing (nonEmpty event.initialOperationalThumbprint)
  let entityKid ← orThrow missing (nonEmpty event.initialEntityKid)
  let entityAlg ← orThrow missing (nonEmpty event.initialEntityAlg)
  let entityKey ← orThrow missing (event.initialEntityPublicKey.filter Json.truthy)
  let entityThumbprint ← orThrow missing (nonEmpty event.initialEntityThumbprint)
  return ⟨operationalKid, operationalAlg, operationalKey, operationalThumbprint, entityKid, entityAlg,
    entityKey, entityThumbprint⟩

/-- The object hashed into `prev_state_hash`. -/
def lifecycleState (domain status entityThumb operationalThumb : String) : Json :=
  .obj [("fqdn", .str domain), ("status", .str status), ("entity_thumb", .str entityThumb),
    ("operational_thumb", .str operationalThumb)]

section Verifier
variable {Bytes : Type} [DecidableEq Bytes] (P : Platform Bytes)

def stateHash (state : Json) : Except Thrown String := do
  let bytes ← P.canonicalBytes state
  return P.labelledHash "dnsid-c2sp-state-v1" bytes

def verifyEventSignature (item : VerifiedLifecycleEvent Bytes) (signature : String) (key : DnsIdJWK)
    (message : String) : Except Thrown Unit := do
  let signed ← signedC2spEntryBytes P item.bytes
  let signatureBytes ← orThrow (.other "invalid base64url") (P.fromBase64Url signature)
  throwIf (!P.verifyWithKey signed signatureBytes key) ⟨.verificationError, message, none, none⟩

def assertIssuanceKeyMetadata (event : C2spIssuanceEvent) : Except Thrown Unit := do
  let _ ← assertSupportedLifecycleJwk P event.initialOperationalPublicKey "ISSUANCE operational key"
  let _ ← assertSupportedLifecycleJwk P event.initialEntityPublicKey "ISSUANCE entity key"
  let operationalThumbprint ← thumbprintOf P event.initialOperationalPublicKey
  throwIf (event.initialOperationalThumbprint ≠ operationalThumbprint) (.verificationErrorOf
    .invalidIssuance "ISSUANCE operational thumbprint does not match public key")
  let entityThumbprint ← thumbprintOf P event.initialEntityPublicKey
  throwIf (event.initialEntityThumbprint ≠ entityThumbprint) (.verificationErrorOf
    .invalidIssuance "ISSUANCE entity thumbprint does not match public key")
  throwIf (some (.str event.initialOperationalKid) ≠ event.initialOperationalPublicKey.get? "kid" ∨
      some (.str event.initialOperationalAlg) ≠ event.initialOperationalPublicKey.get? "alg")
    (.verificationErrorOf .invalidIssuance "ISSUANCE operational key metadata mismatch")
  throwIf (some (.str event.initialEntityKid) ≠ event.initialEntityPublicKey.get? "kid" ∨
      some (.str event.initialEntityAlg) ≠ event.initialEntityPublicKey.get? "alg")
    (.verificationErrorOf .invalidIssuance "ISSUANCE entity key metadata mismatch")

def assertRotationKeyMetadata (event : KeyRotationEvent) : Except Thrown Unit := do
  let _ ← assertSupportedLifecycleJwk P event.newOperationalPublicKey "KEY_ROTATION new operational key"
  let thumbprint ← thumbprintOf P event.newOperationalPublicKey
  throwIf (event.newOperationalThumbprint ≠ thumbprint) (.verificationErrorOf .keyContinuity
    "KEY_ROTATION new thumbprint does not match public key")
  throwIf (event.newOperationalKid.map Json.str ≠ event.newOperationalPublicKey.get? "kid" ∨
      some (.str event.newOperationalAlg) ≠ event.newOperationalPublicKey.get? "alg")
    (.verificationErrorOf .keyContinuity "KEY_ROTATION new key metadata mismatch")

def assertDistinctLifecycleKeys (entityKey operationalKey : DnsIdJWK) (eventType : LogEventType) :
    Except Thrown Unit := do
  let entityThumbprint ← thumbprintOf P entityKey
  let operationalThumbprint ← thumbprintOf P operationalKey
  throwIf (entityThumbprint = operationalThumbprint) (.verificationErrorOf
    (if eventType = .issuance then .invalidIssuance else .keyContinuity)
    s!"{eventType.name} entity and operational keys must be distinct")

/-- `options.signerKey && await jwkThumbprint(options.signerKey) !== thumbprint`. -/
def assertTrustedEntity (signerKey : Option DnsIdJWK) (thumbprint : String) (eventType : LogEventType) :
    Except Thrown Unit :=
  match signerKey with
  | none => .ok ()
  | some key => do
    let trusted ← thumbprintOf P key
    throwIf (trusted ≠ thumbprint)
      (.verificationError s!"{eventType.name} entity key does not match trusted entity key")

/-- The safe integer that `prevSeq + 1` is taken of. -/
def nextSeq : Option Json → Option Json
  | some (.num q) => if q.den = 1 ∧ (q.num.natAbs : ℤ) ≤ maxSafeInteger then some (.num (q + 1)) else none
  | _ => none

def assertChainFields (event : LogEvent) (prev : VerifiedLifecycleEvent Bytes) (prevState : Json) :
    Except Thrown Unit := do
  let seq ← orThrow (.verificationErrorOf .chainContinuity "invalid seq") (nextSeq prev.event.chain.seq)
  throwIf (event.chain.seq ≠ some seq) (.verificationErrorOf .chainContinuity "invalid seq")
  let signed ← signedC2spEntryBytes P prev.bytes
  throwIf (event.chain.prevEventId ≠ some (.str (c2spEventId P signed)))
    (.verificationErrorOf .chainContinuity "invalid prev_event_id")
  let hash ← stateHash P prevState
  throwIf (event.chain.prevStateHash ≠ some (.str hash))
    (.verificationErrorOf .chainContinuity "invalid prev_state_hash")

def assertFirstChainFields (event : LogEvent) : Except Thrown Unit := do
  throwIf (event.chain.seq ≠ some (.num 0))
    (.verificationErrorOf .chainContinuity "first public lifecycle event must have seq 0")
  throwIf (event.chain.prevEventId ≠ none ∨ event.chain.prevStateHash ≠ none)
    (.verificationErrorOf .chainContinuity
      "first public lifecycle event must not contain previous-chain fields")

def activeState (domain : String) (entityKey operationalKey : DnsIdJWK) (status : String) :
    Except Thrown Json := do
  let entityThumb ← thumbprintOf P entityKey
  let operationalThumb ← thumbprintOf P operationalKey
  return lifecycleState domain status entityThumb operationalThumb

/-- The `status` that `nextState` writes. -/
def statusAfter : LogEventType → String
  | .revocation => "REVOKED"
  | .retirement => "RETIRED"
  | _ => "ACTIVE"

def nextState (previous : Json) (event : LogEvent) (entityKey operationalKey : DnsIdJWK) :
    Except Thrown Json :=
  if event.type = .delegation then .ok previous
  else activeState P event.domain entityKey operationalKey (statusAfter event.type)

/-! ## One turn of the loop -/

structure Replay (Bytes : Type) where
  terminal : Bool
  prevState : Json
  entityKey : Option DnsIdJWK
  activeOperationalKey : Option DnsIdJWK
  previous : Option (VerifiedLifecycleEvent Bytes)
  deriving DecidableEq

def Replay.initial : Replay Bytes := ⟨false, .null, none, none, none⟩

/-- `pos === 0`. -/
def Replay.first (st : Replay Bytes) : Bool := st.previous.isNone

def isTerminal (type : LogEventType) : Bool := type = .revocation || type = .retirement

def assertPosition (st : Replay Bytes) (type : LogEventType) : Except Thrown Unit := do
  throwIf st.terminal (.verificationErrorOf .terminalState "event appears after terminal lifecycle event")
  throwIf (st.first ∧ type ≠ .issuance ∧ type ≠ .migration) (.verificationErrorOf .genesisRequired
    "first lifecycle event must be ISSUANCE or verified MIGRATION")
  throwIf (!st.first ∧ type = .issuance)
    (.verificationErrorOf .duplicateIssuance "duplicate ISSUANCE event")
  throwIf (!st.first ∧ type = .migration)
    (.verificationErrorOf .invalidMigration "MIGRATION must be destination-stream genesis")

def validMigrationFields : EventBody → Bool
  | .migration m =>
    m.previousLog ≠ "" && m.newLog ≠ "" && m.previousLog ≠ m.newLog && m.finalEntryRef ≠ ""
  | _ => true

def assertChain (st : Replay Bytes) (event : LogEvent) : Except Thrown Unit :=
  match st.previous with
  | none => assertFirstChainFields event
  | some prev => assertChainFields P event prev st.prevState

/-- The checks made of every event before its type is looked at; the primary signature. -/
def assertEvent (options : StreamVerifierOptions) (st : Replay Bytes) (event : LogEvent) :
    Except Thrown String := do
  assertPosition st event.type
  let timestamp ← orThrow (.verificationError "invalid lifecycle timestamp") event.timestamp
  throwIf (!validMigrationFields event.body)
    (.verificationErrorOf .invalidMigration "invalid MIGRATION")
  let limit ← orThrow (.verificationError "accepted checkpoint integration time is required")
    options.checkpointIntegrationTimeMs
  throwIf (limit < timestamp)
    (.verificationError "event timestamp is later than checkpoint integration time")
  throwIf (event.chain.eventId ≠ none ∨ event.chain.prevIndex ≠ none ∨ event.chain.prevLeafHash ≠ none)
    (.verificationErrorOf .chainContinuity "prohibited chain field")
  assertChain P st event
  orThrow (.verificationError s!"missing signature for {event.type.name}") (nonEmpty event.sig)

def issuanceStep (options : StreamVerifierOptions) (item : VerifiedLifecycleEvent Bytes) (sig : String)
    (fields : IssuanceEvent) : Except Thrown (Replay Bytes) := do
  let event ← assertC2spIssuanceEvent fields
  assertIssuanceKeyMetadata P event
  let entityKey := event.initialEntityPublicKey
  let activeOperationalKey := event.initialOperationalPublicKey
  assertDistinctLifecycleKeys P entityKey activeOperationalKey .issuance
  assertTrustedEntity P options.signerKey event.initialEntityThumbprint .issuance
  verifyEventSignature P item sig entityKey "invalid ISSUANCE entity signature"
  let countersig ← orThrow (.verificationError "ISSUANCE missing operational countersignature")
    (nonEmpty item.event.operationalCountersig)
  verifyEventSignature P item countersig activeOperationalKey
    "invalid ISSUANCE operational countersignature"
  return ⟨false, lifecycleState item.event.domain "ACTIVE" event.initialEntityThumbprint
    event.initialOperationalThumbprint, some entityKey, some activeOperationalKey, some item⟩

/-- What follows the callback's answer. -/
def migratedStep (options : StreamVerifierOptions) (item : VerifiedLifecycleEvent Bytes) (sig : String)
    (migrated : MigrationVerificationResult) : Except Thrown (Replay Bytes) := do
  let entityKey := migrated.entityKey
  let activeOperationalKey := migrated.activeOperationalKey
  let _ ← assertSupportedLifecycleJwk P entityKey "MIGRATION entity key"
  let _ ← assertSupportedLifecycleJwk P activeOperationalKey "MIGRATION operational key"
  assertDistinctLifecycleKeys P entityKey activeOperationalKey .migration
  let thumbprint ← thumbprintOf P entityKey
  assertTrustedEntity P options.signerKey thumbprint .migration
  throwIf (item.event.signingKid.map Json.str ≠ entityKey.get? "kid")
    (.verificationError "MIGRATION signature kid does not match entity key")
  verifyEventSignature P item sig entityKey "invalid MIGRATION entity signature"
  let state ← activeState P item.event.domain entityKey activeOperationalKey "ACTIVE"
  return ⟨false, state, some entityKey, some activeOperationalKey, some item⟩

def migrationStep (options : StreamVerifierOptions)
    (verifyMigration : Option (LogEvent → Except Thrown MigrationVerificationResult))
    (item : VerifiedLifecycleEvent Bytes) (sig : String) (fields : MigrationEvent) :
    Except LifecycleFailure (Replay Bytes) := do
  let callback ← ownThrow (orThrow (.verificationErrorOf .invalidMigration
    "MIGRATION requires verified prior-log history") verifyMigration)
  ownThrow (throwIf (options.context.lr.getD "" ≠ "" ∧ some fields.newLog ≠ options.context.lr)
    (.verificationErrorOf .invalidMigration "MIGRATION new_lr does not match the current C2SP stream"))
  let migrated ← callbackThrow (callback item.event)
  ownThrow (migratedStep P options item sig migrated)

def rotationStep (st : Replay Bytes) (item : VerifiedLifecycleEvent Bytes) (sig : String)
    (entityKey activeOperationalKey : DnsIdJWK) (event : KeyRotationEvent) :
    Except Thrown (Replay Bytes) := do
  let activeThumbprint ← thumbprintOf P activeOperationalKey
  throwIf (event.previousOperationalThumbprint ≠ activeThumbprint ∨
      some (.str event.previousOperationalKid) ≠ activeOperationalKey.get? "kid")
    (.verificationErrorOf .keyContinuity
      "KEY_ROTATION previous operational key does not match active key")
  assertRotationKeyMetadata P event
  throwIf (event.newOperationalThumbprint = activeThumbprint) (.verificationErrorOf .keyContinuity
    "KEY_ROTATION new operational key must differ from active key")
  assertDistinctLifecycleKeys P entityKey event.newOperationalPublicKey .keyRotation
  verifyEventSignature P item sig activeOperationalKey "invalid KEY_ROTATION signature"
  let proof ← orThrow (.verificationError "KEY_ROTATION missing new operational proof of possession")
    (nonEmpty item.event.newOperationalProof)
  verifyEventSignature P item proof event.newOperationalPublicKey
    "invalid KEY_ROTATION new-key proof of possession"
  let state ← nextState P st.prevState item.event entityKey event.newOperationalPublicKey
  return ⟨false, state, some entityKey, some event.newOperationalPublicKey, some item⟩

def listedReason : EventBody → Bool
  | .revocation (.unlisted _) => false
  | _ => true

/-- REVOCATION, RETIREMENT and DELEGATION. -/
def entityStep (st : Replay Bytes) (item : VerifiedLifecycleEvent Bytes) (sig : String)
    (entityKey activeOperationalKey : DnsIdJWK) : Except Thrown (Replay Bytes) := do
  throwIf (item.event.signingKid.map Json.str ≠ entityKey.get? "kid")
    (.verificationError s!"{item.event.type.name} signature kid does not match entity key")
  verifyEventSignature P item sig entityKey s!"invalid {item.event.type.name} entity signature"
  throwIf (!listedReason item.event.body)
    (.verificationErrorOf .invalidEvidence "invalid REVOCATION reason")
  let state ← nextState P st.prevState item.event entityKey activeOperationalKey
  return ⟨isTerminal item.event.type, state, some entityKey, some activeOperationalKey, some item⟩

def continuingStep (st : Replay Bytes) (item : VerifiedLifecycleEvent Bytes) (sig : String) :
    Except Thrown (Replay Bytes) := do
  let missing : Thrown := .verificationError "lifecycle keys were not established by ISSUANCE"
  let entityKey ← orThrow missing st.entityKey
  let activeOperationalKey ← orThrow missing st.activeOperationalKey
  match item.event.body with
  | .keyRotation event => rotationStep P st item sig entityKey activeOperationalKey event
  | _ => entityStep P st item sig entityKey activeOperationalKey

/-- `assertEvent` has already refused a MIGRATION at a later position. -/
def lifecycleStep (options : StreamVerifierOptions)
    (verifyMigration : Option (LogEvent → Except Thrown MigrationVerificationResult))
    (st : Replay Bytes) (item : VerifiedLifecycleEvent Bytes) :
    Except LifecycleFailure (Replay Bytes) := do
  let sig ← ownThrow (assertEvent P options st item.event)
  match item.event.body with
  | .issuance fields => ownThrow (issuanceStep P options item sig fields)
  | .migration fields => migrationStep P options verifyMigration item sig fields
  | _ => ownThrow (continuingStep P st item sig)

def replay (options : StreamVerifierOptions)
    (verifyMigration : Option (LogEvent → Except Thrown MigrationVerificationResult))
    (events : List (VerifiedLifecycleEvent Bytes)) : Except LifecycleFailure (Replay Bytes) :=
  events.foldlM (lifecycleStep P options verifyMigration) .initial

def verifyLifecycle (options : StreamVerifierOptions)
    (verifyMigration : Option (LogEvent → Except Thrown MigrationVerificationResult))
    (events : List (VerifiedLifecycleEvent Bytes)) : Except LifecycleFailure Unit := do
  ownThrow (throwIf (10000 < events.length)
    (.verificationError "lifecycle history exceeds 10000 events"))
  ownThrow (throwIf (events.length = 0)
    (.verificationErrorOf .genesisRequired "lifecycle contains no ISSUANCE event"))
  let _ ← replay P options verifyMigration events

end Verifier

end Dnsid.Stream

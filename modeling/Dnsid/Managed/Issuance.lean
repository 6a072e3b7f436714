import Dnsid.Managed.Workflow

/-! # Managed issuance (`sdk/src/managed-issuance.ts`)

`issueManagedIdentity` and `resumeManagedIssuance` as programs over the effects they await: the durable store, the
registry, the provider of the operational key and the publication. Local work (hashes, parsing, checks of
signatures) is between the effects.
-/
namespace Dnsid.Managed
open Dnsid.Foundations Dnsid.Events Dnsid.Registry Dnsid.Writer
set_option autoImplicit false

/-! ## The durable state -/

inductive ManagedIssuanceSubmission where
  | result (submission : SubmissionResult)
  | indeterminate (entryHash : String) (errorCode : Option String)
  deriving DecidableEq, Repr

namespace ManagedIssuanceSubmission

def entryHash : ManagedIssuanceSubmission → String
  | result submission => submission.entryHash
  | indeterminate entryHash _ => entryHash

def isRejected : ManagedIssuanceSubmission → Bool
  | result submission => submission.state = .rejected
  | indeterminate _ _ => false

/-- The result of an accepted submission. -/
def accepted? : ManagedIssuanceSubmission → Option SubmissionResult
  | result submission => if submission.state = .accepted then some submission else none
  | indeterminate _ _ => none

end ManagedIssuanceSubmission

inductive FailureStage where
  | preparation
  | submission
  deriving DecidableEq, Repr

structure TerminalFailure where
  stage : FailureStage
  errorCode : Option String
  deriving DecidableEq, Repr

structure ManagedIssuanceState (Bytes : Type) where
  domain : String
  governanceId : String
  idempotencyKey : String
  entityKid : String
  entityThumbprint : String
  operationalKid : String
  operationalThumbprint : String
  logReference : Option String
  entryBytes : Option Bytes
  entryHash : Option String
  submission : Option ManagedIssuanceSubmission
  terminalFailure : Option TerminalFailure
  activated : Bool
  deriving DecidableEq

structure IssueManagedIdentityOptions where
  domain : String
  governanceId : String
  entityKey : DnsIdJWK
  idempotencyKey : String
  logReference : Option String

/-- `logReference` is there when `issueManagedIdentity` resumes. -/
structure ResumeManagedIssuanceOptions where
  entityKey : DnsIdJWK
  logReference : Option String

def IssueManagedIdentityOptions.toResume (options : IssueManagedIdentityOptions) :
    ResumeManagedIssuanceOptions := ⟨options.entityKey, options.logReference⟩

/-! ## Effects -/

inductive IssuanceEffect (Bytes : Type) where
  | loadIssuance
  | createIssuance (intent : ManagedIssuanceState Bytes)
  | persistIssuance (issuance : ManagedIssuanceState Bytes)
  | activateAcceptedIssuance (issuance : ManagedIssuanceState Bytes)
  | prepareIssuance (domain idempotencyKey : String)
  | submitPreparedEvent (domain : String) (entryBytes : Bytes) (idempotencyKey : String)
  | signingKey
  /-- What the provider answers while one event is signed. -/
  | operationalKeyProvider

def IssuanceEffect.Answer {Bytes : Type} : IssuanceEffect Bytes → Type
  | loadIssuance => Option (ManagedIssuanceState Bytes)
  | createIssuance _ => Option (ManagedIssuanceState Bytes)
  | persistIssuance _ => Unit
  | activateAcceptedIssuance _ => Unit
  | prepareIssuance _ _ => Bytes
  | submitPreparedEvent _ _ _ => SubmissionResult
  | signingKey => DnsIdJWK
  | operationalKeyProvider => KeyProvider Bytes

/-- A program of the workflow. -/
abbrev IssuanceProg (Bytes α : Type) :=
  Prog (Cause (ManagedIssuanceState Bytes)) (@IssuanceEffect.Answer Bytes) α

section Effects
variable {Bytes : Type}

def loadIssuance : IssuanceProg Bytes (Option (ManagedIssuanceState Bytes)) := .perform IssuanceEffect.loadIssuance

def createIssuance (intent : ManagedIssuanceState Bytes) :
    IssuanceProg Bytes (Option (ManagedIssuanceState Bytes)) := .perform (IssuanceEffect.createIssuance intent)

def persistIssuance (issuance : ManagedIssuanceState Bytes) : IssuanceProg Bytes Unit :=
  .perform (IssuanceEffect.persistIssuance issuance)

def activateAcceptedIssuance (issuance : ManagedIssuanceState Bytes) : IssuanceProg Bytes Unit :=
  .perform (IssuanceEffect.activateAcceptedIssuance issuance)

def prepareIssuance (domain idempotencyKey : String) :
    IssuanceProg Bytes (Except (Cause (ManagedIssuanceState Bytes)) Bytes) :=
  .attempt (IssuanceEffect.prepareIssuance domain idempotencyKey)

def submitPreparedEvent (domain : String) (entryBytes : Bytes) (idempotencyKey : String) :
    IssuanceProg Bytes (Except (Cause (ManagedIssuanceState Bytes)) SubmissionResult) :=
  .attempt (IssuanceEffect.submitPreparedEvent domain entryBytes idempotencyKey)

def signingKey : IssuanceProg Bytes DnsIdJWK := .perform IssuanceEffect.signingKey

def operationalKeyProvider : IssuanceProg Bytes (KeyProvider Bytes) := .perform IssuanceEffect.operationalKeyProvider

end Effects

/-! ## Checks -/

section Issuance
variable {Bytes : Type} [DecidableEq Bytes] (M : ManagedPlatform Bytes)

/-- The part of `trustedKeys` after the provider has answered. -/
def assertTrustedKeys (entityKey operationalKey : DnsIdJWK) :
    Except (Cause (ManagedIssuanceState Bytes)) Unit := do
  liftKeyCheck (validateRecordSigning entityKey)
  liftKeyCheck (validateOperational operationalKey)
  let entityThumbprint ← liftWriter (thumbprintOf M.toPlatform entityKey)
  let operationalThumbprint ← liftWriter (thumbprintOf M.toPlatform operationalKey)
  throwIf (entityThumbprint = operationalThumbprint)
    (.logError "managed ISSUANCE requires distinct entity and operational keys")

def assertPersistedKeys (state : ManagedIssuanceState Bytes) (entityKey operationalKey : DnsIdJWK) :
    Except (Cause (ManagedIssuanceState Bytes)) Unit := do
  let entityThumbprint ← liftWriter (thumbprintOf M.toPlatform entityKey)
  throwIf (state.entityKid ≠ kidOf entityKey ∨ state.entityThumbprint ≠ entityThumbprint)
    (.logError "durable managed ISSUANCE entity key does not match the trusted provider")
  let operationalThumbprint ← liftWriter (thumbprintOf M.toPlatform operationalKey)
  throwIf (state.operationalKid ≠ kidOf operationalKey ∨ state.operationalThumbprint ≠ operationalThumbprint)
    (.logError "durable managed ISSUANCE operational key does not match the trusted provider")

def issuanceContext (state : ManagedIssuanceState Bytes) (entityKey operationalKey : DnsIdJWK) :
    PreparedC2spVerificationContext where
  expectedFqdn := some state.domain
  expectedGovernanceId := some state.governanceId
  entityKey := some entityKey
  operationalKey := some operationalKey
  previousOperationalKey := none

def assertCanonicalEntry (state : ManagedIssuanceState Bytes) (entryBytes : Bytes) (entryHash logReference : String)
    (entityKey operationalKey : DnsIdJWK) : Except (Cause (ManagedIssuanceState Bytes)) Unit := do
  throwIf (M.sha256Hex entryBytes ≠ entryHash)
    (.logError "durable managed ISSUANCE bytes do not match their persisted hash")
  let context := issuanceContext state entityKey operationalKey
  let prepared ← liftWriter (parsePreparedC2spTlogEvent M.toWriterPlatform entryBytes logReference context)
  let canonical ← liftWriter (c2spTlogEntryBytes M.toWriterPlatform prepared context)
  throwIf (canonical ≠ entryBytes)
    (.logError "durable managed ISSUANCE bytes are not the canonical completed entry")

/-- A text that is there and not empty. -/
def present (text : Option String) : Option String := text.filter (· ≠ "")

def verifyPersistedCompletedIssuance (state : ManagedIssuanceState Bytes) (entityKey operationalKey : DnsIdJWK) :
    Except (Cause (ManagedIssuanceState Bytes)) Unit :=
  match state.entryBytes, present state.entryHash, present state.logReference with
  | some entryBytes, some entryHash, some logReference =>
    assertCanonicalEntry M state entryBytes entryHash logReference entityKey operationalKey
  | _, _, _ => .error (.logError "durable managed ISSUANCE is missing exact bytes, hash, or log reference")

def assertSameOperation (state : ManagedIssuanceState Bytes) (domain governanceId idempotencyKey : String) :
    Except (Cause (ManagedIssuanceState Bytes)) Unit :=
  throwIf (state.domain ≠ domain ∨ state.governanceId ≠ governanceId ∨ state.idempotencyKey ≠ idempotencyKey)
    (.logError "a different durable managed ISSUANCE operation already exists")

/-- The checks of `assertAcceptedBinding` made of an accepted submission only. -/
def assertAcceptedResult (issuance : ManagedIssuanceState Bytes) (submission : SubmissionResult) :
    Except (Cause (ManagedIssuanceState Bytes)) Unit :=
  if submission.state = .accepted then do
    let entryBytes ← orThrow (.outside (.error "Cannot read properties of undefined")) issuance.entryBytes
    throwIf (submission.entryHash ≠ M.sha256Hex entryBytes)
      (.logError "accepted entry hash does not match the exact managed ISSUANCE bytes")
    let index ← orThrow (.logError "accepted managed ISSUANCE is missing a valid index") (safeIndex submission.index)
    throwIf (submission.logRef ≠ some (issuance.logReference.getD "undefined" ++ s!"@{index}"))
      (.logError "accepted managed ISSUANCE final log reference does not match its prepared binding")
  else .ok ()

def assertAcceptedBinding (issuance : ManagedIssuanceState Bytes) (submission : SubmissionResult) :
    Except (Cause (ManagedIssuanceState Bytes)) Unit := do
  throwIf (∃ earlier ∈ issuance.submission, earlier.entryHash ≠ "" ∧ submission.entryHash ≠ earlier.entryHash)
    (.logError "registry reconciled a different entry hash for this managed ISSUANCE")
  assertAcceptedResult M issuance submission

/-- The validation of what the registry prepared. -/
def readPreparedIssuance (options : ResumeManagedIssuanceOptions) (context : PreparedC2spVerificationContext)
    (raw : Bytes) : Except (Cause (ManagedIssuanceState Bytes)) (PreparedC2spTlogEvent Bytes) := do
  let prepared ← liftWriter (parsePreparedC2spTlogIssuance M.toWriterPlatform raw context)
  throwIf (referenceDiffers options.logReference prepared.reference.lr)
    (.logError s!"registry preparation returned unexpected log reference {prepared.reference.lr}")
  throwIf (¬ ∃ sigs ∈ prepared.envelope.lookup "sigs", ∃ ae ∈ sigs.get? "ae", ae.truthy = true)
    (.logError "registry ISSUANCE preparation is missing the accountable-entity signature")
  return prepared

/-- Signing and finalizing, with what the provider answers. -/
def completeIssuance (context : PreparedC2spVerificationContext) (prepared : PreparedC2spTlogEvent Bytes)
    (provider : KeyProvider Bytes) : Except (Cause (ManagedIssuanceState Bytes)) (String × Bytes) := do
  let prepared ← liftWriter (signPreparedC2spTlogEvent M.toWriterPlatform prepared .operationalCountersignature
    provider ⟨context, false⟩)
  let entryBytes ← liftWriter (c2spTlogEntryBytes M.toWriterPlatform prepared context)
  return (prepared.reference.lr, entryBytes)

/-! ## The workflow -/

def trustedKeys (entityKey : DnsIdJWK) : IssuanceProg Bytes DnsIdJWK := do
  let operationalKey ← signingKey
  .ofExcept (assertTrustedKeys M entityKey operationalKey)
  return operationalKey

def activate (issuance : ManagedIssuanceState Bytes) : IssuanceProg Bytes (ManagedIssuanceState Bytes) :=
  Prog.tryCatch
    (do
      activateAcceptedIssuance issuance
      let activated := { issuance with activated := true }
      persistIssuance activated
      return activated)
    fun cause => .throw (.activation
      "managed ISSUANCE was accepted, but publication or activation is incomplete; resume this issuance" issuance cause)

/-- The state after `submitPreparedEvent` has thrown. -/
def recoverableState (issuance : ManagedIssuanceState Bytes) (cause : Cause (ManagedIssuanceState Bytes)) :
    ManagedIssuanceState Bytes :=
  if cause.retryWithSameBytes then
    { issuance with
      submission := some (.indeterminate (issuance.entryHash.getD "undefined") cause.structuredErrorCode) }
  else
    { issuance with
      submission := some (.result ⟨.rejected, issuance.entryHash.getD "undefined", none, none,
        cause.structuredErrorCode, none⟩)
      terminalFailure := some ⟨.submission, cause.structuredErrorCode⟩ }

def submissionFailureMessage (sameBytes : Bool) : String :=
  if sameBytes then "managed ISSUANCE submission is indeterminate; retry the same bytes and idempotency key"
  else "managed ISSUANCE submission failed terminally"

/-- After a result that is bound to the submitted bytes. -/
def reconcile (issuance : ManagedIssuanceState Bytes) (submission : SubmissionResult) :
    IssuanceProg Bytes (ManagedIssuanceState Bytes) := do
  .ofExcept (assertAcceptedBinding M issuance submission)
  let reconciled := { issuance with submission := some (.result submission) }
  persistIssuance reconciled
  match submission.state with
  | .rejected => .throw (.submission
      ("registry rejected the prepared ISSUANCE: " ++ submission.errorCode.getD "unknown error")
      reconciled false false none)
  | .pending => return reconciled
  | .accepted => activate reconciled

/-- `submit` from the request on. -/
def submitEntry (issuance : ManagedIssuanceState Bytes) (entryBytes : Bytes) :
    IssuanceProg Bytes (ManagedIssuanceState Bytes) := do
  let answer ← submitPreparedEvent issuance.domain entryBytes issuance.idempotencyKey
  match answer with
  | .ok submission => reconcile M issuance submission
  | .error cause => do
    let recoverable := recoverableState issuance cause
    persistIssuance recoverable
    .throw (.submission (submissionFailureMessage cause.retryWithSameBytes) recoverable
      cause.retryWithSameBytes cause.retryWithSameBytes (some cause))

def submit (options : ResumeManagedIssuanceOptions) (issuance : ManagedIssuanceState Bytes) :
    IssuanceProg Bytes (ManagedIssuanceState Bytes) :=
  match issuance.entryBytes, present issuance.logReference with
  | some entryBytes, some _ => do
    let operationalKey ← trustedKeys M options.entityKey
    .ofExcept (verifyPersistedCompletedIssuance M issuance options.entityKey operationalKey)
    submitEntry M issuance entryBytes
  | _, _ => .throw (.logError "managed ISSUANCE exact bytes are not persisted")

/-- The durable state of a preparation that failed for good. -/
def terminalState (intent : ManagedIssuanceState Bytes) (cause : Cause (ManagedIssuanceState Bytes)) :
    ManagedIssuanceState Bytes :=
  { intent with terminalFailure := some ⟨.preparation, cause.structuredErrorCode⟩ }

def completedState (intent : ManagedIssuanceState Bytes) (completed : String × Bytes) :
    ManagedIssuanceState Bytes :=
  { intent with
    logReference := some completed.1
    entryBytes := some completed.2
    entryHash := some (M.sha256Hex completed.2) }

def failPreparation (intent : ManagedIssuanceState Bytes) (message : String)
    (cause : Cause (ManagedIssuanceState Bytes)) : IssuanceProg Bytes (ManagedIssuanceState Bytes) := do
  let terminal := terminalState intent cause
  persistIssuance terminal
  .throw (.submission message terminal false false (some cause))

def prepareAndSubmit (options : ResumeManagedIssuanceOptions) (intent : ManagedIssuanceState Bytes)
    (operationalKey : DnsIdJWK) : IssuanceProg Bytes (ManagedIssuanceState Bytes) := do
  let answer ← prepareIssuance intent.domain intent.idempotencyKey
  match answer with
  | .error cause =>
    if cause.isTerminalFailure then failPreparation intent "managed ISSUANCE preparation failed terminally" cause
    else .throw (.submission "managed ISSUANCE preparation is unavailable; resume the durable intent" intent
      false true (some cause))
  | .ok raw =>
    let context := issuanceContext intent options.entityKey operationalKey
    match readPreparedIssuance M options context raw with
    | .error cause => failPreparation intent "managed ISSUANCE preparation failed trusted validation" cause
    | .ok prepared => do
      let provider ← operationalKeyProvider
      let completed ← .ofExcept (completeIssuance M context prepared provider)
      persistIssuance (completedState M intent completed)
      submit M options (completedState M intent completed)

def resumeManagedIssuanceState (options : ResumeManagedIssuanceOptions) (issuance : ManagedIssuanceState Bytes)
    (operationalKey : DnsIdJWK) : IssuanceProg Bytes (ManagedIssuanceState Bytes) := do
  .ofExcept (assertPersistedKeys M issuance options.entityKey operationalKey)
  if issuance.activated then return issuance
  else if issuance.terminalFailure.isSome || issuance.submission.any (·.isRejected) then
    .throw (.logError "cannot resume a terminally failed managed ISSUANCE")
  else match issuance.submission.bind (·.accepted?) with
    | some submission => do
      .ofExcept (verifyPersistedCompletedIssuance M issuance options.entityKey operationalKey)
      .ofExcept (assertAcceptedBinding M issuance submission)
      activate issuance
    | none =>
      if issuance.entryBytes.isNone || (present issuance.logReference).isNone then
        prepareAndSubmit M options issuance operationalKey
      else submit M options issuance

/-- `normalizeFQDN(name, true)`. -/
def normalized (name : String) : Except (Cause (ManagedIssuanceState Bytes)) String :=
  orThrow (.writer (.other "invalid FQDN")) (M.normalizeFQDN name)

def issuanceIntent (options : IssueManagedIdentityOptions) (domain governanceId : String) (operationalKey : DnsIdJWK) :
    Except (Cause (ManagedIssuanceState Bytes)) (ManagedIssuanceState Bytes) := do
  let entityThumbprint ← liftWriter (thumbprintOf M.toPlatform options.entityKey)
  let operationalThumbprint ← liftWriter (thumbprintOf M.toPlatform operationalKey)
  return { domain := domain
           governanceId := governanceId
           idempotencyKey := options.idempotencyKey
           entityKid := kidOf options.entityKey
           entityThumbprint := entityThumbprint
           operationalKid := kidOf operationalKey
           operationalThumbprint := operationalThumbprint
           logReference := none
           entryBytes := none
           entryHash := none
           submission := none
           terminalFailure := none
           activated := false }

def issueManagedIdentity (options : IssueManagedIdentityOptions) :
    IssuanceProg Bytes (ManagedIssuanceState Bytes) := do
  let domain ← .ofExcept (normalized M options.domain)
  let governanceId ← .ofExcept (normalized M options.governanceId)
  .ofExcept (throwIf (options.idempotencyKey = "" ∨ isTrimmed options.idempotencyKey = false ∨
      200 < (utf16 options.idempotencyKey).length)
    (.logError "managed ISSUANCE idempotencyKey must contain 1 to 200 characters without surrounding whitespace"))
  let existing ← loadIssuance
  let operationalKey ← trustedKeys M options.entityKey
  match existing with
  | some existing => do
    .ofExcept (assertSameOperation existing domain governanceId options.idempotencyKey)
    resumeManagedIssuanceState M options.toResume existing operationalKey
  | none => do
    let intent ← .ofExcept (issuanceIntent M options domain governanceId operationalKey)
    let raced ← createIssuance intent
    match raced with
    | some raced => do
      .ofExcept (assertSameOperation raced domain governanceId options.idempotencyKey)
      resumeManagedIssuanceState M options.toResume raced operationalKey
    | none => prepareAndSubmit M options.toResume intent operationalKey

def resumeManagedIssuance (options : ResumeManagedIssuanceOptions) :
    IssuanceProg Bytes (ManagedIssuanceState Bytes) := do
  let issuance ← loadIssuance
  match issuance with
  | none => .throw (.logError "no durable managed ISSUANCE operation exists")
  | some issuance => do
    let operationalKey ← trustedKeys M options.entityKey
    resumeManagedIssuanceState M options issuance operationalKey

end Issuance

end Dnsid.Managed

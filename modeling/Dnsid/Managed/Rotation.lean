import Dnsid.Foundations.Custody
import Dnsid.Managed.Workflow

/-! # Managed rotation (`sdk/src/managed-key-rotation.ts`)

`rotateManagedOperationalKey` and `resumeManagedOperationalKeyRotation` as programs over the effects they await: the
durable store, the application's signing, two key providers, the registry and the published identity. Providers have
identities, so that the previous and the target provider can be one; which of the optional methods a provider has is
known without waiting.
-/
namespace Dnsid.Managed
open Dnsid.Foundations Dnsid.Events Dnsid.Registry Dnsid.Writer
set_option autoImplicit false

/-! ## Data -/

abbrev ProviderId := ℕ

structure ProviderMethods where
  activeSigningKey : Bool
  validateKeyGeneration : Bool

structure ManagedKeyRotationResult (Bytes : Type) where
  domain : String
  logReference : String
  previousKid : String
  newKid : String
  previousProviderReference : String
  newProviderReference : String
  previousKey : DnsIdJWK
  previousThumbprint : String
  newThumbprint : String
  entryHash : String
  entryBytes : Bytes
  idempotencyKey : String
  submission : Option SubmissionResult
  activated : Bool
  applicationSigningPaused : Bool
  deriving DecidableEq

/-- `rotation.submission?.state === 'accepted'`. -/
def ManagedKeyRotationResult.isAccepted {Bytes : Type} (rotation : ManagedKeyRotationResult Bytes) : Bool :=
  rotation.submission.any fun submission => submission.state = .accepted

structure RotateManagedOperationalKeyOptions where
  domain : String
  logReference : String
  keyProvider : ProviderId
  previousProviderReference : String
  targetKeyProvider : Option ProviderId
  targetAlgorithm : Option String
  newProviderReference : String
  idempotencyKey : String

/-- `options.targetKeyProvider ?? options.keyProvider`. -/
def RotateManagedOperationalKeyOptions.target (options : RotateManagedOperationalKeyOptions) : ProviderId :=
  options.targetKeyProvider.getD options.keyProvider

structure KeyRotationPreparationRequest where
  previousKeyId : String
  publicKey : DnsIdJWK

/-- What `verifyLocalPublication` has verified; its log reader answers `readEvent`. -/
structure LocalPublication where
  domain : String
  lr : String
  jwks : List DnsIdJWK

/-! ## Effects -/

inductive RotationEffect (Bytes : Type) where
  | persistRotation (rotation : ManagedKeyRotationResult Bytes)
  | setApplicationSigningPaused (paused : Bool)
  | setApplicationSigner (provider : ProviderId) (kid : String)
  | resolveKeyProvider (reference : String)
  | signingKey (provider : ProviderId)
  | activeSigningKey (provider : ProviderId)
  | jwk (provider : ProviderId) (kid : String)
  | listKeyIds (provider : ProviderId)
  | validateKeyGeneration (provider : ProviderId) (algorithm : String)
  | generateKey (provider : ProviderId) (algorithm : String)
  | activate (provider : ProviderId) (kid : String)
  | supersede (provider : ProviderId) (kid : String)
  /-- What the provider answers while one event is signed. -/
  | keyProvider (provider : ProviderId)
  | prepareKeyRotation (domain : String) (request : KeyRotationPreparationRequest) (idempotencyKey : String)
  | submitPreparedEvent (domain : String) (entryBytes : Bytes) (idempotencyKey : String)
  | verifyLocalPublication
  | readEvent (logRef : String)

def RotationEffect.Answer {Bytes : Type} : RotationEffect Bytes → Type
  | persistRotation _ => Unit
  | setApplicationSigningPaused _ => Unit
  | setApplicationSigner _ _ => Unit
  | resolveKeyProvider _ => ProviderId
  | signingKey _ => DnsIdJWK
  | activeSigningKey _ => Option DnsIdJWK
  | jwk _ _ => DnsIdJWK
  | listKeyIds _ => List String
  | validateKeyGeneration _ _ => Unit
  | generateKey _ _ => String
  | activate _ _ => Unit
  | supersede _ _ => Unit
  | keyProvider _ => KeyProvider Bytes
  | prepareKeyRotation _ _ _ => Bytes
  | submitPreparedEvent _ _ _ => SubmissionResult
  | verifyLocalPublication => LocalPublication
  | readEvent _ => LogEvent

abbrev RotationCause (Bytes : Type) := Cause (ManagedKeyRotationResult Bytes)

/-- A program of the workflow. -/
abbrev RotationProg (Bytes α : Type) := Prog (RotationCause Bytes) (@RotationEffect.Answer Bytes) α

namespace Rotation
variable {Bytes : Type}

def persistRotation (rotation : ManagedKeyRotationResult Bytes) : RotationProg Bytes Unit :=
  .perform (RotationEffect.persistRotation rotation)

def setApplicationSigningPaused (paused : Bool) : RotationProg Bytes Unit :=
  .perform (RotationEffect.setApplicationSigningPaused paused)

def setApplicationSigner (provider : ProviderId) (kid : String) : RotationProg Bytes Unit :=
  .perform (RotationEffect.setApplicationSigner provider kid)

def resolveKeyProvider (reference : String) : RotationProg Bytes ProviderId :=
  .perform (RotationEffect.resolveKeyProvider reference)

def signingKey (provider : ProviderId) : RotationProg Bytes DnsIdJWK := .perform (RotationEffect.signingKey provider)

def activeSigningKey (provider : ProviderId) : RotationProg Bytes (Option DnsIdJWK) :=
  .perform (RotationEffect.activeSigningKey provider)

def jwk (provider : ProviderId) (kid : String) : RotationProg Bytes DnsIdJWK :=
  .perform (RotationEffect.jwk provider kid)

def listKeyIds (provider : ProviderId) : RotationProg Bytes (List String) :=
  .perform (RotationEffect.listKeyIds provider)

def validateKeyGeneration (provider : ProviderId) (algorithm : String) : RotationProg Bytes Unit :=
  .perform (RotationEffect.validateKeyGeneration provider algorithm)

def generateKey (provider : ProviderId) (algorithm : String) : RotationProg Bytes String :=
  .perform (RotationEffect.generateKey provider algorithm)

def activate (provider : ProviderId) (kid : String) : RotationProg Bytes Unit :=
  .perform (RotationEffect.activate provider kid)

def supersede (provider : ProviderId) (kid : String) : RotationProg Bytes Unit :=
  .perform (RotationEffect.supersede provider kid)

def keyProvider (provider : ProviderId) : RotationProg Bytes (KeyProvider Bytes) :=
  .perform (RotationEffect.keyProvider provider)

def prepareKeyRotation (domain : String) (request : KeyRotationPreparationRequest) (idempotencyKey : String) :
    RotationProg Bytes Bytes := .perform (RotationEffect.prepareKeyRotation domain request idempotencyKey)

def submitPreparedEvent (domain : String) (entryBytes : Bytes) (idempotencyKey : String) :
    RotationProg Bytes (Except (RotationCause Bytes) SubmissionResult) :=
  .attempt (RotationEffect.submitPreparedEvent domain entryBytes idempotencyKey)

def verifyLocalPublication : RotationProg Bytes LocalPublication := .perform RotationEffect.verifyLocalPublication

def readEvent (logRef : String) : RotationProg Bytes LogEvent := .perform (RotationEffect.readEvent logRef)

/-! ## Checks -/

/-- `!text?.trim()`. -/
def isBlank (text : String) : Bool := text.toList.all isTrimmedChar

def assertOperationReferences (previous next idempotencyKey : String) : Except (RotationCause Bytes) Unit :=
  throwIf (isBlank previous = true ∨ isBlank next = true ∨ idempotencyKey = "" ∨ isTrimmed idempotencyKey = false ∨
      200 < (utf16 idempotencyKey).length)
    (.logError "managed rotation requires provider references and a valid idempotency key")

/-- `${rotation.logReference}@${index}`. -/
def boundLogRef (rotation : ManagedKeyRotationResult Bytes) (index : ℕ) : String :=
  rotation.logReference ++ s!"@{index}"

def rotationContext (domain : String) (previousKey : DnsIdJWK) : PreparedC2spVerificationContext where
  expectedFqdn := some domain
  expectedGovernanceId := none
  entityKey := none
  operationalKey := none
  previousOperationalKey := some previousKey

def savedContext (rotation : ManagedKeyRotationResult Bytes) : PreparedC2spVerificationContext :=
  rotationContext rotation.domain rotation.previousKey

section Checks
variable [DecidableEq Bytes] (M : ManagedPlatform Bytes)

def assertKeyBinding (key : DnsIdJWK) (kid thumbprint : String) : Except (RotationCause Bytes) Unit := do
  liftKeyCheck (validateOperational key)
  let actual ← liftWriter (thumbprintOf M.toPlatform key)
  throwIf (kidOf key ≠ kid ∨ actual ≠ thumbprint) (.logError "saved managed rotation key binding mismatch")

def assertPreparedRotationKey (value thumbprint : Option Json) (expected : DnsIdJWK) :
    Except (RotationCause Bytes) Unit := do
  let members ← orThrow (.logError "registry KEY_ROTATION is missing new_ku") (value.bind Json.members?)
  let actual : DnsIdJWK := .obj members
  let actualThumbprint ← liftWriter (thumbprintOf M.toPlatform actual)
  let expectedThumbprint ← liftWriter (thumbprintOf M.toPlatform expected)
  throwIf (actual.get? "kid" ≠ expected.get? "kid" ∨ actual.get? "alg" ≠ expected.get? "alg" ∨
      actualThumbprint ≠ expectedThumbprint)
    (.logError "registry KEY_ROTATION new key does not match the generated pending key")
  throwIf (thumbprint ≠ some (.str expectedThumbprint))
    (.logError "registry KEY_ROTATION new thumbprint does not match the generated pending key")

/-- The checks of `assertSubmissionMatchesRotation` made of an accepted submission only. -/
def assertAcceptedSubmission (rotation : ManagedKeyRotationResult Bytes) (submission : SubmissionResult) :
    Except (RotationCause Bytes) Unit := do
  throwIf (submission.entryHash ≠ M.sha256Hex rotation.entryBytes)
    (.logError "accepted submission entry hash does not match the exact managed key rotation bytes")
  throwIf (¬ ∃ index ∈ safeIndex submission.index, submission.logRef = some (boundLogRef rotation index))
    (.logError "accepted submission log reference does not match managed rotation")
  throwIf (submission.keyId ≠ some rotation.newKid)
    (.logError "accepted submission key_id does not match the generated pending key")

def assertSubmissionMatchesRotation (rotation : ManagedKeyRotationResult Bytes) (submission : SubmissionResult) :
    Except (RotationCause Bytes) Unit := do
  throwIf (∃ saved ∈ rotation.submission, saved.entryHash ≠ "" ∧ submission.entryHash ≠ "" ∧
      saved.entryHash ≠ submission.entryHash)
    (.logError "registry reconciled a different entry hash for this managed key rotation")
  throwIf (submission.entryHash ≠ rotation.entryHash)
    (.logError "submission entry hash does not match the exact managed key rotation bytes")
  if submission.state = .accepted then assertAcceptedSubmission M rotation submission else .ok ()

/-- The event type, domain and previous thumbprint of a prepared KEY_ROTATION. -/
def isRotationOf (envelope : C2spJsonEvent) (domain previousThumbprint : String) : Prop :=
  envelope.lookup "type" = some (.str "KEY_ROTATION") ∧ envelope.lookup "fqdn" = some (.str domain) ∧
    envelope.lookup "prev_thumb" = some (.str previousThumbprint)

instance (envelope : C2spJsonEvent) (domain previousThumbprint : String) :
    Decidable (isRotationOf envelope domain previousThumbprint) := inferInstanceAs (Decidable (_ ∧ _ ∧ _))

/-- `signatures.role!.name`. -/
def signatureMember (envelope : C2spJsonEvent) (role name : String) : Except (RotationCause Bytes) (Option Json) := do
  let signature ← orThrow (.outside (.error "Cannot read properties of undefined"))
    ((envelope.lookup "sigs").bind (·.get? role))
  return signature.get? name

/-- `event.timestamp.getTime() === ts * 1000`. -/
def timestampMatches (timestamp : Option ℤ) (ts : Option Json) : Bool :=
  match timestamp, ts with
  | some millis, some (.num q) => (millis : ℚ) = q * 1000
  | _, _ => false

/-- The logged event is the one of the saved entry. -/
def assertContinuity (rotation : ManagedKeyRotationResult Bytes) (envelope : C2spJsonEvent) (event : LogEvent) :
    Except (RotationCause Bytes) Unit :=
  match event.body with
  | .keyRotation fields => do
    throwIf (event.domain ≠ rotation.domain ∨ fields.previousOperationalThumbprint ≠ rotation.previousThumbprint ∨
        fields.newOperationalKid ≠ some rotation.newKid ∨ fields.newOperationalThumbprint ≠ rotation.newThumbprint)
      (.logError "accepted managed rotation continuity mismatch")
    let previousKid ← signatureMember envelope "prev_op" "kid"
    let previousSig ← signatureMember envelope "prev_op" "sig"
    let newSig ← signatureMember envelope "new_op" "sig"
    throwIf (event.signingKid.map Json.str ≠ previousKid ∨ event.sig.map Json.str ≠ previousSig ∨
        event.newOperationalProof.map Json.str ≠ newSig ∨
        timestampMatches event.timestamp (envelope.lookup "ts") = false)
      (.logError "accepted managed rotation continuity mismatch")
  | _ => .error (.logError "accepted managed rotation continuity mismatch")

def parseSaved (rotation : ManagedKeyRotationResult Bytes) :
    Except (RotationCause Bytes) (PreparedC2spTlogEvent Bytes) :=
  liftWriter (parsePreparedC2spTlogEvent M.toWriterPlatform rotation.entryBytes rotation.logReference
    (savedContext rotation))

end Checks

/-! ## The workflow -/

section Workflow
variable [DecidableEq Bytes] (M : ManagedPlatform Bytes) (methods : ProviderId → ProviderMethods)

def activeKey (provider : ProviderId) (listedIds : List String) : RotationProg Bytes (Option DnsIdJWK) :=
  if (methods provider).activeSigningKey then activeSigningKey provider
  else if listedIds.isEmpty then return none
  else do
    let key ← signingKey provider
    return some key

/-- The previous provider has no active key left, unless it is the target. -/
def assertSourceInactive (previous target : ProviderId) : RotationProg Bytes Unit :=
  if previous = target then return ()
  else do
    let listedIds ← listKeyIds previous
    let active ← activeKey methods previous listedIds
    .ofExcept (throwIf active.isSome (.logError "superseded source provider still has an active signing key"))

/-- The binding of the previous provider's active key, if there is one. -/
def assertSourceBinding (rotation : ManagedKeyRotationResult Bytes) (same : Bool) (sourceActive : Option DnsIdJWK) :
    Except (RotationCause Bytes) Unit :=
  match sourceActive with
  | none => .ok ()
  | some active =>
    if same && rotation.isAccepted && decide (kidOf active = rotation.newKid) then
      assertKeyBinding M active rotation.newKid rotation.newThumbprint
    else assertKeyBinding M active rotation.previousKid rotation.previousThumbprint

/-- The part of `validateSavedRotation` about the previous key. -/
def validateSource (rotation : ManagedKeyRotationResult Bytes) (previous target : ProviderId)
    (previousIds : List String) (sourceActive : Option DnsIdJWK) : RotationProg Bytes Unit :=
  if previousIds.contains rotation.previousKid then do
    let key ← jwk previous rotation.previousKid
    .ofExcept (assertKeyBinding M key rotation.previousKid rotation.previousThumbprint)
    .ofExcept (assertSourceBinding M rotation (previous = target) sourceActive)
  else
    match rotation.submission with
    | none => .throw (.logError "saved previous key is unavailable without saved acceptance")
    | some submission => do
      .ofExcept (throwIf (submission.state ≠ .accepted)
        (.logError "saved previous key is unavailable without saved acceptance"))
      .ofExcept (assertSubmissionMatchesRotation M rotation submission)
      let active ← signingKey target
      .ofExcept (assertKeyBinding M active rotation.newKid rotation.newThumbprint)
      .ofExcept (throwIf (previous ≠ target ∧ sourceActive.isSome)
        (.logError "superseded source provider still has an active signing key"))

/-- The part of `validateSavedRotation` about the entry. -/
def validateEntry (rotation : ManagedKeyRotationResult Bytes) (next : DnsIdJWK) : Except (RotationCause Bytes) Unit := do
  assertKeyBinding M next rotation.newKid rotation.newThumbprint
  let prepared ← parseSaved M rotation
  throwIf (¬ isRotationOf prepared.envelope rotation.domain rotation.previousThumbprint)
    (.logError "saved managed rotation event binding mismatch")
  assertPreparedRotationKey M (prepared.envelope.lookup "new_ku") (prepared.envelope.lookup "new_thumb") next
  let _ ← liftWriter (c2spTlogEntryBytes M.toWriterPlatform prepared (savedContext rotation))
  match rotation.submission with
  | none => .ok ()
  | some submission => assertSubmissionMatchesRotation M rotation submission

/-- The part of `validateSavedRotation` before the providers are asked. -/
def validateRecord (rotation : ManagedKeyRotationResult Bytes) : Except (RotationCause Bytes) Unit := do
  assertOperationReferences rotation.previousProviderReference rotation.newProviderReference rotation.idempotencyKey
  let domain ← orThrow (.writer (.other "invalid FQDN")) (M.normalizeFQDN rotation.domain)
  throwIf (domain ≠ rotation.domain ∨ M.sha256Hex rotation.entryBytes ≠ rotation.entryHash)
    (.logError "saved managed rotation domain or entry hash mismatch")
  assertKeyBinding M rotation.previousKey rotation.previousKid rotation.previousThumbprint

def validateSavedRotation (rotation : ManagedKeyRotationResult Bytes) (previous target : ProviderId) :
    RotationProg Bytes Unit := do
  .ofExcept (validateRecord M rotation)
  let previousIds ← listKeyIds previous
  let sourceActive ← activeKey methods previous previousIds
  validateSource M rotation previous target previousIds sourceActive
  let next ← jwk target rotation.newKid
  .ofExcept (validateEntry M rotation next)

def verifyAcceptedPublication (rotation : ManagedKeyRotationResult Bytes) : RotationProg Bytes Unit := do
  let verified ← verifyLocalPublication
  .ofExcept (throwIf (verified.domain ≠ rotation.domain ∨ verified.lr ≠ rotation.logReference)
    (.logError "current signed publication does not match managed rotation"))
  let key ← .ofExcept (liftKeyCheck (currentOperationalSigningKey verified.jwks))
  .ofExcept (assertKeyBinding M key rotation.newKid rotation.newThumbprint)
  let prepared ← .ofExcept (parseSaved M rotation)
  let event ← readEvent ((rotation.submission.bind (·.logRef)).getD "undefined")
  .ofExcept (assertContinuity rotation prepared.envelope event)

/-- The first half of `reconcileAcceptedRotation`: the target's new key becomes active. -/
def activateTarget (previous target : ProviderId) (rotation : ManagedKeyRotationResult Bytes) :
    RotationProg Bytes Unit := do
  let active ← signingKey target
  if kidOf active = rotation.newKid then return ()
  else do
    .ofExcept (if previous = target then assertKeyBinding M active rotation.previousKid rotation.previousThumbprint
      else .ok ())
    activate target rotation.newKid

def reconcileAcceptedRotation (previous target : ProviderId) (rotation : ManagedKeyRotationResult Bytes) :
    RotationProg Bytes Unit := do
  activateTarget M previous target rotation
  let active ← signingKey target
  .ofExcept (assertKeyBinding M active rotation.newKid rotation.newThumbprint)
  let listedIds ← listKeyIds previous
  if listedIds.contains rotation.previousKid then supersede previous rotation.previousKid
  else return ()

def activationFailed {α : Type} (message : String) (rotation : ManagedKeyRotationResult Bytes)
    (cause : RotationCause Bytes) : RotationProg Bytes α := .throw (.activation message rotation cause)

/-- The application signs with the target's key again. -/
def resumeSigning (activated : ManagedKeyRotationResult Bytes) :
    RotationProg Bytes (ManagedKeyRotationResult Bytes) := do
  setApplicationSigningPaused false
  let completed := { activated with applicationSigningPaused := false }
  persistRotation completed
  return completed

/-- The signer of the target is restored. -/
def restoreSigner (target : ProviderId) (rotation : ManagedKeyRotationResult Bytes) : RotationProg Bytes Unit := do
  let active ← signingKey target
  .ofExcept (assertKeyBinding M active rotation.newKid rotation.newThumbprint)
  setApplicationSigner target rotation.newKid

def activationMessage : String :=
  "managed key rotation was accepted, but local key activation is incomplete; resume with this rotation state"

/-- `activateRotation` until activation is persisted. -/
def activateKeys (previous target : ProviderId) (rotation : ManagedKeyRotationResult Bytes) :
    RotationProg Bytes (ManagedKeyRotationResult Bytes) := do
  verifyAcceptedPublication M rotation
  reconcileAcceptedRotation M previous target rotation
  assertSourceInactive methods previous target
  let activated := { rotation with activated := true, applicationSigningPaused := true }
  persistRotation activated
  return activated

def activateRotation (previous target : ProviderId) (rotation : ManagedKeyRotationResult Bytes) :
    RotationProg Bytes (ManagedKeyRotationResult Bytes) := do
  let activated ← (activateKeys M methods previous target rotation).tryCatch (activationFailed activationMessage rotation)
  Prog.tryCatch
    (do
      restoreSigner M target activated
      resumeSigning activated)
    (activationFailed activationMessage activated)

def restoreActivatedRotation (previous target : ProviderId) (rotation : ManagedKeyRotationResult Bytes) :
    RotationProg Bytes (ManagedKeyRotationResult Bytes) :=
  Prog.tryCatch
    (do
      assertSourceInactive methods previous target
      restoreSigner M target rotation
      if rotation.applicationSigningPaused then resumeSigning rotation else return rotation)
    (activationFailed ("managed key rotation is activated, but restoring the application signer failed; " ++
      "resume with this rotation state") rotation)

def submissionMessage (sameBytes : Bool) : String :=
  if sameBytes then "managed key rotation submission is unresolved; retry the same bytes and idempotency key"
  else "managed key rotation submission failed terminally"

/-- A result that is bound to the submitted bytes is persisted. -/
def recordSubmission (rotation : ManagedKeyRotationResult Bytes) (submission : SubmissionResult) :
    RotationProg Bytes Unit :=
  Prog.tryCatch
    (do
      .ofExcept (assertSubmissionMatchesRotation M rotation submission)
      persistRotation { rotation with submission := some submission })
    fun cause => .throw (.submission
      "managed rotation acceptance binding or persistence failed; resume this state"
      { rotation with submission := some submission } true true (some cause))

def submitManagedRotation (previous target : ProviderId) (rotation : ManagedKeyRotationResult Bytes) :
    RotationProg Bytes (ManagedKeyRotationResult Bytes) := do
  let answer ← submitPreparedEvent rotation.domain rotation.entryBytes rotation.idempotencyKey
  match answer with
  | .error cause => .throw (.submission (submissionMessage cause.retryWithSameBytes) rotation
      cause.retryWithSameBytes cause.retryWithSameBytes (some cause))
  | .ok submission => do
    recordSubmission M rotation submission
    let next := { rotation with submission := some submission }
    match submission.state with
    | .rejected => .throw (.submission
        ("registry rejected the prepared KEY_ROTATION: " ++ submission.errorCode.getD "unknown error")
        next false false none)
    | .pending => return next
    | .accepted => activateRotation M methods previous target next

/-- The target can generate a key for the algorithm. -/
def assertGeneration (target : ProviderId) (algorithm : String) : RotationProg Bytes Unit :=
  if (methods target).validateKeyGeneration then validateKeyGeneration target algorithm
  else do
    let active ← signingKey target
    .ofExcept (liftKeyCheck (validateOperational active))
    .ofExcept (throwIf (active.text? "alg" ≠ some algorithm)
      (.validation "target provider must validate support for the selected algorithm"))

/-- The checks of the generated key. -/
def assertGenerated (newKey : DnsIdJWK) (algorithm previousThumbprint : String) :
    Except (RotationCause Bytes) String := do
  liftKeyCheck (validateOperational newKey)
  throwIf (newKey.text? "alg" ≠ some algorithm) (.logError "generated key does not use the selected algorithm")
  let newThumbprint ← liftWriter (thumbprintOf M.toPlatform newKey)
  throwIf (newThumbprint = previousThumbprint)
    (.logError "managed KEY_ROTATION requires a distinct pending operational key")
  return newThumbprint

/-- The validation of what the registry prepared. -/
def readPreparedRotation (options : RotateManagedOperationalKeyOptions) (domain : String) (previousKey newKey : DnsIdJWK)
    (previousThumbprint : String) (raw : Bytes) : Except (RotationCause Bytes) (PreparedC2spTlogEvent Bytes) := do
  let prepared ← liftWriter (parsePreparedC2spTlogEvent M.toWriterPlatform raw options.logReference
    (rotationContext domain previousKey))
  throwIf (prepared.envelope.lookup "type" ≠ some (.str "KEY_ROTATION"))
    (.logError ("registry preparation returned " ++ typeText M.toWriterPlatform prepared.envelope ++
      " instead of KEY_ROTATION"))
  throwIf (prepared.envelope.lookup "fqdn" ≠ some (.str domain))
    (.logError "registry KEY_ROTATION fqdn does not match the expected identity")
  throwIf (prepared.envelope.lookup "prev_thumb" ≠ some (.str previousThumbprint))
    (.logError "registry KEY_ROTATION previous thumbprint does not match the active operational key")
  assertPreparedRotationKey M (prepared.envelope.lookup "new_ku") (prepared.envelope.lookup "new_thumb") newKey
  return prepared

def signAs (role : C2spSignerRole) (prepared : PreparedC2spTlogEvent Bytes) (provider : KeyProvider Bytes)
    (context : PreparedC2spVerificationContext) : Except (RotationCause Bytes) (PreparedC2spTlogEvent Bytes) :=
  liftWriter (signPreparedC2spTlogEvent M.toWriterPlatform prepared role provider ⟨context, false⟩)

/-- The entry is signed by both keys and finished. -/
def completeRotation (options : RotateManagedOperationalKeyOptions) (context : PreparedC2spVerificationContext)
    (prepared : PreparedC2spTlogEvent Bytes) : RotationProg Bytes Bytes := do
  let previousProvider ← keyProvider options.keyProvider
  let prepared ← .ofExcept (signAs M .previousOperational prepared previousProvider context)
  let targetProvider ← keyProvider options.target
  let prepared ← .ofExcept (signAs M .newOperational prepared targetProvider context)
  .ofExcept (liftWriter (c2spTlogEntryBytes M.toWriterPlatform prepared context))

/-- The state that is persisted first. -/
def preparedRotation (options : RotateManagedOperationalKeyOptions) (domain : String) (previousKey : DnsIdJWK)
    (newKid previousThumbprint newThumbprint : String) (entryBytes : Bytes) : ManagedKeyRotationResult Bytes where
  domain := domain
  logReference := options.logReference
  previousKid := kidOf previousKey
  newKid := newKid
  previousProviderReference := options.previousProviderReference
  newProviderReference := options.newProviderReference
  previousKey := previousKey
  previousThumbprint := previousThumbprint
  newThumbprint := newThumbprint
  entryHash := M.sha256Hex entryBytes
  entryBytes := entryBytes
  idempotencyKey := options.idempotencyKey
  submission := none
  activated := false
  applicationSigningPaused := true

/-- The new state is persisted and the application stops signing. -/
def persistPaused (rotation : ManagedKeyRotationResult Bytes) : RotationProg Bytes Unit :=
  Prog.tryCatch
    (do
      persistRotation rotation
      setApplicationSigningPaused true)
    fun cause => .throw (.submission "managed rotation persistence or pause failed; resume this state" rotation true true
      (some cause))

def rotateManagedOperationalKey (options : RotateManagedOperationalKeyOptions) :
    RotationProg Bytes (ManagedKeyRotationResult Bytes) := do
  let domain ← .ofExcept (orThrow (.writer (.other "invalid FQDN")) (M.normalizeFQDN options.domain))
  .ofExcept (assertOperationReferences options.previousProviderReference options.newProviderReference
    options.idempotencyKey)
  .ofExcept (throwIf (¬ (options.target = options.keyProvider ↔
      options.previousProviderReference = options.newProviderReference))
    (.validation "provider references must identify the selected previous and target providers"))
  let previousKey ← signingKey options.keyProvider
  .ofExcept (liftKeyCheck (validateOperational previousKey))
  let previousThumbprint ← .ofExcept (liftWriter (thumbprintOf M.toPlatform previousKey))
  let algorithm := options.targetAlgorithm.getD ((previousKey.text? "alg").getD "")
  .ofExcept (throwIf (algorithm ≠ "EdDSA" ∧ algorithm ≠ "ES256") (.validation "unsupported target algorithm"))
  assertGeneration methods options.target algorithm
  let newKid ← generateKey options.target algorithm
  let newKey ← jwk options.target newKid
  let newThumbprint ← .ofExcept (assertGenerated M newKey algorithm previousThumbprint)
  let raw ← (prepareKeyRotation domain ⟨previousThumbprint, newKey⟩ options.idempotencyKey).tryCatch
    fun cause => .throw (.unavailable "managed key rotation preparation is unavailable" cause)
  let prepared ← .ofExcept (readPreparedRotation M options domain previousKey newKey previousThumbprint raw)
  let entryBytes ← completeRotation M options (rotationContext domain previousKey) prepared
  let rotation := preparedRotation M options domain previousKey newKid previousThumbprint newThumbprint entryBytes
  persistPaused rotation
  submitManagedRotation M methods options.keyProvider options.target rotation

/-- The `catch` of a resumed rotation. -/
def recoveryFailed {α : Type} (rotation : ManagedKeyRotationResult Bytes) (cause : RotationCause Bytes) :
    RotationProg Bytes α :=
  match cause with
  | .submission .. => .throw cause
  | .activation .. => .throw cause
  | _ => .throw (.activation "managed rotation recovery failed; signing must remain paused" rotation cause)

/-- The providers of a saved rotation, which is validated with them. -/
def openSaved (rotation : ManagedKeyRotationResult Bytes) : RotationProg Bytes (ProviderId × ProviderId) := do
  .ofExcept (assertOperationReferences rotation.previousProviderReference rotation.newProviderReference
    rotation.idempotencyKey)
  let previous ← resolveKeyProvider rotation.previousProviderReference
  let target ← if rotation.newProviderReference = rotation.previousProviderReference then pure previous
    else resolveKeyProvider rotation.newProviderReference
  validateSavedRotation M methods rotation previous target
  return (previous, target)

/-- An activated rotation was accepted. -/
def assertActivatedSubmission (rotation : ManagedKeyRotationResult Bytes) : Except (RotationCause Bytes) Unit :=
  match rotation.submission with
  | none => .error (.logError "activated rotation has no accepted submission")
  | some submission => do
    throwIf (submission.state ≠ .accepted) (.logError "activated rotation has no accepted submission")
    assertSubmissionMatchesRotation M rotation submission

def assertNotRejected (rotation : ManagedKeyRotationResult Bytes) : Except (RotationCause Bytes) Unit :=
  throwIf (rotation.submission.any (fun submission => submission.state = .rejected) = true)
    (.submission "cannot resume a rejected managed key rotation" rotation false false none)

/-- Signing stops and the state says so; an accepted submission is checked again. -/
def pauseSaved (paused : ManagedKeyRotationResult Bytes) : RotationProg Bytes Unit := do
  setApplicationSigningPaused true
  persistRotation paused
  match paused.submission with
  | some submission =>
    if submission.state = .accepted then .ofExcept (assertSubmissionMatchesRotation M paused submission) else return ()
  | none => return ()

/-- What `resumeManagedOperationalKeyRotation` does before signing stops. -/
def openResumed (rotation : ManagedKeyRotationResult Bytes) : RotationProg Bytes (ProviderId × ProviderId) := do
  let providers ← openSaved M methods rotation
  .ofExcept (if rotation.activated then assertActivatedSubmission M rotation else assertNotRejected rotation)
  return providers

def resumeManagedOperationalKeyRotation (rotation : ManagedKeyRotationResult Bytes) :
    RotationProg Bytes (ManagedKeyRotationResult Bytes) := do
  let (previous, target) ← (openResumed M methods rotation).tryCatch (recoveryFailed rotation)
  if rotation.activated then restoreActivatedRotation M methods previous target rotation
  else do
    let paused := { rotation with applicationSigningPaused := true }
    (pauseSaved M paused).tryCatch (recoveryFailed paused)
    if paused.isAccepted then activateRotation M methods previous target paused
    else submitManagedRotation M methods previous target paused

end Workflow

end Rotation

end Dnsid.Managed

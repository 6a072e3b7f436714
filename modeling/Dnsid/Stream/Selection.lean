import Dnsid.Checkpoint.TrustedStore
import Dnsid.Foundations.Replay
import Dnsid.Stream.Lifecycle

/-! # Selecting the lifecycle of one domain (`verifyStreamLifecycle`)

The loop of `verifyStreamWithinBudget` is a fold of `streamStep` over the entries in index order. `Selection`
holds its variables. `b64url(signedBytes)` is kept as the bytes themselves: the encoding is injective and only
compared. Object identity of the migration event is used by the source to call the callback once per
candidate, so a candidate's answer is kept in `migrationResult` when it is selected.
-/
namespace Dnsid.Stream
open Dnsid.Foundations Dnsid.Events
open Dnsid.Checkpoint (IndexedEntry sortByIndex)
set_option autoImplicit false

/-- What the loop reads of an entry before it looks at its own state. -/
structure Prepared (Bytes : Type) where
  signedBytes : Bytes
  envelope : Json
  deriving DecidableEq

structure AppliedEntry (Bytes : Type) where
  signed : Bytes
  entityKey : Option DnsIdJWK
  operationalKey : Option DnsIdJWK
  deriving DecidableEq

structure Selection (Bytes : Type) where
  selected : List (VerifiedLifecycleEvent Bytes)
  appliedEntries : List (String × AppliedEntry Bytes)
  entityKey : Option DnsIdJWK
  activeOperationalKey : Option DnsIdJWK
  migrationResult : Option MigrationVerificationResult
  deriving DecidableEq

/-- `catch (error)` of the loop: resource failures are rethrown, everything else gives `fallback`. -/
def catchUnlessResource {α : Type} (fallback : α) : Except Thrown α → Except Thrown α
  | .ok a => .ok a
  | .error thrown => if thrown.isResourceFailure then .error thrown else .ok fallback

def thrownOf {α : Type} : Except LifecycleFailure α → Except Thrown α
  | .ok a => .ok a
  | .error failure => .error failure.thrown

section Verifier
variable {Bytes : Type} [DecidableEq Bytes] (P : Platform Bytes)

def Selection.initial : Selection Bytes := ⟨[], [], none, none, none⟩

/-! ## Reading an entry -/

def readCandidate (domain : String) (context : C2spEventContext) (bytes : Bytes) :
    Except Thrown (Option (Prepared Bytes)) := do
  let authorization ← parseC2spAuthorization P bytes context
  if authorization.domain ≠ domain then return none
  else do
    let signedBytes ← signedC2spEntryBytes P bytes
    let envelope ← orThrow (.other "invalid JSON") (P.jsonParse signedBytes)
    return some ⟨signedBytes, envelope⟩

/-- `none` is `continue`. -/
def prepare (domain : String) (context : C2spEventContext) (bytes : Bytes) :
    Except Thrown (Option (Prepared Bytes)) :=
  catchUnlessResource none (readCandidate P domain context bytes)

/-! ## Role signatures -/

def roleKey (envelope : Json) (entityKey operationalKey : Option DnsIdJWK) :
    SignatureRole → Option DnsIdJWK
  | .ae => entityKey
  | .prevOp => operationalKey
  | .op => envelope.get? "ku"
  | .newOp => envelope.get? "new_ku"

def roleVerifies (bytes : Bytes) (key : Option DnsIdJWK) (signature : C2spSignatureValue) :
    Except Thrown Bool := do
  let key ← orThrow (.other "Cannot read properties of undefined") key
  let _ ← assertSupportedLifecycleJwk P key "lifecycle key"
  if some (.str signature.kid) ≠ key.get? "kid" then return false
  else do
    let signed ← signedC2spEntryBytes P bytes
    let signatureBytes ← orThrow (.other "invalid base64url") (P.fromBase64Url signature.sig)
    return P.verifyWithKey signed signatureBytes key

def rolesVerify (bytes : Bytes) (key : SignatureRole → Option DnsIdJWK) :
    List (SignatureRole × C2spSignatureValue) → Except Thrown Bool
  | [] => .ok true
  | (role, signature) :: rest => do
    let ok ← roleVerifies P bytes (key role) signature
    if ok then rolesVerify bytes key rest else return false

/-- A `type` that is no string is in no set of roles. -/
def checkRoleSignatures (bytes : Bytes) (entityKey operationalKey : Option DnsIdJWK) :
    Except Thrown Bool := do
  let envelope ← orThrow (.other "invalid JSON") (P.jsonParse bytes)
  let signatures ← parseC2spSignatures (envelope.get? "sigs") ((envelope.text? "type").getD "")
  rolesVerify P bytes (roleKey envelope entityKey operationalKey) signatures.entries

def hasAllRoleSignatures (bytes : Bytes) (entityKey operationalKey : Option DnsIdJWK) :
    Except Thrown Bool :=
  catchUnlessResource false (checkRoleSignatures P bytes entityKey operationalKey)

/-! ## Genesis -/

def candidateOf (entry : IndexedEntry Bytes) (event : LogEvent) : VerifiedLifecycleEvent Bytes :=
  ⟨entry.index, P.leafHash entry.bytes, entry.bytes, event⟩

/-- `error instanceof C2spTlogVerificationError && error.errorCategory === 'INVALID_MIGRATION'` is passed on;
a resource failure does not get here. -/
def migrationFailure (thrown : Thrown) : Thrown :=
  if thrown.kind ∈ [.c2spTlogVerificationError, .missingC2spConsistencyEvidenceError,
      .c2spCheckpointConsistencyError, .c2spCheckpointStoreError] ∧
      thrown.errorCategory = some .invalidMigration then thrown
  else .verificationErrorOf .invalidMigration "MIGRATION requires verifiable prior-log history"

/-- The `catch` around the genesis check: `some` is the error that ends verification. -/
def genesisFailure (options : StreamVerifierOptions) (type : LogEventType) (failure : LifecycleFailure) :
    Option Thrown :=
  if failure.thrown.isResourceFailure then some failure.thrown
  else if type = .migration ∧ (options.verifyMigration.isNone ∨ failure.migrationVerificationFailed) then
    some (migrationFailure failure.thrown)
  else none

/-- What the callback answered for a MIGRATION genesis. -/
def genesisMigration (options : StreamVerifierOptions) (pos : ℕ) (event : LogEvent) :
    Option MigrationVerificationResult :=
  match event.body with
  | .migration _ => options.verifyMigration.bind fun callback => (callback pos event).toOption
  | _ => none

def genesisEntityKey (event : LogEvent) (migration : Option MigrationVerificationResult) :
    Option DnsIdJWK :=
  match event.body with
  | .issuance fields => fields.initialEntityPublicKey
  | .migration _ => migration.map MigrationVerificationResult.entityKey
  | _ => none

def genesisOperationalKey (event : LogEvent) (migration : Option MigrationVerificationResult) :
    Option DnsIdJWK :=
  match event.body with
  | .issuance fields => fields.initialOperationalPublicKey
  | .migration _ => migration.map MigrationVerificationResult.activeOperationalKey
  | _ => none

def genesisSelection (options : StreamVerifierOptions) (pos : ℕ) (entry : IndexedEntry Bytes)
    (prepared : Prepared Bytes) (event : LogEvent) : Selection Bytes :=
  let migration := genesisMigration options pos event
  let entityKey := genesisEntityKey event migration
  let operationalKey := genesisOperationalKey event migration
  ⟨[candidateOf P entry event],
    [(c2spEventId P prepared.signedBytes, ⟨prepared.signedBytes, entityKey, operationalKey⟩)],
    entityKey, operationalKey, migration⟩

def tryGenesis (options : StreamVerifierOptions) (pos : ℕ) (st : Selection Bytes)
    (entry : IndexedEntry Bytes) (prepared : Prepared Bytes) (event : LogEvent) :
    Except Thrown (Selection Bytes) :=
  match verifyLifecycle P options (options.verifyMigration.map fun callback => callback pos)
      [candidateOf P entry event] with
  | .ok () => .ok (genesisSelection P options pos entry prepared event)
  | .error failure =>
    match genesisFailure options event.type failure with
    | some thrown => .error thrown
    | none => .ok st

def genesisStep (domain : String) (options : StreamVerifierOptions) (pos : ℕ) (st : Selection Bytes)
    (entry : IndexedEntry Bytes) (prepared : Prepared Bytes) : Except Thrown (Selection Bytes) :=
  match parseC2spEventEntry P entry.bytes options.context with
  | .error thrown => if thrown.isResourceFailure then .error thrown else .ok st
  | .ok event =>
    if event.domain ≠ domain then .ok st else tryGenesis P options pos st entry prepared event

/-! ## After genesis -/

/-- The wrapped callback after genesis: the answer for the selected MIGRATION is cached, and a lifecycle that
starts with an ISSUANCE never asks. -/
def cachedMigration (options : StreamVerifierOptions) (result : Option MigrationVerificationResult) :
    Option (LogEvent → Except Thrown MigrationVerificationResult) :=
  options.verifyMigration.map fun callback event =>
    match result with
    | some answer => .ok answer
    | none => callback 0 event

/-- `prior?.entityKey ?? entityKey` and `prior?.operationalKey ?? activeOperationalKey`. -/
def priorEntry (st : Selection Bytes) (prepared : Prepared Bytes) : Option (AppliedEntry Bytes) :=
  (prepared.envelope.text? "prev_event_id").bind fun id => st.appliedEntries.lookup id

def entityAuthority (st : Selection Bytes) (prepared : Prepared Bytes) : Option DnsIdJWK :=
  ((priorEntry st prepared).bind AppliedEntry.entityKey).or st.entityKey

def operationalAuthority (st : Selection Bytes) (prepared : Prepared Bytes) : Option DnsIdJWK :=
  ((priorEntry st prepared).bind AppliedEntry.operationalKey).or st.activeOperationalKey

/-- `if (event.type === 'KEY_ROTATION') activeOperationalKey = event.newOperationalPublicKey`. -/
def operationalKeyAfter (active : Option DnsIdJWK) (event : LogEvent) : Option DnsIdJWK :=
  match event.body with
  | .keyRotation rotation => some rotation.newOperationalPublicKey
  | _ => active

def extendSelection (options : StreamVerifierOptions) (st : Selection Bytes)
    (entry : IndexedEntry Bytes) (prepared : Prepared Bytes) (event : LogEvent) :
    Except Thrown (Selection Bytes) := do
  throwIf (st.entityKey.isNone ∨ st.activeOperationalKey.isNone) (.verificationErrorOf .invalidEvidence
    "lifecycle keys were not established by genesis")
  let selected := st.selected ++ [candidateOf P entry event]
  thrownOf (verifyLifecycle P options (cachedMigration options st.migrationResult) selected)
  let operationalKey := operationalKeyAfter st.activeOperationalKey event
  return { st with
    selected := selected
    activeOperationalKey := operationalKey
    appliedEntries := st.appliedEntries ++
      [(c2spEventId P prepared.signedBytes, ⟨prepared.signedBytes, st.entityKey, operationalKey⟩)] }

def authenticatedStep (domain : String) (options : StreamVerifierOptions) (st : Selection Bytes)
    (entry : IndexedEntry Bytes) (prepared : Prepared Bytes) : Except Thrown (Selection Bytes) :=
  match parseC2spEventEntry P entry.bytes options.context with
  | .error thrown => .error (if thrown.isResourceFailure then thrown
      else .verificationError "authenticated lifecycle candidate is malformed")
  | .ok event =>
    if event.domain ≠ domain then .ok st else extendSelection P options st entry prepared event

def continueStep (domain : String) (options : StreamVerifierOptions) (st : Selection Bytes)
    (entry : IndexedEntry Bytes) (prepared : Prepared Bytes) : Except Thrown (Selection Bytes) :=
  match hasAllRoleSignatures P entry.bytes (entityAuthority st prepared)
      (operationalAuthority st prepared) with
  | .error thrown => .error thrown
  | .ok false => .ok st
  | .ok true => authenticatedStep P domain options st entry prepared

/-! ## The loop -/

/-- An entry that names the domain: a copy of an applied payload, a genesis candidate or a later event. -/
def candidateStep (domain : String) (options : StreamVerifierOptions) (pos : ℕ) (st : Selection Bytes)
    (entry : IndexedEntry Bytes) (prepared : Prepared Bytes) : Except Thrown (Selection Bytes) :=
  match st.appliedEntries.lookup (c2spEventId P prepared.signedBytes) with
  | some applied =>
    if applied.signed ≠ prepared.signedBytes then .error (.verificationError "logical event ID collision")
    else .ok st
  | none =>
    if st.selected = [] then genesisStep P domain options pos st entry prepared
    else continueStep P domain options st entry prepared

def streamStep (domain : String) (options : StreamVerifierOptions) (st : Selection Bytes)
    (turn : IndexedEntry Bytes × ℕ) : Except Thrown (Selection Bytes) :=
  match prepare P domain options.context turn.1.bytes with
  | .error thrown => .error thrown
  | .ok none => .ok st
  | .ok (some prepared) => candidateStep P domain options turn.2 st turn.1 prepared

def selectLifecycle (domain : String) (options : StreamVerifierOptions)
    (entries : List (IndexedEntry Bytes)) : Except Thrown (Selection Bytes) :=
  (sortByIndex entries).zipIdx.foldlM (streamStep P domain options) .initial

def withinInputLimits (entries : List (IndexedEntry Bytes)) : Bool :=
  entries.length ≤ 1000000 &&
    (entries.map fun entry => P.byteLength entry.bytes).sum ≤ 256 * 1024 * 1024

def verifyStreamLifecycle (entries : List (IndexedEntry Bytes)) (domain : String)
    (options : StreamVerifierOptions) : Except Thrown (List (VerifiedLifecycleEvent Bytes)) := do
  throwIf (!withinInputLimits P entries) (.verificationError "lifecycle input exceeds resource limits")
  let st ← selectLifecycle P domain options entries
  thrownOf (verifyLifecycle P options (cachedMigration options st.migrationResult) st.selected)
  return st.selected

end Verifier

end Dnsid.Stream

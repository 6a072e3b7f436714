import Dnsid.Checkpoint.Policy
import Dnsid.Checkpoint.PolicyFile
import Dnsid.Merkle.Inclusion
import Dnsid.Notes.PolicyView
import Dnsid.Protocol.CompactJose
import Dnsid.References.LogReference
import Dnsid.Stream.SelectionInvariant
import Dnsid.Stream.Stitch

/-! # Stream bundles (`log-c2sp-tlog/src/stream-bundle.ts`)

A bundle is read (`parseC2spStreamBundle`) and verified (`verifyC2spStreamBundleContents`). The verification is cut in
two around `verifyStreamLifecycle`: `openBundle` is what comes before, `closeBundle` what comes after. The caller's time
budget is left out, and a number that is no integer fails as one that is out of range.
-/
namespace Dnsid.Bundles
open Dnsid.Foundations Dnsid.Events Dnsid.Protocol Dnsid.Stream
open Dnsid.Checkpoint (NoteCheckpoint NotePlatform SignedNoteKey IndexedEntry CheckpointPolicyResult
  enforceCheckpointPolicy normalizedOriginPolicy parseC2spPolicyFile)
set_option autoImplicit false

structure BundlePlatform where
  codec : Platform Bytes
  urls : References.UrlPlatform
  notes : NotePlatform
  hash : Merkle.Sha256 Bytes Bytes
  sha256 : Bytes → Bytes
  /-- The Ed25519 check of `node:crypto` with a raw public key; false when it throws. -/
  verifySignature : Bytes → Bytes → Bytes → Bool

/-! ## References and checkpoints -/

/-- `ParsedC2spTlogLr` of `lr.ts`. -/
structure LogReference where
  scope : String
  logPrefix : String
  streamId : String
  origin : String
  lr : String
  entryIndex : Option ℕ
  deriving DecidableEq

def parseC2spTlogLr (P : BundlePlatform) (lr : String) : Except Thrown LogReference := do
  let parsed ← References.parseC2spTlogLr P.urls lr.toList
  return {
    scope := .ofList parsed.scope, logPrefix := .ofList parsed.logPrefix, streamId := .ofList parsed.streamId
    origin := .ofList parsed.origin, lr := .ofList parsed.lr, entryIndex := parsed.entryIndex }

/-- The two members of a reference that stitching reads. -/
def parsedReference (P : BundlePlatform) (lr : String) : Option ParsedC2spTlogLr :=
  (parseC2spTlogLr P lr).toOption.map fun parsed => ⟨parsed.lr, parsed.entryIndex⟩

def decodeCheckpoint (bytes : Bytes) : Except Thrown NoteCheckpoint := do
  let text ← orThrow (.other "The encoded data was not valid for encoding utf-8") (decodeUtf8 bytes)
  let checkpoint ← Notes.parseCheckpoint (Utf16.ofScalars text)
  return Notes.noteCheckpoint checkpoint

/-! ## Bundles -/

structure C2spStreamBundleEvent where
  index : ℕ
  entryBytes : Bytes
  proof : List Bytes
  deriving DecidableEq

structure C2spStreamBundleSignature where
  kid : String
  value : Bytes
  deriving DecidableEq

/-- `completenessMode` is always `trusted-index`. -/
structure C2spStreamBundle where
  fqdn : String
  reference : LogReference
  checkpoint : NoteCheckpoint
  checkpointBytes : Bytes
  policyHash : Bytes
  completeThroughSize : ℕ
  events : List C2spStreamBundleEvent
  state : C2spStreamBundleState
  expires : ℕ
  signature : C2spStreamBundleSignature
  signedBytes : Bytes
  bytes : Bytes

structure ParseC2spStreamBundleOptions where
  maxBundleBytes : ℤ
  maxEvents : ℤ

def BUNDLE_MEMBERS : List String :=
  ["checkpoint", "complete_through_size", "completeness_mode", "events", "expires", "fqdn", "lr", "policy_hash", "sig",
    "state", "type", "v"]

def EVENT_MEMBERS : List String := ["entry", "index", "proof"]

def STATE_MEMBERS : List String := ["event_count", "last_event_type", "logged_state"]

def SIGNATURE_MEMBERS : List String := ["alg", "kid", "value"]

/-! ## Members -/

def positiveInteger (value : ℤ) (name : String) : Except Thrown ℕ := do
  throwIf (value ≤ 0 ∨ maxSafeInteger < value) (.verificationError s!"{name} must be a positive integer")
  return value.toNat

/-- The sorted lists of names are equal when each is a rearrangement of the other. -/
def exactObject (value : Option Json) (members : List String) (name : String) :
    Except Thrown (List (String × Json)) := do
  let object ← asObject value (.parseError s!"{name} must be an object")
  throwIf (!(object.map Prod.fst).isPerm members) (.parseError s!"{name} has unsupported or missing members")
  return object

def safeInteger (value : Option Json) (name : String) : Except Thrown ℕ :=
  match value with
  | some (.num q) =>
    if q.den = 1 ∧ 0 ≤ q.num ∧ q.num ≤ maxSafeInteger then .ok q.num.toNat
    else .error (.parseError s!"{name} must be a non-negative safe integer")
  | _ => .error (.parseError s!"{name} must be a non-negative safe integer")

def textMember (value : Option Json) (error : Thrown) : Except Thrown String := orThrow error (value.bind Json.str?)

def strictBase64url (value : Option Json) (name : String) (expectedLength : Option ℕ) : Except Thrown Bytes := do
  let text ← textMember value (.parseError s!"{name} must be unpadded base64url")
  throwIf (!isBase64UrlText text) (.parseError s!"{name} must be unpadded base64url")
  let bytes ← orThrow (.parseError s!"{name} must use canonical base64url")
    ((fromBase64Url text.toList).filter fun bytes => Jose.toBase64Url bytes = text.toList)
  throwIf (expectedLength.any fun length => bytes.length ≠ length) (.parseError s!"{name} has invalid decoded length")
  return bytes

/-- `proofBytes` in slices of 32 bytes. -/
def proofNodes : ℕ → Bytes → List Bytes
  | 0, _ => []
  | n + 1, proofBytes => proofBytes.take 32 :: proofNodes n (proofBytes.drop 32)

def parseEvent (treeSize : ℕ) (value : Json) (position : ℕ) : Except Thrown C2spStreamBundleEvent := do
  let object ← exactObject (some value) EVENT_MEMBERS s!"stream bundle event {position}"
  let index ← safeInteger (object.lookup "index") s!"events[{position}].index"
  throwIf (treeSize ≤ index) (.parseError "stream bundle event index must be less than complete_through_size")
  let entryBytes ← strictBase64url (object.lookup "entry") s!"events[{position}].entry" none
  throwIf (entryBytes.length = 0 ∨ 65535 < entryBytes.length)
    (.parseError "stream bundle entry length is outside 1..65535 bytes")
  let proofBytes ← strictBase64url (object.lookup "proof") s!"events[{position}].proof" none
  throwIf (proofBytes.length % 32 ≠ 0 ∨ 64 < proofBytes.length / 32)
    (.parseError "stream bundle proof must contain at most 64 SHA-256 nodes")
  return ⟨index, entryBytes, proofNodes (proofBytes.length / 32) proofBytes⟩

/-- Each index is below the one after it. -/
def increasing (events : List C2spStreamBundleEvent) : Bool := (events.map (·.index)).Pairwise (· < ·)

def parseLoggedState (value : Option Json) : Except Thrown LoggedState :=
  orThrow (.parseError "stream bundle state has invalid logged_state")
    ((value.bind Json.str?).bind fun text =>
      [LoggedState.unknown, .active, .revoked, .retired].find? fun state => state.name = text)

def parseState (value : Option Json) : Except Thrown C2spStreamBundleState := do
  let object ← exactObject value STATE_MEMBERS "stream bundle state"
  let loggedState ← parseLoggedState (object.lookup "logged_state")
  let lastEventType ← textMember (object.lookup "last_event_type")
    (.parseError "stream bundle state last_event_type must be a string")
  let eventCount ← safeInteger (object.lookup "event_count") "state.event_count"
  return ⟨eventCount, lastEventType, loggedState⟩

def parseSignature (value : Option Json) : Except Thrown C2spStreamBundleSignature := do
  let object ← exactObject value SIGNATURE_MEMBERS "stream bundle sig"
  throwIf (object.lookup "alg" ≠ some (.str "EdDSA")) (.parseError "stream bundle sig must identify an EdDSA key")
  let kid ← orThrow (.parseError "stream bundle sig must identify an EdDSA key")
    (((object.lookup "kid").bind Json.str?).filter (· ≠ ""))
  let value ← strictBase64url (object.lookup "value") "sig.value" (some 64)
  return ⟨kid, value⟩

/-! ## Parsing -/

/-- `{ sig: _sig, ...unsigned }`. -/
def unsigned (object : List (String × Json)) : Json := .obj (object.filter fun m => m.1 ≠ "sig")

def parseEvents (value : Option Json) (maxEvents completeThroughSize : ℕ) :
    Except Thrown (List C2spStreamBundleEvent) := do
  let values ← orThrow (.parseError "stream bundle events must be an array")
    (value.bind fun value => match value with | .arr items => some items | _ => none)
  throwIf (maxEvents < values.length)
    (.parseError s!"stream bundle exceeds configured event maximum {maxEvents}")
  let events ← values.zipIdx.mapM fun entry => parseEvent completeThroughSize entry.1 entry.2
  throwIf (!increasing events) (.parseError "stream bundle event indexes must be unique and strictly increasing")
  return events

variable (P : BundlePlatform)

def parseReference (value : Option Json) : Except Thrown LogReference := do
  let lr ← textMember value (.parseError "stream bundle lr must be a string")
  let reference ← parseC2spTlogLr P lr
  throwIf (reference.entryIndex ≠ none ∨ reference.lr ≠ lr)
    (.parseError "stream bundle lr must be a canonical bound reference")
  return reference

def parseFqdn (value : Option Json) : Except Thrown String := do
  let invalid : Thrown := .parseError "stream bundle fqdn must be a normalized lowercase DNSid FQDN"
  let fqdn ← textMember value invalid
  let normalized ← orThrow (.other "invalid FQDN") (P.codec.normalizeFQDN fqdn)
  throwIf (fqdn ≠ normalized) invalid
  return fqdn

def parseC2spStreamBundle (bytes : Bytes) (options : ParseC2spStreamBundleOptions) :
    Except Thrown C2spStreamBundle := do
  let maxBundleBytes ← positiveInteger options.maxBundleBytes "maxBundleBytes"
  let maxEvents ← positiveInteger options.maxEvents "maxEvents"
  throwIf (bytes.length = 0 ∨ maxBundleBytes < bytes.length)
    (.parseError s!"stream bundle exceeds configured byte maximum {maxBundleBytes}")
  let parsed ← P.codec.parseJsonNoDuplicateMembers bytes
  assertCanonicalJsonBytes P.codec bytes parsed
  let object ← exactObject (some parsed) BUNDLE_MEMBERS "stream bundle"
  throwIf (object.lookup "v" ≠ some (.num 1) ∨ object.lookup "type" ≠ some (.str "dnsid-c2sp-stream-bundle"))
    (.parseError "unsupported C2SP stream bundle")
  let fqdn ← parseFqdn P (object.lookup "fqdn")
  let reference ← parseReference P (object.lookup "lr")
  let checkpointBytes ← strictBase64url (object.lookup "checkpoint") "checkpoint" none
  let checkpoint ← (decodeCheckpoint checkpointBytes).mapError fun cause =>
    .parseError ("invalid stream bundle checkpoint: " ++ cause.message)
  let policyHash ← strictBase64url (object.lookup "policy_hash") "policy_hash" (some 32)
  let completeThroughSize ← safeInteger (object.lookup "complete_through_size") "complete_through_size"
  throwIf (object.lookup "completeness_mode" ≠ some (.str "trusted-index"))
    (.parseError "unsupported stream bundle completeness_mode")
  let events ← parseEvents (object.lookup "events") maxEvents completeThroughSize
  let state ← parseState (object.lookup "state")
  let expires ← safeInteger (object.lookup "expires") "expires"
  let signature ← parseSignature (object.lookup "sig")
  let signedBytes ← P.codec.canonicalBytes (unsigned object)
  return {
    fqdn, reference, checkpoint, checkpointBytes, policyHash, completeThroughSize, events, state, expires, signature
    signedBytes, bytes }

/-! ## The producer's signature -/

/-- `kid === name + '+' + hex(keyId)`. -/
def namesKey (kid : String) (key : SignedNoteKey) : Bool :=
  key.keyId.any fun keyId => kid = key.name ++ "+" ++ .ofList (toHex keyId)

structure VerifyC2spStreamBundleOptions extends ParseC2spStreamBundleOptions where
  expectedFqdn : String
  expectedLogReference : String
  policyBytes : Bytes
  bundleKeys : List SignedNoteKey
  entityKey : DnsIdJWK
  maxBundleLifetimeMs : ℤ
  checkpointFreshnessMs : ℤ
  maxTreeSize : Option ℤ
  maxClockSkewMs : Option ℤ
  nowMs : ℤ
  /-- Later lifecycle entries are not imported. -/
  cutoffIndex : Option ℕ

/-- A bundle that passed every check before its lifecycle is verified. -/
structure OpenedBundle where
  bundle : C2spStreamBundle
  /-- The `getTime()` of the accepted checkpoint, `none` for an invalid `Date`. -/
  witnessTime : Option ℤ
  maxClockSkewMs : ℕ

def expectedReference (expectedLogReference : String) : Except Thrown LogReference := do
  let reference ← parseC2spTlogLr P expectedLogReference
  throwIf (reference.entryIndex ≠ none ∨ reference.lr ≠ expectedLogReference)
    (.verificationError "expected log reference must be canonical and bound")
  return reference

/-- The policy bytes are decoded and parsed. -/
def bundlePolicy (policyBytes : Bytes) : Except Thrown Checkpoint.C2spTlogPolicy := do
  let text ← orThrow (.other "The encoded data was not valid for encoding utf-8") (decodeUtf8 policyBytes)
  parseC2spPolicyFile text

/-- `options.cutoffIndex === undefined || index <= options.cutoffIndex`. -/
def withinCutoff (cutoffIndex : Option ℕ) (index : ℕ) : Bool := !cutoffIndex.any fun cutoff => cutoff < index

def lifecycleOptions (options : VerifyC2spStreamBundleOptions) (opened : OpenedBundle)
    (verifyMigration : Option (ℕ → LogEvent → Except Thrown MigrationVerificationResult)) : StreamVerifierOptions where
  context := ⟨some opened.bundle.reference.origin, some opened.bundle.reference.streamId, some opened.bundle.reference.lr⟩
  signerKey := some options.entityKey
  checkpointIntegrationTimeMs := opened.witnessTime.map (· + opened.maxClockSkewMs)
  verifyMigration := verifyMigration

/-- `stitchVerifiedMigrationReferences`. -/
def stitchVerifiedMigrationReferences (currentEvents : List LogEvent) (currentReferences : List String)
    (migration : MigrationVerificationResult) : Except Thrown (List String) := do
  let mismatched := invalidMigration "MIGRATION has mismatched destination history references"
  let inbound ← orThrow mismatched (currentEvents.head?.bind migration?)
  throwIf (currentEvents.length ≠ currentReferences.length) mismatched
  validatePriorHistoryReferences (parsedReference P) inbound migration
  currentReferences.forM fun reference => assertReferenceBelongsToLog (parsedReference P) reference inbound.newLog
  return migration.priorHistoryReferences.getD [] ++ currentReferences

/-- The reference of an event that the log holds at its index. -/
def entryReference (lr : String) (index : ℕ) : String := s!"{lr}@{index}"

/-- The references of the verified events, after those of the prior history when the callback gave them. -/
def historyReferences (lr : String) (verified : List (VerifiedLifecycleEvent Bytes))
    (migration : Option MigrationVerificationResult) : Except Thrown (Option (List String)) := do
  let currentReferences := verified.map fun item => entryReference lr item.index
  if ((eventsOf verified).head?.bind migration?).isSome then do
    let migration ← orThrow (invalidMigration "MIGRATION requires stitched verified prior-log history") migration
    if migration.priorHistoryReferences.isSome then
      let references ← stitchVerifiedMigrationReferences P (eventsOf verified) currentReferences migration
      return some references
    else return none
  else return some currentReferences

end Dnsid.Bundles

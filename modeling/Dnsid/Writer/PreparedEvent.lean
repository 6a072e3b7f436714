import Dnsid.Events.CanonicalJson
import Dnsid.Stream.Lifecycle

/-! # Prepared events (`log-c2sp-tlog/src/writer.ts`)

An event is staged, signed role by role and finalized into the bytes of its log entry. An envelope is the list
of its members. What the writer takes from the runtime beyond the reader is in `WriterPlatform`; there
`canonicalBytes` is `canonicalJson` encoded, and keys are read by the names of their members.
-/
namespace Dnsid.Writer
open Dnsid.Foundations Dnsid.Events
set_option autoImplicit false

/-- `parseC2spTlogLr` (`lr.ts`): the components that the writer reads. -/
structure ParsedC2spTlogLr where
  scope : String
  streamId : String
  origin : String
  lr : String
  entryIndex : Option ℕ
  deriving DecidableEq, Repr

structure WriterPlatform (Bytes : Type) extends Platform Bytes where
  text : CanonicalText Bytes
  canonicalBytes_eq : canonicalBytes = text.canonicalBytes
  toBase64Url : Bytes → String
  /-- `lr.ts`, over the runtime's `URL`. -/
  parseC2spTlogLr : String → Except Thrown ParsedC2spTlogLr
  /-- A thumbprint is base64url of SHA-256. -/
  jwkThumbprint_nonempty : ∀ key, jwkThumbprint key ≠ some ""
  /-- A thumbprint and a signature check read the members of a key, in no order. -/
  jwkThumbprint_sorted : ∀ key key' : DnsIdJWK, key.sorted = key'.sorted →
    jwkThumbprint key = jwkThumbprint key'
  verifyWithKey_sorted : ∀ (signed signature : Bytes) (key key' : DnsIdJWK), key.sorted = key'.sorted →
    verifyWithKey signed signature key = verifyWithKey signed signature key'

/-! ## Roles -/

inductive C2spSignerRole where
  | entity
  | operationalCountersignature
  | previousOperational
  | newOperational
  deriving DecidableEq, Repr

namespace C2spSignerRole

def name : C2spSignerRole → String
  | .entity => "Entity"
  | .operationalCountersignature => "OperationalCountersignature"
  | .previousOperational => "PreviousOperational"
  | .newOperational => "NewOperational"

/-- `ROLE_TO_SIGNATURE`. -/
def toSignature : C2spSignerRole → SignatureRole
  | .entity => .ae
  | .operationalCountersignature => .op
  | .previousOperational => .prevOp
  | .newOperational => .newOp

/-- `SIGNATURE_TO_ROLE`. -/
def ofSignature : SignatureRole → C2spSignerRole
  | .ae => .entity
  | .op => .operationalCountersignature
  | .prevOp => .previousOperational
  | .newOp => .newOperational

end C2spSignerRole

/-! ## Data -/

abbrev C2spJsonEvent := List (String × Json)

structure C2spChain where
  sequence : ℚ
  previousEventId : Option String
  previousStateHash : Option String
  deriving DecidableEq, Repr

structure PreparedC2spTlogEvent (Bytes : Type) where
  reference : ParsedC2spTlogLr
  envelope : C2spJsonEvent
  signedBytes : Bytes
  eventId : String
  requiredSignatures : List C2spSignerRole
  deriving DecidableEq

structure PreparedC2spVerificationContext where
  expectedFqdn : Option String
  expectedGovernanceId : Option String
  entityKey : Option DnsIdJWK
  operationalKey : Option DnsIdJWK
  previousOperationalKey : Option DnsIdJWK

structure SignPreparedC2spOptions extends PreparedC2spVerificationContext where
  replaceExisting : Bool

structure KeyProvider (Bytes : Type) where
  jwk : String → Except Thrown DnsIdJWK
  signKey : String → Bytes → Except Thrown Bytes

/-- `{ ...envelope, [name]: value }`. -/
def setMember (name : String) (value : Json) : C2spJsonEvent → C2spJsonEvent
  | [] => [(name, value)]
  | m :: rest => if m.1 = name then (name, value) :: rest else m :: setMember name value rest

def signatureJson (signature : C2spSignatureValue) : Json :=
  .obj [("kid", .str signature.kid), ("sig", .str signature.sig)]

/-- The object `C2spSignatures`, with the roles that it has. -/
def signaturesMembers (signatures : C2spSignatures) : C2spJsonEvent :=
  signatures.entries.map fun entry => (entry.1.name, signatureJson entry.2)

/-! ## Signatures of an unfinished event -/

/-- `parseC2spSignatures(value, type, false)`. -/
def parsePartialC2spSignatures (value : Option Json) (type : String) : Except Thrown C2spSignatures :=
  match value with
  | none => .ok ⟨none, none, none, none⟩
  | some value => do
    let raw ← asObject (some value) (.parseError "C2SP event missing sigs object")
    let ae ← parseRole raw .ae
    let op ← parseRole raw .op
    let prevOp ← parseRole raw .prevOp
    let newOp ← parseRole raw .newOp
    let allowed ← requiredC2spSignatureNames type
    assertAllowedRoles raw allowed
    return ⟨ae, op, prevOp, newOp⟩

/-! ## Shape of an envelope -/

/-- `Number.isSafeInteger(value) && value >= 0`. -/
def isSafeNatural : Option Json → Bool
  | some (.num q) => q.den = 1 && 0 ≤ q.num && q.num ≤ maxSafeInteger
  | _ => false

/-- `/^[A-Za-z0-9_-]{42}[AEIMQUYcgkosw048]$/`. -/
def isSha256Base64Url : Option Json → Bool
  | some (.str text) =>
    text.toList.length = 43 && isBase64UrlText text &&
      text.toList.getLast?.any fun c => "AEIMQUYcgkosw048".toList.contains c
  | _ => false

def assertPriorField (envelope : C2spJsonEvent) (name : String) : Except Thrown Unit :=
  throwIf (!isSha256Base64Url (envelope.lookup name)) (.parseError s!"public C2SP event missing {name}")

def assertPriorFields (envelope : C2spJsonEvent) : Except Thrown Unit :=
  if envelope.lookup "seq" = some (.num 0) then
    throwIf (envelope.lookup "prev_event_id" ≠ none ∨ envelope.lookup "prev_state_hash" ≠ none)
      (.parseError "public seq=0 event must not contain previous-chain fields")
  else do
    assertPriorField envelope "prev_event_id"
    assertPriorField envelope "prev_state_hash"

def assertPublicChainShape (envelope : C2spJsonEvent) : Except Thrown Unit := do
  throwIf (!isSafeNatural (envelope.lookup "seq")) (.parseError "public C2SP event has invalid seq")
  throwIf (envelope.lookup "prev_index" ≠ none ∨ envelope.lookup "prev_leaf_hash" ≠ none ∨
      envelope.lookup "event_id" ≠ none)
    (.parseError "prohibited C2SP chain field")
  assertPriorFields envelope

/-- One turn of the loop over the expected binding. -/
def assertBinding (envelope : C2spJsonEvent) (name expected : String) : Except Thrown Unit :=
  throwIf (envelope.lookup name ≠ some (.str expected)) (.parseError s!"public C2SP event {name} mismatch")

def assertInboundMigration (envelope : C2spJsonEvent) (reference : ParsedC2spTlogLr) (type : String) :
    Except Thrown Unit :=
  if type = "MIGRATION" then do
    throwIf (envelope.lookup "new_lr" ≠ some (.str reference.lr))
      (.parseError "inbound MIGRATION new_lr must match the bound reference")
    throwIf (envelope.lookup "prev_lr" = envelope.lookup "new_lr")
      (.parseError "inbound MIGRATION prev_lr must differ from new_lr")
    throwIf (envelope.lookup "seq" ≠ some (.num 0))
      (.parseError "inbound MIGRATION must be public stream genesis")
  else .ok ()

section Writer
variable {Bytes : Type} [DecidableEq Bytes] (W : WriterPlatform Bytes)

def assertPreparedEnvelope (value : Json) (reference : ParsedC2spTlogLr) :
    Except Thrown C2spJsonEvent := do
  let envelope ← asObject (some value) (.parseError "prepared C2SP event must be an object")
  throwIf (envelope.lookup "v" ≠ some (.num 1) ∨ envelope.lookup "kind" ≠ some (.str "dnsid.lifecycle"))
    (.parseError "unsupported C2SP event envelope")
  let type ← orThrow (.parseError "prepared C2SP event missing type")
    ((envelope.lookup "type").bind Json.str?)
  let _ ← requiredC2spSignatureNames type
  let fqdn ← orThrow (.parseError "prepared C2SP event missing fqdn")
    (((envelope.lookup "fqdn").bind Json.str?).filter (· ≠ ""))
  let normalizedFqdn ← orThrow (.parseError "prepared C2SP event has invalid fqdn") (W.normalizeFQDN fqdn)
  throwIf (reference.streamId = normalizedFqdn)
    (.parseError "new C2SP streams must use an opaque stream ID distinct from the event fqdn")
  throwIf (!isSafeNatural (envelope.lookup "ts")) (.parseError "prepared C2SP event has invalid ts")
  assertBinding envelope "method" "c2sp-tlog"
  assertBinding envelope "log_origin" reference.origin
  assertBinding envelope "stream_id" reference.streamId
  assertBinding envelope "lr" reference.lr
  assertPublicChainShape envelope
  throwIf (envelope.lookup "seq" = some (.num 0) ∧ type ≠ "ISSUANCE" ∧ type ≠ "MIGRATION")
    (.parseError "public seq=0 event must be ISSUANCE or inbound MIGRATION")
  assertInboundMigration envelope reference type
  let _ ← parsePartialC2spSignatures (envelope.lookup "sigs") type
  return envelope

/-- `String(envelope.type)`. -/
def typeText (envelope : C2spJsonEvent) : String :=
  match envelope.lookup "type" with
  | some (.str text) => text
  | value => W.stringOf value

def makePrepared (reference : ParsedC2spTlogLr) (envelope : C2spJsonEvent) :
    Except Thrown (PreparedC2spTlogEvent Bytes) := do
  let _ ← parsePartialC2spSignatures (envelope.lookup "sigs") (typeText W envelope)
  let signedBytes ← W.canonicalBytes (withoutSigs (.obj envelope))
  let names ← requiredC2spSignatureNames (typeText W envelope)
  return ⟨reference, envelope, signedBytes, c2spEventId W.toPlatform signedBytes,
    names.map C2spSignerRole.ofSignature⟩

def boundReference (lr : String) : Except Thrown ParsedC2spTlogLr := do
  let parsed ← W.parseC2spTlogLr lr
  throwIf (parsed.entryIndex ≠ none)
    (.parseError "prepared events require a bound reference without @index")
  return parsed

def assertPreparedIntegrity (prepared : PreparedC2spTlogEvent Bytes) : Except Thrown Unit := do
  let expected ← W.canonicalBytes (withoutSigs (.obj prepared.envelope))
  throwIf (prepared.eventId ≠ c2spEventId W.toPlatform expected ∨ expected ≠ prepared.signedBytes)
    (.verificationError "prepared signed bytes do not match the envelope")
  let _ ← assertPreparedEnvelope W (.obj prepared.envelope) prepared.reference

/-! ## Keys -/

def asJwk (value : Option Json) (name : String) : Except Thrown DnsIdJWK := do
  let key ← asObject value (.parseError s!"prepared C2SP event missing {name}")
  throwIf (((key.lookup "kty").bind Json.str?).isNone ∨ (((key.lookup "kid").bind Json.str?).getD "" = "") ∨
      (((key.lookup "alg").bind Json.str?).getD "" = ""))
    (.parseError s!"prepared C2SP event has malformed {name}")
  assertSupportedLifecycleJwk W.toPlatform (.obj key) name

/-- `kid`, `alg` and thumbprint of two keys differ. -/
def keysDiffer (actual expected : DnsIdJWK) : Except Thrown Bool :=
  if actual.get? "kid" ≠ expected.get? "kid" ∨ actual.get? "alg" ≠ expected.get? "alg" then .ok true
  else do
    let actualThumbprint ← thumbprintOf W.toPlatform actual
    let expectedThumbprint ← thumbprintOf W.toPlatform expected
    return actualThumbprint ≠ expectedThumbprint

def assertExpectedKey (actual expected : DnsIdJWK) (name : String) : Except Thrown Unit := do
  let differ ← keysDiffer W actual expected
  throwIf (differ = true) (.verificationError s!"ISSUANCE {name} does not match the trusted key")

def assertSameKey (actual expected : DnsIdJWK) (role : C2spSignerRole) : Except Thrown Unit := do
  let differ ← keysDiffer W actual expected
  throwIf (differ = true)
    (.verificationError s!"{role.name} key provider does not match the prepared event")

/-- `if (context.key) await assertExpectedKey(embedded, context.key, name)`. -/
def assertTrustedKey (embedded : DnsIdJWK) (trusted : Option DnsIdJWK) (name : String) :
    Except Thrown Unit :=
  match trusted with
  | none => .ok ()
  | some key => assertExpectedKey W embedded key name

def keyForRole (envelope : C2spJsonEvent) (role : C2spSignerRole)
    (context : PreparedC2spVerificationContext) : Except Thrown DnsIdJWK :=
  match role with
  | .entity =>
    if envelope.lookup "type" = some (.str "ISSUANCE") then do
      let embedded ← asJwk W (envelope.lookup "ek") "ek"
      assertTrustedKey W embedded context.entityKey "entity key"
      return context.entityKey.getD embedded
    else orThrow (.verificationError "Entity signing requires a trusted entity key") context.entityKey
  | .operationalCountersignature => do
    let embedded ← asJwk W (envelope.lookup "ku") "ku"
    assertTrustedKey W embedded context.operationalKey "operational key"
    return context.operationalKey.getD embedded
  | .newOperational => asJwk W (envelope.lookup "new_ku") "new_ku"
  | .previousOperational =>
    orThrow (.verificationError "PreviousOperational signing requires the trusted previous operational key")
      context.previousOperationalKey

/-- The expectations that `context` leaves out, in the order of the message. -/
def missingExpectations (context : PreparedC2spVerificationContext) : List String :=
  (if context.expectedFqdn.isNone then ["expectedFqdn"] else []) ++
  (if context.expectedGovernanceId.isNone then ["expectedGovernanceId"] else []) ++
  (if context.entityKey.isNone then ["entityKey"] else []) ++
  (if context.operationalKey.isNone then ["operationalKey"] else [])

def assertIssuanceExpectations (envelope : C2spJsonEvent) (context : PreparedC2spVerificationContext)
    (requireComplete : Bool) : Except Thrown Unit :=
  if envelope.lookup "type" ≠ some (.str "ISSUANCE") then .ok ()
  else do
    let embeddedEntityKey ← asJwk W (envelope.lookup "ek") "ek"
    let embeddedOperationalKey ← asJwk W (envelope.lookup "ku") "ku"
    let entityThumbprint ← thumbprintOf W.toPlatform embeddedEntityKey
    let operationalThumbprint ← thumbprintOf W.toPlatform embeddedOperationalKey
    throwIf (entityThumbprint = operationalThumbprint)
      (.verificationError "ISSUANCE entity and operational keys must be distinct")
    throwIf (requireComplete = true ∧ missingExpectations context ≠ [])
      (.verificationError
        ("ISSUANCE verification requires trusted " ++ ", ".intercalate (missingExpectations context)))
    throwIf (context.expectedFqdn ≠ none ∧ envelope.lookup "fqdn" ≠ context.expectedFqdn.map Json.str)
      (.verificationError "ISSUANCE fqdn does not match the expected identity")
    throwIf (context.expectedGovernanceId ≠ none ∧
        envelope.lookup "gi" ≠ context.expectedGovernanceId.map Json.str)
      (.verificationError "ISSUANCE gi does not match the expected governance ID")
    assertTrustedKey W embeddedEntityKey context.entityKey "entity key"
    assertTrustedKey W embeddedOperationalKey context.operationalKey "operational key"

/-! ## Signatures -/

def verifyExistingSignature (prepared : PreparedC2spTlogEvent Bytes)
    (context : PreparedC2spVerificationContext) (entry : SignatureRole × C2spSignatureValue) :
    Except Thrown Unit := do
  let role := C2spSignerRole.ofSignature entry.1
  let key ← keyForRole W prepared.envelope role context
  throwIf (some (.str entry.2.kid) ≠ key.get? "kid")
    (.verificationError s!"{role.name} signature kid does not match the required key")
  let signature ← orThrow (.other "invalid base64url") (W.fromBase64Url entry.2.sig)
  throwIf (!W.verifyWithKey prepared.signedBytes signature key)
    (.verificationError s!"invalid existing {role.name} signature")

def verifyExistingSignatures (prepared : PreparedC2spTlogEvent Bytes)
    (context : PreparedC2spVerificationContext) : Except Thrown Unit := do
  let signatures ← parsePartialC2spSignatures (prepared.envelope.lookup "sigs")
    (typeText W prepared.envelope)
  signatures.entries.forM (verifyExistingSignature W prepared context)

def signPreparedC2spTlogEvent (prepared : PreparedC2spTlogEvent Bytes) (role : C2spSignerRole)
    (keyProvider : KeyProvider Bytes) (options : SignPreparedC2spOptions) :
    Except Thrown (PreparedC2spTlogEvent Bytes) := do
  assertPreparedIntegrity W prepared
  throwIf (role ∉ prepared.requiredSignatures)
    (.verificationError (role.name ++ " is not required for " ++ typeText W prepared.envelope))
  assertIssuanceExpectations W prepared.envelope options.toPreparedC2spVerificationContext
    (role = .entity || role = .operationalCountersignature)
  verifyExistingSignatures W prepared options.toPreparedC2spVerificationContext
  let signatures ← parsePartialC2spSignatures (prepared.envelope.lookup "sigs")
    (typeText W prepared.envelope)
  throwIf ((signatures.get role.toSignature).isSome ∧ options.replaceExisting = false)
    (.verificationError s!"prepared event already has a {role.name} signature")
  let expectedKey ← keyForRole W prepared.envelope role options.toPreparedC2spVerificationContext
  let kid := (expectedKey.text? "kid").getD ""
  let providerKey ← keyProvider.jwk kid
  assertSameKey W providerKey expectedKey role
  let signature ← keyProvider.signKey kid prepared.signedBytes
  let nextSignatures := setMember role.toSignature.name (signatureJson ⟨kid, W.toBase64Url signature⟩)
    (signaturesMembers signatures)
  makePrepared W prepared.reference (setMember "sigs" (.obj nextSignatures) prepared.envelope)

/-- The binding that the finished entry is read with. -/
def entryContext (reference : ParsedC2spTlogLr) : C2spEventContext where
  logOrigin := some reference.origin
  streamId := some reference.streamId
  lr := some reference.lr

def assertRequiredSignature (signatures : C2spSignatures) (role : C2spSignerRole) : Except Thrown Unit :=
  throwIf (signatures.get role.toSignature).isNone
    (.verificationError s!"missing required {role.name} signature")

def c2spTlogEntryBytes (prepared : PreparedC2spTlogEvent Bytes)
    (context : PreparedC2spVerificationContext) : Except Thrown Bytes := do
  assertPreparedIntegrity W prepared
  assertIssuanceExpectations W prepared.envelope context true
  let signatures ← parseC2spSignatures (prepared.envelope.lookup "sigs") (typeText W prepared.envelope)
  prepared.requiredSignatures.forM (assertRequiredSignature signatures)
  verifyExistingSignatures W prepared context
  let bytes ← W.canonicalBytes (.obj prepared.envelope)
  assertEntrySize W.toPlatform bytes
  let _ ← parseC2spEventEntry W.toPlatform bytes (entryContext prepared.reference)
  return bytes

def parsePreparedC2spTlogEvent (bytes : Bytes) (lr : String) (context : PreparedC2spVerificationContext) :
    Except Thrown (PreparedC2spTlogEvent Bytes) := do
  let parsed ← readEntry W.toPlatform bytes
  let reference ← boundReference W lr
  let envelope ← assertPreparedEnvelope W parsed reference
  let prepared ← makePrepared W reference envelope
  assertIssuanceExpectations W prepared.envelope context false
  verifyExistingSignatures W prepared context
  return prepared

def parsePreparedC2spTlogIssuance (bytes : Bytes) (context : PreparedC2spVerificationContext) :
    Except Thrown (PreparedC2spTlogEvent Bytes) := do
  let envelope ← readEntry W.toPlatform bytes
  let lr ← orThrow (.parseError "prepared ISSUANCE is missing a string lr") (envelope.text? "lr")
  throwIf (envelope.get? "type" ≠ some (.str "ISSUANCE")) (.parseError "prepared event must be ISSUANCE")
  throwIf (envelope.get? "seq" ≠ some (.num 0)) (.parseError "prepared ISSUANCE must have seq=0")
  let prepared ← parsePreparedC2spTlogEvent W bytes lr context
  assertIssuanceExpectations W prepared.envelope context true
  return prepared

/-! ## Staging an event -/

def epochSeconds (date : Option ℤ) (name : String) : Except Thrown ℤ :=
  match date with
  | some millis =>
    if 0 ≤ millis ∧ millis ≤ maxSafeInteger ∧ millis % 1000 = 0 then .ok (millis / 1000)
    else .error (.parseError s!"{name} must have whole-second precision")
  | none => .error (.parseError s!"{name} must have whole-second precision")

def reasonText : RevocationReason → String
  | .keyCompromise => "keyCompromise"
  | .policyViolation => "policyViolation"
  | .superseded => "superseded"
  | .cessationOfOperation => "cessationOfOperation"
  | .unlisted text => text

def lifecycleJwksShareKeyMaterial (a b : DnsIdJWK) : Bool :=
  a.get? "kty" = b.get? "kty" &&
    ((a.get? "kty" = some (.str "OKP") && a.get? "crv" = b.get? "crv" && a.get? "x" = b.get? "x") ||
      (a.get? "kty" = some (.str "EC") && a.get? "crv" = b.get? "crv" && a.get? "x" = b.get? "x" &&
        a.get? "y" = b.get? "y"))

/-- The reader makes the same test with another error. -/
def requireC2spIssuanceEvent (event : IssuanceEvent) : Except Thrown Stream.C2spIssuanceEvent :=
  (Stream.assertC2spIssuanceEvent event).mapError fun _ =>
    .parseError "ISSUANCE is missing c2sp-tlog key metadata"

def issuancePayload (event : IssuanceEvent) : Except Thrown C2spJsonEvent := do
  let issuance ← requireC2spIssuanceEvent event
  let entityKey ← assertSupportedLifecycleJwk W.toPlatform issuance.initialEntityPublicKey "ek"
  let operationalKey ← assertSupportedLifecycleJwk W.toPlatform issuance.initialOperationalPublicKey "ku"
  throwIf (some (.str issuance.initialEntityAlg) ≠ entityKey.get? "alg" ∨
      some (.str issuance.initialOperationalAlg) ≠ operationalKey.get? "alg")
    (.parseError "ISSUANCE lifecycle-key algorithm metadata mismatch")
  throwIf (lifecycleJwksShareKeyMaterial entityKey operationalKey = true)
    (.parseError "ISSUANCE entity and operational keys must be distinct")
  return [("gi", .str event.governanceId), ("ek", entityKey), ("ku", operationalKey)]

def keyRotationPayload (event : KeyRotationEvent) : Except Thrown C2spJsonEvent := do
  let newKey ← assertSupportedLifecycleJwk W.toPlatform event.newOperationalPublicKey "new_ku"
  throwIf (some (.str event.newOperationalAlg) ≠ newKey.get? "alg")
    (.parseError "KEY_ROTATION lifecycle-key algorithm metadata mismatch")
  return [("prev_thumb", .str event.previousOperationalThumbprint), ("new_ku", newKey),
    ("new_thumb", .str event.newOperationalThumbprint)]

/-- The `switch` over the event type. -/
def eventPayload : EventBody → Except Thrown C2spJsonEvent
  | .issuance event => issuancePayload W event
  | .keyRotation event => keyRotationPayload W event
  | .revocation reason => .ok [("reason", .str (reasonText reason))]
  | .retirement => .ok []
  | .migration event => .ok [("prev_lr", .str event.previousLog), ("new_lr", .str event.newLog),
      ("prev_ref", .str event.finalEntryRef)]
  | .delegation event => do
    let expiry ← epochSeconds event.expiry "expiry"
    return [("delegatee", .str event.delegatee), ("scope", .str event.scope), ("expiry", .num expiry)]

/-- `if (value) obj[name] = value`. -/
def memberIf (name value : String) : C2spJsonEvent := if value = "" then [] else [(name, .str value)]

def bindingMembers (reference : ParsedC2spTlogLr) : C2spJsonEvent :=
  if reference.scope = "public" ∨ reference.origin ≠ "" ∨ reference.streamId ≠ "" ∨ reference.lr ≠ "" then
    ("method", .str "c2sp-tlog") :: (memberIf "log_origin" reference.origin ++
      memberIf "stream_id" reference.streamId ++ memberIf "lr" reference.lr)
  else []

def chainMembers (chain : C2spChain) : C2spJsonEvent :=
  ("seq", .num chain.sequence) ::
    ((chain.previousEventId.map fun id => ("prev_event_id", Json.str id)).toList ++
      memberIf "prev_state_hash" (chain.previousStateHash.getD ""))

/-- `eventToC2spEnvelope(event, context, false)` with the context of a bound reference. -/
def eventToC2spEnvelope (event : LogEvent) (reference : ParsedC2spTlogLr) (chain : C2spChain) :
    Except Thrown C2spJsonEvent := do
  let ts ← epochSeconds event.timestamp "timestamp"
  let payload ← eventPayload W event.body
  let obj : C2spJsonEvent := [("v", .num 1), ("kind", .str "dnsid.lifecycle"),
    ("type", .str event.type.name), ("fqdn", .str event.domain), ("ts", .num ts)] ++ payload ++
    bindingMembers reference ++ chainMembers chain
  validatePublicFields W.toPlatform (.obj obj) (entryContext reference)
  return obj

def assertUnchained (chain : Option C2spChain) (message : String) : Except Thrown C2spChain := do
  throwIf (∃ c ∈ chain, c.sequence ≠ 0 ∨ c.previousEventId ≠ none ∨ c.previousStateHash ≠ none)
    (.parseError message)
  return ⟨0, none, none⟩

def prepareChain (event : LogEvent) (reference : ParsedC2spTlogLr) (chain : Option C2spChain) :
    Except Thrown C2spChain :=
  match event.body with
  | .migration fields => do
    throwIf (fields.newLog ≠ reference.lr)
      (.parseError "inbound MIGRATION new_lr must match the bound reference")
    throwIf (fields.previousLog = fields.newLog)
      (.parseError "inbound MIGRATION prev_lr must differ from new_lr")
    assertUnchained chain "public inbound MIGRATION must be an unchained seq=0 event"
  | .issuance _ => assertUnchained chain "public ISSUANCE must be an unchained seq=0 event"
  | _ => orThrow (.parseError "public non-genesis event requires prepared chain metadata") chain

def prepareC2spTlogEventForSigning (event : LogEvent) (lr : String) (chain : Option C2spChain) :
    Except Thrown (PreparedC2spTlogEvent Bytes) := do
  let reference ← boundReference W lr
  let normalizedChain ← prepareChain event reference chain
  let obj ← eventToC2spEnvelope W event reference normalizedChain
  let envelope ← assertPreparedEnvelope W (.obj obj) reference
  makePrepared W reference envelope

end Writer

end Dnsid.Writer

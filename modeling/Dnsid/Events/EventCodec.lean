import Dnsid.Errors
import Dnsid.Events.Json
import Dnsid.Foundations.ExceptRun

/-! # The event codec (`log-c2sp-tlog/src/event-codec.ts`)

The reading half of the codec, check by check in the order of the source. What the codec takes from the
runtime, from jose and from the JSON modules is a `Platform`, with the two facts about JSON that reading
relies on; every result holds for all platforms.
`canonicalBytes` is the UTF-8 encoding of `canonicalJson`, so that comparing decoded text with canonical
text is comparing bytes.
-/
namespace Dnsid.Events
open Dnsid.Foundations
set_option autoImplicit false

/-- `{ ...obj }` without `sigs`. Spreading an array or a string gives its index members. -/
def withoutSigs : Json → Json
  | .obj members => .obj (members.filter fun m => m.1 ≠ "sigs")
  | .arr items => .obj (items.zipIdx.map fun p => (toString p.2, p.1))
  | .str s => .obj (s.toList.zipIdx.map fun p => (toString p.2, .str (String.singleton p.1)))
  | _ => .obj []

/-- `none` stands for a thrown value of a class that no caller tests: a `SyntaxError`, a `DOMException`, a
`ValidationError` or an error of jose. -/
structure Platform (Bytes : Type) where
  byteLength : Bytes → ℕ
  parseJsonNoDuplicateMembers : Bytes → Except Thrown Json
  canonicalBytes : Json → Except Thrown Bytes
  /-- `JSON.parse(new TextDecoder().decode(bytes))`. -/
  jsonParse : Bytes → Option Json
  /-- `normalizeFQDN(name, true)`. -/
  normalizeFQDN : String → Option String
  fromBase64Url : String → Option Bytes
  /-- Base64url of SHA-256 over a domain-separation label and the bytes. -/
  labelledHash : String → Bytes → String
  leafHash : Bytes → Bytes
  verifyWithKey : Bytes → Bytes → DnsIdJWK → Bool
  jwkThumbprint : DnsIdJWK → Option String
  /-- Base64url of SHA-256 over `JSON.stringify` of an object with these members. -/
  materialHash : List (String × String) → String
  /-- `String(value)`, in a message only. -/
  stringOf : Option Json → String
  /-- Strict parsing only refuses more than `JSON.parse`. -/
  jsonParse_of_strict : ∀ {bytes value}, parseJsonNoDuplicateMembers bytes = .ok value →
    jsonParse bytes = some value
  /-- Canonical JSON is read back: a canonical entry without its `sigs` has a canonical form too, and that
  parses to the other members of the entry. -/
  signed_envelope : ∀ {bytes members}, parseJsonNoDuplicateMembers bytes = .ok (.obj members) →
    canonicalBytes (.obj members) = .ok bytes →
    ∃ signed envelope, canonicalBytes (withoutSigs (.obj members)) = .ok signed ∧
      jsonParse signed = some envelope ∧
      ∀ name, name ≠ "sigs" → envelope.get? name = (Json.obj members).get? name

/-- The log binding that the reader expects of an envelope. -/
structure C2spEventContext where
  logOrigin : Option String
  streamId : Option String
  lr : Option String

inductive SignatureRole where
  | ae
  | op
  | prevOp
  | newOp
  deriving DecidableEq, Repr

def SignatureRole.name : SignatureRole → String
  | .ae => "ae"
  | .op => "op"
  | .prevOp => "prev_op"
  | .newOp => "new_op"

structure C2spSignatureValue where
  kid : String
  sig : String
  deriving DecidableEq, Repr

structure C2spSignatures where
  ae : Option C2spSignatureValue
  op : Option C2spSignatureValue
  prevOp : Option C2spSignatureValue
  newOp : Option C2spSignatureValue
  deriving DecidableEq, Repr

namespace C2spSignatures

def get (sigs : C2spSignatures) : SignatureRole → Option C2spSignatureValue
  | .ae => sigs.ae
  | .op => sigs.op
  | .prevOp => sigs.prevOp
  | .newOp => sigs.newOp

/-- `Object.entries`: `parseC2spSignatures` assigns the roles in this order. -/
def entries (sigs : C2spSignatures) : List (SignatureRole × C2spSignatureValue) :=
  [.ae, .op, .prevOp, .newOp].filterMap fun role => (sigs.get role).map (Prod.mk role)

end C2spSignatures

/-! ## Member checks -/

def asString (value : Option Json) (name : String) : Except Thrown String :=
  match value with
  | some (.str s) => if s = "" then .error (.parseError s!"missing {name}") else .ok s
  | _ => .error (.parseError s!"missing {name}")

/-- `2 ^ 53 - 1`. -/
def maxSafeInteger : ℤ := 9007199254740991

/-- A non-negative safe integer. -/
def asSafeInt (value : Option Json) (name : String) : Except Thrown ℤ :=
  match value with
  | some (.num q) =>
    if q.den = 1 ∧ 0 ≤ q.num ∧ q.num ≤ maxSafeInteger then .ok q.num
    else .error (.parseError s!"{name} outside safe integer range")
  | _ => .error (.parseError s!"{name} outside safe integer range")

/-- A `Date` holds at most 8.64e15 ms. -/
def dateFromSeconds (seconds : ℤ) (name : String) : Except Thrown ℤ :=
  if seconds * 1000 ≤ maxSafeInteger ∧ seconds * 1000 ≤ 8640000000000000 then .ok (seconds * 1000)
  else .error (.parseError s!"{name} outside Date range")

/-- `!value || typeof value !== 'object' || Array.isArray(value)` throws `error`. -/
def asObject (value : Option Json) (error : Thrown) : Except Thrown (List (String × Json)) :=
  orThrow error (value.bind Json.members?)

def asRevocationReason (value : Option Json) : Except Thrown RevocationReason :=
  match value with
  | some (.str "keyCompromise") => .ok .keyCompromise
  | some (.str "policyViolation") => .ok .policyViolation
  | some (.str "superseded") => .ok .superseded
  | some (.str "cessationOfOperation") => .ok .cessationOfOperation
  | _ => .error (.parseError "invalid REVOCATION reason")

/-! ## Signatures -/

/-- `SIGNATURE_RE`, on a string that is not empty. -/
def isBase64UrlText (text : String) : Bool :=
  text.toList.all fun c => c.isAlphanum || c = '_' || c = '-'

def parseSignatureValue (value : Option Json) (name : String) : Except Thrown C2spSignatureValue := do
  let raw ← asObject value (.parseError s!"{name} must be an object")
  throwIf (raw.any fun m => m.1 ≠ "kid" && m.1 ≠ "sig")
    (.parseError s!"{name} contains an unknown member")
  let kid ← asString (raw.lookup "kid") s!"{name}.kid"
  let sig ← asString (raw.lookup "sig") s!"{name}.sig"
  throwIf (!isBase64UrlText sig) (.parseError s!"{name}.sig must be unpadded base64url")
  return ⟨kid, sig⟩

def requiredC2spSignatureNames (type : String) : Except Thrown (List SignatureRole) :=
  match LogEventType.ofName? type with
  | some .issuance => .ok [.ae, .op]
  | some .keyRotation => .ok [.prevOp, .newOp]
  | some _ => .ok [.ae]
  | none => .error (.parseError s!"unsupported DNSid lifecycle event type: {type}")

/-- `if (raw.role !== undefined) parsed.role = parseSignatureValue(raw.role, 'sigs.role')`. -/
def parseRole (raw : List (String × Json)) (role : SignatureRole) :
    Except Thrown (Option C2spSignatureValue) :=
  match raw.lookup role.name with
  | none => .ok none
  | some value => some <$> parseSignatureValue (some value) s!"sigs.{role.name}"

def assertAllowedRoles (raw : List (String × Json)) (allowed : List SignatureRole) :
    Except Thrown Unit :=
  match raw.find? fun m => m.1 ∉ allowed.map SignatureRole.name with
  | some m => .error (.parseError ("unexpected signature role: " ++ m.1))
  | none => .ok ()

def assertAllRoles (parsed : C2spSignatures) (allowed : List SignatureRole) : Except Thrown Unit :=
  match allowed.find? fun role => (parsed.get role).isNone with
  | some role => .error (.parseError s!"missing sigs.{role.name}")
  | none => .ok ()

/-- With `requireComplete`, as the readers call it. -/
def parseC2spSignatures (value : Option Json) (type : String) : Except Thrown C2spSignatures := do
  let raw ← asObject value (.parseError "C2SP event missing sigs object")
  let ae ← parseRole raw .ae
  let op ← parseRole raw .op
  let prevOp ← parseRole raw .prevOp
  let newOp ← parseRole raw .newOp
  let parsed : C2spSignatures := ⟨ae, op, prevOp, newOp⟩
  let allowed ← requiredC2spSignatureNames type
  assertAllowedRoles raw allowed
  assertAllRoles parsed allowed
  return parsed

/-! ## Envelopes -/

def parseChainFields (e : Json) : ChainFields where
  seq := e.get? "seq"
  prevEventId := e.get? "prev_event_id"
  prevStateHash := e.get? "prev_state_hash"
  prevIndex := e.get? "prev_index"
  prevLeafHash := e.get? "prev_leaf_hash"
  eventId := e.get? "event_id"

section Codec
variable {Bytes : Type} [DecidableEq Bytes] (P : Platform Bytes)

def assertSupportedLifecycleJwk (key : DnsIdJWK) (name : String) : Except Thrown DnsIdJWK := do
  -- Reading a property of `null` is a TypeError.
  throwIf (key = .null) (.other "Cannot read properties of null")
  throwIf (key.get? "use" ≠ none ∧ key.get? "use" ≠ some (.str "sig"))
    (.parseError s!"{name} must be a signing JWK")
  throwIf (key.get? "d" ≠ none) (.parseError s!"{name} must contain only public key material")
  if key.get? "alg" = some (.str "EdDSA") then
    throwIf (key.get? "kty" ≠ some (.str "OKP") ∨ key.get? "crv" ≠ some (.str "Ed25519") ∨
        ((key.text? "x").getD "" = ""))
      (.parseError s!"{name} EdDSA key must be an Ed25519 public JWK")
    return key
  else if key.get? "alg" = some (.str "ES256") then
    throwIf (key.get? "kty" ≠ some (.str "EC") ∨ key.get? "crv" ≠ some (.str "P-256") ∨
        ((key.text? "x").getD "" = "") ∨ ((key.text? "y").getD "" = ""))
      (.parseError s!"{name} ES256 key must be a P-256 public JWK")
    return key
  else .error (.parseError
    (name ++ " uses unsupported lifecycle-key algorithm: " ++ P.stringOf (key.get? "alg")))

def asJwk (value : Option Json) (name : String) : Except Thrown DnsIdJWK := do
  let jwk ← asObject value (.parseError s!"missing {name}")
  let _ ← asString (jwk.lookup "kty") s!"{name}.kty"
  let _ ← asString (jwk.lookup "kid") s!"{name}.kid"
  let _ ← asString (jwk.lookup "alg") s!"{name}.alg"
  assertSupportedLifecycleJwk P (.obj jwk) name

def thumbprintOf (key : DnsIdJWK) : Except Thrown String :=
  orThrow (.other "JWK thumbprint failed") (P.jwkThumbprint key)

def c2spEventId (signedBytes : Bytes) : String := P.labelledHash "dnsid-c2sp-event-v1\x00" signedBytes

/-- One turn of the loop over the signed binding members. -/
def validatePublicField (e : Json) (name : String) (expected : Option String) : Except Thrown Unit := do
  throwIf ((e.text? name).getD "" = "") (.parseError s!"public C2SP event missing signed {name}")
  throwIf (expected ≠ none ∧ e.text? name ≠ expected)
    (.parseError s!"public C2SP event {name} mismatch")

def validatePublicFields (obj : Json) (context : C2spEventContext) : Except Thrown Unit := do
  let _ ← asObject (some obj) (.parseError "C2SP event must be an object")
  let fqdn ← orThrow (.parseError "C2SP requires an opaque stream ID distinct from the identity FQDN")
    (obj.text? "fqdn")
  let normalized ← orThrow (.other "invalid FQDN") (P.normalizeFQDN fqdn)
  throwIf (obj.get? "stream_id" = some (.str normalized))
    (.parseError "C2SP requires an opaque stream ID distinct from the identity FQDN")
  validatePublicField obj "method" (some "c2sp-tlog")
  validatePublicField obj "log_origin" context.logOrigin
  validatePublicField obj "stream_id" context.streamId
  validatePublicField obj "lr" context.lr

/-- What the cases of the envelope share: the timestamp, the domain, the signatures and the chain. -/
def envelopeEvent (timestamp : ℤ) (domain : String) (signature : Option C2spSignatureValue)
    (chain : ChainFields) (body : EventBody) : LogEvent where
  domain := domain
  timestamp := some timestamp
  signingKid := signature.map C2spSignatureValue.kid
  sig := signature.map C2spSignatureValue.sig
  operationalCountersig := none
  newOperationalProof := none
  chain := chain
  body := body

def issuanceFromEnvelope (e : Json) (timestamp : ℤ) (domain : String) (sigs : C2spSignatures) :
    Except Thrown LogEvent := do
  let entityKey ← asJwk P (e.get? "ek") "ek"
  let operationalKey ← asJwk P (e.get? "ku") "ku"
  let entityThumbprint ← thumbprintOf P entityKey
  let operationalThumbprint ← thumbprintOf P operationalKey
  throwIf (entityThumbprint = operationalThumbprint)
    (.parseError "ISSUANCE entity and operational keys must be distinct")
  throwIf (sigs.ae.map C2spSignatureValue.kid ≠ entityKey.text? "kid" ∨
      sigs.op.map C2spSignatureValue.kid ≠ operationalKey.text? "kid")
    (.parseError "ISSUANCE signature kid does not match recorded key")
  let governanceId ← asString (e.get? "gi") "gi"
  let entityAlg ← asString (entityKey.get? "alg") "ek.alg"
  let operationalAlg ← asString (operationalKey.get? "alg") "ku.alg"
  let fields : IssuanceEvent :=
    { governanceId := governanceId
      initialEntityKid := entityKey.text? "kid"
      initialEntityAlg := some entityAlg
      initialEntityPublicKey := some entityKey
      initialEntityThumbprint := some entityThumbprint
      initialOperationalKid := operationalKey.text? "kid"
      initialOperationalAlg := some operationalAlg
      initialOperationalPublicKey := some operationalKey
      initialOperationalThumbprint := some operationalThumbprint
      entityKey := none
      operationalKey := none
      publicKey := none
      thumbprint := none }
  return { envelopeEvent timestamp domain sigs.ae (parseChainFields e) (.issuance fields) with
    operationalCountersig := sigs.op.map C2spSignatureValue.sig }

def keyRotationFromEnvelope (e : Json) (timestamp : ℤ) (domain : String) (sigs : C2spSignatures) :
    Except Thrown LogEvent := do
  let newKey ← asJwk P (e.get? "new_ku") "new_ku"
  throwIf (sigs.newOp.map C2spSignatureValue.kid ≠ newKey.text? "kid")
    (.parseError "KEY_ROTATION new_op kid does not match new_ku")
  let previousThumbprint ← asString (e.get? "prev_thumb") "prev_thumb"
  let newAlg ← asString (newKey.get? "alg") "new_ku.alg"
  let newThumbprint ← asString (e.get? "new_thumb") "new_thumb"
  let fields : KeyRotationEvent :=
    { previousOperationalKid := (sigs.prevOp.map C2spSignatureValue.kid).getD ""
      previousOperationalThumbprint := previousThumbprint
      newOperationalKid := newKey.text? "kid"
      newOperationalAlg := newAlg
      newOperationalThumbprint := newThumbprint
      newOperationalPublicKey := newKey }
  return { envelopeEvent timestamp domain sigs.prevOp (parseChainFields e) (.keyRotation fields) with
    newOperationalProof := sigs.newOp.map C2spSignatureValue.sig }

def revocationFromEnvelope (e : Json) (timestamp : ℤ) (domain : String) (sigs : C2spSignatures) :
    Except Thrown LogEvent := do
  let reason ← asRevocationReason (e.get? "reason")
  return envelopeEvent timestamp domain sigs.ae (parseChainFields e) (.revocation reason)

def migrationFromEnvelope (e : Json) (timestamp : ℤ) (domain : String) (sigs : C2spSignatures) :
    Except Thrown LogEvent := do
  let previousLog ← asString (e.get? "prev_lr") "prev_lr"
  let newLog ← asString (e.get? "new_lr") "new_lr"
  let finalEntryRef ← asString (e.get? "prev_ref") "prev_ref"
  return envelopeEvent timestamp domain sigs.ae (parseChainFields e)
    (.migration ⟨previousLog, newLog, finalEntryRef⟩)

def delegationFromEnvelope (e : Json) (timestamp : ℤ) (domain : String) (sigs : C2spSignatures) :
    Except Thrown LogEvent := do
  let delegatee ← asString (e.get? "delegatee") "delegatee"
  let scope ← asString (e.get? "scope") "scope"
  let seconds ← asSafeInt (e.get? "expiry") "expiry"
  let expiry ← dateFromSeconds seconds "expiry"
  return envelopeEvent timestamp domain sigs.ae (parseChainFields e)
    (.delegation ⟨delegatee, scope, some expiry⟩)

/-- The `switch` over the event type. -/
def bodyFromEnvelope (type : LogEventType) (e : Json) (timestamp : ℤ) (domain : String)
    (sigs : C2spSignatures) : Except Thrown LogEvent :=
  match type with
  | .issuance => issuanceFromEnvelope P e timestamp domain sigs
  | .keyRotation => keyRotationFromEnvelope P e timestamp domain sigs
  | .revocation => revocationFromEnvelope e timestamp domain sigs
  | .retirement => .ok (envelopeEvent timestamp domain sigs.ae (parseChainFields e) .retirement)
  | .migration => migrationFromEnvelope e timestamp domain sigs
  | .delegation => delegationFromEnvelope e timestamp domain sigs

def supportedType (type : String) : Except Thrown LogEventType :=
  orThrow (.parseError s!"unsupported DNSid lifecycle event type: {type}") (LogEventType.ofName? type)

def c2spEnvelopeToEvent (obj : Json) : Except Thrown LogEvent := do
  let _ ← asObject (some obj) (.parseError "C2SP event entry must be an object")
  throwIf (obj.get? "v" ≠ some (.num 1) ∨ obj.get? "kind" ≠ some (.str "dnsid.lifecycle"))
    (.parseError "unsupported C2SP event envelope")
  throwIf (obj.get? "method" ≠ none ∧ obj.get? "method" ≠ some (.str "c2sp-tlog"))
    (.parseError "C2SP event method mismatch")
  let typeName ← asString (obj.get? "type") "type"
  let type ← supportedType typeName
  let seconds ← asSafeInt (obj.get? "ts") "ts"
  let timestamp ← dateFromSeconds seconds "ts"
  let domain ← asString (obj.get? "fqdn") "fqdn"
  let sigs ← parseC2spSignatures (obj.get? "sigs") typeName
  bodyFromEnvelope P type obj timestamp domain sigs

/-! ## Entries -/

def assertEntrySize (bytes : Bytes) : Except Thrown Unit :=
  throwIf (P.byteLength bytes = 0 ∨ 0xffff < P.byteLength bytes)
    (.parseError "C2SP entry must be between 1 and 65535 bytes")

def assertCanonicalJsonBytes (bytes : Bytes) (value : Json) : Except Thrown Unit := do
  let want ← P.canonicalBytes value
  throwIf (bytes ≠ want) (.parseError "entry bytes are not canonical JCS")

/-- The opening shared by the three entry readers: size, strict JSON, canonical form. -/
def readEntry (bytes : Bytes) : Except Thrown Json := do
  assertEntrySize P bytes
  let obj ← P.parseJsonNoDuplicateMembers bytes
  assertCanonicalJsonBytes P bytes obj
  return obj

def parseC2spEventEntry (bytes : Bytes) (context : C2spEventContext) : Except Thrown LogEvent := do
  let obj ← readEntry P bytes
  validatePublicFields P obj context
  c2spEnvelopeToEvent P obj

structure C2spAuthorization where
  type : LogEventType
  domain : String
  kid : String
  signature : String
  deriving DecidableEq, Repr

/-- The role whose signature authorizes an event. -/
def authorizingRole : LogEventType → SignatureRole
  | .keyRotation => .prevOp
  | _ => .ae

def parseC2spAuthorization (bytes : Bytes) (context : C2spEventContext) :
    Except Thrown C2spAuthorization := do
  let obj ← readEntry P bytes
  validatePublicFields P obj context
  let _ ← asObject (some obj) (.parseError "C2SP event entry must be an object")
  throwIf (obj.get? "v" ≠ some (.num 1) ∨ obj.get? "kind" ≠ some (.str "dnsid.lifecycle"))
    (.parseError "unsupported C2SP event envelope")
  let typeName ← asString (obj.get? "type") "type"
  let type ← supportedType typeName
  let sigs ← asObject (obj.get? "sigs") (.parseError "C2SP event missing sigs object")
  let role := authorizingRole type
  let signature ← parseSignatureValue (sigs.lookup role.name) s!"sigs.{role.name}"
  let domain ← asString (obj.get? "fqdn") "fqdn"
  return ⟨type, domain, signature.kid, signature.sig⟩

def signedC2spEntryBytes (bytes : Bytes) : Except Thrown Bytes := do
  let obj ← readEntry P bytes
  P.canonicalBytes (withoutSigs obj)

end Codec

end Dnsid.Events

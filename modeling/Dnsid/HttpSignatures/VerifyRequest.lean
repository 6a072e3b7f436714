import Dnsid.HttpSignatures.SignatureHeaders
import Dnsid.Protocol.SignatureKeys

/-! # Verification of a signed request (`HttpSignaturesProfile.verifySignedHttpRequest`)

One call of the profile, at one time and with one answer of the identity resolver for each domain; the verification
budget does not elapse. Numbers are exact.
-/
namespace Dnsid.HttpSignatures
open Dnsid.Foundations
set_option autoImplicit false

abbrev Bytes := List UInt8

def maxHttpContentBytes : ℕ := 8 * 1024 * 1024

def signatureInvalid (message : String) : HttpError := .verificationError .signatureInvalid message false

/-- What a call of the profile runs with. `verifyDomain` has the peer certificate of the call. -/
structure ProfileEnvironment (Identity : Type) extends HttpPlatform where
  webCrypto : Protocol.WebCrypto
  sha256 : Bytes → Bytes
  normalizeFQDN : String → Except String String
  verifyDomain : String → Except HttpError Identity
  /-- `vd.jwks.keys`. -/
  jwks : Identity → List Protocol.SignatureJwk
  /-- `Math.floor(Date.now() / 1000)`. -/
  now : ℤ
  /-- `config.maxAge`. -/
  maxAge : Option ℤ
  /-- `config.clockSkew`. -/
  clockSkew : Option ℚ

structure BodyRequest extends Request where
  body : Option Bytes

structure HttpVerificationOptions where
  requiredComponents : Option (List ComponentIdentifier)
  requiredTag : Option String

/-! ## The checks of a candidate -/

def joseAlgToHttpSigAlg (joseAlg : String) : Except HttpError String :=
  if joseAlg = "EdDSA" then .ok "ed25519"
  else if joseAlg = "ES256" then .ok "ecdsa-p256-sha256"
  else .error (.argumentError s!"JOSE algorithm '{joseAlg}' has no RFC 9421 HTTP Message Signature mapping")

/-- The error of a key, as one of this package. -/
def ofKeyError : Protocol.KeyError → HttpError
  | .validationError message => .validationError message
  | .argumentError message => .argumentError message
  | .verificationError message => signatureInvalid message
  | .runtime => .other "runtime error"

def readBoundedBody (body : Bytes) : Except HttpError Bytes := do
  throwIf (maxHttpContentBytes < body.length) (recordInvalid "HTTP signature body exceeds size limit")
  return body

/-- The bare items of a member. -/
def Member.bareItems : Member → List BareItem
  | .item (value, params) => params.map Prod.snd ++ [value]
  | .innerList items params => params.map Prod.snd ++ items.flatMap fun entry => entry.1 :: entry.2.map Prod.snd

/-- The value of `keyid`, if it is not empty. -/
def keyIdOf (sigParams : SignatureParams) : Option String := sigParams.keyId.filter (· ≠ "")

/-- A parsed number is finite. -/
def JsNumber.toRat : JsNumber → ℚ
  | .finite value => value
  | .notFinite _ => 0

/-- An `ArgumentError` says that a component is absent. -/
def absentComponent : HttpError → HttpError
  | .argumentError message => signatureInvalid s!"Signature-Input covers absent component: {message}"
  | error => error

def invalidKeyId : HttpError → HttpError
  | .argumentError message | .validationError message => signatureInvalid s!"invalid keyid in Signature-Input: {message}"
  | error => error

section Verify
variable {Identity : Type} (E : ProfileEnvironment Identity)

def parseKeyId (keyId : String) : Except HttpError (String × String) := do
  let domainPart := keyId.toList.takeWhile (· ≠ '#')
  throwIf ('#' ∉ keyId.toList) (.argumentError s!"key ID must contain '#' separator: {keyId}")
  let kidPart := (keyId.toList.dropWhile (· ≠ '#')).tail
  throwIf (domainPart = []) (.argumentError s!"key ID domain part is empty: {keyId}")
  throwIf (kidPart = []) (.argumentError s!"key ID kid part is empty: {keyId}")
  throwIf ('#' ∈ kidPart) (.argumentError s!"key ID kid part must not contain '#': {keyId}")
  let domain ← (E.normalizeFQDN (String.ofList domainPart)).mapError fun message =>
    .argumentError s!"key ID domain part is not a valid FQDN: {keyId} — {message}"
  return (domain, String.ofList kidPart)

def maxAgeSeconds : ℤ := E.maxAge.getD 300

def clockSkewSeconds : ℚ := E.clockSkew.getD 5

def checkExpires (created expires : ℚ) : Except HttpError Unit := do
  throwIf (expires < created) (signatureInvalid "HTTP message signature expires precedes created")
  throwIf (expires + clockSkewSeconds E < E.now)
    (signatureInvalid "HTTP message signature has expired (expires parameter)")
  throwIf (maxAgeSeconds E < expires - created)
    (signatureInvalid "HTTP message signature expires lifetime exceeds maximum")

def checkFreshness (created : ℚ) (expires : Option ℚ) : Except HttpError Unit := do
  throwIf (maxAgeSeconds E < E.now - created)
    (signatureInvalid "HTTP message signature has expired (created too far in the past)")
  throwIf (E.now + clockSkewSeconds E < created)
    (signatureInvalid "HTTP message signature created time is in the future")
  expires.forM (checkExpires E created)

def parseDictionaryField (headerValue : Text) : Except HttpError (List (String × Member)) := do
  assertHeaderBound headerValue
  let malformed := recordInvalid "malformed structured field dictionary"
  let dictionary ← orThrow malformed (E.parseDictionary (String.ofList headerValue))
  let entries ← (splitDictionary headerValue).mapError fun _ => malformed
  throwIf (dictionary.length ≠ entries.length) malformed
  throwIf (dictionary.any fun member => member.2.bareItems.any isRfc9651Only) malformed
  return dictionary

/-- The digest of the member `sha-256`. -/
def sha256Member : Option Member → Except HttpError Bytes
  | some (.item (.bytes value, [])) => .ok value
  | _ => .error (signatureInvalid "DNSid HTTP signatures require sha-256 Content-Digest")

def unsupportedDigest (component : ComponentIdentifier) : Bool :=
  componentName component = "content-digest" &&
    ((componentParams component).lookup "key").any fun value => value ≠ .str "sha-256"

def parseSha256ContentDigest (headerValue : Text) (components : List ComponentIdentifier) : Except HttpError Bytes := do
  throwIf (components.any unsupportedDigest) (signatureInvalid "unsupported covered Content-Digest algorithm")
  let dictionary ← (parseDictionaryField E headerValue).mapError fun _ => signatureInvalid "malformed Content-Digest header"
  sha256Member (dictionary.lookup "sha-256")

def checkDigest (req : BodyRequest) (components : List ComponentIdentifier) : Except HttpError Unit := do
  let body ← orThrow (signatureInvalid "content-digest is a covered component but request has no body") req.body
  let digestHeader ← orThrow (signatureInvalid "content-digest is covered but Content-Digest header is absent")
    ((req.headers.lookup "content-digest").filter (· ≠ ""))
  let expectedDigest ← parseSha256ContentDigest E digestHeader.toList components
  let bodyBuffer ← readBoundedBody body
  throwIf (expectedDigest ≠ E.sha256 bodyBuffer) (signatureInvalid "Content-Digest does not match request body")

def checkContent (req : BodyRequest) (components : List ComponentIdentifier) : Except HttpError Unit := do
  throwIf (req.body.isSome ∧ (components.any fun c => sameComponent c (.name "content-digest")) = false)
    (signatureInvalid "request body is present but content-digest is not covered by the signature")
  if hasComponentNamed components "content-digest" then checkDigest E req components

def checkRequired (components : List ComponentIdentifier) (component : ComponentIdentifier) : Except HttpError Unit :=
  throwIf ((components.any fun c => sameComponent c component) = false)
    (signatureInvalid s!"Signature-Input missing required covered component: {componentName component}")

def defaultComponents : List ComponentIdentifier := [.name "@method", .name "@authority", .name "@target-uri"]

def algMismatch (alg expectedHttpSigAlg : String) : String :=
  s!"HTTP message signature alg mismatch: Signature-Input declares {alg} but key maps to {expectedHttpSigAlg}"

/-- The key verifies the signature of the base. The base starts with a quote, so decoding it does not drop a mark. -/
def checkSignature (req : BodyRequest) (sigParams : SignatureParams) (rawSig : Bytes) (sigKey : Protocol.SignatureJwk) :
    Except HttpError Unit := do
  let keyAlg ← (Protocol.jwkSignatureAlg sigKey).mapError ofKeyError
  let expectedHttpSigAlg ← joseAlgToHttpSigAlg keyAlg
  throwIf (sigParams.alg.any fun alg => alg ≠ "" ∧ alg ≠ expectedHttpSigAlg)
    (signatureInvalid (algMismatch (sigParams.alg.getD "") expectedHttpSigAlg))
  let sigBase ← (buildSignatureInput E.toHttpPlatform ⟨.request req.toRequest, none⟩ sigParams).mapError absentComponent
  throwIf (Protocol.verifyWithKey E.webCrypto sigBase.toList rawSig sigKey (some keyAlg) = false)
    (signatureInvalid "HTTP message signature invalid")

def verifySignatureCandidate (req : BodyRequest) (sigParams : SignatureParams) (rawSig : Bytes)
    (opts : HttpVerificationOptions) : Except HttpError Identity := do
  (opts.requiredComponents.getD defaultComponents).forM (checkRequired sigParams.components)
  let keyId ← orThrow (signatureInvalid "Signature-Input missing required keyid parameter") (keyIdOf sigParams)
  let created ← orThrow (signatureInvalid "Signature-Input missing required created parameter") sigParams.created
  let (domain, kid) ← (parseKeyId E keyId).mapError invalidKeyId
  checkFreshness E created.toRat (sigParams.expires.map JsNumber.toRat)
  let vd ← E.verifyDomain domain
  let sigKey ← orThrow (.verificationError .keyNotFound "request kid not found in signer JWKS" false)
    ((E.jwks vd).find? fun key => key.kid = kid)
  checkContent E req sigParams.components
  checkSignature E req sigParams rawSig sigKey
  return vd

/-! ## The candidates -/

/-- The errors that the loop over the candidates keeps to itself. -/
def HttpError.isCaught : HttpError → Bool
  | .other _ => false
  | _ => true

/-- The loop of `verifyRequestWithinBudget`, at the candidates that are left. -/
def tryCandidates (check : SignatureParams → Except HttpError Identity) :
    List SignatureParams → Option Identity → Option HttpError → Except HttpError Identity
  | [], some verified, _ => .ok verified
  | [], none, some lastError => .error lastError
  | [], none, none => .error (signatureInvalid "no valid HTTP message signature")
  | sigParams :: rest, verified, lastError =>
    match check sigParams with
    | .error error => if error.isCaught then tryCandidates check rest verified (some error) else .error error
    | .ok candidate =>
      if verified.isSome then .error (recordInvalid "multiple valid HTTP message signatures")
      else tryCandidates check rest (some candidate) lastError

def isCandidate (sigs : List (String × Bytes)) (requiredTag : Option String) (params : SignatureParams) : Bool :=
  (sigs.lookup params.label).isSome && requiredTag.all fun tag => params.tag = some tag

def noCandidate (requiredTag : Option String) : String :=
  match requiredTag with
  | none => "expected at least one matching Signature and Signature-Input label"
  | some tag => s!"expected at least one matching Signature and Signature-Input label with tag: {tag}"

def selectSignatureCandidates (inputs : List SignatureParams) (sigs : List (String × Bytes))
    (requiredTag : Option String) : Except HttpError (List SignatureParams) := do
  let matching := inputs.filter (isCandidate sigs requiredTag)
  throwIf (matching = []) (recordInvalid (noCandidate requiredTag))
  return matching

/-- The value of a header that is there and not empty. -/
def headerText (req : BodyRequest) (name : String) : Option Text := ((req.headers.lookup name).map String.toList).filter (· ≠ [])

def verifySignedHttpRequest (req : BodyRequest) (opts : HttpVerificationOptions) : Except HttpError Identity := do
  let missing := signatureInvalid "missing Signature or Signature-Input headers"
  let sigInputHeader ← orThrow missing (headerText req "signature-input")
  let sigHeader ← orThrow missing (headerText req "signature")
  let sigInputs ← parseSignatureInput E.toHttpPlatform sigInputHeader
  let sigs ← parseSignature E.toHttpPlatform sigHeader
  let candidates ← selectSignatureCandidates sigInputs sigs opts.requiredTag
  tryCandidates (fun sigParams => verifySignatureCandidate E req sigParams ((sigs.lookup sigParams.label).getD []) opts)
    candidates none none

end Verify

end Dnsid.HttpSignatures

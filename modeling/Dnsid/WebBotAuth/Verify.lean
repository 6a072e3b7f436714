import Dnsid.Events.Json
import Dnsid.Foundations.Effects
import Dnsid.HttpSignatures.SignatureBase
import Mathlib.Algebra.GroupWithZero.Nat

/-! # Verification of a Web Bot Auth request (`web-bot-auth/src/verify.ts`)

A call is a program over the clock, the fetched directory, the identity resolver, the cooldowns of its profile and
the nonce policy. Every read of `Date.now()` is an effect of its own. A cancelled wait is an effect that fails.
Numbers are exact. Parsers of headers, URLs and JSON, and `directoryFreshness`, are a `WbaPlatform`.
-/
namespace Dnsid.WebBotAuth
open Dnsid.Foundations Dnsid.Events Dnsid.HttpSignatures
set_option autoImplicit false

abbrev Bytes := List UInt8

/-- What `new URL` gives. -/
structure ParsedUrl extends Url where
  href : String
  origin : String
  username : String
  password : String
  hash : String

structure WbaPlatform extends HttpPlatform where
  parseSignatureInput : String → Except HttpError (List SignatureParams)
  parseSignature : String → Except HttpError (List (String × Bytes))
  parseDictionaryField : String → Except HttpError (List (String × Member))
  parseSha256ContentDigest : String → List ComponentIdentifier → Except HttpError Bytes
  sha256 : Bytes → Bytes
  parseUrl : String → Option ParsedUrl
  /-- `normalizeFQDN(name, true)`. -/
  normalizeFQDN : String → Except HttpError String
  normalizedWbaIdentifier : String → Except HttpError String
  fromBase64Url : String → Except HttpError Bytes
  toBase64Url : Bytes → String
  /-- `response.headers.get('Content-Type')?.split(';')[0]?.trim().toLowerCase()`. -/
  mediaType : List (String × String) → Option String
  directoryFreshness : List (String × String) → ℤ → ℤ → Except HttpError (Option ℤ)
  parseJsonNoDuplicateMembers : Bytes → Option Json
  /-- What `discoveryFailure` throws for a cause. -/
  discoveryFailure : HttpError → HttpError

def invalid (message : String) : HttpError := .verificationError .signatureInvalid message false

/-! ## Calls -/

/-- A request as it is received; `requestUrl` is `req.url`. -/
structure ReceivedRequest extends Request where
  requestUrl : String
  hasBody : Bool

structure Discovery where
  uri : String
  type : Option String

structure WbaOptions where
  signerDomain : Option String
  allowSignatureAgentDomain : Bool
  discovery : Option Discovery
  requiredComponents : List ComponentIdentifier
  /-- A nonce policy is given. -/
  consumeNonce : Bool

structure WbaCall where
  req : ReceivedRequest
  opts : WbaOptions

/-- `retainUntil` is `none` if the `Date` is invalid. -/
@[ext]
structure NonceEntry where
  signerDomain : String
  keyid : String
  nonce : String
  retainUntil : Option ℤ
  deriving DecidableEq

structure DirectoryResponse where
  redirected : Bool
  response : Response
  hasBody : Bool

structure VerifiedDomain where
  domain : String
  runtimeKeyURI : String
  /-- `jwks.currentOperationalSigningKey()`, unless it throws. -/
  currentOperationalSigningKey : Option Json
  deriving DecidableEq

inductive WbaEffect where
  | now
  | readRequestBody
  | readDirectoryBody
  | fetchDirectory (url : String)
  | jwkThumbprint (key : Json)
  | verifyWithKey (base : ByteArray) (signature : Bytes) (key : Json)
  | verifyDomain (domain : String)
  | refreshDomain (domain : String)
  | assertFresh (verified : VerifiedDomain)
  | suppressRefresh (domain : String) (now : ℤ)
  | consumeNonce (entry : NonceEntry)

abbrev WbaEffect.Answer : WbaEffect → Type
  | .now => ℤ
  | .readRequestBody | .readDirectoryBody => Bytes
  | .fetchDirectory _ => DirectoryResponse
  | .jwkThumbprint _ => String
  | .verifyWithKey _ _ _ => Bool
  | .verifyDomain _ | .refreshDomain _ => VerifiedDomain
  | .assertFresh _ => Unit
  | .suppressRefresh _ _ => Bool
  | .consumeNonce _ => Bool

abbrev WbaProg := Prog HttpError WbaEffect.Answer

/-- `if (c) invalid(message)`. -/
def invalidIf (c : Prop) [Decidable c] (message : String) : WbaProg Unit := .ofExcept (throwIf c (invalid message))

section Verify
variable (P : WbaPlatform)

/-! ## Selection and validity -/

structure Selected where
  params : SignatureParams
  signature : Bytes

def headerSize (headers : List (String × String)) : ℕ :=
  (headers.map fun header => header.1.length + header.2.length).sum

/-- `url` is given for requests only. -/
def select (headers : List (String × String)) (url : Option String) (tag : String) (keyid : Option String) :
    Except HttpError Selected := do
  throwIf (64 * 1024 < headerSize headers) (invalid "WBA message headers exceed size limit")
  throwIf (url.any (fun text => 16 * 1024 < text.length) = true) (invalid "WBA request URL exceeds size limit")
  let inputs ← P.parseSignatureInput ((headers.lookup "signature-input").getD "")
  let signatures ← P.parseSignature ((headers.lookup "signature").getD "")
  let candidates := inputs.filter fun p =>
    p.tag = some tag && (signatures.lookup p.label).isSome && (keyid.isNone || p.keyId = keyid)
  match candidates with
  | [params] => return ⟨params, (signatures.lookup params.label).getD []⟩
  | _ => throw (invalid "expected exactly one complete WBA profile signature")

/-- `Number.isSafeInteger`. -/
def safeInteger : Option JsNumber → Option ℤ
  | some (.finite value) => if value.den = 1 ∧ value.num.natAbs ≤ 9007199254740991 then some value.num else none
  | _ => none

def isThumbprint (keyId : String) : Bool :=
  keyId.length = 43 && keyId.toList.all fun c => c.isAlphanum || c = '_' || c = '-'

/-- The safe integers `created` and `expires`, in order and at most 300 seconds apart. -/
def lifetime (params : SignatureParams) : Option (ℤ × ℤ) :=
  match safeInteger params.created, safeInteger params.expires with
  | some created, some expires => if created ≤ expires ∧ expires - created ≤ 300 then some (created, expires) else none
  | _, _ => none

def checkKeyId (params : SignatureParams) : Except HttpError Unit := do
  let message := invalid "invalid WBA algorithm or thumbprint"
  throwIf (params.alg ≠ some "ed25519") message
  let keyId ← orThrow message params.keyId
  throwIf (isThumbprint keyId = false) message
  let bytes ← P.fromBase64Url keyId
  throwIf (P.toBase64Url bytes ≠ keyId) message

/-- `now` is in milliseconds. -/
def NotCurrentlyValid (created expires : ℤ) (skew : ℚ) (directory : Bool) (now : ℤ) : Prop :=
  (created : ℚ) > (now : ℚ) / 1000 + (if directory then 0 else skew) ∨ (expires : ℚ) < (now : ℚ) / 1000 - skew

instance (created expires : ℤ) (skew : ℚ) (directory : Bool) (now : ℤ) :
    Decidable (NotCurrentlyValid created expires skew directory now) := inferInstanceAs (Decidable (_ ∨ _))

def validity (params : SignatureParams) (skew : ℚ) (directory : Bool) : WbaProg Unit := do
  let (created, expires) ← .ofExcept (orThrow (invalid "invalid WBA signature lifetime") (lifetime params))
  .ofExcept (checkKeyId P params)
  let now ← .perform .now
  invalidIf (NotCurrentlyValid created expires skew directory now) "WBA signature is not currently valid"

def covers (params : SignatureParams) (component : ComponentIdentifier) : Except HttpError Unit :=
  throwIf (params.components.any (fun c => sameComponent c component) = false)
    (invalid "missing required WBA component coverage")

/-- `read` reads the bounded body. -/
def digest (headers : List (String × String)) (hasBody : Bool) (params : SignatureParams) (read : WbaProg Bytes) :
    WbaProg Bytes := do
  if hasBody = false then
    invalidIf (hasComponentNamed params.components "content-digest" = true) "covered digest without supplied content"
    return []
  .ofExcept (covers params (.name "content-digest"))
  let expected ← .ofExcept (P.parseSha256ContentDigest ((headers.lookup "content-digest").getD "") params.components)
  let bytes ← read
  invalidIf (expected ≠ P.sha256 bytes) "WBA Content-Digest mismatch"
  return bytes

/-! ## The signer and its endpoint -/

def endpoint (uri type : String) (domain : Option String) : Except HttpError ParsedUrl := do
  throwIf (16 * 1024 < uri.length) (invalid "WBA discovery URI exceeds size limit")
  let url ← orThrow (invalid "invalid WBA discovery URI") (P.parseUrl uri)
  throwIf (url.protocol ≠ "https:" ∨ url.username ≠ "" ∨ url.password ≠ "") (invalid "WBA discovery requires HTTPS")
  let host ← (P.normalizeFQDN url.hostname).mapError fun _ => invalid "invalid WBA discovery host"
  throwIf (host = "localhost" ∨ ".localhost".toList <:+ host.toList ∨ ".local".toList <:+ host.toList ∨
      (domain.any fun d => d ≠ "" && host ≠ d) = true)
    (invalid "unapproved WBA discovery host")
  if type = "directory" then
    throwIf (uri ≠ url.origin) (invalid "WBA directory Signature-Agent must be an origin URI")
    orThrow (.other "Invalid URL") (P.parseUrl (url.origin ++ "/.well-known/http-message-signatures-directory"))
  else
    throwIf (type ≠ "jwks_uri" ∨ url.hash ≠ "") (invalid "unsupported WBA discovery type or fragment")
    return url

/-- `signature-agent` with a `key` and no other parameter. -/
def agentKey (component : ComponentIdentifier) : Option String :=
  match component with
  | .object "signature-agent" (some ⟨[("key", .str key)], _⟩) => some key
  | _ => none

def agentType : Option BareItem → Except HttpError String
  | none => .ok "directory"
  | some (.token text) => .ok text
  | some _ => .error (invalid "Signature-Agent type must be a token")

structure Signer where
  domain : String
  url : ParsedUrl

/-- The signer domain, from the policy and the covered `Signature-Agent` member. -/
def signerOf (call : WbaCall) (params : SignatureParams) : Except HttpError Signer := do
  let trusted ← match call.opts.signerDomain with
    | none => .ok none
    | some name => (P.normalizeFQDN name).map some
  let agent ← orThrow (invalid "Signature-Agent is required") (call.req.headers.lookup "signature-agent")
  throwIf (16 * 1024 < agent.length) (invalid "Signature-Agent exceeds size limit")
  let key ← match params.components.filterMap agentKey with
    | [key] => .ok key
    | _ => .error (invalid "expected one covered Signature-Agent member")
  let dictionary ← P.parseDictionaryField agent
  let (uri, type) ← match dictionary.lookup key with
    | some (.item (.str uri, memberParams)) => .ok (uri, memberParams.lookup "type")
    | _ => .error (invalid "invalid Signature-Agent member")
  let type ← agentType type
  let url ← endpoint P uri type trusted
  let domain ← match trusted.filter (· ≠ "") with
    | some domain => .ok domain
    | none => if call.opts.allowSignatureAgentDomain = true then P.normalizeFQDN url.hostname else .ok ""
  throwIf (domain = "") (.argumentError "trusted signer domain policy is required")
  match call.opts.discovery with
  | none => .ok ()
  | some discovery => do
    let trustedUrl ← endpoint P discovery.uri (discovery.type.getD "directory") (some domain)
    throwIf (trustedUrl.href ≠ url.href) (invalid "Signature-Agent does not match trusted discovery")
  return ⟨domain, url⟩

/-! ## The directory -/

mutual

/-- `boundedDepth`: the value is not nested more than 16 deep, from `depth` on. -/
def boundedDepth : ℕ → Json → Bool
  | depth, .arr items => depth ≤ 16 && boundedItems (depth + 1) items
  | depth, .obj members => depth ≤ 16 && boundedMembers (depth + 1) members
  | depth, _ => depth ≤ 16

def boundedItems : ℕ → List Json → Bool
  | _, [] => true
  | depth, item :: items => boundedDepth depth item && boundedItems depth items

def boundedMembers : ℕ → List (String × Json) → Bool
  | _, [] => true
  | depth, (_, value) :: members => boundedDepth depth value && boundedMembers depth members

end

/-- The array of keys, of 1 to 64. -/
def directoryKeys (document : Json) : Except HttpError (List Json) :=
  let message := invalid "invalid WBA directory key count"
  match document.get? "keys" with
  | some (.arr keys) => do
    throwIf (keys.length = 0 ∨ 64 < keys.length) message
    return keys
  | _ => .error message

def isVerifyOperations : Option Json → Bool
  | none => true
  | some (.arr operations) => operations.contains (.str "verify") &&
      operations.all (fun op => op = .str "sign" || op = .str "verify") && operations.Nodup
  | some _ => false

/-- The checks on one key of the directory. -/
def checkDirectoryKey (key : Json) : Except HttpError Unit := do
  throwIf (key.members?.isNone = true) (invalid "invalid directory JWK")
  let message := invalid "invalid public Ed25519 directory key"
  throwIf (key.get? "kty" ≠ some (.str "OKP") ∨ key.get? "crv" ≠ some (.str "Ed25519")) message
  let x ← orThrow message ((key.get? "x").bind Json.str?)
  throwIf (isThumbprint x = false) message
  let bytes ← P.fromBase64Url x
  throwIf (P.toBase64Url bytes ≠ x ∨ (key.get? "d").isSome ∨
    ((key.get? "alg").any (· ≠ .str "ed25519")) = true ∨ ((key.get? "use").any (· ≠ .str "sig")) = true) message
  throwIf (isVerifyOperations (key.get? "key_ops") = false) (invalid "invalid directory JWK key_ops")

/-- The keys whose `kid` is `keyId`; each key's `kid` is its thumbprint. -/
def matchingKeys (keyId : Option String) : List Json → WbaProg (List (Json × String))
  | [] => return []
  | key :: keys => do
    .ofExcept (checkDirectoryKey P key)
    let kid ← .perform (.jwkThumbprint key)
    invalidIf (key.get? "kid" ≠ some (.str kid)) "directory JWK thumbprint mismatch"
    let rest ← matchingKeys keyId keys
    return if some kid = keyId then (key, kid) :: rest else rest

def signature (message : HttpMessage) (params : SignatureParams) (raw : Bytes) (key : Json) : WbaProg Unit :=
  Prog.tryCatch
    (do
      let base ← .ofExcept (buildSignatureInput P.toHttpPlatform message params)
      let valid ← .perform (.verifyWithKey base raw key)
      invalidIf (valid = false) "invalid WBA signature")
    fun cause =>
      match cause with
      | .verificationError _ _ _ => .throw cause
      | _ => .throw (invalid "invalid WBA signature or key")

def directoryRequest (url : ParsedUrl) : Request :=
  ⟨"GET", url.toUrl, [("accept-encoding", "identity"), ("cache-control", "no-cache")]⟩

def checkDirectoryResponse (fetched : DirectoryResponse) : Except HttpError Unit := do
  let response := fetched.response
  throwIf (fetched.redirected = true) (invalid "discovery transport followed an unchecked redirect")
  throwIf (500 ≤ response.status ∨ response.status = 408 ∨ response.status = 429)
    (.verificationError .tlsError "WBA directory temporarily unavailable" true)
  throwIf ((response.headers.lookup "content-encoding").isSome = true)
    (invalid "coded WBA directory responses are unsupported")
  throwIf (response.status ≠ 200 ∨
      P.mediaType response.headers ≠ some "application/http-message-signatures-directory+json")
    (invalid "invalid WBA directory response")

def directoryComponents : List ComponentIdentifier :=
  [.object "@authority" (some ⟨[("req", .bool true)], List.nodup_singleton _⟩), .name "content-type",
    .name "cache-control", .name "content-digest"]

structure Directory where
  selected : Selected
  deadline : Option ℤ
  key : Json
  kid : String

def directoryDocument (bytes : Bytes) : Except HttpError (List Json) := do
  let document ← orThrow (invalid "invalid WBA directory JSON") (P.parseJsonNoDuplicateMembers bytes)
  throwIf (boundedDepth 0 document = false) (invalid "WBA directory JSON is too deep")
  directoryKeys document

/-- Fetches the directory and finds the key in it that verifies both signatures. -/
def discover (skew : ℚ) (call : WbaCall) (request : Selected) (url : ParsedUrl) : WbaProg Directory := do
  let fetchStarted ← .perform .now
  let fetched : DirectoryResponse ← Prog.tryCatch (.perform (WbaEffect.fetchDirectory url.href)) fun cause => .throw (P.discoveryFailure cause)
  .ofExcept (checkDirectoryResponse P fetched)
  let received ← .perform .now
  let deadline ← .ofExcept (P.directoryFreshness fetched.response.headers fetchStarted received)
  let selected ← .ofExcept (select P fetched.response.headers none "http-message-signatures-directory"
    request.params.keyId)
  validity P selected.params skew true
  .ofExcept (directoryComponents.forM (covers selected.params))
  let bytes ← Prog.tryCatch (digest P fetched.response.headers fetched.hasBody selected.params
      (.perform WbaEffect.readDirectoryBody)) fun cause => .throw (P.discoveryFailure cause)
  let keys ← .ofExcept (directoryDocument P bytes)
  let candidates ← matchingKeys P request.params.keyId keys
  match candidates with
  | [(key, kid)] => do
    signature P ⟨.response fetched.response, some (directoryRequest url)⟩ selected.params selected.signature key
    signature P ⟨.request call.req.toRequest, none⟩ request.params request.signature key
    return ⟨selected, deadline, key, kid⟩
  | _ => .throw (invalid "expected one matching WBA directory key")

/-! ## The binding to the identity -/

/-- `fresh()`. -/
def fresh (skew : ℚ) (request : Selected) (directory : Directory) (verified : VerifiedDomain) : WbaProg Unit := do
  validity P request.params skew false
  validity P directory.selected.params skew true
  match directory.deadline with
  | none => pure ()
  | some deadline => do
    let now ← .perform .now
    invalidIf (deadline ≤ now) "HTTP-stale WBA directory"
  .perform (WbaEffect.assertFresh verified)

/-- `bound()`. -/
def bound (skew : ℚ) (request : Selected) (signer : Signer) (directory : Directory) (verified : VerifiedDomain) :
    WbaProg Bool := do
  fresh P skew request directory verified
  invalidIf (verified.domain ≠ signer.domain) "DNSid signer domain mismatch"
  if verified.runtimeKeyURI ≠ "" then
    let discovered ← .ofExcept (P.normalizedWbaIdentifier signer.url.href)
    let runtime ← .ofExcept (P.normalizedWbaIdentifier verified.runtimeKeyURI)
    invalidIf (discovered = runtime) "WBA discovery must be separate from the authenticated ku endpoint"
  let operationalKey ← .ofExcept (orThrow (invalid "DNSid current operational signing key is unavailable")
    verified.currentOperationalSigningKey)
  let thumbprint ← .perform (.jwkThumbprint operationalKey)
  return thumbprint = directory.kid

/-- The identity that the key is bound to, refreshed once if it is not. -/
def boundIdentity (skew : ℚ) (request : Selected) (signer : Signer) (directory : Directory) :
    WbaProg VerifiedDomain := do
  let verified ← .perform (.verifyDomain signer.domain)
  let isBound ← bound P skew request signer directory verified
  if isBound then return verified
  let now ← .perform .now
  let suppressed ← .perform (.suppressRefresh signer.domain now)
  invalidIf (suppressed = true) "WBA key-mismatch refresh suppressed"
  let verified ← .perform (.refreshDomain signer.domain)
  let isBound ← bound P skew request signer directory verified
  invalidIf (isBound = false) "WBA key is not bound to the current DNSid operational signing key"
  return verified

/-! ## The verification -/

/-- `new Date(milliseconds)`: an instant within 8.64e15 milliseconds of the epoch, truncated. -/
def dateOf (milliseconds : ℚ) : Option ℤ :=
  if -8640000000000000 ≤ milliseconds ∧ milliseconds ≤ 8640000000000000 then some (milliseconds.num.tdiv milliseconds.den) else none

/-- `expires` is a safe integer once the validity was checked. -/
def nonceEntry (skew : ℚ) (request : Selected) (signer : Signer) (directory : Directory) (nonce : String) :
    NonceEntry :=
  ⟨signer.domain, directory.kid, nonce, dateOf ((((safeInteger request.params.expires).getD 0 : ℤ) + skew) * 1000)⟩

/-- `invalid('replay policy requires a non-empty nonce')`, or the entry is consumed. -/
def consume (skew : ℚ) (call : WbaCall) (request : Selected) (signer : Signer) (directory : Directory) :
    WbaProg Unit := do
  if call.opts.consumeNonce then
    let nonce ← .ofExcept (orThrow (invalid "replay policy requires a non-empty nonce")
      (request.params.nonce.filter (· ≠ "")))
    let accepted ← .perform (.consumeNonce (nonceEntry skew request signer directory nonce))
    invalidIf (accepted = false) "replayed WBA nonce"

def isRequestComponent (component : ComponentIdentifier) : Bool :=
  componentName component ≠ "@status" && (componentParams component).lookup "req" ≠ some (.bool true)

def checkRequiredComponent (component : ComponentIdentifier) : Except HttpError Unit := do
  validateComponentIdentifier component
  throwIf (isRequestComponent component = false)
    (.argumentError "requiredComponents must contain only request components")

def selectRequest (call : WbaCall) : Except HttpError Selected :=
  select P call.req.headers (some call.req.requestUrl) "web-bot-auth" none

/-- From the verified signer on: the key is discovered and bound, and the nonce consumed. -/
def accept (skew : ℚ) (call : WbaCall) (request : Selected) (signer : Signer) : WbaProg VerifiedDomain := do
  let directory ← discover P skew call request signer.url
  let verified ← boundIdentity P skew request signer directory
  fresh P skew request directory verified
  consume skew call request signer directory
  fresh P skew request directory verified
  return verified

def verifyWebBotAuthRequest (skew : ℚ) (call : WbaCall) : WbaProg VerifiedDomain := do
  .ofExcept (call.opts.requiredComponents.forM checkRequiredComponent)
  let request ← .ofExcept (selectRequest P call)
  validity P request.params skew false
  .ofExcept (covers request.params (.name "@authority"))
  .ofExcept (call.opts.requiredComponents.forM (covers request.params))
  let _ ← digest P call.req.headers call.req.hasBody request.params (.perform WbaEffect.readRequestBody)
  let signer ← .ofExcept (signerOf P call request.params)
  accept P skew call request signer

end Verify

end Dnsid.WebBotAuth

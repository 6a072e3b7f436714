import Mathlib.Data.Rat.Defs
import Dnsid.Foundations.Effects
import Dnsid.Transport.IpAddresses

/-! # Fetching over HTTPS (`transport/src/index.ts`)

`fetchJson` and the fetch of `createSsrfSafeFetch`, over the effect of one HTTPS request. The URL parser, JSON and the
connections are the runtime's; which addresses a name resolves to is what a DNS server says.
-/
namespace Dnsid.Transport.Https
open Dnsid.Foundations
set_option autoImplicit false

abbrev Text := List Char

/-! ## Errors -/

inductive FetchErrorCode where
  | tlsError
  | httpError
  | recordInvalid
  | argument
  deriving DecidableEq, Repr

/-- A `VerificationError`, or an `ArgumentError`. -/
structure FetchError where
  message : Text
  code : FetchErrorCode
  transient : Bool
  deriving DecidableEq, Repr

def tlsFailure (message : Text) : FetchError := ⟨message, .tlsError, false⟩

/-- An error of the socket; `code` is its `code`. -/
structure Errno where
  message : Text
  code : Option String

def httpsTransportError (cause : Errno) : FetchError :=
  let isTls := cause.code = some "DEPTH_ZERO_SELF_SIGNED_CERT" || cause.code = some "CERT_HAS_EXPIRED" ||
    cause.code = some "ERR_TLS_CERT_ALTNAME_INVALID" || cause.code = some "UNABLE_TO_VERIFY_LEAF_SIGNATURE"
  ⟨"HTTPS fetch failed: ".toList ++ cause.message, .tlsError, !isTls⟩

/-! ## The platform -/

/-- A parsed `URL`. -/
structure ParsedUrl where
  protocol : Text
  username : Text
  password : Text
  hostname : Text
  port : Text
  pathname : Text
  search : Text
  hash : Text
  href : Text

structure HttpsPlatform (Data : Type) where
  /-- `new URL(text)`. -/
  parseUrl : Text → Option ParsedUrl
  /-- `new URL(location, base)`. -/
  resolveUrl : Text → Text → Option ParsedUrl
  toLowerCase : Text → Text
  jsonParse : String → Option Data
  /-- The host of a URL that starts with a bracket is an IPv6 address in brackets. -/
  bracketed : ∀ text url, parseUrl text = some url → url.hostname.head? = some '[' →
    ∃ address, url.hostname = '[' :: (address ++ [']'])

/-! ## Options -/

structure HTTPSFetchOptions where
  allowedHost : Option Text
  domainBoundary : Bool
  caBundlePath : Option Text
  dnsServer : Option Text
  maxResponseBytes : Option ℕ
  privateAddressHosts : List Text

/-- True if host equals allowedHost, or is a subdomain of it when domainBoundary is set. -/
def hostAllowed (host allowedHost : Text) (domainBoundary : Bool) : Bool :=
  host = allowedHost || (domainBoundary && ('.' :: allowedHost).isSuffixOf host)

/-- `opts.allowedHost && !hostAllowed(…)`. -/
def hostRefused (opts : HTTPSFetchOptions) (host : Text) : Bool :=
  opts.allowedHost.any fun allowedHost => allowedHost ≠ [] && !hostAllowed host allowedHost opts.domainBoundary

/-- `text.replace(/\.$/, '')`. -/
def withoutLastDot (text : Text) : Text := if text.getLast? = some '.' then text.dropLast else text

/-- `IPV4_LITERAL_RE`. -/
def isIpv4Literal (host : Text) : Bool :=
  (host.splitOn '.').length = 4 &&
    (host.splitOn '.').all fun part => part ≠ [] && part.length ≤ 3 && part.all Char.isDigit

def isHostChar (c : Char) : Bool := ('a' ≤ c && c ≤ 'z') || c.isDigit

/-- `HOSTNAME_RE`. -/
def isHostname (host : Text) : Bool :=
  (host.splitOn '.').all fun label =>
    label.head?.any isHostChar && label.getLast?.any isHostChar && label.all fun c => isHostChar c || c = '-'

section Platform
variable {Data : Type} (P : HttpsPlatform Data)

def normalizePrivateAddressHost (entry : Text) : Except FetchError Text := do
  let invalid : FetchError := ⟨"invalid privateAddressHosts entry: ".toList ++ entry, .argument, false⟩
  let suffix := entry.head? = some '.'
  let host := if suffix then entry.tail else entry
  let parsed ← orThrow invalid (P.parseUrl ("https://".toList ++ host))
  throwIf (host = [] ∨ '/' ∈ host ∨ ':' ∈ host ∨ parsed.username ≠ [] ∨ parsed.password ≠ [] ∨ parsed.port ≠ [] ∨
    parsed.pathname ≠ ['/'] ∨ parsed.search ≠ [] ∨ parsed.hash ≠ [] ∨ parsed.hostname.head? = some '[' ∨
    isIpv4Literal parsed.hostname = true) invalid
  let normalized := withoutLastDot parsed.hostname
  throwIf (isHostname normalized = false) invalid
  return (if suffix then ['.'] else []) ++ normalized

def privateAddressHostMatches (hostname : Text) (privateAddressHosts : List Text) : Bool :=
  let host := withoutLastDot (P.toLowerCase hostname)
  privateAddressHosts.any fun entry =>
    if entry.head? = some '.' then host = entry.tail || entry.isSuffixOf host else host = entry

/-! ## Lookups -/

/-- `isUnsafeIp` of an address; it never throws (`isUnsafeIp_total`). -/
def isUnsafe (address : Text) : Bool := isUnsafeIp address = .ok true

def isPrivate (address : Text) : Bool := isPrivateOrLoopbackIp address = .ok true

/-- What the resolver answers to each query. -/
structure DnsAnswers where
  /-- Of the system, for any family. -/
  lookup : Except Errno (List Text)
  resolve4 : Except Errno (List Text)
  resolve6 : Except Errno (List Text)
  /-- The name of a custom server resolves. -/
  server : Except Errno Unit

/-- Resolves a hostname to A/AAAA addresses (passing IP literals through), throwing when none exist. -/
def resolveAddresses (hostname : Text) (family : Option ℕ) (custom : Bool) (answers : DnsAnswers) :
    Except Errno (List Text) := do
  if isIP hostname = 4 ∨ isIP hostname = 6 then return [hostname]
  let addresses ←
    if custom then
      match family with
      | some 6 => answers.resolve6
      | some 4 => answers.resolve4
      | _ => .ok (answers.resolve4.toOption.getD [] ++ answers.resolve6.toOption.getD [])
    else answers.lookup
  throwIf (addresses = []) ⟨"no A/AAAA records for ".toList ++ hostname, none⟩
  return addresses

/-- One unsafe address refuses them all, unless all are private and the host may resolve to private ones. -/
def assertSafeAddresses (privateAddressHosts : List Text) (hostname : Text) (addresses : List Text) :
    Except Errno Unit :=
  match addresses.find? isUnsafe with
  | some unsafeAddress =>
    throwIf (¬ (privateAddressHostMatches P hostname privateAddressHosts = true ∧ addresses.all isPrivate = true))
      ⟨"unsafe resolved IP address for ".toList ++ hostname ++ ": ".toList ++ unsafeAddress, none⟩
  | none => .ok ()

def customResolver (custom : Bool) (answers : DnsAnswers) : Except Errno Unit :=
  if custom then answers.server else .ok ()

/-- The function that `createSsrfSafeLookup` makes: what its callback gets. -/
def ssrfSafeLookup (dnsServer : Option Text) (privateAddressHosts : List Text) (hostname : Text) (family : Option ℕ)
    (all : Bool) (answers : DnsAnswers) : Except Errno (List Text) := do
  let custom := dnsServer.any (· ≠ [])
  customResolver custom answers
  let addresses ← resolveAddresses hostname family custom answers
  assertSafeAddresses P privateAddressHosts hostname addresses
  return if all then addresses else addresses.take 1

end Platform

/-! ## Requests -/

/-- Who keeps the connections: `protocolAgent`, or the agent of a fetch that `createSsrfSafeFetch` made. -/
inductive Agent where
  | protocol
  | dispatcher (n : ℕ)
  deriving DecidableEq

structure HttpsRequest where
  agent : Agent
  url : ParsedUrl
  caBundlePath : Option Text
  dnsServer : Option Text
  /-- Normalized. -/
  privateAddressHosts : List Text

structure PeerCertificate where
  validTo : Text
  subjectAltName : Option Text

structure HttpsResponse where
  statusCode : ℕ
  location : Option Text
  /-- `Number(headers['content-length'])`, when that is finite. -/
  contentLength : Option ℚ
  certificate : PeerCertificate
  /-- The chunks of the body, and the error of the stream if it does not end. -/
  chunks : List String
  streamError : Option Text

inductive HttpsEffect where
  | get (request : HttpsRequest)

def HttpsEffect.request : HttpsEffect → HttpsRequest
  | .get request => request

def HttpsEffect.Answer : HttpsEffect → Type
  | .get _ => HttpsResponse

abbrev HttpsProg (α : Type) := Prog FetchError HttpsEffect.Answer α

def get (request : HttpsRequest) : HttpsProg HttpsResponse := .perform (HttpsEffect.get request)

/-! ## Responses -/

structure TLSCertificate where
  notAfter : Text
  san : List Text
  deriving DecidableEq

structure FetchResult (Data : Type) where
  data : Data
  tlsCert : TLSCertificate

/-- `text.split(', ')`. -/
def splitCommas : Text → List Text
  | [] => [[]]
  | [c] => [[c]]
  | c :: d :: text => if c = ',' ∧ d = ' ' then [] :: splitCommas text else (splitCommas (d :: text)).modifyHead (c :: ·)

def sanOf (subjectAltName : Text) : List Text :=
  (splitCommas subjectAltName).filterMap fun part =>
    if "DNS:".toList.isPrefixOf part then some (part.drop 4) else none

def tlsCertificateOf (certificate : PeerCertificate) : TLSCertificate :=
  ⟨certificate.validTo, (certificate.subjectAltName.map sanOf).getD []⟩

def tooLarge (maxBodyBytes : ℕ) : FetchError :=
  tlsFailure ("response body exceeds ".toList ++ Nat.toDigits 10 maxBodyBytes ++ " byte limit".toList)

/-- The `data` events of a body. -/
def readBody (maxBodyBytes : ℕ) : String → ℕ → List String → Except FetchError String
  | body, _, [] => .ok body
  | body, bodyBytes, chunk :: chunks =>
    if maxBodyBytes < bodyBytes + chunk.utf8ByteSize then .error (tooLarge maxBodyBytes)
    else readBody maxBodyBytes (body ++ chunk) (bodyBytes + chunk.utf8ByteSize) chunks

def DEFAULT_MAX_RESPONSE_BYTES : ℕ := 1 * 1024 * 1024

section Programs
variable {Data : Type} (P : HttpsPlatform Data)

def readResponse (opts : HTTPSFetchOptions) (res : HttpsResponse) : Except FetchError (FetchResult Data) := do
  throwIf (res.statusCode ≠ 200)
    ⟨"unexpected HTTP status ".toList ++ Nat.toDigits 10 res.statusCode, .httpError, 500 ≤ res.statusCode⟩
  let maxBodyBytes := opts.maxResponseBytes.getD DEFAULT_MAX_RESPONSE_BYTES
  throwIf (∃ length ∈ res.contentLength, (maxBodyBytes : ℚ) < length) (tooLarge maxBodyBytes)
  let body ← readBody maxBodyBytes "" 0 res.chunks
  match res.streamError with
  | some message => .error ⟨"response stream error: ".toList ++ message, .tlsError, true⟩
  | none => .ok ()
  let data ← orThrow ⟨"response body is not valid JSON".toList, .recordInvalid, false⟩ (P.jsonParse body)
  return ⟨data, tlsCertificateOf res.certificate⟩

/-- The checks of a URL before it is requested. -/
def checkUrl (opts : HTTPSFetchOptions) (url : Text) : Except FetchError ParsedUrl := do
  let urlObj ← orThrow (tlsFailure ("invalid URL: ".toList ++ url)) (P.parseUrl url)
  throwIf (urlObj.protocol ≠ "https:".toList) (tlsFailure "only HTTPS URLs are permitted".toList)
  throwIf (hostRefused opts urlObj.hostname = true) (tlsFailure ("URL host not permitted: expected ".toList ++
    opts.allowedHost.getD [] ++ ", got ".toList ++ urlObj.hostname))
  throwIf (isUnsafe urlObj.hostname = true)
    (tlsFailure ("unsafe HTTPS target IP address: ".toList ++ urlObj.hostname))
  return urlObj

/-- Where a redirect leads. -/
def redirectTarget (opts : HTTPSFetchOptions) (url : Text) (res : HttpsResponse) : Except FetchError Text := do
  let location ← orThrow (tlsFailure "redirect with no Location header".toList) (res.location.filter (· ≠ []))
  let redirectUrl ← orThrow (tlsFailure ("invalid redirect URL: ".toList ++ location)) (P.resolveUrl location url)
  throwIf (redirectUrl.protocol ≠ "https:".toList) (tlsFailure "redirect to non-HTTPS URL".toList)
  throwIf (hostRefused opts redirectUrl.hostname = true) (tlsFailure ("redirect changes host: expected ".toList ++
    opts.allowedHost.getD [] ++ ", got ".toList ++ redirectUrl.hostname))
  return redirectUrl.href

def requestOf (opts : HTTPSFetchOptions) (url : ParsedUrl) (privateAddressHosts : List Text) : HttpsRequest :=
  ⟨.protocol, url, opts.caBundlePath, opts.dnsServer, privateAddressHosts⟩

/-- With `remaining` for `6 - depth`. -/
def fetchWithRedirects (opts : HTTPSFetchOptions) : ℕ → Text → HttpsProg (FetchResult Data)
  | 0, _ => .throw (tlsFailure "too many redirects".toList)
  | remaining + 1, url => do
    let urlObj ← .ofExcept (checkUrl P opts url)
    let privateAddressHosts ← .ofExcept (opts.privateAddressHosts.mapM (normalizePrivateAddressHost P))
    let res ← get (requestOf opts urlObj privateAddressHosts)
    if 300 ≤ res.statusCode ∧ res.statusCode < 400 then do
      let next ← .ofExcept (redirectTarget P opts url res)
      fetchWithRedirects opts remaining next
    else .ofExcept (readResponse P opts res)

def fetchJson (opts : HTTPSFetchOptions) (url : Text) : HttpsProg (FetchResult Data) := fetchWithRedirects P opts 6 url

/-- A fetch that `createSsrfSafeFetch` made; redirects are returned. -/
structure SafeFetch where
  dispatcher : ℕ
  caBundlePath : Option Text
  dnsServer : Option Text
  /-- Normalized when the fetch was made. -/
  privateAddressHosts : List Text

def ssrfSafeFetch (fetch : SafeFetch) (url : Text) : HttpsProg HttpsResponse := do
  let urlObj ← .ofExcept (orThrow ⟨"Invalid URL".toList, .argument, false⟩ (P.parseUrl url))
  .ofExcept (throwIf (isUnsafe urlObj.hostname = true)
    (tlsFailure ("unsafe target IP address: ".toList ++ urlObj.hostname)))
  get ⟨.dispatcher fetch.dispatcher, urlObj, fetch.caBundlePath, fetch.dnsServer, fetch.privateAddressHosts⟩

end Programs

end Dnsid.Transport.Https

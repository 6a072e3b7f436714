import Dnsid.Checkpoint.SignedNote
import Dnsid.Foundations.ExceptRun

/-! # Log references (`log-c2sp-tlog/src/lr.ts`)

A URL is a record of its components, with the getters and the serialization of a URL that has a host; its parser and
the setters are the parameters of `UrlPlatform`. Texts are lists of characters, and `toLowerCase` of a scheme or a host
name, which are ASCII, is that of ASCII letters.
-/
namespace Dnsid.References
open Dnsid.Foundations
open Dnsid.Checkpoint (isJsSpace hexValue)
set_option autoImplicit false

abbrev Text := List Char

/-! ## URLs -/

structure Url where
  scheme : Text
  username : Text
  password : Text
  hostname : Text
  port : Option ℕ
  pathname : Text
  query : Option Text
  fragment : Option Text
  deriving DecidableEq

namespace Url

def protocol (url : Url) : Text := url.scheme ++ [':']

/-- The text of the port after a mark, if the URL has one. -/
def portText (mark : Text) (url : Url) : Text := (url.port.map fun port => mark ++ Nat.toDigits 10 port).getD []

def host (url : Url) : Text := url.hostname ++ url.portText [':']

/-- The empty text for an empty query as for none. -/
def search (url : Url) : Text := if url.query.getD [] = [] then [] else '?' :: url.query.getD []

/-- As `search`. -/
def hash (url : Url) : Text := if url.fragment.getD [] = [] then [] else '#' :: url.fragment.getD []

def credentials (url : Url) : Text :=
  if url.username = [] ∧ url.password = [] then []
  else url.username ++ (if url.password = [] then [] else ':' :: url.password) ++ ['@']

/-- What follows the path: `?` and `#` stand there also when nothing comes after them. -/
def afterPath (url : Url) : Text :=
  (url.query.map fun query => '?' :: query).getD [] ++ (url.fragment.map fun fragment => '#' :: fragment).getD []

/-- `toString()` of a URL with a host. -/
def href (url : Url) : Text :=
  url.protocol ++ ['/', '/'] ++ url.credentials ++ url.host ++ url.pathname ++ url.afterPath

end Url

structure UrlPlatform where
  /-- `new URL(text)`, or the text of what it throws. -/
  parse : Text → Except String Url
  /-- `url.protocol = value`. -/
  setProtocol : Url → Text → Url
  /-- `url.hostname = value`. -/
  setHostname : Url → Text → Url
  /-- `url.pathname = value`. -/
  setPathname : Url → Text → Url

/-! ## Log prefixes -/

def isSchemeChar (c : Char) : Bool := c.isAlphanum || c = '+' || c = '.' || c = '-'

/-- `raw` without what `/^[a-z][a-z0-9+.-]*:\/\/[^/?#]*/i` matches. -/
def withoutAuthority (raw : Text) : Text :=
  let afterScheme := raw.dropWhile isSchemeChar
  if (raw.head?.any Char.isAlpha) = true ∧ afterScheme.take 3 = "://".toList then
    (afterScheme.drop 3).dropWhile fun c => c ≠ '/' && c ≠ '?' && c ≠ '#'
  else raw

def rawPath (raw : Text) : Text := if withoutAuthority raw = [] then ['/'] else withoutAuthority raw

/-- `/(^|\/)\.\.?($|\/)/`. -/
def hasDotSegment (path : Text) : Bool := (path.splitOn '/').any fun segment => segment = ['.'] || segment = ['.', '.']

/-- `/%2f|%5c/i`. -/
def encodesSlash : Text → Bool
  | a :: b :: c :: rest =>
    a = '%' && ((b = '2' && c.toLower = 'f') || (b = '5' && c.toLower = 'c')) || encodesSlash (b :: c :: rest)
  | _ => false

/-- `/[A-Za-z0-9._~-]/`. -/
def isUnreserved (c : Char) : Bool := c.isAlphanum || c = '.' || c = '_' || c = '~' || c = '-'

/-- The character of two hexadecimal digits. -/
def hexChar (a b : Char) : Option Char := do
  let high ← hexValue a
  let low ← hexValue b
  return Char.ofNat (high * 16 + low)

def normalizePercentPath : Text → Text
  | c :: a :: b :: rest =>
    if c = '%' then
      match hexChar a b with
      | some ch =>
        if isUnreserved ch then ch :: normalizePercentPath rest
        else c :: a.toUpper :: b.toUpper :: normalizePercentPath rest
      | none => c :: normalizePercentPath (a :: b :: rest)
    else c :: normalizePercentPath (a :: b :: rest)
  | path => path

/-- `out.endsWith('/') ? out.slice(0, -1) : out`, as `replace(/\/$/, '')`. -/
def trimSlash (text : Text) : Text := if text.getLast? = some '/' then text.dropLast else text

variable (P : UrlPlatform)

/-- What the setters make of the URL. -/
def canonicalUrl (url : Url) (scheme : Text) : Url :=
  let url := P.setProtocol url scheme
  let url := P.setHostname url (url.hostname.map Char.toLower)
  let url :=
    if scheme = "https:".toList ∧ url.portText [] = "443".toList ∨
        scheme = "http:".toList ∧ url.portText [] = "80".toList then
      { url with port := none }
    else url
  P.setPathname url (normalizePercentPath url.pathname)

def canonicalLogPrefix (raw : Text) : Except Thrown Text := do
  throwIf (raw.any fun c => c = ';' || isJsSpace c)
    (.parseError "log prefix must percent-encode DNS TXT tag delimiters")
  throwIf (hasDotSegment (rawPath raw)) (.parseError "log prefix must not contain dot segments")
  let url ← (P.parse raw).mapError fun cause => .parseError ("invalid log prefix URL: " ++ cause)
  throwIf (url.username ≠ [] ∨ url.password ≠ []) (.parseError "log prefix must not contain userinfo")
  throwIf (url.search ≠ [] ∨ url.hash ≠ []) (.parseError "log prefix must not contain query or fragment")
  throwIf (url.pathname ≠ ['/'] ∧ url.pathname.getLast? = some '/')
    (.parseError "log prefix must not have trailing slash")
  throwIf (encodesSlash url.pathname) (.parseError "log prefix must not percent-encode slash or backslash")
  throwIf (url.protocol.map Char.toLower ≠ "https:".toList ∧ url.protocol.map Char.toLower ≠ "http:".toList)
    (.parseError "unsupported log prefix scheme")
  return trimSlash (canonicalUrl P url (url.protocol.map Char.toLower)).href

def checkpointOrigin (logPrefix : Text) : Except Thrown Text := do
  let url ← (P.parse logPrefix).mapError .other
  return trimSlash (url.host ++ url.pathname)

/-! ## References -/

structure ParsedC2spTlogLr where
  scope : Text
  logPrefix : Text
  streamId : Text
  origin : Text
  lr : Text
  entryIndex : Option ℕ
  deriving DecidableEq

/-- `/^private-[A-Za-z0-9-]+$/`. -/
def isPrivateScope (scope : Text) : Bool :=
  scope.take 8 = "private-".toList && scope.drop 8 ≠ [] && (scope.drop 8).all fun c => c.isAlphanum || c = '-'

def validateScope (scope : Text) : Except Thrown Unit :=
  throwIf (scope ≠ "public".toList ∧ scope ≠ "testnet".toList ∧ isPrivateScope scope = false)
    (.parseError ("invalid c2sp-tlog scope: " ++ String.ofList scope))

/-- The texts before and after the last `mark`. -/
def cutAtLast (mark : Char) (text : Text) : Option (Text × Text) :=
  if mark ∈ text then
    some (((text.reverse.dropWhile (· ≠ mark)).drop 1).reverse, (text.reverse.takeWhile (· ≠ mark)).reverse)
  else none

/-- `/^(?:[A-Za-z0-9._~-]|%[0-9A-Fa-f]{2})+$/`. -/
def isStreamId : Text → Bool
  | [] => false
  | [c] => isUnreserved c
  | [c, d] => isUnreserved c && isUnreserved d
  | c :: a :: b :: rest =>
    if c = '%' then (hexChar a b).isSome && (rest = [] || isStreamId rest)
    else isUnreserved c && isStreamId (a :: b :: rest)

def parseIndex (text : Text) : Except Thrown ℕ := do
  throwIf (¬ (text.all Char.isDigit = true ∧ (text = ['0'] ∨ (text.head?.any fun c => c ≠ '0') = true)))
    (.parseError "invalid entry index")
  throwIf (2 ^ 53 - 1 < Nat.ofDigitChars 10 text 0) (.parseError "entry index outside safe integer range")
  return Nat.ofDigitChars 10 text 0

/-- `/^[\x21-\x7e]+$/`. -/
def isVisibleAscii (name : Text) : Bool := name ≠ [] && name.all fun c => 0x21 ≤ c.toNat && c.toNat ≤ 0x7e

def validateSignedNoteName (name : Text) : Except Thrown Unit :=
  throwIf (isVisibleAscii name = false ∨ (name.any fun c => isJsSpace c || c = '+') = true)
    (.parseError ("invalid signed-note key name: " ++ String.ofList name))

/-- The scope, the log prefix and what follows the last `#`. -/
def referenceParts (lr : Text) : Except Thrown (Text × Text × Text) := do
  throwIf (lr.take 10 ≠ "c2sp-tlog:".toList) (.parseError "lr must start with c2sp-tlog:")
  let rest := lr.drop 10
  let scope := rest.takeWhile (· ≠ ':')
  throwIf (':' ∉ rest ∨ scope = []) (.parseError "missing c2sp-tlog scope")
  validateScope scope
  let (rawLogPrefix, ref) ← orThrow (.parseError "missing log prefix or stream id")
    (cutAtLast '#' ((rest.dropWhile (· ≠ ':')).drop 1))
  throwIf (rawLogPrefix = [] ∨ ref = []) (.parseError "missing log prefix or stream id")
  return (scope, rawLogPrefix, ref)

def parseC2spTlogLr (lr : Text) : Except Thrown ParsedC2spTlogLr := do
  let parts ← referenceParts lr
  let logPrefix ← canonicalLogPrefix P parts.2.1
  throwIf (parts.2.1 ≠ logPrefix) (.parseError "log prefix must already be canonical")
  let streamId := ((cutAtLast '@' parts.2.2).map Prod.fst).getD parts.2.2
  throwIf (!isStreamId streamId) (.parseError "invalid stream id")
  let entryIndex ← ((cutAtLast '@' parts.2.2).map Prod.snd).mapM parseIndex
  let origin ← checkpointOrigin P logPrefix
  validateSignedNoteName origin
  throwIf (parts.1 = "public".toList ∧ logPrefix.take 8 ≠ "https://".toList)
    (.parseError "public c2sp-tlog requires an https log prefix")
  return {
    scope := parts.1, logPrefix, streamId, origin
    lr := "c2sp-tlog:".toList ++ parts.1 ++ [':'] ++ logPrefix ++ ['#'] ++ streamId
    entryIndex }

end Dnsid.References

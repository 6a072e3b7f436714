import Dnsid.Foundations.ExceptRun
import Dnsid.Foundations.NamedPairs
import Mathlib.Data.Char
import Mathlib.Data.List.Lex

/-! # The `_dnsid` TXT record (`protocol/src/txt-record.ts`)

A text is the list of its characters. Known tags are fields of the record and unknown tags a map in the order of
insertion; `parsedTags` remembers which tags a text had. The URL parser of the runtime and `normalizeFQDN`, which
is built on it, are a `RecordPlatform`.
-/
namespace Dnsid.Record
open Dnsid.Foundations
set_option autoImplicit false

abbrev Text := List Char

instance : LawfulBEq Text := inferInstance

inductive RecordError where
  | parseError (message : String)
  | validationError (message : String)
  deriving DecidableEq, Repr

def tagV : Text := ['v']
def tagGi : Text := ['g', 'i']
def tagEk : Text := ['e', 'k']
def tagKu : Text := ['k', 'u']
def tagLr : Text := ['l', 'r']
def tagSu : Text := ['s', 'u']
def tagSg : Text := ['s', 'g']
def tagFl : Text := ['f', 'l']
def tagKa : Text := ['k', 'a']
def tagCu : Text := ['c', 'u']

/-- `DNSID_VERSION`. -/
def dnsidVersion : Text := "DNSid1".toList

/-- `DNSID_DRAFT01_VERSION`. -/
def dnsidDraft01Version : Text := "dnsid-draft-01".toList

def supportedPublishProfiles : List Text := [dnsidDraft01Version]

/-- `SUPPORTED_VALIDATION_PROFILES`. -/
def supportedVersions : List Text := [dnsidDraft01Version, dnsidVersion]

def requiredUnsignedTags : List Text := [tagV, tagGi, tagEk, tagKu, tagLr, tagSu]

def requiredTags : List Text := requiredUnsignedTags ++ [tagSg]

def knownTags : List Text := requiredTags ++ [tagFl, tagKa, tagCu]

/-- `TAG_NAME_RE`. -/
def isTagName : Text → Bool
  | [] => false
  | c :: rest => c.isAlpha && rest.all fun c => c.isAlphanum || c = '_'

/-- A character of `TAG_VALUE_RE`: printable, without space and `;`. -/
def isTagValueChar (c : Char) : Bool :=
  (0x21 ≤ c.toNat && c.toNat ≤ 0x3a) || (0x3c ≤ c.toNat && c.toNat ≤ 0x7e)

/-- `TAG_VALUE_RE`. -/
def isTagValue (value : Text) : Bool := value.all isTagValueChar

/-- `text.slice(0, i)` and `text.slice(i + 1)` for the first `i` with `text[i] === separator`. -/
def cutAt (separator : Char) : Text → Option (Text × Text)
  | [] => none
  | c :: rest =>
    if c = separator then some ([], rest)
    else (cutAt separator rest).map fun m => (c :: m.1, m.2)

structure DnsIdTxtRecord where
  v : Text := []
  gi : Text := []
  ek : Text := []
  ku : Text := []
  lr : Text := []
  su : Text := []
  sg : Text := []
  fl : Option Text := none
  ka : Option Text := none
  cu : Option Text := none
  unknownTags : List (Text × Text) := []
  agentFQDN : Text := []
  parsedTags : List Text := []
  deriving DecidableEq, Repr

namespace DnsIdTxtRecord

/-! ## Reading -/

/-- `if (value) this.tag = value`. -/
def present (value : Text) : Option Text := if value = [] then none else some value

/-- An empty optional tag leaves the field as it was. -/
def setKnownTag (record : DnsIdTxtRecord) (tag value : Text) : DnsIdTxtRecord :=
  if tag = tagV then { record with v := value }
  else if tag = tagGi then { record with gi := value }
  else if tag = tagEk then { record with ek := value }
  else if tag = tagKu then { record with ku := value }
  else if tag = tagLr then { record with lr := value }
  else if tag = tagSu then { record with su := value }
  else if tag = tagSg then { record with sg := value }
  else if tag = tagFl then { record with fl := (present value).or record.fl }
  else if tag = tagKa then { record with ka := (present value).or record.ka }
  else if tag = tagCu then { record with cu := (present value).or record.cu }
  else record

/-- The record once the element `tag=value` was read. -/
def addTag (record : DnsIdTxtRecord) (tag value : Text) : DnsIdTxtRecord :=
  let seen := { record with parsedTags := record.parsedTags ++ [tag] }
  if tag ∈ knownTags then seen.setKnownTag tag value
  else { seen with unknownTags := seen.unknownTags ++ [(tag, value)] }

/-- An element after the first one may start with a space. -/
def trimElement (i : ℕ) (pair : Text) : Text :=
  match pair with
  | ' ' :: rest => if 0 < i then rest else pair
  | _ => pair

/-- One turn of the loop over the `count` elements. -/
def parseElement (requireSignature : Bool) (count : ℕ) (record : DnsIdTxtRecord) (element : Text × ℕ) :
    Except RecordError DnsIdTxtRecord :=
  if element.1 = [] then
    if element.2 = count - 1 then .ok record else .error (.parseError "empty TXT tag element")
  else do
    let pair := trimElement element.2 element.1
    let (tag, value) ← orThrow (.parseError ("TXT tag element missing '=': " ++ String.ofList pair)) (cutAt '=' pair)
    throwIf (isTagName tag = false) (.parseError ("invalid TXT tag name: " ++ String.ofList tag))
    throwIf (isTagValue value = false) (.parseError ("invalid TXT tag value for tag: " ++ String.ofList tag))
    throwIf (tag ∈ record.parsedTags) (.parseError ("duplicate TXT tag: " ++ String.ofList tag))
    throwIf (requireSignature = false ∧ tag = tagSg) (.parseError "unsigned TXT record must not contain sg")
    return record.addTag tag value

/-- A required field of the record by its tag. -/
def field (record : DnsIdTxtRecord) (tag : Text) : Text :=
  if tag = tagV then record.v
  else if tag = tagGi then record.gi
  else if tag = tagEk then record.ek
  else if tag = tagKu then record.ku
  else if tag = tagLr then record.lr
  else if tag = tagSu then record.su
  else if tag = tagSg then record.sg
  else []

def assertRequiredTags (record : DnsIdTxtRecord) (required : List Text) : Except RecordError Unit :=
  match required.find? fun tag => record.field tag = [] with
  | some tag => .error (.parseError ("missing or empty required TXT tag: " ++ String.ofList tag))
  | none => .ok ()

/-- `pair.startsWith('v=') ? pair.slice(2) : undefined`. -/
def versionOf? : Text → Option Text
  | 'v' :: '=' :: version => some version
  | _ => none

def parseTagPairs (raw : Text) (requireSignature requireVFirst : Bool) : Except RecordError DnsIdTxtRecord := do
  let pairs := raw.splitOn ';'
  let versionPair := if requireVFirst then pairs.head? else pairs.find? fun pair => (versionOf? pair).isSome
  let version ← orThrow
    (.parseError (if requireVFirst then "v= tag must be first" else "unsigned TXT record missing v tag"))
    (versionPair.bind versionOf?)
  throwIf (version ∉ supportedVersions)
    (.parseError ("unsupported DNSid TXT record profile: " ++ String.ofList version))
  let record ← pairs.zipIdx.foldlM (parseElement requireSignature pairs.length) {}
  assertRequiredTags record (if requireSignature then requiredTags else requiredUnsignedTags)
  return record

def parse (raw : Text) : Except RecordError DnsIdTxtRecord := parseTagPairs raw true true

/-! ## Writing -/

/-- `if (value) pairs.push([tag, value])`. -/
def pairIf (tag value : Text) : List (Text × Text) := if value = [] then [] else [(tag, value)]

/-- `if (value || this.parsedTags.has(tag)) pairs.push([tag, value ?? ''])`. -/
def optionalPair (record : DnsIdTxtRecord) (tag : Text) (value : Option Text) : List (Text × Text) :=
  if value.getD [] ≠ [] ∨ tag ∈ record.parsedTags then [(tag, value.getD [])] else []

def requiredPairs (record : DnsIdTxtRecord) : List (Text × Text) :=
  pairIf tagGi record.gi ++ pairIf tagEk record.ek ++ pairIf tagKu record.ku ++ pairIf tagLr record.lr ++
    pairIf tagSu record.su

def optionalPairs (record : DnsIdTxtRecord) : List (Text × Text) :=
  record.optionalPair tagFl record.fl ++ record.optionalPair tagKa record.ka ++ record.optionalPair tagCu record.cu

def knownCanonicalPairs (record : DnsIdTxtRecord) : List (Text × Text) :=
  pairIf tagV record.v ++ record.requiredPairs ++ record.optionalPairs

/-- `tag=value`. -/
def element (pair : Text × Text) : Text := pair.1 ++ '=' :: pair.2

/-- `join(';')`. -/
def joinElements (pairs : List (Text × Text)) : Text := [';'].intercalate (pairs.map element)

def canonicalJoin (pairs : List (Text × Text)) : Text := joinElements (sortByName pairs)

def canonical (record : DnsIdTxtRecord) : Text := canonicalJoin (record.knownCanonicalPairs ++ record.unknownTags)

def knownTagsCanonical (record : DnsIdTxtRecord) : Text := canonicalJoin record.knownCanonicalPairs

def serialize (record : DnsIdTxtRecord) : Text :=
  joinElements ((tagV, record.v) :: (record.requiredPairs ++ pairIf tagSg record.sg ++ record.optionalPairs ++
    record.unknownTags))

end DnsIdTxtRecord

/-! ## Validation -/

/-- The members of a `URL` that are read. -/
structure Url where
  protocol : Text
  hostname : Text
  username : Text
  password : Text
  deriving DecidableEq, Repr

/-- A character of a normalized name: its labels are LDH labels. -/
def isLdhChar (c : Char) : Bool := c.isLower || c.isDigit || c = '-' || c = '.'

structure RecordPlatform where
  /-- `normalizeFQDN(name, agentFQDN)` (`utils.ts`). -/
  normalizeFQDN : Text → Bool → Except RecordError Text
  /-- `new URL(value)`, if it does not throw. -/
  url : Text → Option Url
  normalizeFQDN_ldh : ∀ {name normalized : Text} {agentFQDN : Bool},
    normalizeFQDN name agentFQDN = .ok normalized → normalized ≠ [] ∧ normalized.all isLdhChar = true

/-- `LR_METHOD_RE`. -/
def isLrMethod : Text → Bool
  | [] => false
  | c :: rest => c.isLower && rest.all fun c => c.isLower || c.isDigit || c = '-'

def validateLrFormat (lr : Text) : Except RecordError Unit := do
  let (method, reference) ← orThrow (.validationError ("malformed lr value (no colon): " ++ String.ofList lr))
    (cutAt ':' lr)
  throwIf (isLrMethod method = false)
    (.validationError ("malformed lr value (invalid method): " ++ String.ofList lr))
  throwIf (reference = []) (.validationError ("malformed lr value (empty reference): " ++ String.ofList lr))

/-- `/^https:\/\/[^/\\]/i`. -/
def startsHttps (value : Text) : Bool :=
  (value.take 8).map Char.toLower = "https://".toList && ((value.drop 8).head?.any fun c => c != '/' && c != '\\')

def validKaValues : List Text := ["24h".toList, "7d".toList, "30d".toList, "90d".toList]

section Validation
variable (P : RecordPlatform)

def validateHttpsUrl (value : Text) (name : String) : Except RecordError Url := do
  throwIf (startsHttps value = false ∨ '\\' ∈ value)
    (.validationError (name ++ " must be a valid HTTPS URI with a host"))
  let url ← orThrow (.validationError (name ++ " is not a valid URI: " ++ String.ofList value)) (P.url value)
  throwIf (url.protocol ≠ "https:".toList ∨ url.hostname = [])
    (.validationError (name ++ " must be a valid HTTPS URI with a host"))
  throwIf (url.username ≠ [] ∨ url.password ≠ []) (.validationError (name ++ " must not include userinfo"))
  return url

def validateHttpsUrlHost (value : Text) (name : String) (expectedHost : Text) : Except RecordError Unit := do
  let url ← validateHttpsUrl P value name
  throwIf (url.hostname.getLast? = some '.') (.validationError (name ++ " host must equal agent FQDN"))
  let host ← P.normalizeFQDN url.hostname false
  throwIf (host ≠ expectedHost) (.validationError (name ++ " host must equal agent FQDN"))

def validateEkHost (value giDomain : Text) : Except RecordError Unit := do
  let url ← validateHttpsUrl P value "ek"
  throwIf (url.hostname.getLast? = some '.') (.validationError "ek host must not end with a root dot")
  let host ← P.normalizeFQDN url.hostname false
  throwIf (host ≠ giDomain ∧ ¬ ('.' :: giDomain) <:+ host) (.validationError "ek host must equal or be beneath gi")

def validateCu (cu : Option Text) : Except RecordError Unit :=
  match cu with
  | some value => if value = [] then .ok () else (validateHttpsUrl P value "cu").map fun _ => ()
  | none => .ok ()

def DnsIdTxtRecord.validate (record : DnsIdTxtRecord) : Except RecordError Unit := do
  throwIf (record.v ∉ supportedVersions)
    (.validationError ("unsupported DNSid profile: " ++ String.ofList record.v))
  throwIf (record.agentFQDN = []) (.validationError "agentFQDN must be set before calling validate()")
  let agentFQDN ← P.normalizeFQDN record.agentFQDN true
  let giDomain ← P.normalizeFQDN record.gi false
  throwIf (record.gi ≠ giDomain) (.validationError "gi must be lowercase ASCII A-label domain")
  validateEkHost P record.ek giDomain
  validateHttpsUrlHost P record.ku "ku" agentFQDN
  validateLrFormat record.lr
  let _ ← validateHttpsUrl P record.su "su"
  validateCu P record.cu
  throwIf (record.ka.getD [] ≠ [] ∧ record.ka.getD [] ∉ validKaValues)
    (.validationError "ka must be one of: 24h, 7d, 30d, 90d")

def DnsIdTxtRecord.parseUnsignedCanonical (raw : Text) (agentFQDN : Option Text) :
    Except RecordError DnsIdTxtRecord := do
  let record ← parseTagPairs raw false false
  throwIf (record.canonical ≠ raw) (.parseError "unsigned TXT record is not in canonical form")
  if agentFQDN.getD [] = [] then return record
  else do
    let record := { record with agentFQDN := agentFQDN.getD [] }
    record.validate P
    return record

end Validation

end Dnsid.Record

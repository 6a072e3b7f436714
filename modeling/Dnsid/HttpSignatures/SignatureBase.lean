import Dnsid.Foundations.ExceptRun
import Dnsid.Foundations.NamedPairs
import Mathlib.Data.Rat.Defs

/-! # The signature base of an HTTP message (`http-signatures/src/index.ts`)

One line for each covered component, and the line of the signature parameters. Texts are well-formed strings. The
structured-field library and `URLSearchParams` are an `HttpPlatform`; `new URL(req.url)` is the `Url` of a request.
-/
namespace Dnsid.HttpSignatures
open Dnsid.Foundations
set_option autoImplicit false

inductive VerificationCode where
  | signatureInvalid
  | tlsError
  | recordInvalid
  | keyNotFound
  deriving DecidableEq, Repr

inductive HttpError where
  | argumentError (message : String)
  | validationError (message : String)
  | verificationError (code : VerificationCode) (message : String) (transient : Bool)
  | other (message : String)
  deriving DecidableEq, Repr

/-- A number of the runtime; `-0` is `0`. -/
inductive JsNumber where
  | finite (value : ℚ)
  | notFinite (text : String)
  deriving DecidableEq

/-- `Number.isInteger`. -/
def JsNumber.isInteger : JsNumber → Bool
  | .finite value => value.den = 1
  | .notFinite _ => false

/-! ## Structured fields -/

inductive BareItem where
  | str (text : String)
  | num (value : JsNumber)
  | bool (value : Bool)
  | token (text : String)
  | bytes (value : List UInt8)
  | date (milliseconds : ℤ)
  | displayString (text : String)
  deriving DecidableEq

/-- A `Map` of parameters, in the order of insertion. -/
abbrev Parameters := List (String × BareItem)

abbrev Item := BareItem × Parameters

inductive Member where
  | item (item : Item)
  | innerList (items : List Item) (params : Parameters)
  deriving DecidableEq

/-- What the runtime and the `structured-headers` package compute. -/
structure HttpPlatform where
  serializeItem : Item → Except HttpError String
  serializeInnerList : List Item → Parameters → Except HttpError String
  serializeParameters : Parameters → Except HttpError String
  parseDictionary : String → Option (List (String × Member))
  /-- The entries of `new URLSearchParams(part)`. -/
  searchParams : String → List (String × String)

/-! ## Messages -/

structure Url where
  protocol : String
  hostname : String
  port : String
  pathname : String
  search : String
  deriving DecidableEq

/-- Header names are in lower case, and a name has one value. -/
structure Request where
  method : String
  url : Url
  headers : List (String × String)
  deriving DecidableEq

structure Response where
  status : ℕ
  headers : List (String × String)
  deriving DecidableEq

inductive Message where
  | request (request : Request)
  | response (response : Response)
  deriving DecidableEq

def Message.headers : Message → List (String × String)
  | .request req => req.headers
  | .response res => res.headers

/-- What `asMessage` makes of an `HttpMessage`. -/
structure HttpMessage where
  message : Message
  request : Option Request
  deriving DecidableEq

/-! ## Components -/

inductive ParamValue where
  | str (text : String)
  | num (value : JsNumber)
  | bool (value : Bool)
  deriving DecidableEq

/-- The entries of an object, one for each key. -/
structure ParamObject where
  entries : List (String × ParamValue)
  distinct : DistinctNames entries
  deriving DecidableEq

inductive ComponentIdentifier where
  | name (name : String)
  | object (name : String) (params : Option ParamObject)
  deriving DecidableEq

def componentName : ComponentIdentifier → String
  | .name name => name
  | .object name _ => name

def componentParams : ComponentIdentifier → List (String × ParamValue)
  | .name _ => []
  | .object _ none => []
  | .object _ (some params) => params.entries

theorem componentParams_distinct (component : ComponentIdentifier) : DistinctNames (componentParams component) := by
  cases component with
  | name name => exact List.nodup_nil
  | object name params =>
    cases params with
    | none => exact List.nodup_nil
    | some params => exact params.distinct

def sameComponent (a b : ComponentIdentifier) : Bool :=
  componentName a = componentName b &&
    ((componentParams a).length = (componentParams b).length &&
      (componentParams a).all fun param => (componentParams a).lookup param.1 = (componentParams b).lookup param.1)

def hasComponentNamed (components : List ComponentIdentifier) (name : String) : Bool :=
  components.any fun component => componentName component = name

/-- `KNOWN_DERIVED_COMPONENTS`. -/
def knownDerivedComponents : List String :=
  ["@method", "@authority", "@target-uri", "@path", "@query", "@query-param", "@status", "@request-target", "@scheme"]

def isFieldNameChar (c : Char) : Bool :=
  c.isLower || c.isDigit || "!#$%&'*+-.^_`|~".toList.contains c

def isLowercaseHttpFieldName (name : String) : Bool :=
  !name.toList.isEmpty && name.toList.all isFieldNameChar

/-- `typeof value === 'string' && value.length !== 0`. -/
def isNonEmptyString : Option ParamValue → Bool
  | some (.str text) => text ≠ ""
  | _ => false

/-- The parameters that a component of this name may have. -/
def allowedParams (name : String) : List String :=
  if name = "@query-param" then ["name", "req"]
  else if name = "@status" then []
  else if name ∈ knownDerivedComponents then ["req"]
  else ["key", "req"]

def validateParam (allowed : List String) (param : String × ParamValue) : Except HttpError Unit := do
  throwIf (param.1 ∉ allowed) (.argumentError s!"unsupported component parameter: {param.1}")
  throwIf (param.1 = "req" ∧ param.2 ≠ .bool true) (.argumentError "component req parameter must be Boolean true")

/-- The type of `component` rules out the shapes that are tested first. -/
def validateComponentIdentifier (component : ComponentIdentifier) : Except HttpError Unit := do
  let name := componentName component
  throwIf (name ∉ knownDerivedComponents ∧ isLowercaseHttpFieldName name = false)
    (.argumentError s!"unknown signature component: {name}")
  let params := componentParams component
  throwIf (name = "@query-param" ∧ isNonEmptyString (params.lookup "name") = false)
    (.argumentError "@query-param requires non-empty string name parameter")
  throwIf (name ∉ knownDerivedComponents ∧ (params.lookup "key").isSome ∧
      isNonEmptyString (params.lookup "key") = false)
    (.argumentError "field component key parameter must be a non-empty string")
  params.forM (validateParam (allowedParams name))

/-! ## Values of components -/

/-- `toLowerCase()` of a host name, which is ASCII. -/
def asciiLowerCase (text : String) : String := String.ofList (text.toList.map Char.toLower)

def normalizedAuthority (url : Url) : String :=
  if url.port = "" then asciiLowerCase url.hostname else asciiLowerCase url.hostname ++ ":" ++ url.port

def percentEncodeByte (b : UInt8) : String :=
  String.ofList ('%' :: [b.toNat / 16, b.toNat % 16].map fun digit => (Nat.digitChar digit).toUpper)

def percentEncode (c : Char) : String := String.join ((String.utf8EncodeChar c).map percentEncodeByte)

def encodeURIComponent (value : String) : String :=
  String.join (value.toList.map fun c =>
    if c.isAlphanum || "-_.!~*'()".toList.contains c then String.singleton c else percentEncode c)

def formPercentEncode (value : String) : String :=
  String.join ((encodeURIComponent value).toList.map fun c =>
    if "!'()~".toList.contains c then percentEncode c else String.singleton c)

section Base
variable (P : HttpPlatform)

def canonicalQueryParamValues (search paramName : String) : List String :=
  let query := if search.toList.head? = some '?' then search.toList.tail else search.toList
  if query = [] then []
  else (query.splitOn '&').filterMap fun part =>
    match P.searchParams (String.ofList part) with
    | [] => none
    | entry :: _ => if formPercentEncode entry.1 = paramName then some (formPercentEncode entry.2) else none

def serializeStructuredMember : Member → Except HttpError String
  | .item item => P.serializeItem item
  | .innerList items params => P.serializeInnerList items params

/-- `String(value)`, of a value that was validated. -/
def paramText : Option ParamValue → String
  | some (.str text) => text
  | _ => ""

def requestOf : Message → Option Request
  | .request req => some req
  | .response _ => none

def queryParamValue (search paramName : String) : Except HttpError String :=
  match canonicalQueryParamValues P search paramName with
  | [] => .error (.argumentError s!"covered query parameter \"{paramName}\" not present in request")
  | [value] => .ok value
  | _ => .error (.argumentError s!"covered query parameter \"{paramName}\" appears more than once")

def fieldValue (source : Message) (name : String) (params : List (String × ParamValue)) : Except HttpError String := do
  let val ← orThrow (.argumentError s!"covered component \"{name}\" not present in message") (source.headers.lookup name)
  match params.lookup "key" with
  | none => return val
  | some value =>
    let key := paramText (some value)
    let dict ← orThrow (.argumentError s!"covered component \"{name}\" is not a valid structured field dictionary")
      (P.parseDictionary val)
    let member ← orThrow (.argumentError s!"covered component \"{name}\" missing dictionary key \"{key}\"")
      (dict.lookup key)
    serializeStructuredMember P member

/-- The components that only requests have. -/
def derivedComponent (params : List (String × ParamValue)) : String → Option (Request → Except HttpError String)
  | "@method" => some fun req => .ok req.method
  | "@authority" => some fun req => .ok (normalizedAuthority req.url)
  | "@target-uri" => some fun req =>
    .ok (req.url.protocol ++ "//" ++ normalizedAuthority req.url ++ req.url.pathname ++ req.url.search)
  | "@path" => some fun req => .ok req.url.pathname
  | "@query" => some fun req => .ok (if req.url.search = "" then "?" else req.url.search)
  | "@query-param" => some fun req => queryParamValue P req.url.search (paramText (params.lookup "name"))
  | "@scheme" => some fun req => .ok (String.ofList (req.url.protocol.toList.erase ':'))
  | "@request-target" => some fun req => .ok (req.url.pathname ++ req.url.search)
  | _ => none

def statusValue : Message → Except HttpError String
  | .response res => .ok (toString res.status)
  | .request _ => .error (.argumentError "@status is only available on responses")

def sourceOf (input : HttpMessage) (component : ComponentIdentifier) : Except HttpError Message :=
  if (componentParams component).lookup "req" = some (.bool true) then
    match input.message, input.request with
    | .response _, some request => .ok (.request request)
    | _, _ => .error (.argumentError
        s!"covered component \"{componentName component}\" requires response request context")
  else .ok input.message

def extractComponentValue (input : HttpMessage) (component : ComponentIdentifier) : Except HttpError String := do
  validateComponentIdentifier component
  let params := componentParams component
  let source ← sourceOf input component
  let name := componentName component
  match derivedComponent P params name with
  | some value =>
    let req ← orThrow (.argumentError s!"{name} is only available on requests") (requestOf source)
    value req
  | none => if name = "@status" then statusValue source else fieldValue P source name params

/-! ## The base -/

structure SignatureParams where
  label : String
  components : List ComponentIdentifier
  keyId : Option String
  alg : Option String
  created : Option JsNumber
  expires : Option JsNumber
  nonce : Option String
  tag : Option String
  parameters : Option Parameters
  deriving DecidableEq

def structuredValue : ParamValue → BareItem
  | .str text => .str text
  | .num value => .num value
  | .bool value => .bool value

def toStructuredParams (params : List (String × ParamValue)) : Parameters :=
  params.map fun param => (param.1, structuredValue param.2)

def componentItem (component : ComponentIdentifier) : Item :=
  (.str (componentName component), toStructuredParams (componentParams component))

def serializeComponentIdentifier (component : ComponentIdentifier) : Except HttpError String :=
  P.serializeItem (componentItem component)

def knownParameters : List String := ["keyid", "alg", "created", "expires", "nonce", "tag"]

def isStringItem : BareItem → Bool
  | .str _ => true
  | _ => false

def isIntegerItem : BareItem → Bool
  | .num value => value.isInteger
  | _ => false

def isRfc9651Only : BareItem → Bool
  | .date _ | .displayString _ => true
  | _ => false

/-- One turn of the loop over `params.parameters`; `seenKnown` has the known names before it. -/
def checkParameter (seenKnown : List String) (parameter : String × BareItem) : Except HttpError (List String) := do
  let name := parameter.1
  throwIf (isRfc9651Only parameter.2 = true) (.argumentError "RFC 9651-only signature parameters are unsupported")
  throwIf (name ∈ knownParameters ∧ name ∈ seenKnown) (.argumentError s!"duplicate Signature-Input {name} parameter")
  throwIf (name ∈ ["keyid", "alg", "nonce", "tag"] ∧ isStringItem parameter.2 = false)
    (.argumentError s!"Signature-Input {name} parameter must be a string")
  throwIf (name ∈ ["created", "expires"] ∧ isIntegerItem parameter.2 = false)
    (.argumentError s!"Signature-Input {name} parameter must be an integer")
  return if name ∈ knownParameters then name :: seenKnown else seenKnown

def signatureParameterList (params : SignatureParams) : Except HttpError Parameters :=
  match params.parameters with
  | some parameters => do
    let _ ← parameters.foldlM checkParameter []
    return parameters
  | none => .ok ((params.keyId.map fun value => ("keyid", .str value)).toList ++
      (params.alg.map fun value => ("alg", .str value)).toList ++
      (params.created.map fun value => ("created", .num value)).toList ++
      (params.nonce.map fun value => ("nonce", .str value)).toList ++
      (params.expires.map fun value => ("expires", .num value)).toList ++
      (params.tag.map fun value => ("tag", .str value)).toList)

/-- Each parameter of the list, serialized. -/
def serializedParameterList (params : SignatureParams) : Except HttpError (List String) := do
  let list ← signatureParameterList params
  list.mapM fun parameter => P.serializeParameters [parameter]

def serializeSigParams (params : SignatureParams) : Except HttpError String := do
  let innerList ← P.serializeInnerList (params.components.map componentItem) []
  let parameters ← serializedParameterList P params
  return innerList ++ String.join parameters

/-- The components before the `i`-th are `before`. -/
def validateComponentsFrom (before : List ComponentIdentifier) : List ComponentIdentifier → Except HttpError Unit
  | [] => .ok ()
  | component :: rest => do
    validateComponentIdentifier component
    if before.any fun earlier => sameComponent earlier component then
      let identifier ← serializeComponentIdentifier P component
      throw (.argumentError s!"duplicate covered component: {identifier}")
    validateComponentsFrom (before ++ [component]) rest

def validateComponents : List ComponentIdentifier → Except HttpError Unit := validateComponentsFrom P []

def componentLine (msg : HttpMessage) (component : ComponentIdentifier) : Except HttpError String := do
  let identifier ← serializeComponentIdentifier P component
  let value ← extractComponentValue P msg component
  return identifier ++ ": " ++ value

def buildSignatureInput (msg : HttpMessage) (params : SignatureParams) : Except HttpError ByteArray := do
  validateComponents P params.components
  let lines ← params.components.mapM (componentLine P msg)
  let sigParams ← serializeSigParams P params
  return ("\n".intercalate (lines ++ ["\"@signature-params\": " ++ sigParams])).toUTF8

end Base

end Dnsid.HttpSignatures

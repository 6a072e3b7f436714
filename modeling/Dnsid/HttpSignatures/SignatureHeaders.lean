import Dnsid.Foundations.Trimming
import Dnsid.HttpSignatures.SignatureBase

/-! # The `Signature-Input` and `Signature` headers (`http-signatures/src/index.ts`)

A header is parsed twice: by the structured-field library, and by scanners of its own that keep what the library drops
(how often a label or a parameter occurs). `splitDictionary` follows quotes, colons and parentheses without the grammar.
A header value is the list of its characters; those of a field value are below 256.
-/
namespace Dnsid.HttpSignatures
open Dnsid.Foundations
set_option autoImplicit false

abbrev Text := List Char

def recordInvalid (message : String) : HttpError := .verificationError .recordInvalid message false

/-! ## Splitting a dictionary -/

/-- `String.prototype.trim` on characters below 256. -/
def isTrimmed (c : Char) : Bool := c ∈ [' ', '\t', '\n', '\x0b', '\x0c', '\r', '\xa0']

def trim (text : Text) : Text := trimBoth isTrimmed text

structure Scan where
  depth : ℤ
  inString : Bool
  inBytes : Bool
  escape : Bool
  deriving DecidableEq

/-- Between two members. -/
def Scan.start : Scan := ⟨0, false, false, false⟩

def Scan.next (s : Scan) (c : Char) : Scan :=
  if s.escape then { s with escape := false }
  else if s.inString && c = '\\' then { s with escape := true }
  else
    let inString := if !s.inBytes && c = '"' then !s.inString else s.inString
    let inBytes := if !inString && c = ':' then !s.inBytes else s.inBytes
    if inString || inBytes then { s with inString, inBytes }
    else
      let depth := if c = '(' then s.depth + 1 else if c = ')' then s.depth - 1 else s.depth
      { s with depth, inString, inBytes }

/-- A comma here ends a member. -/
def Scan.splits (s : Scan) (c : Char) : Bool := c = ',' && s = .start

/-- `current` is what was read since the last comma. -/
def splitFrom : Text → Scan → Text → Except HttpError (List Text)
  | [], s, current => do
    throwIf (s ≠ .start) (recordInvalid "malformed structured field header")
    return if trim current = [] then [] else [trim current]
  | c :: rest, s, current =>
    if s.splits c then do
      let parts ← splitFrom rest s []
      return trim current :: parts
    else do
      throwIf ((s.next c).depth < 0) (recordInvalid "malformed structured field header")
      splitFrom rest (s.next c) (current ++ [c])

def splitDictionary (headerValue : Text) : Except HttpError (List Text) := splitFrom headerValue .start []

def assertHeaderBound (value : Text) : Except HttpError Unit :=
  throwIf (16 * 1024 < value.length) (recordInvalid "signature header exceeds 16 KiB")

/-! ## Parameters as they occur -/

/-- What follows the closing parenthesis of the inner list. -/
def afterClose (inString escape : Bool) : Text → Option Text
  | [] => none
  | c :: rest =>
    if escape then afterClose inString false rest
    else if inString && c = '\\' then afterClose inString true rest
    else if c = '"' then afterClose (!inString) false rest
    else if !inString && c = ')' then some rest
    else afterClose inString false rest

/-- `member.slice(findInnerListClose(member) + 1)`. -/
def afterInnerList (member : Text) : Text := (afterClose false false member.tail).getD member

/-- The rest of a quoted string, and what comes after it. -/
def stringRest : Text → Text × Text
  | [] => ([], [])
  | ['\\'] => (['\\'], [])
  | '\\' :: c :: rest => ('\\' :: c :: (stringRest rest).1, (stringRest rest).2)
  | '"' :: rest => (['"'], rest)
  | c :: rest => (c :: (stringRest rest).1, (stringRest rest).2)

/-- The rest of a byte sequence, and what comes after it. -/
def bytesRest : Text → Text × Text
  | [] => ([], [])
  | ':' :: rest => ([':'], rest)
  | c :: rest => (c :: (bytesRest rest).1, (bytesRest rest).2)

def isNameChar (c : Char) : Bool := c.isLower || c.isDigit || c ∈ ['_', '.', '*', '-']

/-- The value of a parameter up to the next one. -/
def valueRest : Text → Text × Text
  | '"' :: rest => ('"' :: (stringRest rest).1, (stringRest rest).2)
  | '%' :: '"' :: rest => ('%' :: '"' :: (stringRest rest).1, (stringRest rest).2)
  | ':' :: rest => (':' :: (bytesRest rest).1, (bytesRest rest).2)
  | rest => (rest.takeWhile (· ≠ ';'), rest.dropWhile (· ≠ ';'))

/-- The text after the `;` of a parameter: the parameter, and what comes after it. -/
def parameterRest (text : Text) : Text × Text :=
  let name := text.takeWhile isNameChar
  match text.dropWhile isNameChar with
  | '=' :: rest => (name ++ '=' :: (valueRest rest).1, (valueRest rest).2)
  | rest => (name ++ (valueRest rest).1, (valueRest rest).2)

/-- `fuel` bounds the number of parameters. -/
def scanSegments : ℕ → Text → List Text
  | 0, _ => []
  | fuel + 1, value =>
    match value.dropWhile (· = ' ') with
    | ';' :: rest => trim (';' :: (parameterRest rest).1) :: scanSegments fuel (parameterRest rest).2
    | _ => []

def scanParameterSegments (value : Text) : List Text := scanSegments value.length value

section Parse
variable (P : HttpPlatform)

def parseParameter (segment : Text) : Except HttpError (String × BareItem) := do
  let dictionary ← orThrow (recordInvalid "malformed Signature-Input parameter")
    (P.parseDictionary (String.ofList ("x=()".toList ++ segment)))
  match dictionary.lookup "x" with
  | some (.innerList _ [parameter]) => return parameter
  | _ => throw (recordInvalid "malformed Signature-Input parameter")

def parseSignatureParameterOccurrences (member : Text) : Except HttpError Parameters :=
  (scanParameterSegments (afterInnerList member)).mapM (parseParameter P)

/-! ## One member -/

def fromStructuredParam (param : String × BareItem) : Except HttpError (String × ParamValue) :=
  match param.2 with
  | .str text => .ok (param.1, .str text)
  | .bool value => .ok (param.1, .bool value)
  | .num value =>
    if value.isInteger then .ok (param.1, .num value) else .error (recordInvalid "unsupported structured field bare value")
  | _ => .error (recordInvalid "unsupported structured field bare value")

/-- The keys of a `Map` are distinct, so the last error does not occur. -/
def fromStructuredParams (params : Parameters) : Except HttpError ParamObject := do
  let entries ← params.mapM fromStructuredParam
  if distinct : DistinctNames entries then return ⟨entries, distinct⟩ else throw (.other "duplicate key")

def parseComponentItem (item : Item) : Except HttpError ComponentIdentifier :=
  match item.1 with
  | .str rawName => do
    let params ← fromStructuredParams item.2
    return if params.entries = [] then .name rawName else .object rawName (some params)
  | _ => .error (recordInvalid "malformed Signature-Input component")

def signatureStringParam (key : String) : BareItem → Except HttpError String
  | .str text => .ok text
  | _ => .error (recordInvalid s!"malformed Signature-Input {key} parameter")

def signatureIntegerParam (key : String) (value : BareItem) : Except HttpError JsNumber :=
  match value with
  | .num number =>
    if number.isInteger then .ok number else .error (recordInvalid s!"malformed Signature-Input {key} parameter")
  | _ => .error (recordInvalid s!"malformed Signature-Input {key} parameter")

/-- One turn of the loop; the second component has the known names before it. -/
def applyParameter (state : SignatureParams × List String) (parameter : String × BareItem) :
    Except HttpError (SignatureParams × List String) := do
  let (parsed, seenKnown) := state
  let (key, value) := parameter
  throwIf (isRfc9651Only value) (recordInvalid "unsupported structured field bare value")
  throwIf (key ∈ knownParameters ∧ key ∈ seenKnown) (recordInvalid s!"duplicate Signature-Input {key} parameter")
  let seenKnown := if key ∈ knownParameters then key :: seenKnown else seenKnown
  if key = "keyid" then
    let keyId ← signatureStringParam key value
    return ({ parsed with keyId := some keyId }, seenKnown)
  else if key = "alg" then
    let alg ← signatureStringParam key value
    return ({ parsed with alg := some alg }, seenKnown)
  else if key = "created" then
    let created ← signatureIntegerParam key value
    return ({ parsed with created := some created }, seenKnown)
  else if key = "nonce" then
    let nonce ← signatureStringParam key value
    return ({ parsed with nonce := some nonce }, seenKnown)
  else if key = "expires" then
    let expires ← signatureIntegerParam key value
    return ({ parsed with expires := some expires }, seenKnown)
  else if key = "tag" then
    let tag ← signatureStringParam key value
    return ({ parsed with tag := some tag }, seenKnown)
  else return (parsed, seenKnown)

def applySignatureInputParams (parsed : SignatureParams) (params : Parameters) : Except HttpError SignatureParams := do
  let (parsed, _) ← params.foldlM applyParameter (parsed, [])
  return parsed

/-- `entry.slice(entry.indexOf('=') + 1).trim()`. -/
def memberText (entry : Text) : Text :=
  trim (match entry.dropWhile (· ≠ '=') with
    | _ :: rest => rest
    | [] => entry)

def messageOf : HttpError → String
  | .argumentError message | .validationError message | .verificationError _ message _ | .other message => message

/-- The components that an inner list covers. -/
def parseComponents (items : List Item) : Except HttpError (List ComponentIdentifier) := do
  throwIf (64 < items.length) (recordInvalid "too many covered components")
  let components ← items.mapM parseComponentItem
  (validateComponents P components).mapError fun error => recordInvalid (messageOf error)
  return components

/-- One turn of the loop of `parseSignatureInput`. -/
def parseInputMember (label : String) (member : Member) (entry : Text) : Except HttpError SignatureParams :=
  match member with
  | .item _ => .error (recordInvalid "malformed Signature-Input header")
  | .innerList items _ => do
    let components ← parseComponents P items
    let parameters ← parseSignatureParameterOccurrences P (memberText entry)
    applySignatureInputParams ⟨label, components, none, none, none, none, none, none, some parameters⟩ parameters

/-! ## Headers -/

/-- Both readings of a header have the same number of members. -/
def readDictionary (failure : HttpError) (headerValue : Text) : Except HttpError (List ((String × Member) × Text)) := do
  assertHeaderBound headerValue
  let entries ← (splitDictionary headerValue).mapError fun _ => failure
  let dictionary ← orThrow failure (P.parseDictionary (String.ofList headerValue))
  throwIf (16 < dictionary.length ∨ dictionary.length ≠ entries.length) failure
  return dictionary.zip entries

/-- The parameters of each label, in the order of the header. -/
def parseSignatureInput (headerValue : Text) : Except HttpError (List SignatureParams) := do
  let members ← readDictionary P (recordInvalid "malformed Signature-Input header") headerValue
  members.mapM fun member => parseInputMember P member.1.1 member.1.2 member.2

def parseSignatureMember (member : (String × Member) × Text) : Except HttpError (String × List UInt8) :=
  match member.1.2 with
  | .item (.bytes value, []) => .ok (member.1.1, value)
  | _ => .error (recordInvalid "malformed Signature header")

/-- The signature of each label. -/
def parseSignature (headerValue : Text) : Except HttpError (List (String × List UInt8)) := do
  let members ← readDictionary P (recordInvalid "malformed Signature header") headerValue
  members.mapM parseSignatureMember

end Parse

end Dnsid.HttpSignatures

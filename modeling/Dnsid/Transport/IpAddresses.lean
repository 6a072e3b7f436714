import Dnsid.Foundations.ExceptRun
import Dnsid.Foundations.JsonText

/-! # IP addresses (`transport/src/index.ts`)

`isUnsafeIp` and `isPrivateOrLoopbackIp` read an address text, which `net.isIP` has to accept, and look at its bytes. A text is
a list of characters. Numbers of the source are natural numbers here: all that occur are below 2 ^ 16.
-/
namespace Dnsid.Transport
open Dnsid.Foundations
open Dnsid.Foundations.JsonText (isHexDigit hexValue)
set_option autoImplicit false

/-! ## The platform -/

/-- `text.split('::')`. -/
def splitElision : List Char → List (List Char)
  | [] => [[]]
  | [c] => [[c]]
  | c :: d :: text =>
    if c = ':' ∧ d = ':' then [] :: splitElision text else (splitElision (d :: text)).modifyHead (c :: ·)

/-- The decimal text of a number below 256. -/
def isOctet (part : List Char) : Bool := (List.range 256).any fun n => Nat.toDigits 10 n = part

def isIPv4 (text : List Char) : Bool := (text.splitOn '.').length = 4 && (text.splitOn '.').all isOctet

/-- `/^[0-9a-fA-F]{1,4}$/`. -/
def isSegment (part : List Char) : Bool := part ≠ [] && part.length ≤ 4 && part.all isHexDigit

def segments (half : List Char) : List (List Char) := if half = [] then [] else half.splitOn ':'

/-- How many groups the parts stand for. At the end a dotted quad stands for two. -/
def groupCount (quad : Bool) : List (List Char) → Option ℕ
  | [] => some 0
  | part :: parts =>
    if isSegment part then (groupCount quad parts).map (· + 1)
    else if quad && isIPv4 part && parts.isEmpty then some 2
    else none

/-- Nothing, or a percent sign and a name. -/
def isZone (zone : List Char) : Bool :=
  zone = []
    || (zone.head? = some '%' && zone.tail ≠ []
      && zone.tail.all fun c => c.isAlphanum || c = '-' || c = '.' || c = ':')

def isIPv6Address (text : List Char) : Bool :=
  match splitElision text with
  | [whole] => groupCount true (segments whole) = some 8
  | [left, right] => ((groupCount false (segments left)).any fun l => (groupCount true (segments right)).any fun r => l + r ≤ 7)
  | _ => false

/-- `net.isIPv6`: a zone index may follow the address. -/
def isIPv6 (text : List Char) : Bool := isIPv6Address (text.takeWhile (· ≠ '%')) && isZone (text.dropWhile (· ≠ '%'))

/-- `net.isIP`. -/
def isIP (text : List Char) : ℕ := if isIPv4 text then 4 else if isIPv6 text then 6 else 0

/-- `Number(text)` of decimal digits; no other text gets to it. `none` is `NaN`. -/
def decimalNumber (text : List Char) : Option ℕ :=
  if text ≠ [] ∧ text.all Char.isDigit then some (Nat.ofDigitChars 10 text 0) else none

/-- `Number.parseInt(text, 16)` of hexadecimal digits. -/
def hexNumber (text : List Char) : ℕ := text.foldl (fun n c => n * 16 + hexValue c) 0

/-- `numbers.join('.')`. -/
def joinDots (numbers : List ℕ) : List Char := List.intercalate ['.'] (numbers.map (Nat.toDigits 10))

/-! ## Reading addresses -/

/-- The `RangeError` of `Array(missing)`. -/
structure InvalidArrayLength where
  deriving DecidableEq, Repr

/-- `address.split('.').map(Number)`. -/
def octetsOf (address : List Char) : List (Option ℕ) := (address.splitOn '.').map decimalNumber

def isByte (octet : Option ℕ) : Bool := octet.any (· ≤ 255)

/-- Four bytes, if `octets` are that. -/
def fourBytes (octets : List (Option ℕ)) : Option (ℕ × ℕ × ℕ × ℕ) :=
  match octets with
  | [some a, some b, some c, some d] => if octets.all isByte then some (a, b, c, d) else none
  | _ => none

/-- The text with a dotted quad at its end written as two groups; `none` where the source returns `null`. -/
def expandQuad (address : List Char) : Option (List Char) :=
  let embeddedIpv4 := (address.reverse.takeWhile (· ≠ ':')).reverse
  if ':' ∈ address ∧ '.' ∈ embeddedIpv4 then do
    let octets ← fourBytes (octetsOf embeddedIpv4)
    let high := (octets.1 <<< 8) ||| octets.2.1
    let low := (octets.2.2.1 <<< 8) ||| octets.2.2.2
    return address.take (address.length - embeddedIpv4.length) ++ (Nat.toDigits 16 high ++ ':' :: Nat.toDigits 16 low)
  else some address

/-- `half.split(':').filter(Boolean)`, and no groups for an empty or missing half. -/
def groupsOf (half : List Char) : List (List Char) := if half ≠ [] then (half.splitOn ':').filter (· ≠ []) else []

/-- The two bytes of every group. -/
def groupBytes (groups : List (List Char)) : Option (List ℕ) :=
  if groups.all isSegment then
    some (groups.flatMap fun group => [(hexNumber group >>> 8) &&& 0xff, hexNumber group &&& 0xff])
  else none

def ipv6ToBytes (address : List Char) : Except InvalidArrayLength (Option (List ℕ)) :=
  match expandQuad address with
  | none => .ok none
  | some normalized =>
    match splitElision normalized with
    | [whole] => .ok (if (groupsOf whole).length = 8 then groupBytes (groupsOf whole) else none)
    | [left, right] => do
      throwIf (8 < (groupsOf left).length + (groupsOf right).length) ⟨⟩
      let missing := 8 - (groupsOf left).length - (groupsOf right).length
      return groupBytes (groupsOf left ++ (List.replicate missing ['0'] ++ groupsOf right))
    | _ => .ok none

def ipv4FromMappedIpv6 (bytes : List ℕ) : Option (List Char) :=
  if (bytes.take 10).all (· = 0) && bytes[10]? = some 0xff && bytes[11]? = some 0xff then
    some (joinDots ((bytes.drop 12).take 4))
  else none

def ipv4FromCompatibleIpv6 (bytes : List ℕ) : Option (List Char) :=
  if (bytes.take 12).all (· = 0) then some (joinDots ((bytes.drop 12).take 4)) else none

/-! ## Classification -/

/-- True if a dotted quad is malformed or in a reserved range. -/
def isUnsafeIpv4 (address : List Char) : Bool :=
  match fourBytes (octetsOf address) with
  | none => true
  | some (a, b, c, _) =>
    a = 0
      || a = 10
      || a = 127
      || (a = 169 && b = 254)
      || (a = 172 && 16 ≤ b && b ≤ 31)
      || (a = 192 && b = 168)
      || (a = 100 && 64 ≤ b && b ≤ 127)
      || (a = 192 && b = 0 && c = 0)
      || (a = 192 && b = 0 && c = 2)
      || (a = 198 && (b = 18 || b = 19))
      || (a = 198 && b = 51 && c = 100)
      || (a = 203 && b = 0 && c = 113)
      || (224 ≤ a && a ≤ 239)
      || 240 ≤ a

def isUnsafeBytes (bytes : List ℕ) : Bool :=
  match ipv4FromMappedIpv6 bytes with
  | some mapped => isUnsafeIpv4 mapped
  | none =>
    match ipv4FromCompatibleIpv6 bytes with
    | some compatible => isUnsafeIpv4 compatible
    | none =>
      let first := bytes.getD 0 0
      let second := bytes.getD 1 0
      bytes.all (· = 0)
        || ((bytes.take 15).all (· = 0) && bytes.getD 15 0 = 1)
        || first &&& 0xfe = 0xfc
        || (first = 0xfe && second &&& 0xc0 = 0x80)
        || first = 0xff
        || (first = 0x20 && second = 0x01 && bytes.getD 2 0 = 0x0d && bytes.getD 3 0 = 0xb8)
        || (first = 0x20 && second = 0x02)
        || (first = 0x20 && second = 0x01 && bytes.getD 2 0 = 0x00 && bytes.getD 3 0 = 0x00)

def isUnsafeIpv6 (address : List Char) : Except InvalidArrayLength Bool := do
  match ← ipv6ToBytes address with
  | none => return true
  | some bytes => return isUnsafeBytes bytes

/-- Without brackets and zone index. -/
def normalizeAddress (address : List Char) : List Char :=
  let host := if address.head? = some '[' ∧ address.getLast? = some ']' then address.tail.dropLast else address
  host.takeWhile (· ≠ '%')

def isUnsafeIp (address : List Char) : Except InvalidArrayLength Bool :=
  if isIP (normalizeAddress address) = 4 then .ok (isUnsafeIpv4 (normalizeAddress address))
  else if isIP (normalizeAddress address) = 6 then isUnsafeIpv6 (normalizeAddress address)
  else .ok false

def isPrivateIpv4 (normalized : List Char) : Bool :=
  let a := (octetsOf normalized)[0]?.join
  let b := (octetsOf normalized)[1]?.join
  a = some 10 || a = some 127 || (a = some 172 && b.any fun b => 16 ≤ b && b ≤ 31) || (a = some 192 && b = some 168)

/-- The body of `isPrivateOrLoopbackIp`, with the call it makes of itself. -/
def privateOrLoopback (recur : List Char → Except InvalidArrayLength Bool) (address : List Char) :
    Except InvalidArrayLength Bool :=
  if isIP (normalizeAddress address) = 4 then .ok (isPrivateIpv4 (normalizeAddress address))
  else if isIP (normalizeAddress address) ≠ 6 then .ok false
  else do
    match ← ipv6ToBytes (normalizeAddress address) with
    | none => return false
    | some bytes =>
      match (ipv4FromMappedIpv6 bytes).or (ipv4FromCompatibleIpv6 bytes) with
      | some mapped => recur mapped
      | none => return ((bytes.take 15).all (· = 0) && bytes.getD 15 0 = 1) || bytes.getD 0 0 &&& 0xfe = 0xfc

/-- The inner call gets a dotted quad and makes no further one (`isPrivateOrLoopbackIp_eq`). -/
def isPrivateOrLoopbackIp : List Char → Except InvalidArrayLength Bool :=
  privateOrLoopback (privateOrLoopback fun _ => .ok false)

end Dnsid.Transport

import Dnsid.Foundations.ExceptRun
import Dnsid.Foundations.MapSet
import Dnsid.Foundations.Runs
import Mathlib.Data.List.AList

/-! # Response signing for `node:http` (`sdk/src/node-response-signing.ts`)

For a request with Accept-Signature the middleware replaces `writeHead`, `flushHeaders`, `write` and `end` of the
response, buffers what the handler writes, and passes a copy of status, header fields and body to
`signRequestedHttpResponse`. Whatever the handler calls while that runs is a step of its own.

The response of `node:http` is modelled as far as the middleware uses it: `setHeader` and `removeHeader` throw once the
head is rendered, and `end` renders it through `writeHead`. `Headers` keeps the values of each name in order. Field names
are in lower case throughout, as both compare them.
-/
namespace Dnsid.Sdk
open Dnsid.Foundations
set_option autoImplicit false

abbrev Bytes := List UInt8

/-- The header fields of a response, by name. -/
abbrev Fields := AList fun _ : String => List String

def maxBufferedBytes : ℕ := 8 * 1024 * 1024

def signedFields : List String := ["content-digest", "cache-control", "signature-input", "signature"]

/-- The first argument of `write` and `end`; a callback, `null` and `undefined` are absent. -/
inductive Chunk where
  | absent
  | text (chunk : String) (encoding : Option String)
  | bytes (chunk : Bytes)

/-- The last argument of `writeHead`. -/
inductive HeaderArgument where
  | absent
  | flat (items : List String)
  | entries (entries : List (String × Option (List String)))

/-- One request, and what Node's own functions accept. -/
structure NodePlatform (Request : Type) where
  /-- `req.method === 'HEAD'`. -/
  isHead : Bool
  /-- `toRequest(req, options.origin)`. -/
  toRequest : Except String Request
  /-- `Buffer.from(chunk, encoding)`. -/
  bufferFrom : String → String → Except String Bytes
  /-- `setHeader` accepts the name and the value. -/
  validHeader : String → List String → Bool
  /-- `Headers.append` accepts the name and the item. -/
  appends : String → String → Bool

/-- What `signRequestedHttpResponse` is called with. -/
structure Passed (Request : Type) where
  request : Request
  status : ℤ
  headers : Fields
  body : Option Bytes

/-- `signed.headers.get`. -/
abbrev Signed := String → Option String

inductive Signing (Request : Type) where
  | idle
  | pending (passed : Passed Request)
  | settled (passed : Passed Request) (result : Except String Signed)

structure Head where
  status : ℤ
  message : Option String
  headers : Fields

/-- What went to the client. -/
structure Sent where
  head : Head
  body : Option Bytes

structure Exchange (Request : Type) where
  statusCode : ℤ
  statusMessage : Option String
  headers : Fields
  /-- The head, once `node:http` has rendered it. -/
  head : Option Head
  sent : List Sent
  chunks : List Bytes
  size : ℕ
  overflow : Bool
  ended : Bool
  done : Bool
  releasing : Bool
  signing : Signing Request

/-- The response when the middleware is called, with what was set on it before. -/
def initial {Request : Type} (statusCode : ℤ) (statusMessage : Option String) (headers : Fields) : Exchange Request :=
  ⟨statusCode, statusMessage, headers, none, [], [], 0, false, false, false, false, .idle⟩

section Middleware
variable {Request : Type} (P : NodePlatform Request)

/-! ## The response of `node:http` -/

/-- `none` when it throws. -/
def setHeader (name : String) (value : List String) (e : Exchange Request) : Option (Exchange Request) :=
  if e.head.isSome ∨ P.validHeader name value = false then none
  else some { e with headers := e.headers.insert name value }

def removeHeader (name : String) (e : Exchange Request) : Option (Exchange Request) :=
  if e.head.isSome then none else some { e with headers := e.headers.erase name }

/-- `writeHead(status)`, as it was before the middleware replaced it. -/
def writeHead (status : ℤ) (e : Exchange Request) : Option (Exchange Request) :=
  if e.head.isSome ∨ status < 100 ∨ 999 < status then none
  else some { e with statusCode := status, head := some ⟨status, e.statusMessage, e.headers⟩ }

/-- The body that follows the head. -/
def transmitted (head : Head) (body : Option Bytes) : Option Bytes :=
  if P.isHead ∨ head.status < 200 ∨ head.status = 204 ∨ head.status = 304 then none else body

def transmit (body : Option Bytes) (e : Exchange Request) : Exchange Request :=
  { e with sent := e.sent ++ (e.head.map fun head => ⟨head, transmitted P head body⟩).toList }

/-- `end(body)`, as it was before. -/
def endResponse (body : Option Bytes) (e : Exchange Request) : Option (Exchange Request) :=
  if e.head.isSome then some (transmit P body e)
  else (writeHead e.statusCode e).map (transmit P body)

/-! ## Buffering -/

/-- The bytes of a chunk; an error when `Buffer.from` throws. -/
def Chunk.toBytes : Chunk → Option (Except String Bytes)
  | .absent => none
  | .text chunk encoding => some (P.bufferFrom chunk (encoding.getD "utf8"))
  | .bytes chunk => some (.ok chunk)

/-- `none` when `Buffer.from` throws. -/
def collect (chunk : Chunk) (e : Exchange Request) : Option (Exchange Request) :=
  match chunk.toBytes P with
  | none => some e
  | some (.error _) => none
  | some (.ok bytes) =>
    let size := e.size + bytes.length
    if maxBufferedBytes < size then some { e with size, overflow := true, chunks := [] }
    else some { e with size, chunks := e.chunks ++ [bytes] }

/-- An error of `end` leaves the flags as they are. -/
def send (body : Option Bytes) (e : Exchange Request) : Exchange Request :=
  let e := { e with done := true, releasing := true }
  (endResponse P body e).getD e

def fail (e : Exchange Request) : Exchange Request :=
  if e.done then e
  else
    match e.headers.keys.foldlM (fun e name => removeHeader name e) e with
    | none => e
    | some e => send P none { e with statusCode := 500 }

/-- `setHeader` for each, up to the first that throws. -/
def setEach : List (String × List String) → Exchange Request → Exchange Request × Bool
  | [], e => (e, true)
  | (name, value) :: rest, e =>
    match setHeader P name value e with
    | none => (e, false)
    | some e => setEach rest e

/-- The flat list of `writeHead`, as pairs. -/
def pairs : List String → List (String × String)
  | name :: value :: rest => (name, value) :: pairs rest
  | _ => []

/-- The values of each name, in the order in which the names come first. -/
def grouped (items : List (String × String)) : List (String × List String) :=
  items.foldl (fun groups item => setMember groups (item.1, (groups.lookup item.1).getD [] ++ [item.2])) []

example : grouped [("b", "1"), ("a", "2"), ("b", "3")] = [("b", ["1", "3"]), ("a", ["2"])] := by decide

def setHeaders (e : Exchange Request) : HeaderArgument → Exchange Request × Bool
  | .absent => (e, true)
  | .flat items => setEach P (grouped (pairs items)) e
  | .entries entries => setEach P (entries.filterMap fun entry => entry.2.map fun value => (entry.1, value)) e

/-! ## Signing -/

/-- `toHeaders(res.getHeaders())`. The names are distinct, so each item is appended to the values of its own name. -/
def toHeaders (fields : Fields) : Except String Fields := do
  throwIf (fields.entries.any fun entry => entry.2.any fun item => !P.appends entry.1 item) "invalid header field"
  return fields

def noContent (statusCode : ℤ) : Bool := P.isHead || statusCode ∈ [204, 205, 304]

/-- The arguments of `signRequestedHttpResponse`. `Response` takes its status as an unsigned short. -/
def passed (e : Exchange Request) : Except String (Passed Request) := do
  let request ← P.toRequest
  let headers ← toHeaders P e.headers
  let status := e.statusCode % 65536
  let body := if noContent P e.statusCode then none else some e.chunks.flatten
  throwIf (status < 200 ∨ 599 < status) "status out of range"
  throwIf (body.isSome ∧ status ∈ [204, 205, 304]) "status has no body"
  return ⟨request, status, headers, body⟩

/-- `release`, up to its `await`. -/
def release (e : Exchange Request) : Exchange Request :=
  if e.done then e
  else if e.overflow then fail P e
  else
    match passed P e with
    | .error _ => fail P e
    | .ok passed => { e with signing := .pending passed }

/-- `SIGNED_FIELDS` of the signed response. -/
def signedValues (signed : Signed) : List (String × List String) :=
  signedFields.filterMap fun name => (signed name).map fun value => (name, [value])

/-- `release` after its `await`. -/
def released (passed : Passed Request) (e : Exchange Request) : Except String Signed → Exchange Request
  | .error _ => fail P e
  | .ok signed =>
    if e.done then e
    else
      match setEach P (signedValues signed) e with
      | (e, true) => send P passed.body e
      | (e, false) => fail P e

/-! ## Steps -/

/-- A call of the handler, or the end of `signRequestedHttpResponse`. -/
inductive Action where
  | setHeader (name : String) (value : List String)
  | removeHeader (name : String)
  | setStatusCode (status : ℤ)
  | writeHead (status : ℤ) (message : Option String) (headers : HeaderArgument)
  | write (chunk : Chunk)
  | endWith (chunk : Chunk)
  | flushHeaders
  | settle (result : Except String Signed)

/-- `res.writeHead`. -/
def handlerWriteHead (status : ℤ) (message : Option String) (headers : HeaderArgument) (e : Exchange Request) :
    Exchange Request :=
  if e.releasing then (writeHead status e).getD e
  else (setHeaders P { e with statusCode := status, statusMessage := message <|> e.statusMessage } headers).1

/-- `res.write`. -/
def handlerWrite (chunk : Chunk) (e : Exchange Request) : Exchange Request :=
  if e.ended || e.done then e else (collect P chunk e).getD e

/-- `res.end`. -/
def handlerEnd (chunk : Chunk) (e : Exchange Request) : Exchange Request :=
  if e.ended || e.done then e
  else
    match collect P chunk { e with ended := true } with
    | none => { e with ended := true }
    | some e => release P e

def step : Action → Exchange Request → Option (Exchange Request)
  | .setHeader name value, e => some ((setHeader P name value e).getD e)
  | .removeHeader name, e => some ((removeHeader name e).getD e)
  | .setStatusCode status, e => some { e with statusCode := status }
  | .writeHead status message headers, e => some (handlerWriteHead P status message headers e)
  | .write chunk, e => some (handlerWrite P chunk e)
  | .endWith chunk, e => some (handlerEnd P chunk e)
  | .flushHeaders, e => some (fail P e)
  | .settle result, e =>
    match e.signing with
    | .pending passed => some (released P passed { e with signing := .settled passed result } result)
    | _ => none

end Middleware

end Dnsid.Sdk

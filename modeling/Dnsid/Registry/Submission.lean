import Dnsid.Events.CanonicalJson

/-! # Submission of prepared events (`registry/src/index.ts`)

`RegistryClient.prepareIssuance` fetches an entry to sign and `submitPreparedEvent` posts the bytes of one. What
`fetch` came back with is the last argument: the request failed, or a response has a status and a body that may or
may not be JSON.
-/
namespace Dnsid.Registry
open Dnsid.Foundations Dnsid.Events
set_option autoImplicit false

/-! ## Texts -/

/-- White space and line terminators of `String.prototype.trim`. -/
def isTrimmedChar (c : Char) : Bool :=
  (0x9 ≤ c.toNat && c.toNat ≤ 0xd) || (0x2000 ≤ c.toNat && c.toNat ≤ 0x200a) ||
    [0x20, 0xa0, 0x1680, 0x2028, 0x2029, 0x202f, 0x205f, 0x3000, 0xfeff].contains c.toNat

/-- `value.trim() === value`. -/
def isTrimmed (value : String) : Bool :=
  !(value.toList.head?.any isTrimmedChar || value.toList.getLast?.any isTrimmedChar)

/-- `toUpperCase` of one character, as far as it can give a text of ASCII characters. -/
def upperCase (c : Char) : List Char :=
  if c.toNat = 0xdf then ['S', 'S']
  else if c.toNat = 0x131 then ['I']
  else if c.toNat = 0x17f then ['S']
  else if c.toNat = 0xfb00 then ['F', 'F']
  else if c.toNat = 0xfb01 then ['F', 'I']
  else if c.toNat = 0xfb02 then ['F', 'L']
  else if c.toNat = 0xfb03 then ['F', 'F', 'I']
  else if c.toNat = 0xfb04 then ['F', 'F', 'L']
  else if c.toNat = 0xfb05 ∨ c.toNat = 0xfb06 then ['S', 'T']
  else [c.toUpper]

def toUpperCase (text : String) : String := String.ofList (text.toList.flatMap upperCase)

/-! ## Results and failures -/

inductive SubmissionState where
  | pending
  | accepted
  | rejected
  deriving DecidableEq, Repr

structure SubmissionResult where
  state : SubmissionState
  entryHash : String
  index : Option ℚ
  logRef : Option String
  errorCode : Option String
  keyId : Option String
  deriving DecidableEq, Repr

inductive PreparedEventSubmissionErrorState where
  | pending
  | rejected
  | indeterminate
  deriving DecidableEq, Repr

structure PreparedEventSubmissionError where
  code : String
  httpStatus : ℕ
  message : String
  state : PreparedEventSubmissionErrorState
  retryable : Bool
  retryWithSameBytes : Bool
  deriving DecidableEq, Repr

/-- What code outside the workflows throws: an error of the submission, or another value with those of the
members that the workflows look at. -/
inductive Failure where
  | submission (error : PreparedEventSubmissionError)
  | other (message : String) (code state : Option String) (retryable retryWithSameBytes : Option Bool)
  deriving DecidableEq, Repr

/-- The member `retryWithSameBytes`, if the value has it. -/
def Failure.retryWithSameBytes? : Failure → Option Bool
  | .submission error => some error.retryWithSameBytes
  | .other _ _ _ _ retryWithSameBytes => retryWithSameBytes

/-- `new Error(message)`. -/
def Failure.error (message : String) : Failure := .other message none none none none

/-! ## The request -/

structure Response where
  status : ℕ
  statusText : String
  /-- `await resp.json()`, `none` when that throws. -/
  json : Option Json

def Response.ok (resp : Response) : Bool := 200 ≤ resp.status && resp.status ≤ 299

inductive FetchOutcome where
  | failed (message : String) (code : Option String)
  | response (resp : Response)

def validateIdempotencyKey (value : String) : Except Failure Unit := do
  throwIf (value = "") (.error "idempotencyKey is required")
  throwIf (!isTrimmed value) (.error "idempotencyKey must not contain surrounding whitespace")
  throwIf (value.toList.any fun c => c.toNat ≤ 0x1f || c.toNat = 0x7f)
    (.error "idempotencyKey must not contain control characters")
  throwIf (200 < value.utf8ByteSize) (.error "idempotencyKey must not exceed 200 UTF-8 bytes")

/-- What the request for a preparation came back with; a body that cannot be read is `none`. -/
inductive PreparationOutcome (Bytes : Type) where
  | failed (message : String) (code : Option String)
  | response (status : ℕ) (detail : String) (body : Option Bytes)

def prepareIssuance {Bytes : Type} (domain idempotencyKey : String) (outcome : PreparationOutcome Bytes) :
    Except Failure Bytes := do
  throwIf (domain = "" ∨ isTrimmed domain = false) (.error "domain is required")
  validateIdempotencyKey idempotencyKey
  match outcome with
  | .failed message code => .error (.other message code none none none)
  | .response status detail body =>
    if 200 ≤ status ∧ status ≤ 299 then orThrow (.error "terminated") body
    else .error (.error s!"registry request failed: HTTP {detail}")

def requiredString (raw : List (String × Json)) (field label : String) : Except String String :=
  orThrow s!"invalid {label}: {field} must be a non-empty string"
    (((raw.lookup field).bind Json.str?).filter (· ≠ ""))

def optionalString (raw : List (String × Json)) (field : String) : Option String :=
  ((raw.lookup field).bind Json.str?).filter (· ≠ "")

def readErrorResponse (resp : Response) : Option String × Option String :=
  match resp.json with
  | some (.obj value) =>
    ((optionalString value "error").or (optionalString value "code"), optionalString value "message")
  | _ => (none, none)

def isIndeterminateSubmissionStatus (status : ℕ) : Bool :=
  status = 408 || status = 425 || status = 429 || (500 ≤ status && status ≤ 599)

def preparedEventSubmissionError (resp : Response) : PreparedEventSubmissionError :=
  let raw := readErrorResponse resp
  let code := raw.1.getD s!"HTTP_{resp.status}"
  let busy := toUpperCase code = "TLOG_SUBMISSION_BUSY"
  let indeterminate := !busy &&
    (toUpperCase code = "TLOG_SUBMISSION_INDETERMINATE" || isIndeterminateSubmissionStatus resp.status)
  { code := code
    httpStatus := resp.status
    message := raw.2.getD s!"prepared-event submission failed: HTTP {resp.status} {resp.statusText}"
    state := if indeterminate then .indeterminate else if busy then .pending else .rejected
    retryable := indeterminate || busy
    retryWithSameBytes := indeterminate || busy }

def label : String := "registry tlog submission response"

def submissionState (text : String) : Except String SubmissionState :=
  if text = "pending" then .ok .pending
  else if text = "accepted" then .ok .accepted
  else if text = "rejected" then .ok .rejected
  else .error s!"invalid {label}: unsupported state {text}"

/-- `typeof raw.index === 'number' ? raw.index : undefined`. -/
def numberMember (raw : List (String × Json)) (field : String) : Option ℚ :=
  match raw.lookup field with
  | some (.num q) => some q
  | _ => none

/-- `Number.isSafeInteger(index) && index >= 0`. -/
def isSafeIndex (index : ℚ) : Bool := index.den = 1 && 0 ≤ index.num && index.num ≤ 9007199254740991

/-- `/^[0-9a-f]{64}$/`. -/
def isSha256Hex (text : String) : Bool :=
  text.toList.length = 64 && text.toList.all fun c => c.isDigit || (0x61 ≤ c.toNat && c.toNat ≤ 0x66)

section Client
variable {Bytes : Type} (byteLength : Bytes → ℕ) (sha256Hex : Bytes → String)

def assertAcceptedHash (state : SubmissionState) (entryHash : String) (submittedEntry : Bytes) :
    Except String Unit :=
  if state = .accepted then do
    throwIf (!isSha256Hex entryHash) s!"invalid {label}: accepted entry_hash must be lowercase SHA-256 hex"
    throwIf (entryHash ≠ sha256Hex submittedEntry)
      "registry accepted a different prepared-event entry_hash than the exact submitted bytes"
  else .ok ()

/-- The `try` over a response of success; an error is the message of what was thrown. -/
def readSubmissionResult (submittedEntry : Bytes) (resp : Response) : Except String SubmissionResult := do
  let value ← orThrow "invalid JSON" resp.json
  let raw ← orThrow s!"invalid {label}: expected JSON object" value.members?
  let state ← requiredString raw "state" label
  let state ← submissionState state
  let index := numberMember raw "index"
  throwIf (∃ q ∈ index, isSafeIndex q = false)
    s!"invalid {label}: index must be a non-negative safe integer"
  let entryHash ← requiredString raw "entry_hash" label
  assertAcceptedHash sha256Hex state entryHash submittedEntry
  return ⟨state, entryHash, index, optionalString raw "lr", optionalString raw "error_code",
    optionalString raw "key_id"⟩

/-- `catch (cause)` over a response of success. -/
def invalidResponse (resp : Response) (message : String) : Failure :=
  .submission ⟨"TLOG_INVALID_RESPONSE", resp.status, message, .indeterminate, false, false⟩

def submitPreparedEvent (entryBytes : Bytes) (idempotencyKey : String) (outcome : FetchOutcome) :
    Except Failure SubmissionResult := do
  throwIf (byteLength entryBytes = 0) (.error "entryBytes must not be empty")
  validateIdempotencyKey idempotencyKey
  match outcome with
  | .failed message code => .error (.other message code none none none)
  | .response resp =>
    if resp.ok then (readSubmissionResult sha256Hex entryBytes resp).mapError (invalidResponse resp)
    else .error (.submission (preparedEventSubmissionError resp))

end Client

/-! ## What the registry said -/

/-- The registry reports a rejection of the submitted bytes: by the state of a response of success, or by an error
response that the client classifies so. -/
def ReportsRejection : FetchOutcome → Prop
  | .failed _ _ => False
  | .response resp =>
    (resp.ok = true ∧ ∃ raw, resp.json = some (.obj raw) ∧ raw.lookup "state" = some (.str "rejected")) ∨
      (resp.ok = false ∧ (preparedEventSubmissionError resp).state = .rejected)

/-- A response of success is a submission result as the client reads it, or reports a rejection. -/
def Readable {Bytes : Type} (sha256Hex : Bytes → String) (entryBytes : Bytes) : FetchOutcome → Prop
  | .failed _ _ => True
  | .response resp => resp.ok = true →
      (∃ result, readSubmissionResult sha256Hex entryBytes resp = .ok result) ∨
        ReportsRejection (.response resp)

section Proof
variable {Bytes : Type} {byteLength : Bytes → ℕ} {sha256Hex : Bytes → String} {entryBytes : Bytes}
variable {idempotencyKey : String} {outcome : FetchOutcome}

/-- An error response that is not to be retried is one that the client takes for a rejection. -/
theorem preparedEventSubmissionError_rejected {resp : Response}
    (h : (preparedEventSubmissionError resp).retryWithSameBytes = false) :
    (preparedEventSubmissionError resp).state = .rejected := by
  unfold preparedEventSubmissionError at h ⊢
  obtain ⟨hindeterminate, hbusy⟩ := Bool.or_eq_false_iff.mp h
  dsimp only
  rw [if_neg, if_neg (of_decide_eq_false hbusy)]
  rw [hindeterminate]
  exact Bool.false_ne_true

theorem readSubmissionResult_state {resp : Response} {result : SubmissionResult}
    (h : readSubmissionResult sha256Hex entryBytes resp = .ok result) :
    ∃ raw text, resp.json = some (.obj raw) ∧ raw.lookup "state" = some (.str text) ∧
      submissionState text = .ok result.state := by
  unfold readSubmissionResult at h
  obtain ⟨value, hvalue, h⟩ := bind_eq_ok.mp h
  obtain ⟨raw, hraw, h⟩ := bind_eq_ok.mp h
  obtain ⟨text, htext, h⟩ := bind_eq_ok.mp h
  obtain ⟨state, hstate, h⟩ := bind_eq_ok.mp h
  obtain ⟨_, -, h⟩ := bind_eq_ok.mp h
  obtain ⟨entryHash, -, h⟩ := bind_eq_ok.mp h
  obtain ⟨_, -, h⟩ := bind_eq_ok.mp h
  obtain rfl := pure_eq_ok.mp h
  refine ⟨raw, text, ?_, ?_, hstate⟩
  · rw [orThrow_eq_ok.mp hvalue]
    cases value <;> simp_all [Json.members?, orThrow]
  · unfold requiredString at htext
    obtain ⟨hbind, -⟩ := Option.filter_eq_some_iff.mp (orThrow_eq_ok.mp htext)
    obtain ⟨json, hjson, hstr⟩ := Option.bind_eq_some_iff.mp hbind
    rw [hjson]
    cases json <;> simp_all [Json.str?]

theorem submissionState_rejected {text : String} (h : submissionState text = .ok .rejected) : text = "rejected" := by
  unfold submissionState at h
  split_ifs at h <;> simp_all

/-- A result in state `rejected` is a report of the registry. -/
theorem submitPreparedEvent_rejected {result : SubmissionResult}
    (h : submitPreparedEvent byteLength sha256Hex entryBytes idempotencyKey outcome = .ok result)
    (hstate : result.state = .rejected) : ReportsRejection outcome := by
  unfold submitPreparedEvent at h
  obtain ⟨_, -, h⟩ := bind_eq_ok.mp h
  obtain ⟨_, -, h⟩ := bind_eq_ok.mp h
  cases outcome with
  | failed message code => cases h
  | response resp =>
    simp only at h
    split at h
    next hok =>
      cases hread : readSubmissionResult sha256Hex entryBytes resp with
      | error message =>
        rw [hread] at h
        cases h
      | ok found =>
        rw [hread] at h
        obtain rfl : found = result := Except.ok.inj h
        obtain ⟨raw, text, hjson, hlookup, hparsed⟩ := readSubmissionResult_state hread
        rw [hstate] at hparsed
        rw [submissionState_rejected hparsed] at hlookup
        exact .inl ⟨hok, raw, hjson, hlookup⟩
    next => cases h

/-- A failure that forbids the same bytes is a report of the registry, if its responses of success can be read. -/
theorem submitPreparedEvent_failed {failure : Failure} (hreadable : Readable sha256Hex entryBytes outcome)
    (h : submitPreparedEvent byteLength sha256Hex entryBytes idempotencyKey outcome = .error failure)
    (hretry : failure.retryWithSameBytes? = some false) : ReportsRejection outcome := by
  -- The checks before the request throw plain errors.
  have hplain : ∀ (c : Prop) [Decidable c] (message : String),
      ErrorsIn (fun f : Failure => f.retryWithSameBytes? = none) (throwIf c (.error message)) :=
    fun c _ message => .throwIf rfl
  have hkey : ErrorsIn (fun f : Failure => f.retryWithSameBytes? = none)
      (validateIdempotencyKey idempotencyKey) :=
    .bind (hplain _ _) fun _ _ => .bind (hplain _ _) fun _ _ => .bind (hplain _ _) fun _ _ => hplain _ _
  unfold submitPreparedEvent at h
  cases hbytes : throwIf (byteLength entryBytes = 0) (Failure.error "entryBytes must not be empty") with
  | error thrown =>
    rw [hbytes] at h
    obtain rfl : thrown = failure := Except.error.inj h
    simp [hplain _ _ thrown hbytes] at hretry
  | ok _ =>
    rw [hbytes] at h
    cases hvalid : validateIdempotencyKey idempotencyKey with
    | error thrown =>
      rw [hvalid] at h
      obtain rfl : thrown = failure := Except.error.inj h
      simp [hkey thrown hvalid] at hretry
    | ok _ =>
      rw [hvalid] at h
      cases outcome with
      | failed message code =>
        obtain rfl : Failure.other message code none none none = failure := Except.error.inj h
        cases hretry
      | response resp =>
        replace h : (if resp.ok then (readSubmissionResult sha256Hex entryBytes resp).mapError (invalidResponse resp)
          else .error (.submission (preparedEventSubmissionError resp))) = Except.error failure := h
        split at h
        next hok =>
          rcases hreadable hok with ⟨result, hresult⟩ | hreports
          · rw [hresult] at h
            cases h
          · exact hreports
        next hok =>
          obtain rfl : Failure.submission (preparedEventSubmissionError resp) = failure := Except.error.inj h
          exact .inr ⟨by simpa using hok, preparedEventSubmissionError_rejected (Option.some.inj hretry)⟩

end Proof

end Dnsid.Registry

import Dnsid.Manager.IdentityCache
import Dnsid.Foundations.Runs

/-! # Coalesced verification (`protocol/src/identity-manager.ts`, `verification-budget.ts`)

Any number of `verifyDomain` and `refreshDomain` calls share one manager. The code is cooperative, so each
stretch between two awaits is one action. A shared operation goes through the stretches of
`startShared`: its budgeted work settles, then the `then`, `catch` and `finally` handlers run one after
the other, and only then are its callers resumed. A call goes through `verifyReusableIdentity`, which may
wait for a shared operation, may then verify on its own, and settles through its own budget.

What the work finds (DNS, keys, log and status) is the environment's choice and stands in the action.
A cancellation among it is possible only when the signal of the work is aborted or when a budget of
30 seconds has run out since the work began: every nested budget of the log readers is started later
and lasts as long.
-/
namespace Dnsid.Manager
set_option autoImplicit false

inductive Kind where
  | verification
  | statusRefresh
  | refresh
  deriving DecidableEq, Repr

inductive Operation (Record : Type) where
  | verification
  | statusRefresh (cached : VerifiedDomain Record)
  | refresh
  deriving DecidableEq

/-- The in-flight map the operation is started in. -/
def Operation.kind {Record : Type} : Operation Record → Kind
  | .verification => .verification
  | .statusRefresh _ => .statusRefresh
  | .refresh => .refresh

abbrev Outcome (Record : Type) : Type := Except Failure (VerifiedDomain Record)

/-- Where the promise of a shared operation stands. -/
inductive Phase (Record : Type) where
  | running
  | budgeted (outcome : Outcome Record)
  | fulfilled (outcome : Outcome Record)
  | caught (outcome : Outcome Record)
  | settled (outcome : Outcome Record)
  deriving DecidableEq

structure SharedVerification (Record : Type) where
  operation : Operation Record
  domain : String
  callers : ℕ
  /-- `controller.signal.aborted`. -/
  aborted : Bool
  /-- The timer of the operation's own budget has fired. -/
  timedOut : Bool
  deadline : ℕ
  finished : Bool
  phase : Phase Record
  deriving DecidableEq

def SharedVerification.kind {Record : Type} (op : SharedVerification Record) : Kind := op.operation.kind

structure TrustedEntity where
  governanceId : String
  entityKeyThumbprints : Option (List String)

structure Config (Record Peer : Type) where
  normalizeFQDN : String → Except String String
  /-- In seconds. -/
  statusCheckInterval : Option ℚ
  trustedEntities : Option (List TrustedEntity)
  governanceId : Record → String
  /-- `policyFlags().has('mtls')`. -/
  hasMtlsFlag : Record → Bool
  matchesDnsName : Peer → String → Bool

/-- The arguments of `verifyDomain`, `refreshDomain` and `verifyPublicationEvidence`. -/
structure Call (Peer : Type) where
  domain : String
  peerCert : Option Peer
  timeoutMs : Option ℕ
  signalAborted : Bool
  enforceAcceptance : Bool
  refresh : Bool
  deriving DecidableEq

inductive CallPhase (Record : Type) where
  | waiting
  | verifying (since : ℕ)
  | returned (outcome : Outcome Record)
  | settled (outcome : Outcome Record)
  deriving DecidableEq

/-- The frame of a call. `joined` is the shared operation it waits or has waited for, with `true` when it
found the operation in flight and `false` when it started it. -/
structure Invocation (Record Peer : Type) where
  call : Call Peer
  domain : String
  signalAborted : Bool
  timedOut : Bool
  deadline : ℕ
  joined : Option (ℕ × Bool)
  phase : CallPhase Record
  deriving DecidableEq

def Invocation.aborted {Record Peer : Type} (inv : Invocation Record Peer) : Bool :=
  inv.signalAborted || inv.timedOut

structure IdentityManager (Record Peer : Type) where
  /-- `performance.now()`. -/
  clock : ℕ
  /-- `Date.now()`. -/
  now : ℤ
  cache : CacheStore Record
  inFlight : Kind → String → Option ℕ
  /-- Every operation that has been started, in the order of the starts. -/
  shared : List (SharedVerification Record)
  calls : ℕ → Option (Invocation Record Peer)

/-- What `verifyDomainUncached` has gathered when it builds its result. -/
structure Acquired (Record : Type) where
  record : Record
  signingKeyThumbprint : String
  status : AgentStatusState
  dnsTTL : ℚ
  dnsExpiresAt : ℤ
  tlsNotAfter : Option ℤ
  recordSigningTlsNotAfter : Option ℤ
  keyAgeEnd : Option ℤ

inductive Answer (Record : Type) where
  | rejected (e : Failure)
  | acquired (evidence : Acquired Record)
  | status (state : AgentStatusState)

inductive Action (Record Peer : Type) where
  | tick (elapsed : ℕ) (now : ℤ)
  | expire (domain : String)
  | evictDomain (domain : String)
  | call (c : ℕ) (call : Call Peer)
  | abort (c : ℕ)
  | timeout (c : ℕ)
  | leave (c : ℕ)
  | wake (c : ℕ)
  | verified (c : ℕ) (answer : Answer Record)
  | settle (c : ℕ)
  | cancel (c : ℕ)
  | capElapsed (o : ℕ)
  | work (o : ℕ) (answer : Answer Record)
  | cancelWork (o : ℕ)
  | thenHandler (o : ℕ)
  | catchHandler (o : ℕ)
  | finallyHandler (o : ℕ)

/-- The default of `timeoutMs`, which is also the budget of every shared operation. -/
def defaultTimeoutMs : ℕ := 30000

section Model
variable {Record Peer : Type} (cfg : Config Record Peer)

namespace IdentityManager

def setCall (s : IdentityManager Record Peer) (c : ℕ) (inv : Invocation Record Peer) :
    IdentityManager Record Peer :=
  { s with calls := Function.update s.calls c (some inv) }

def setShared (s : IdentityManager Record Peer) (o : ℕ) (op : SharedVerification Record) :
    IdentityManager Record Peer :=
  { s with shared := s.shared.set o op }

def setCache (s : IdentityManager Record Peer) (cache : CacheStore Record) :
    IdentityManager Record Peer :=
  { s with cache := cache }

/-- `map.delete(domain)`. -/
def deregister (s : IdentityManager Record Peer) (kind : Kind) (domain : String) :
    IdentityManager Record Peer :=
  { s with inFlight := fun k d => if k = kind ∧ d = domain then none else s.inFlight k d }

def evictDomain (s : IdentityManager Record Peer) (domain : String) : IdentityManager Record Peer :=
  let s := ((s.deregister .refresh domain).deregister .verification domain).deregister .statusRefresh
    domain
  s.setCache (s.cache.evict domain)

/-- The deletions that a refresh makes when it starts and when it succeeds. -/
def supersede (s : IdentityManager Record Peer) (kind : Kind) (domain : String) :
    IdentityManager Record Peer :=
  if kind = .refresh then (s.deregister .verification domain).deregister .statusRefresh domain else s

def startShared (s : IdentityManager Record Peer) (operation : Operation Record) (domain : String) :
    IdentityManager Record Peer :=
  let s := s.supersede operation.kind domain
  { s with
    shared := s.shared ++
      [⟨operation, domain, 0, false, false, s.clock + defaultTimeoutMs, false, .running⟩]
    inFlight := fun k d =>
      if k = operation.kind ∧ d = domain then some s.shared.length else s.inFlight k d }

/-- `joinShared` up to its await. -/
def joinShared (s : IdentityManager Record Peer) (c : ℕ) (inv : Invocation Record Peer) (o : ℕ)
    (existing : Bool) : IdentityManager Record Peer :=
  match s.shared[o]? with
  | none => s
  | some op => (s.setShared o { op with callers := op.callers + 1 }).setCall c
      { inv with joined := some (o, existing), phase := .waiting }

/-- The `finally` of `joinShared`. -/
def leaveShared (s : IdentityManager Record Peer) (o : ℕ) : IdentityManager Record Peer :=
  match s.shared[o]? with
  | none => s
  | some op => s.setShared o { op with
      callers := op.callers - 1
      aborted := op.aborted || (op.callers - 1 = 0 && !op.finished) }

/-- `requireFreshEvidence`. -/
def requireFreshEvidence (s : IdentityManager Record Peer) (result cached : VerifiedDomain Record) :
    IdentityManager Record Peer × Except Failure Unit :=
  match result.assertFresh s.now with
  | .ok () => (s, .ok ())
  | .error e =>
    let s' := s.setCache (s.cache.afterGet s.now result.domain)
    if (s.cache.lookup s.now result.domain).any (·.object = cached.object) then
      (s'.setCache (s'.cache.evict result.domain), .error e)
    else (s', .error e)

end IdentityManager

def verifyMtlsPeer (record : Record) (domain : String) (peerCert : Option Peer) : Except Failure Unit :=
  if !cfg.hasMtlsFlag record then .ok ()
  else match peerCert with
    | none => .error ⟨"fl=mtls: peer certificate is required", some .tlsError, false, false⟩
    | some cert =>
      if cfg.matchesDnsName cert domain then .ok ()
      else .error ⟨"fl=mtls: peer certificate SAN does not match agent FQDN " ++ domain,
        some .tlsError, false, false⟩

def enforceCounterpartyAcceptance (result : VerifiedDomain Record) : Except Failure Unit :=
  match cfg.trustedEntities with
  | none => .ok ()
  | some policy =>
    let governanceId := cfg.governanceId result.record
    let accepted (entry : TrustedEntity) : Bool :=
      entry.entityKeyThumbprints.all (·.contains result.signingKeyThumbprint)
    if (policy.find? (·.governanceId = governanceId)).any accepted then .ok ()
    else .error ⟨"counterparty not accepted: governance ID " ++ governanceId ++ " with entity key " ++
      result.signingKeyThumbprint, some .counterpartyNotAccepted, false, false⟩

/-- The end of `verifyDomainUncached`: its remaining checks and the result it builds. -/
def verifyDomainUncached (now : ℤ) (object : Object) (domain : String) (evidence : Acquired Record) :
    Outcome Record :=
  if evidence.dnsTTL < 0 then .error ⟨"invalid DNS TTL", some .dnsResolution, false, false⟩
  else if evidence.status ≠ .active then .error (inactive evidence.status)
  else .ok {
    object := object
    domain := domain
    record := evidence.record
    signingKeyThumbprint := evidence.signingKeyThumbprint
    registryStatus := evidence.status
    dnsTTL := evidence.dnsTTL
    dnsExpiresAt := evidence.dnsExpiresAt
    tlsNotAfter := evidence.tlsNotAfter
    recordSigningTlsNotAfter := evidence.recordSigningTlsNotAfter
    keyAgeEnd := evidence.keyAgeEnd
    lastStatusCheckAt := now }

/-- `refreshStatus` after its fetch. -/
def refreshStatus (now : ℤ) (object : Object) (cached : VerifiedDomain Record)
    (state : AgentStatusState) : Outcome Record :=
  if state ≠ .active then .error (inactive state)
  else .ok { cached with object := object, registryStatus := state, lastStatusCheckAt := now }

/-- A result is passed on only when it is fresh. -/
def IdentityManager.freshOnly (s : IdentityManager Record Peer)
    (cached : VerifiedDomain Record → VerifiedDomain Record) :
    Outcome Record → IdentityManager Record Peer × Outcome Record
  | .error e => (s, .error e)
  | .ok result =>
    match s.requireFreshEvidence result (cached result) with
    | (s', .ok ()) => (s', .ok result)
    | (s', .error e) => (s', .error e)

/-- What the work of an operation settles with. A status refresh is no answer to a verification, and the
other way round. -/
def IdentityManager.operationResult (s : IdentityManager Record Peer) (o : ℕ)
    (op : SharedVerification Record) :
    Answer Record → Option (IdentityManager Record Peer × Outcome Record)
  | .rejected e =>
    if e.canceled && !(op.aborted || op.timedOut || op.deadline ≤ s.clock) then none
    else some (s, .error e)
  | .acquired evidence =>
    match op.operation with
    | .statusRefresh _ => none
    | _ => some (s.freshOnly id (verifyDomainUncached s.now (.shared o) op.domain evidence))
  | .status state =>
    match op.operation with
    | .statusRefresh cached =>
      some (s.freshOnly (fun _ => cached) (refreshStatus s.now (.shared o) cached state))
    | _ => none

/-- How `withVerificationBudget` settles once its operation has. -/
def budgeted (aborted late : Bool) :
    Outcome Record → Outcome Record
  | .error e => .error e
  | .ok result =>
    if aborted then .error cancellationError
    else if late then .error deadlineExceeded
    else .ok result

/-- The end of `verifyDomainWithinBudget`, which is policy of the call and not shared. -/
def IdentityManager.finish (s : IdentityManager Record Peer) (c : ℕ) (inv : Invocation Record Peer)
    (result : VerifiedDomain Record) : IdentityManager Record Peer :=
  let policy : Except Failure Unit :=
    if inv.call.enforceAcceptance then do
      verifyMtlsPeer cfg result.record inv.domain inv.call.peerCert
      enforceCounterpartyAcceptance cfg result
    else .ok ()
  match policy with
  | .error e => s.setCall c { inv with phase := .returned (.error e) }
  | .ok () =>
    let checked := s.freshOnly id (.ok result)
    checked.1.setCall c { inv with phase := .returned checked.2 }

/-- A call joins the operation in flight, or starts it. -/
def IdentityManager.joinOrStart (s : IdentityManager Record Peer) (c : ℕ) (inv : Invocation Record Peer)
    (operation : Operation Record) : IdentityManager Record Peer :=
  match s.inFlight operation.kind inv.domain with
  | some o => s.joinShared c inv o true
  | none => (s.startShared operation inv.domain).joinShared c inv s.shared.length false

def Config.statusCheckIntervalMs : ℚ := cfg.statusCheckInterval.getD 0 * 1000

/-- `verifyReusableIdentity` up to its first await. -/
def IdentityManager.verifyReusableIdentity (s : IdentityManager Record Peer) (c : ℕ)
    (inv : Invocation Record Peer) :
    IdentityManager Record Peer :=
  if inv.call.refresh then s.joinOrStart c inv .refresh
  else
    let s' := s.setCache (s.cache.afterGet s.now inv.domain)
    match s.cache.lookup s.now inv.domain with
    | none => s'.joinOrStart c inv .verification
    | some cached =>
      let peer : Except Failure Unit :=
        if inv.call.enforceAcceptance then verifyMtlsPeer cfg cached.record inv.domain inv.call.peerCert
        else .ok ()
      match peer with
      | .error e => s'.setCall c { inv with phase := .returned (.error e) }
      | .ok () =>
        if 0 < cfg.statusCheckIntervalMs ∧
            ((s.now - cached.lastStatusCheckAt : ℤ) : ℚ) < cfg.statusCheckIntervalMs then
          s'.finish cfg c inv cached
        else s'.joinOrStart c inv (.statusRefresh cached)

/-- A call up to its first await. -/
def IdentityManager.begin (s : IdentityManager Record Peer) (c : ℕ) (call : Call Peer) :
    IdentityManager Record Peer :=
  let timeout := call.timeoutMs.getD defaultTimeoutMs
  let inv : Invocation Record Peer :=
    ⟨call, call.domain, call.signalAborted, false, s.clock + timeout, none, .waiting⟩
  let throws (e : Failure) : IdentityManager Record Peer :=
    s.setCall c { inv with phase := .settled (.error e) }
  if timeout = 0 ∨ 2147483647 < timeout then
    throws (argumentError "verification timeout must be finite and positive")
  else if call.signalAborted then throws cancellationError
  else match cfg.normalizeFQDN call.domain with
    | .error message => throws (argumentError ("domain is not a valid FQDN: " ++ message))
    | .ok domain => s.verifyReusableIdentity cfg c { inv with domain := domain }

/-- Evidence without a lifetime belongs to the operation that acquired it: whether a call that found the
operation in flight verifies on its own. -/
def repeats (kind : Kind) (existing : Bool) (result : VerifiedDomain Record) : Bool :=
  match kind with
  | .refresh => existing && result.dnsTTL = 0
  | .verification => existing && !(0 < result.dnsTTL)
  | .statusRefresh => false

/-- A waiting call goes on with what the shared operation has settled with. -/
def IdentityManager.resume (s : IdentityManager Record Peer) (c : ℕ) (inv : Invocation Record Peer)
    (kind : Kind)
    (existing : Bool) : Outcome Record → IdentityManager Record Peer
  | .error e => s.setCall c { inv with phase := .returned (.error e) }
  | .ok result =>
    if inv.aborted then s.setCall c { inv with phase := .returned (.error cancellationError) }
    else if repeats kind existing result then s.setCall c { inv with phase := .verifying s.clock }
    else s.finish cfg c inv result

/-- The handler of a fulfilled operation. -/
def IdentityManager.onFulfilled (s : IdentityManager Record Peer) (o : ℕ)
    (op : SharedVerification Record) :
    Outcome Record → IdentityManager Record Peer
  | .error _ => s
  | .ok result =>
    if !op.aborted && s.inFlight op.kind op.domain = some o then
      let s := s.supersede op.kind op.domain
      s.setCache (s.cache.put s.now op.domain result)
    else s

/-- The handler of a rejected operation. -/
def IdentityManager.onRejected (s : IdentityManager Record Peer) (o : ℕ)
    (op : SharedVerification Record) :
    Outcome Record → IdentityManager Record Peer
  | .ok _ => s
  | .error e =>
    if s.inFlight op.kind op.domain = some o ∧ e.code = some .statusNotActive then
      s.setCache (s.cache.evict op.domain)
    else s

def IdentityManager.onFinally (s : IdentityManager Record Peer) (o : ℕ)
    (op : SharedVerification Record) :
    IdentityManager Record Peer :=
  if s.inFlight op.kind op.domain = some o then s.deregister op.kind op.domain else s

/-- One action of a call. -/
def stepCall (s : IdentityManager Record Peer) (c : ℕ) (inv : Invocation Record Peer) :
    Action Record Peer → Option (IdentityManager Record Peer)
  | .abort _ => some (s.setCall c { inv with signalAborted := true })
  | .timeout _ =>
    if inv.deadline ≤ s.clock then some (s.setCall c { inv with timedOut := true }) else none
  | .leave _ =>
    match inv.phase, inv.joined with
    | .waiting, some (o, _) =>
      match s.shared[o]? with
      | some _ =>
        if inv.aborted then
          some ((s.leaveShared o).setCall c { inv with phase := .returned (.error cancellationError) })
        else none
      | none => none
    | _, _ => none
  | .wake _ =>
    match inv.phase, inv.joined with
    | .waiting, some (o, existing) =>
      match s.shared[o]? with
      | some op =>
        match op.phase with
        | .settled outcome => some ((s.leaveShared o).resume cfg c inv op.kind existing outcome)
        | _ => none
      | none => none
    | _, _ => none
  | .verified _ answer =>
    match inv.phase, answer with
    | .verifying since, .rejected e =>
      if e.canceled && !(inv.aborted || since + defaultTimeoutMs ≤ s.clock) then none
      else some (s.setCall c { inv with phase := .returned (.error e) })
    | .verifying _, .acquired evidence =>
      match s.freshOnly id (verifyDomainUncached s.now (.call c) inv.domain evidence) with
      | (s', .error e) => some (s'.setCall c { inv with phase := .returned (.error e) })
      | (s', .ok result) => some (s'.finish cfg c inv result)
    | _, _ => none
  | .settle _ =>
    match inv.phase with
    | .returned outcome => some (s.setCall c
        { inv with phase := .settled (budgeted inv.aborted (inv.deadline ≤ s.clock) outcome) })
    | _ => none
  | .cancel _ =>
    match inv.phase with
    | .verifying _ | .returned _ =>
      if inv.aborted then some (s.setCall c { inv with phase := .settled (.error cancellationError) })
      else none
    | _ => none
  | _ => none

/-- One action of a shared operation. -/
def stepShared (s : IdentityManager Record Peer) (o : ℕ) (op : SharedVerification Record) :
    Action Record Peer → Option (IdentityManager Record Peer)
  | .capElapsed _ =>
    match op.phase with
    | .running =>
      if op.deadline ≤ s.clock then some (s.setShared o { op with timedOut := true }) else none
    | _ => none
  | .work _ answer =>
    match op.phase with
    | .running =>
      match s.operationResult o op answer with
      | none => none
      | some (s', outcome) => some (s'.setShared o { op with
          phase := .budgeted (budgeted (op.aborted || op.timedOut) (op.deadline ≤ s.clock) outcome) })
    | _ => none
  | .cancelWork _ =>
    match op.phase with
    | .running =>
      if op.aborted || op.timedOut then
        some (s.setShared o { op with phase := .budgeted (.error cancellationError) })
      else none
    | _ => none
  | .thenHandler _ =>
    match op.phase with
    | .budgeted outcome =>
      some ((s.onFulfilled o op outcome).setShared o { op with phase := .fulfilled outcome })
    | _ => none
  | .catchHandler _ =>
    match op.phase with
    | .fulfilled outcome =>
      some ((s.onRejected o op outcome).setShared o { op with phase := .caught outcome })
    | _ => none
  | .finallyHandler _ =>
    match op.phase with
    | .caught outcome =>
      some ((s.onFinally o op).setShared o { op with finished := true, phase := .settled outcome })
    | _ => none
  | _ => none

/-- The call an action belongs to. -/
def Action.callId : Action Record Peer → Option ℕ
  | .abort c | .timeout c | .leave c | .wake c | .verified c _ | .settle c | .cancel c => some c
  | _ => none

/-- The shared operation an action belongs to. -/
def Action.sharedId : Action Record Peer → Option ℕ
  | .capElapsed o | .work o _ | .cancelWork o | .thenHandler o | .catchHandler o | .finallyHandler o =>
    some o
  | _ => none

def step (a : Action Record Peer) (s : IdentityManager Record Peer) :
    Option (IdentityManager Record Peer) :=
  match a with
  | .tick elapsed now => some { s with clock := s.clock + elapsed, now := now }
  | .expire domain => some (s.setCache (s.cache.evict domain))
  | .evictDomain domain =>
    match cfg.normalizeFQDN domain with
    | .ok domain => some (s.evictDomain domain)
    | .error _ => some s
  | .call c call => if (s.calls c).isNone then some (s.begin cfg c call) else none
  | a =>
    match a.callId, a.sharedId with
    | some c, _ => (s.calls c).bind fun inv => stepCall cfg s c inv a
    | none, some o => (s.shared[o]?).bind fun op => stepShared s o op a
    | none, none => none

/-- A new manager. -/
def initial : IdentityManager Record Peer where
  clock := 0
  now := 0
  cache := fun _ => none
  inFlight := fun _ _ => none
  shared := []
  calls := fun _ => none

end Model

end Dnsid.Manager

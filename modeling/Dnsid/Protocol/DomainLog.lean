import Dnsid.Events.EventCodec

/-! # The history of a domain (`DomainLog` in `protocol/src/verified-domain.ts`)

`snapshotAt` is a fold of `snapshotStep` over the events; `Materialized` holds its variables. A `Date` is its
`getTime()`, `none` for an invalid one, and `time` is the argument `at`.
-/
namespace Dnsid.Protocol
open Dnsid.Foundations Dnsid.Events
set_option autoImplicit false

inductive AgentStatusState where
  | pending
  | provisioning
  | verifying
  | active
  | retired
  | revoked
  deriving DecidableEq, Repr

def AgentStatusState.name : AgentStatusState → String
  | .pending => "PENDING"
  | .provisioning => "PROVISIONING"
  | .verifying => "VERIFYING"
  | .active => "ACTIVE"
  | .retired => "RETIRED"
  | .revoked => "REVOKED"

structure DomainSnapshot where
  domain : String
  historicalState : AgentStatusState
  activeKey : DnsIdJWK
  activeKeyThumbprint : String
  keyBoundAt : ℤ
  governanceId : String
  snapshotAt : Option ℤ
  events : List LogEvent
  deriving DecidableEq

/-! ## `Date.prototype.toISOString` -/

def padded (width : ℕ) (n : ℕ) : String :=
  let digits := toString n
  "".pushn '0' (width - digits.length) ++ digits

/-- Year, month and day of a day counted from 1970-01-01, in the proleptic Gregorian calendar: eras of 400
years, with the leap day at the end of a year that starts in March. -/
def civilFromDays (days : ℤ) : ℤ × ℕ × ℕ :=
  let z := days + 719468
  let era := z / 146097
  let dayOfEra := (z % 146097).toNat
  let yearOfEra := (dayOfEra - dayOfEra / 1460 + dayOfEra / 36524 - dayOfEra / 146096) / 365
  let dayOfYear := dayOfEra - (365 * yearOfEra + yearOfEra / 4 - yearOfEra / 100)
  let marchMonth := (5 * dayOfYear + 2) / 153
  let day := dayOfYear - (153 * marchMonth + 2) / 5 + 1
  let month := if marchMonth < 10 then marchMonth + 3 else marchMonth - 9
  ((yearOfEra : ℤ) + era * 400 + (if month ≤ 2 then 1 else 0), month, day)

/-- Years outside 0..9999 have a sign and six digits. -/
def isoYear (year : ℤ) : String :=
  if 0 ≤ year ∧ year ≤ 9999 then padded 4 year.toNat
  else (if year < 0 then "-" else "+") ++ padded 6 year.natAbs

def toISOString : Option ℤ → Except Thrown String
  | none => .error ⟨.rangeError, "Invalid time value", none, none⟩
  | some ms =>
    let date := civilFromDays (ms / 86400000)
    let clock := (ms % 86400000).toNat
    .ok (isoYear date.1 ++ "-" ++ padded 2 date.2.1 ++ "-" ++ padded 2 date.2.2 ++ "T" ++
      padded 2 (clock / 3600000) ++ ":" ++ padded 2 (clock / 60000 % 60) ++ ":" ++
      padded 2 (clock / 1000 % 60) ++ "." ++ padded 3 (clock % 1000) ++ "Z")

/-! ## Key material -/

section Snapshot
variable {Bytes : Type} (P : Platform Bytes)

/-- The members that RFC 7638 hashes, in order, as the key has them. -/
def thumbprintMembers (key : DnsIdJWK) : Option (List String) :=
  match key.text? "kty" with
  | some "EC" => some ["crv", "kty", "x", "y"]
  | some "OKP" => some ["crv", "kty", "x"]
  | some "RSA" => some ["e", "kty", "n"]
  | _ => none

/-- A member that is a string and not empty. -/
def materialMember (key : DnsIdJWK) (name : String) : Option (String × String) :=
  ((key.text? name).filter (· ≠ "")).map (Prod.mk name)

def synchronousJwkThumbprint (key : DnsIdJWK) (errorCategory : LifecycleErrorCategory) :
    Except Thrown String := do
  let names ← orThrow (.lifecycleError "unsupported lifecycle JWK type" errorCategory)
    (thumbprintMembers key)
  let material ← orThrow (.lifecycleError "lifecycle JWK is missing public key material" errorCategory)
    (names.mapM (materialMember key))
  return P.materialHash material

/-- Keys whose thumbprint could be taken have strings for members, on which `===` is equality. -/
def sameJwkMaterial (a b : DnsIdJWK) : Bool :=
  if a.get? "kty" ≠ b.get? "kty" then false
  else match a.text? "kty" with
    | some "EC" =>
      a.get? "crv" = b.get? "crv" ∧ a.get? "x" = b.get? "x" ∧ a.get? "y" = b.get? "y"
    | some "OKP" => a.get? "crv" = b.get? "crv" ∧ a.get? "x" = b.get? "x"
    | some "RSA" => a.get? "n" = b.get? "n" ∧ a.get? "e" = b.get? "e"
    | some "oct" => (a.text? "k").isSome ∧ a.get? "k" = b.get? "k"
    | _ => false

/-! ## The keys of an ISSUANCE -/

/-- `??` on a value that may be `undefined` or `null`. -/
def orElseNullish (a b : Option Json) : Option Json := (a.filter (· ≠ .null)).or b

def issuanceEntityKey (event : IssuanceEvent) : Option DnsIdJWK :=
  orElseNullish (event.entityKey.map IssuanceKeySlot.jwk) event.initialEntityPublicKey

def issuanceEntityThumbprint (event : IssuanceEvent) : Option String :=
  (event.entityKey.map IssuanceKeySlot.thumbprint).or event.initialEntityThumbprint

/-- Draft-01's operational slot, then the c2sp-tlog members, then the members from before draft-01. -/
def issuanceActiveKey (event : IssuanceEvent) : Option DnsIdJWK :=
  orElseNullish (event.operationalKey.map IssuanceKeySlot.jwk)
    (orElseNullish event.initialOperationalPublicKey event.publicKey)

def issuanceActiveThumbprint (event : IssuanceEvent) : Option String :=
  (event.operationalKey.map IssuanceKeySlot.thumbprint).or
    (event.initialOperationalThumbprint.or event.thumbprint)

/-! ## One event -/

structure Materialized where
  state : Option AgentStatusState
  activeKey : Option DnsIdJWK
  activeKeyThumbprint : String
  keyBoundAt : ℤ
  governanceId : String
  eventsUpTo : List LogEvent
  pastSnapshotBoundary : Bool
  deriving DecidableEq

def Materialized.initial : Materialized := ⟨none, none, "", 0, "", [], false⟩

def materializeIssuance (st : Materialized) (timestamp : ℤ) (event : IssuanceEvent) :
    Except Thrown Materialized := do
  let invalid : Thrown := .lifecycleError "ISSUANCE key binding is invalid" .invalidIssuance
  throwIf (st.state ≠ none)
    (.lifecycleError "duplicate ISSUANCE in one identity history" .duplicateIssuance)
  let entityKey ← orThrow invalid ((issuanceEntityKey event).filter Json.truthy)
  let activeKey ← orThrow invalid ((issuanceActiveKey event).filter Json.truthy)
  let entityKeyThumbprint ← orThrow invalid ((issuanceEntityThumbprint event).filter (· ≠ ""))
  let activeKeyThumbprint ← orThrow invalid ((issuanceActiveThumbprint event).filter (· ≠ ""))
  let entityHash ← synchronousJwkThumbprint P entityKey .invalidIssuance
  throwIf (entityKeyThumbprint ≠ entityHash) invalid
  let activeHash ← synchronousJwkThumbprint P activeKey .invalidIssuance
  throwIf (activeKeyThumbprint ≠ activeHash) invalid
  throwIf (entityKeyThumbprint = activeKeyThumbprint ∨ sameJwkMaterial entityKey activeKey) invalid
  return { st with
    state := some .active
    activeKey := some activeKey
    activeKeyThumbprint := activeKeyThumbprint
    keyBoundAt := timestamp
    governanceId := event.governanceId }

def materializeRotation (st : Materialized) (timestamp : ℤ) (event : KeyRotationEvent) :
    Except Thrown Materialized := do
  let invalid : Thrown := .lifecycleError "KEY_ROTATION new key is invalid" .keyContinuity
  throwIf (st.state ≠ some .active)
    (.lifecycleError "KEY_ROTATION outside an ACTIVE issuance" .keyContinuity)
  throwIf (event.previousOperationalThumbprint ≠ st.activeKeyThumbprint)
    (.lifecycleError "KEY_ROTATION does not continue from the active key" .keyContinuity)
  throwIf (!event.newOperationalPublicKey.truthy ∨ event.newOperationalThumbprint = "") invalid
  let newHash ← synchronousJwkThumbprint P event.newOperationalPublicKey .keyContinuity
  throwIf (event.newOperationalThumbprint ≠ newHash) invalid
  throwIf (event.newOperationalThumbprint = st.activeKeyThumbprint ∨
    st.activeKey.any fun key => sameJwkMaterial key event.newOperationalPublicKey) invalid
  return { st with
    activeKey := some event.newOperationalPublicKey
    activeKeyThumbprint := event.newOperationalThumbprint
    keyBoundAt := timestamp }

/-- `state !== 'ACTIVE'` of the types that throw without a category. -/
def assertActive (st : Materialized) (type : LogEventType) : Except Thrown Unit :=
  throwIf (st.state ≠ some .active)
    ⟨.verificationError, s!"{type.name} outside an ACTIVE issuance", none, none⟩

def isListedReason : RevocationReason → Bool
  | .unlisted _ => false
  | _ => true

/-- The `switch` over the event type. -/
def materializeEvent (st : Materialized) (timestamp : ℤ) : EventBody → Except Thrown Materialized
  | .issuance event => materializeIssuance P st timestamp event
  | .keyRotation event => materializeRotation P st timestamp event
  | .revocation reason => do
    assertActive st .revocation
    throwIf (!isListedReason reason)
      (.lifecycleError "invalid REVOCATION reason" .invalidRevocationReason)
    return { st with state := some .revoked }
  | .retirement => do
    assertActive st .retirement
    return { st with state := some .retired }
  | .migration event => do
    throwIf (st.state ≠ some .active ∨ event.previousLog = "" ∨ event.newLog = "" ∨
        event.previousLog = event.newLog ∨ event.finalEntryRef = "")
      (.lifecycleError "invalid MIGRATION" .invalidMigration)
    return st
  | .delegation _ => do
    assertActive st .delegation
    return st

/-- `event.timestamp > at`, never true of an invalid `at`. -/
def isAfter (timestamp : ℤ) (time : Option ℤ) : Bool := time.any fun t => t < timestamp

def assertMaterializable (domain : String) (st : Materialized) (type : LogEventType) :
    Except Thrown Unit := do
  throwIf st.pastSnapshotBoundary (.lifecycleError
    s!"snapshot time is not a verified lifecycle prefix for {domain}" .snapshotNonPrefix)
  throwIf (st.state = none ∧ type ≠ .issuance)
    (.lifecycleError "first lifecycle event must be ISSUANCE" .genesisRequired)
  throwIf (st.state = some .revoked ∨ st.state = some .retired)
    (.lifecycleError "event after terminal identity state" .terminalState)

def snapshotStep (domain : String) (time : Option ℤ) (st : Materialized) (event : LogEvent) :
    Except Thrown Materialized := do
  throwIf (event.domain ≠ domain)
    (.lifecycleError s!"lifecycle event domain mismatch for {domain}" .domainMismatch)
  let timestamp ← orThrow (.lifecycleError "invalid lifecycle timestamp" .invalidEvidence)
    event.timestamp
  if isAfter timestamp time then return { st with pastSnapshotBoundary := true }
  else do
    assertMaterializable domain st event.type
    materializeEvent P { st with eventsUpTo := st.eventsUpTo ++ [event] } timestamp event.body

/-! ## The snapshot -/

structure DomainLog where
  domain : String
  events : List LogEvent

/-- The text of both `SNAPSHOT_EMPTY` errors names the time. -/
def snapshotEmpty {α : Type} (missing domain : String) (time : Option ℤ) : Except Thrown α := do
  let text ← toISOString time
  .error (.lifecycleError s!"no {missing} for {domain} at or before {text}" .snapshotEmpty)

def DomainLog.materialize (log : DomainLog) (time : Option ℤ) : Except Thrown Materialized :=
  log.events.foldlM (snapshotStep P log.domain time) .initial

def Materialized.snapshot (st : Materialized) (domain : String) (time : Option ℤ) :
    Except Thrown DomainSnapshot :=
  match st.state, st.activeKey with
  | some state, some activeKey => .ok
    { domain := domain
      historicalState := state
      activeKey := activeKey
      activeKeyThumbprint := st.activeKeyThumbprint
      keyBoundAt := st.keyBoundAt
      governanceId := st.governanceId
      snapshotAt := time
      events := st.eventsUpTo }
  | _, _ => snapshotEmpty "ISSUANCE event found" domain time

def DomainLog.snapshotAt (log : DomainLog) (time : Option ℤ) : Except Thrown DomainSnapshot :=
  if log.events = [] then snapshotEmpty "lifecycle events" log.domain time
  else do
    let st ← log.materialize P time
    st.snapshot log.domain time

/-- `Math.max`, which an invalid timestamp turns into `NaN`. -/
def maxTimestamp (latest timestamp : Option ℤ) : Option ℤ := do return max (← latest) (← timestamp)

/-- The `reduce` over timestamps that starts from 0. -/
def latestTimestamp (history : List LogEvent) : Option ℤ :=
  history.foldl (fun latest event => maxTimestamp latest event.timestamp) (some 0)

def latestSnapshot (domain : String) (history : List LogEvent) : Except Thrown DomainSnapshot :=
  DomainLog.snapshotAt P ⟨domain, history⟩ (latestTimestamp history)

end Snapshot

end Dnsid.Protocol

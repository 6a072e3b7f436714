import Dnsid.Checkpoint.SignedNote
import Dnsid.Foundations.ThresholdRule

/-! # Checkpoint policies (`log-c2sp-tlog/src/policy.ts`)

Keys of a policy are key texts or parsed keys. A number of the source is an integer here, `none` when it is not one.
Times are exact: a sum or a product of them is not rounded. `unchained` is read by nothing and left out.
-/
namespace Dnsid.Checkpoint
open Dnsid.Foundations Dnsid.Protocol
set_option autoImplicit false

/-- `SignedNoteKey | string`. -/
inductive KeySource where
  | key (key : SignedNoteKey)
  | text (text : String)

abbrev C2spTlogQuorumRule := ThresholdRule KeySource (Option ℤ)

abbrev NormalizedQuorumRule := ThresholdRule SignedNoteKey ℕ

structure C2spTlogOriginPolicy where
  logKeys : List KeySource
  witnessKeys : Option (List KeySource) := none
  quorum : Option (Option ℤ) := none
  quorumRule : Option C2spTlogQuorumRule := none

structure C2spTlogPolicy where
  scope : Option String
  origins : String → Option C2spTlogOriginPolicy

structure NormalizedOriginPolicy where
  logKeys : List SignedNoteKey
  witnessKeys : List SignedNoteKey
  quorum : ℕ
  quorumRule : NormalizedQuorumRule

structure CheckpointPolicyResult where
  acceptedWitnessTimestamps : List ℕ
  /-- The `getTime()` of the `Date`, `none` for an invalid one. -/
  checkpointWitnessTime : Option (Option ℕ)
  deriving DecidableEq

/-! ## Keys and rules -/

def asKey : KeySource → Except Thrown SignedNoteKey
  | .text text => parseSignedNoteVerifierKey text
  | .key key => .ok key

/-- A safe integer from `least` on, as a natural number. -/
def safeFrom (least : ℕ) : Option ℤ → Option ℕ
  | some n => if (least : ℤ) ≤ n ∧ n ≤ 2 ^ 53 - 1 then some n.toNat else none
  | none => none

def invalidThreshold : Thrown := .verificationError "checkpoint quorum rule has an invalid threshold"

mutual

def normalizeQuorumRule : C2spTlogQuorumRule → Except Thrown NormalizedQuorumRule
  | .none => .ok .none
  | .witness key => do
    let key ← asKey key
    return .witness key
  | .threshold threshold members => do
    let threshold ← orThrow invalidThreshold (safeFrom 1 threshold)
    throwIf (threshold > members.length) invalidThreshold
    let members ← normalizeMembers members
    return .threshold threshold members

/-- `rule.members.map(normalizeQuorumRule)`. -/
def normalizeMembers : List C2spTlogQuorumRule → Except Thrown (List NormalizedQuorumRule)
  | [] => .ok []
  | member :: members => do
    let member ← normalizeQuorumRule member
    let members ← normalizeMembers members
    return member :: members

end

def flatQuorumRule (witnessKeys : List SignedNoteKey) (quorum : ℕ) : C2spTlogQuorumRule :=
  if quorum = 0 then .none else .threshold (some quorum) (witnessKeys.map fun key => .witness (.key key))

mutual

def collectWitnessKeys : NormalizedQuorumRule → List SignedNoteKey
  | .none => []
  | .witness key => [key]
  | .threshold _ members => collectMembersKeys members

/-- `rule.members.flatMap(collectWitnessKeys)`. -/
def collectMembersKeys : List NormalizedQuorumRule → List SignedNoteKey
  | [] => []
  | member :: members => collectWitnessKeys member ++ collectMembersKeys members

end

def topLevelThreshold : NormalizedQuorumRule → ℕ
  | .none => 0
  | .witness _ => 1
  | .threshold threshold _ => threshold

/-! ## Distinct keys -/

def keyIdentity (key : SignedNoteKey) : List Char :=
  ['e', 'd', '2', '5', '5', '1', '9', '\x00'] ++ toHex key.keyBytes

def assertDistinctUnderlyingKeys (keys : List SignedNoteKey) (label : String) : Except Thrown Unit :=
  throwIf (¬ (keys.map keyIdentity).Nodup) (.verificationError s!"{label} must be distinct by underlying public key")

/-! ## The policy of an origin -/

/-- A log key may leave its signature type out. -/
def unsupportedLogType (key : SignedNoteKey) : Bool := key.signatureType.any fun type => type ≠ [0x01]

def sharesKey (keys others : List SignedNoteKey) : Bool :=
  keys.any fun key => (others.map keyIdentity).contains (keyIdentity key)

def normalizedOriginPolicy (policy : C2spTlogPolicy) (origin : String) : Except Thrown NormalizedOriginPolicy := do
  let p ← orThrow (.verificationError s!"no local C2SP policy for origin {origin}") (policy.origins origin)
  let logKeys ← p.logKeys.mapM asKey
  let witnessKeys ← (p.witnessKeys.getD []).mapM asKey
  let quorum ← orThrow (.verificationError "checkpoint witness quorum must be a non-negative integer")
    (safeFrom 0 (p.quorum.getD (some 0)))
  throwIf (quorum > witnessKeys.length) (.verificationError "checkpoint witness quorum exceeds configured witnesses")
  throwIf (logKeys.length = 0) (.verificationError "checkpoint policy requires at least one log key")
  throwIf (logKeys.any fun key => key.name ≠ origin)
    (.verificationError "checkpoint log key name must match its origin")
  throwIf (logKeys.any unsupportedLogType)
    (.verificationError "checkpoint log keys must use the supported log signature type 0x01")
  throwIf (witnessKeys.any fun key => !hasSignatureType 0x04 key)
    (.verificationError "checkpoint witness keys must use the supported cosignature type 0x04")
  assertDistinctUnderlyingKeys logKeys "checkpoint log keys"
  assertDistinctUnderlyingKeys witnessKeys "checkpoint witness keys"
  throwIf (sharesKey witnessKeys logKeys)
    (.verificationError "checkpoint log and witness keys must use distinct underlying public keys")
  let quorumRule ← normalizeQuorumRule (p.quorumRule.getD (flatQuorumRule witnessKeys quorum))
  let ruleWitnessKeys := collectWitnessKeys quorumRule
  throwIf (ruleWitnessKeys.any fun key => !hasSignatureType 0x04 key)
    (.verificationError "checkpoint quorum witness keys must use the supported cosignature type 0x04")
  assertDistinctUnderlyingKeys ruleWitnessKeys "checkpoint quorum witness keys"
  throwIf (sharesKey ruleWitnessKeys logKeys)
    (.verificationError "checkpoint log and witness keys must use distinct underlying public keys")
  return ⟨logKeys, ruleWitnessKeys, topLevelThreshold quorumRule, quorumRule⟩

/-! ## Quorums -/

section Evaluate
variable (P : NotePlatform)

/-- The timestamp of a witness, unless it lies too far in the future. -/
def acceptedTimestamp (checkpoint : NoteCheckpoint) (nowMs : ℤ) (maxClockSkewMs : ℕ) (key : SignedNoteKey) : Option ℕ :=
  (verifiedCosignatureTimestamp P checkpoint key).filter fun timestamp => (timestamp : ℤ) * 1000 ≤ nowMs + maxClockSkewMs

mutual

/-- The comparator of the source, `Math.min(...b) - Math.min(...a)`, puts the latest minimum first and keeps ties,
two empty lists included (their difference is not a number), in their order. -/
def evaluateQuorum (checkpoint : NoteCheckpoint) (nowMs : ℤ) (maxClockSkewMs : ℕ) :
    NormalizedQuorumRule → Option (List ℕ)
  | .none => some []
  | .witness key => (acceptedTimestamp P checkpoint nowMs maxClockSkewMs key).map fun timestamp => [timestamp]
  | .threshold threshold members =>
    let satisfied := sortDescending listMin (evaluateMembers checkpoint nowMs maxClockSkewMs members)
    if satisfied.length < threshold then none else some (satisfied.take threshold).flatten

/-- The results of the members that have one. -/
def evaluateMembers (checkpoint : NoteCheckpoint) (nowMs : ℤ) (maxClockSkewMs : ℕ) :
    List NormalizedQuorumRule → List (List ℕ)
  | [] => []
  | member :: members => (evaluateQuorum checkpoint nowMs maxClockSkewMs member).toList ++
      evaluateMembers checkpoint nowMs maxClockSkewMs members

end

/-- The keys whose signature the scope accepts. -/
def acceptedLogKeys (scope : String) (logKeys : List SignedNoteKey) : List SignedNoteKey :=
  if scope = "public" then logKeys.filter fun key => (key.signatureType.bind fun type => type[0]?) = some 0x01
  else logKeys

def isNone : NormalizedQuorumRule → Bool
  | .none => true
  | _ => false

/-- `new Date(seconds * 1000)` for the earliest timestamp. -/
def witnessTimeOf (timestamps : List ℕ) : Option (Option ℕ) :=
  timestamps.min?.map fun seconds => if seconds * 1000 ≤ 8640000000000000 then some (seconds * 1000) else none

def enforceCheckpointPolicy (checkpoint : NoteCheckpoint) (origin : String) (policy : C2spTlogPolicy) (scope : String)
    (nowMs : ℤ) (maxClockSkewMs : Option ℤ) : Except Thrown CheckpointPolicyResult := do
  let maxClockSkewMs ← orThrow (.verificationError "maximum clock skew must be a non-negative integer")
    (safeFrom 0 maxClockSkewMs)
  let policyScope := policy.scope.getD scope
  throwIf (policyScope ≠ scope) (.verificationError s!"C2SP policy scope {policyScope} does not match {scope}")
  let checkpointOrigin := checkpoint.origin
  throwIf (checkpointOrigin ≠ origin) (.verificationError s!"checkpoint origin mismatch: {checkpointOrigin}")
  throwIf (checkpoint.treeSize = 0 ∧ checkpoint.rootHash ≠ P.emptyRoot)
    (.verificationError "empty C2SP checkpoint must have the empty-tree root")
  let p ← normalizedOriginPolicy policy origin
  throwIf (!(acceptedLogKeys scope p.logKeys).any fun key => verifyCheckpointSignature P checkpoint key)
    (.verificationError "checkpoint missing accepted log signature")
  throwIf (scope = "public" ∧ isNone p.quorumRule = true)
    (.verificationError "public C2SP policy requires a non-zero witness quorum")
  let acceptedWitnessTimestamps ←
    orThrow (.verificationError "checkpoint witness quorum not satisfied by valid timestamped cosignatures")
      (evaluateQuorum P checkpoint nowMs maxClockSkewMs p.quorumRule)
  return ⟨acceptedWitnessTimestamps, witnessTimeOf acceptedWitnessTimestamps⟩

end Evaluate

end Dnsid.Checkpoint

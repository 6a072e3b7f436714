import Dnsid.Errors
import Dnsid.Foundations.ExceptRun
import Dnsid.Merkle.Consistency

/-! # Trusted checkpoints (`log-c2sp-tlog/src/checkpoint-trust.ts`)

The checkpoint record, its validation, the in-memory store and `verifyCheckpointAdvance`. Copies
(`cloneCheckpoint`) are values here. Tree sizes and entry indexes are natural numbers: the validation
rejects every other number. A `Date` is its `getTime()`, `none` for an invalid one.

The evidence that arrives from outside (a fetched consistency proof, a tile root) is an argument of
`verifyCheckpointAdvance`; the code calls each source at most once per verification.
-/
namespace Dnsid.Checkpoint
open Dnsid.Foundations Dnsid.Merkle
set_option autoImplicit false

structure TrustedC2spCheckpoint (Digest : Type) where
  origin : String
  treeSize : ℕ
  rootHash : Digest
  witnessTime : Option ℤ
  deriving DecidableEq

structure IndexedEntry (Entry : Type) where
  index : ℕ
  bytes : Entry
  deriving DecidableEq

/-- The options of one call that verification reads. -/
structure Evidence (Entry : Type) where
  completeEntries : Option (List (IndexedEntry Entry))
  hasProofSource : Bool
  hasTilePrefixRoot : Bool

/-- What the injected sources answer: `fetchConsistencyProof` for two sizes, `tilePrefixRoot` for the
trusted size. -/
structure EvidenceResponse (Digest : Type) where
  proof : ℕ → ℕ → Except Thrown (List Digest)
  tileRoot : ℕ → Except Thrown Digest

abbrev Store (Digest : Type) := String → Option (TrustedC2spCheckpoint Digest)

/-- The characters that `String.prototype.trim` removes. -/
def isJsSpace (c : Char) : Bool :=
  (0x9 ≤ c.toNat && c.toNat ≤ 0xd) || (0x2000 ≤ c.toNat && c.toNat ≤ 0x200a) ||
    [0x20, 0xa0, 0x1680, 0x2028, 0x2029, 0x202f, 0x205f, 0x3000, 0xfeff].contains c.toNat

/-- `!origin.trim()`. -/
def blank (s : String) : Bool := s.toList.all isJsSpace

def validateOrigin (origin : String) : Except Thrown Unit :=
  if blank origin then .error (.argumentError "trusted checkpoint origin must be nonempty") else .ok ()

/-- `Number.isSafeInteger(value.witnessTime.getTime())`. -/
def isSafeTime : Option ℤ → Bool
  | none => false
  | some t => t.natAbs ≤ 2 ^ 53 - 1

section Verify
variable {Entry Digest : Type} [DecidableEq Digest] (H : Sha256 Entry Digest)

def validateCheckpoint (value : TrustedC2spCheckpoint Digest) (origin : String) :
    Except Thrown Unit := do
  validateOrigin origin
  if value.origin ≠ origin then
    .error (.argumentError "trusted checkpoint origin mismatch")
  else if !isSafeInteger value.treeSize then
    .error (.argumentError "trusted checkpoint tree size must be a non-negative safe integer")
  else if H.byteLength value.rootHash ≠ 32 then
    .error (.argumentError "trusted checkpoint root must be 32 bytes")
  else if value.treeSize = 0 ∧ value.rootHash ≠ H.merkleRootFromEntries [] then
    .error (.argumentError "empty trusted checkpoint must have the empty-tree root")
  else if !isSafeTime value.witnessTime then
    .error (.argumentError "trusted checkpoint witnessed time must be a valid Date")
  else .ok ()

/-- `if (value !== undefined) validateCheckpoint(value, origin)`. -/
def validateStored (origin : String) : Option (TrustedC2spCheckpoint Digest) → Except Thrown Unit
  | some value => validateCheckpoint H value origin
  | none => .ok ()

/-- All four fields are compared. -/
def sameCheckpoint : Option (TrustedC2spCheckpoint Digest) → Option (TrustedC2spCheckpoint Digest) → Bool
  | some left, some right =>
    left.origin = right.origin && left.treeSize = right.treeSize &&
      left.witnessTime = right.witnessTime && left.rootHash = right.rootHash
  | none, none => true
  | _, _ => false

/-- `InMemoryTrustedC2spCheckpointStore.compareAndSwap` after its `throwIfAborted` checks: the new store
when the swap succeeded, `none` on a lost race. -/
def compareAndSwap (store : Store Digest) (origin : String)
    (expected : Option (TrustedC2spCheckpoint Digest)) (candidate : TrustedC2spCheckpoint Digest) :
    Except Thrown (Option (Store Digest)) := do
  validateOrigin origin
  validateStored H origin expected
  validateCheckpoint H candidate origin
  if !sameCheckpoint (store origin) expected then return none
  else return some (Function.update store origin (some candidate))

/-- Stable, as `Array.prototype.sort` is. -/
def sortByIndex (entries : List (IndexedEntry Entry)) : List (IndexedEntry Entry) :=
  entries.mergeSort fun a b => a.index ≤ b.index

def verifyCompleteEntriesPrefix (entries : List (IndexedEntry Entry))
    (checkpoint : TrustedC2spCheckpoint Digest) (name : String) : Except Thrown Unit :=
  let taken := entries.take checkpoint.treeSize
  if taken.length ≠ checkpoint.treeSize ∨ taken.map IndexedEntry.index ≠ List.range taken.length then
    .error (.verificationError s!"complete scan does not contain the {name} checkpoint prefix")
  else if H.merkleRootFromEntries (taken.map IndexedEntry.bytes) ≠ checkpoint.rootHash then
    .error (.verificationError s!"complete scan prefix does not match the {name} checkpoint")
  else .ok ()

def consistencyError (message : String) (category : LifecycleErrorCategory) : Thrown :=
  ⟨.c2spCheckpointConsistencyError, message, some category, none⟩

/-- `c2spLogError(message, cause, true)`: a log error is passed on, anything else is wrapped. -/
def c2spLogError (message : String) (cause : Thrown) : Thrown :=
  if cause.kind.isC2spTlogError then cause
  else ⟨.verificationError, message, some (cause.errorCategory.getD .invalidEvidence), none⟩

/-- `if (completeEntries) verifyCompleteEntriesPrefix(completeEntries, candidate, 'candidate')`. -/
def verifyCandidateScan (candidate : TrustedC2spCheckpoint Digest) :
    Option (List (IndexedEntry Entry)) → Except Thrown Unit
  | some entries => verifyCompleteEntriesPrefix H (sortByIndex entries) candidate "candidate"
  | none => .ok ()

/-- The complete scan against the previously trusted checkpoint, with its own error. -/
def verifyPreviousScan (previous : TrustedC2spCheckpoint Digest)
    (entries : List (IndexedEntry Entry)) : Except Thrown Unit :=
  match verifyCompleteEntriesPrefix H (sortByIndex entries) previous "previously trusted" with
  | .ok () => .ok ()
  | .error _ => .error (consistencyError
      "complete scan contradicts the previously trusted checkpoint" .logInconsistent)

def verifyFetchedProof (previous candidate : TrustedC2spCheckpoint Digest) :
    Except Thrown (List Digest) → Except Thrown Unit
  | .error cause => .error (c2spLogError "C2SP consistency proof is unavailable" cause)
  | .ok proof =>
    if !H.verifyC2spConsistencyProof previous.treeSize candidate.treeSize previous.rootHash
        candidate.rootHash proof then
      .error (consistencyError "invalid C2SP checkpoint consistency proof" .logInconsistent)
    else .ok ()

def verifyTileRoot (previous : TrustedC2spCheckpoint Digest) :
    Except Thrown Digest → Except Thrown Unit
  | .error cause => .error cause
  | .ok root =>
    if root ≠ previous.rootHash then
      .error (consistencyError
        "candidate-authenticated hash tiles contradict the previously trusted checkpoint"
        .logInconsistent)
    else .ok ()

/-- Asserts that `candidate` is a safe successor of the previously trusted checkpoint. -/
def verifyCheckpointAdvance (previous : Option (TrustedC2spCheckpoint Digest))
    (candidate : TrustedC2spCheckpoint Digest) (evidence : Evidence Entry)
    (response : EvidenceResponse Digest) : Except Thrown Unit := do
  verifyCandidateScan H candidate evidence.completeEntries
  match previous with
  | none => .ok ()
  | some previous =>
    if candidate.treeSize < previous.treeSize then
      .error (consistencyError "C2SP checkpoint rollback detected" .logRollback)
    else if candidate.treeSize = previous.treeSize then
      if candidate.rootHash ≠ previous.rootHash then
        .error (consistencyError "equal-size C2SP checkpoint has a different root" .logFork)
      else .ok ()
    else if previous.treeSize = 0 then .ok ()
    else
      match evidence.completeEntries with
      | some entries => verifyPreviousScan H previous entries
      | none =>
        if evidence.hasProofSource then
          verifyFetchedProof H previous candidate
            (response.proof previous.treeSize candidate.treeSize)
        else if evidence.hasTilePrefixRoot then
          verifyTileRoot previous (response.tileRoot previous.treeSize)
        else .error ⟨.missingC2spConsistencyEvidenceError,
          "newer C2SP checkpoint requires consistency proof or verified complete-scan prefix",
          some .invalidEvidence, none⟩

end Verify

/-! ## What verification says -/

section Sound
variable {Entry Digest : Type} {H : Sha256 Entry Digest}

/-- `D` is an entry list behind the checkpoint. -/
def IsTreeOf (H : Sha256 Entry Digest) (c : TrustedC2spCheckpoint Digest) (D : List Entry) : Prop :=
  D.length = c.treeSize ∧ H.merkleRootFromEntries D = c.rootHash

/-- The assumption on an injected tile source: it throws, or answers with the root of the candidate's
prefix of the trusted size. -/
def HonestTile (H : Sha256 Entry Digest) (candidate : TrustedC2spCheckpoint Digest)
    (response : EvidenceResponse Digest) : Prop :=
  ∀ trustedSize root D, response.tileRoot trustedSize = .ok root → IsTreeOf H candidate D →
    root = H.merkleRootFromEntries (D.take trustedSize)

/-- Trees of one size and one root are the same. -/
theorem IsTreeOf.unique (hH : H.Ideal) {c d : TrustedC2spCheckpoint Digest} {C D : List Entry}
    (hC : IsTreeOf H c C) (hD : IsTreeOf H d D) (hsize : c.treeSize = d.treeSize)
    (hroot : c.rootHash = d.rootHash) : C = D := by
  apply Sha256.merkleRoot_inj_length hH
  · rw [hC.1, hD.1, hsize]
  · rw [hC.2, hD.2, hroot]

variable [DecidableEq Digest]

theorem verifyCompleteEntriesPrefix_ok {entries : List (IndexedEntry Entry)}
    {checkpoint : TrustedC2spCheckpoint Digest} {name : String}
    (h : verifyCompleteEntriesPrefix H entries checkpoint name = .ok ()) :
    IsTreeOf H checkpoint ((entries.take checkpoint.treeSize).map IndexedEntry.bytes) := by
  unfold verifyCompleteEntriesPrefix at h
  dsimp only at h
  split at h
  · cases h
  case isFalse hlen =>
    split at h
    · cases h
    case isFalse hroot =>
      simp only [not_or, not_not] at hlen hroot
      exact ⟨by rw [List.length_map]; exact hlen.1, hroot⟩

/-- The evidence that lets a candidate follow a trusted checkpoint. -/
inductive Advances (H : Sha256 Entry Digest) (previous candidate : TrustedC2spCheckpoint Digest)
    (response : EvidenceResponse Digest) : Prop where
  | equal (hsize : candidate.treeSize = previous.treeSize)
      (hroot : candidate.rootHash = previous.rootHash)
  | empty (hsize : previous.treeSize = 0)
  | scan (entries : List (IndexedEntry Entry)) (hsize : previous.treeSize < candidate.treeSize)
      (hcandidate : IsTreeOf H candidate ((entries.take candidate.treeSize).map IndexedEntry.bytes))
      (hprevious : IsTreeOf H previous ((entries.take previous.treeSize).map IndexedEntry.bytes))
  | proof (nodes : List Digest) (hsize : previous.treeSize < candidate.treeSize)
      (hproof : H.verifyC2spConsistencyProof previous.treeSize candidate.treeSize previous.rootHash
        candidate.rootHash nodes = true)
  | tile (hsize : previous.treeSize < candidate.treeSize)
      (htile : response.tileRoot previous.treeSize = .ok previous.rootHash)

theorem verifyPreviousScan_ok {previous : TrustedC2spCheckpoint Digest}
    {entries : List (IndexedEntry Entry)} (h : verifyPreviousScan H previous entries = .ok ()) :
    IsTreeOf H previous
      (((sortByIndex entries).take previous.treeSize).map IndexedEntry.bytes) := by
  unfold verifyPreviousScan at h
  split at h
  case h_1 hprev => exact verifyCompleteEntriesPrefix_ok hprev
  case h_2 => cases h

theorem verifyFetchedProof_ok {previous candidate : TrustedC2spCheckpoint Digest}
    {proof : Except Thrown (List Digest)} (h : verifyFetchedProof H previous candidate proof = .ok ()) :
    ∃ nodes, H.verifyC2spConsistencyProof previous.treeSize candidate.treeSize previous.rootHash
      candidate.rootHash nodes = true := by
  cases proof with
  | error cause => cases h
  | ok nodes =>
    rw [verifyFetchedProof] at h
    split at h
    · cases h
    case isFalse hproof => exact ⟨nodes, by simpa using hproof⟩

theorem verifyTileRoot_ok {previous : TrustedC2spCheckpoint Digest} {tile : Except Thrown Digest}
    (h : verifyTileRoot previous tile = .ok ()) : tile = .ok previous.rootHash := by
  cases tile with
  | error cause => cases h
  | ok root =>
    rw [verifyTileRoot] at h
    split at h
    · cases h
    case isFalse heq =>
      rw [not_not] at heq
      rw [heq]

theorem verifyCheckpointAdvance_cases {previous candidate : TrustedC2spCheckpoint Digest}
    {evidence : Evidence Entry} {response : EvidenceResponse Digest}
    (h : verifyCheckpointAdvance H (some previous) candidate evidence response = .ok ()) :
    Advances H previous candidate response := by
  unfold verifyCheckpointAdvance at h
  obtain ⟨_, hscan, h⟩ := bind_eq_ok.mp h
  dsimp only at h
  split at h
  · cases h
  case isFalse hrollback =>
    split at h
    case isTrue hsize =>
      split at h
      · cases h
      case isFalse hroot => exact .equal hsize (by simpa using hroot)
    case isFalse hne =>
      have hlt : previous.treeSize < candidate.treeSize := by omega
      split at h
      case isTrue hzero => exact .empty hzero
      case isFalse hpos =>
        split at h
        case h_1 entries hentries =>
          rw [hentries] at hscan
          exact .scan (sortByIndex entries) hlt (verifyCompleteEntriesPrefix_ok hscan)
            (verifyPreviousScan_ok h)
        case h_2 =>
          split at h
          · obtain ⟨nodes, hproof⟩ := verifyFetchedProof_ok h
            exact .proof nodes hlt hproof
          · split at h
            · exact .tile hlt (verifyTileRoot_ok h)
            · cases h

theorem Advances.treeSize_le {previous candidate : TrustedC2spCheckpoint Digest}
    {response : EvidenceResponse Digest} (h : Advances H previous candidate response) :
    previous.treeSize ≤ candidate.treeSize := by
  cases h <;> omega

/-- Each kind of evidence makes the trusted entries a prefix of the candidate's entries. -/
theorem Advances.isPrefix (hH : H.Ideal) {previous candidate : TrustedC2spCheckpoint Digest}
    {response : EvidenceResponse Digest} (h : Advances H previous candidate response)
    (htile : HonestTile H candidate response) {P C : List Entry}
    (hP : IsTreeOf H previous P) (hC : IsTreeOf H candidate C) : P <+: C := by
  cases h with
  | equal hsize hroot =>
    obtain rfl := hP.unique hH hC hsize.symm hroot.symm
    exact List.prefix_rfl
  | empty hsize =>
    rw [List.eq_nil_of_length_eq_zero (hP.1.trans hsize)]
    exact List.nil_prefix
  | scan entries hsize hcandidate hprevious =>
    rw [hP.unique hH hprevious rfl rfl, hC.unique hH hcandidate rfl rfl]
    apply List.IsPrefix.map
    exact List.take_prefix_take_left hsize.le
  | proof nodes hsize hproof =>
    rw [← hP.1, ← hC.1, ← hP.2, ← hC.2] at hproof
    exact prefix_of_verifyConsistency hH P C nodes hproof
  | tile hsize hroot =>
    have htake := htile _ _ C hroot hC
    have hlen : P.length = (C.take previous.treeSize).length := by
      rw [List.length_take, hP.1, hC.1]
      omega
    rw [Sha256.merkleRoot_inj_length hH hlen (hP.2.trans htake)]
    exact List.take_prefix _ _

end Sound

end Dnsid.Checkpoint

import Dnsid.Checkpoint.TrustedStore
import Dnsid.Foundations.Runs

/-! # Concurrent `advanceC2spCheckpoint` calls

Any number of calls share one in-memory store. The code is cooperative: between two awaits a call runs
without interruption, so each stretch is one action. `load` and `compareAndSwap` of the in-memory store
are synchronous, so each of them is one action too. A verification reads nothing but its arguments and
the answers of its injected sources, so it is one action that carries these answers.

`pc` is where the loop inside `withVerificationBudget` stands and `outcome` is what the caller of
`advanceC2spCheckpoint` sees. They are separate: an abort rejects the call at once while its loop still
stands at an await. Every operation of the loop is started by `waitForVerification`, which fails when
the signal is aborted.

The field `log` is not in the source. It records, for every successful swap, the call and the value.
-/
namespace Dnsid.Checkpoint
open Dnsid.Foundations Dnsid.Merkle
set_option autoImplicit false

/-- The arguments of one call. `timeoutOk` says that `timeoutMs` is finite, positive and at most
`2147483647`. -/
structure AdvanceCall (Entry Digest : Type) where
  referenceOrigin : String
  origin : String
  treeSize : ℕ
  rootHash : Digest
  witnessTime : Option ℤ
  evidence : Evidence Entry
  timeoutOk : Bool

def AdvanceCall.candidate {Entry Digest : Type} (call : AdvanceCall Entry Digest) :
    TrustedC2spCheckpoint Digest :=
  ⟨call.origin, call.treeSize, call.rootHash, call.witnessTime⟩

inductive Pc (Digest : Type) where
  | start
  | load
  | loaded (previous : Option (TrustedC2spCheckpoint Digest))
  | verified (previous : Option (TrustedC2spCheckpoint Digest))
  | swapped (swapped : Bool)
  | waiting
  | finished (result : Except Thrown (TrustedC2spCheckpoint Digest))

structure CallState (Digest : Type) where
  pc : Pc Digest
  aborted : Bool
  outcome : Option (Except Thrown (TrustedC2spCheckpoint Digest))

structure World (ι Digest : Type) where
  store : Store Digest
  calls : ι → CallState Digest
  log : List (ι × TrustedC2spCheckpoint Digest)

inductive Action (ι Digest : Type) where
  | start (i : ι)
  | load (i : ι)
  | verify (i : ι) (response : EvidenceResponse Digest)
  | swap (i : ι)
  | resume (i : ι)
  | retry (i : ι)
  | settle (i : ι) (late : Bool)
  | cancel (i : ι)
  | abort (i : ι)

def canceled : Thrown :=
  ⟨.verificationError, "verification deadline exceeded or canceled", none, none⟩

def deadlineExceeded : Thrown := ⟨.verificationError, "verification deadline exceeded", none, none⟩

def storeFailed : Thrown :=
  ⟨.c2spCheckpointStoreError, "trusted checkpoint storage failed", some .checkpointStoreError, none⟩

section Model
variable {ι Entry Digest : Type} [DecidableEq ι] [DecidableEq Digest] (H : Sha256 Entry Digest)
  (cfg : ι → AdvanceCall Entry Digest)

/-- The checks before the loop. -/
def startChecks (call : AdvanceCall Entry Digest) : Except Thrown Unit :=
  if call.treeSize = 0 ∧ call.rootHash ≠ H.merkleRootFromEntries [] then
    .error (.verificationError "empty C2SP checkpoint must have the empty-tree root")
  else do
    validateCheckpoint H call.candidate call.referenceOrigin
    if !call.timeoutOk then .error (.argumentError "verification timeout must be finite and positive")
    else .ok ()

/-- `store.load` with the validation of what it returns. -/
def loadPrevious (store : Store Digest) (origin : String) :
    Except Thrown (Option (TrustedC2spCheckpoint Digest)) := do
  validateOrigin origin
  validateStored H origin (store origin)
  return store origin

def World.setCall (s : World ι Digest) (i : ι) (c : CallState Digest) : World ι Digest :=
  { s with calls := Function.update s.calls i c }

def World.setPc (s : World ι Digest) (i : ι) (pc : Pc Digest) : World ι Digest :=
  s.setCall i { s.calls i with pc := pc }

/-- An operation of the loop, unless the signal is aborted. -/
def World.unlessAborted (s : World ι Digest) (i : ι) (s' : World ι Digest) : World ι Digest :=
  if (s.calls i).aborted then s.setPc i (.finished (.error canceled)) else s'

def step : Action ι Digest → World ι Digest → Option (World ι Digest)
  | .start i, s =>
    match (s.calls i).pc with
    | .start =>
      match startChecks H (cfg i) with
      | .error e => some (s.setPc i (.finished (.error e)))
      | .ok () => some (s.setPc i .load)
    | _ => none
  | .load i, s =>
    match (s.calls i).pc with
    | .load => some <| s.unlessAborted i <|
      match loadPrevious H s.store (cfg i).referenceOrigin with
      | .error _ => s.setPc i (.finished (.error storeFailed))
      | .ok previous => s.setPc i (.loaded previous)
    | _ => none
  | .verify i response, s =>
    match (s.calls i).pc with
    | .loaded previous => some <| s.unlessAborted i <|
      match verifyCheckpointAdvance H previous (cfg i).candidate (cfg i).evidence response with
      | .error e => s.setPc i (.finished (.error e))
      | .ok () => s.setPc i (.verified previous)
    | _ => none
  | .swap i, s =>
    match (s.calls i).pc with
    | .verified previous => some <| s.unlessAborted i <|
      match compareAndSwap H s.store (cfg i).referenceOrigin previous (cfg i).candidate with
      | .error _ => s.setPc i (.finished (.error storeFailed))
      | .ok none => s.setPc i (.swapped false)
      | .ok (some store) =>
        { s.setPc i (.swapped true) with store := store, log := s.log ++ [(i, (cfg i).candidate)] }
    | _ => none
  | .resume i, s =>
    match (s.calls i).pc with
    | .swapped true => some <| s.unlessAborted i <| s.setPc i (.finished (.ok (cfg i).candidate))
    | .swapped false => some <| s.unlessAborted i <| s.setPc i .waiting
    | _ => none
  | .retry i, s =>
    match (s.calls i).pc with
    | .waiting => some <| s.unlessAborted i <| s.setPc i .load
    | _ => none
  | .settle i late, s =>
    match (s.calls i).outcome, (s.calls i).pc with
    | none, .finished (.error e) => some (s.setCall i { s.calls i with outcome := some (.error e) })
    | none, .finished (.ok c) =>
      if (s.calls i).aborted then
        some (s.setCall i { s.calls i with outcome := some (.error canceled) })
      else if late then
        some (s.setCall i
          { s.calls i with aborted := true, outcome := some (.error deadlineExceeded) })
      else some (s.setCall i { s.calls i with outcome := some (.ok c) })
    | _, _ => none
  | .cancel i, s =>
    match (s.calls i).outcome, (s.calls i).pc with
    | some _, _ => none
    | none, .start => none
    | none, _ =>
      if (s.calls i).aborted then
        some (s.setCall i { s.calls i with outcome := some (.error canceled) })
      else none
  | .abort i, s => some (s.setCall i { s.calls i with aborted := true })

/-- Nothing is stored and no call has started. -/
def initial : World ι Digest where
  store := fun _ => none
  calls := fun _ => ⟨.start, false, none⟩
  log := []

end Model

end Dnsid.Checkpoint

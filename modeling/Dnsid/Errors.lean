/-! # Thrown values (`protocol/src/errors.ts`, `log-c2sp-tlog/src/errors.ts`)

A thrown value keeps the class, the message, the lifecycle category and the HTTP status: these are what
the modelled code tests or reports.
-/
namespace Dnsid
set_option autoImplicit false

inductive LifecycleErrorCategory where
  | genesisRequired
  | duplicateIssuance
  | invalidIssuance
  | terminalState
  | domainMismatch
  | keyContinuity
  | invalidRevocationReason
  | invalidMigration
  | snapshotEmpty
  | snapshotNonPrefix
  | unsupportedEvent
  | chainContinuity
  | invalidEvidence
  | incompleteStream
  | logRollback
  | logFork
  | logInconsistent
  | checkpointStoreError
  deriving DecidableEq, Repr

inductive ErrorClass where
  | c2spTlogError
  | c2spTlogParseError
  | c2spTlogVerificationError
  | c2spTlogResourceLimitError
  | missingC2spConsistencyEvidenceError
  | c2spCheckpointConsistencyError
  | c2spCheckpointStoreError
  | verificationError
  | argumentError
  | rangeError
  | other
  deriving DecidableEq, Repr

/-- `instanceof C2spTlogError`. -/
def ErrorClass.isC2spTlogError : ErrorClass → Bool
  | .verificationError | .argumentError | .rangeError | .other => false
  | _ => true

structure Thrown where
  kind : ErrorClass
  message : String
  errorCategory : Option LifecycleErrorCategory
  status : Option Nat
  deriving DecidableEq, Repr

namespace Thrown

def parseError (message : String) : Thrown :=
  ⟨.c2spTlogParseError, message, some .invalidEvidence, none⟩

def verificationErrorOf (errorCategory : LifecycleErrorCategory) (message : String) : Thrown :=
  ⟨.c2spTlogVerificationError, message, some errorCategory, none⟩

/-- The category defaults to `INVALID_EVIDENCE`. -/
def verificationError : String → Thrown := verificationErrorOf .invalidEvidence

def resourceLimitError (message : String) : Thrown :=
  ⟨.c2spTlogResourceLimitError, message, some .invalidEvidence, none⟩

def argumentError (message : String) : Thrown := ⟨.argumentError, message, none, none⟩

/-- A value thrown by the runtime or by injected code. -/
def other (message : String) : Thrown := ⟨.other, message, none, none⟩

/-- `VerificationError` of the protocol package with code `LogError`. -/
def lifecycleError (message : String) (errorCategory : LifecycleErrorCategory) : Thrown :=
  ⟨.verificationError, message, some errorCategory, none⟩

/-- `error instanceof C2spTlogResourceLimitError || error instanceof RangeError`. -/
def isResourceFailure (error : Thrown) : Bool :=
  error.kind = .c2spTlogResourceLimitError || error.kind = .rangeError

end Thrown

end Dnsid

import Dnsid.Protocol.DomainLog
import Dnsid.Stream.Lifecycle

/-! # Histories that cross logs

`stitchVerifiedMigrationHistory` puts the verified history of the prior log before the events of the current
one. What the bundle verifier reads off a history (`stream-bundle.ts`) is here too. The reader of `c2sp-tlog:`
references (`lr.ts`, over the runtime's `URL`) is the argument `parseC2spTlogLr`, with `none` for a throw.
-/
namespace Dnsid.Stream
open Dnsid.Foundations Dnsid.Events Dnsid.Protocol
set_option autoImplicit false

/-- A reference of the method `c2sp-tlog`: the stream and, for one entry, its index. -/
structure ParsedC2spTlogLr where
  lr : String
  entryIndex : Option ℕ
  deriving DecidableEq, Repr

def invalidMigration (message : String) : Thrown := .verificationErrorOf .invalidMigration message

/-! ## References -/

def isLineTerminator (c : Char) : Bool :=
  c = '\n' || c = '\r' || c = Char.ofNat 0x2028 || c = Char.ofNat 0x2029

/-- The text before the first colon. -/
def methodOf (reference : String) : List Char := reference.toList.takeWhile (· ≠ ':')

/-- `/^[a-z][a-z0-9-]*:.+/`. -/
def isLogReference (reference : String) : Bool :=
  (match methodOf reference with
    | [] => false
    | c :: cs => c.isLower && cs.all fun c => c.isLower || c.isDigit || c = '-') &&
  (match reference.toList.dropWhile (· ≠ ':') with
    | _ :: c :: _ => !isLineTerminator c
    | _ => false)

def assertLogReference (reference : String) : Except Thrown Unit :=
  throwIf (!isLogReference reference)
    (invalidMigration "MIGRATION prior history contains a malformed log reference")

def isC2spReference (reference : String) : Bool := "c2sp-tlog:".toList.isPrefixOf reference.toList

/-- Of two c2sp-tlog references, the first is an entry of the stream that the second names. -/
def sameC2spStream (parseC2spTlogLr : String → Option ParsedC2spTlogLr)
    (reference logReference : String) : Bool :=
  match parseC2spTlogLr reference, parseC2spTlogLr logReference with
  | some event, some log => log.entryIndex.isNone && event.entryIndex.isSome && event.lr = log.lr
  | _, _ => false

def assertReferenceBelongsToLog (parseC2spTlogLr : String → Option ParsedC2spTlogLr)
    (reference logReference : String) : Except Thrown Unit := do
  assertLogReference reference
  assertLogReference logReference
  throwIf (methodOf reference ≠ methodOf logReference)
    (invalidMigration "MIGRATION event reference does not belong to its signed log")
  throwIf ((isC2spReference reference ∨ isC2spReference logReference) ∧
      !sameC2spStream parseC2spTlogLr reference logReference)
    (invalidMigration "MIGRATION C2SP event reference does not belong to its signed log")

/-- The loop from the last event back to the first, on the events met last first. -/
def assertReferencesBack (parseC2spTlogLr : String → Option ParsedC2spTlogLr) (expectedLog : String) :
    List (LogEvent × String) → Except Thrown Unit
  | [] => .ok ()
  | (event, reference) :: earlier => do
    assertReferenceBelongsToLog parseC2spTlogLr reference expectedLog
    match event.body with
    | .migration nested => do
      throwIf (nested.newLog ≠ expectedLog ∨
          (earlier.head?.map Prod.snd) ≠ some nested.finalEntryRef)
        (invalidMigration "nested MIGRATION prior history does not end at signed prev_ref")
      assertReferenceBelongsToLog parseC2spTlogLr nested.finalEntryRef nested.previousLog
      assertReferencesBack parseC2spTlogLr nested.previousLog earlier
    | _ => assertReferencesBack parseC2spTlogLr expectedLog earlier

def validatePriorHistoryReferences (parseC2spTlogLr : String → Option ParsedC2spTlogLr)
    (inbound : MigrationEvent) (migration : MigrationVerificationResult) : Except Thrown Unit := do
  let references := migration.priorHistoryReferences.getD []
  throwIf (references.length ≠ migration.priorHistory.length ∨ references.length = 0)
    (invalidMigration "MIGRATION prior history has missing or mismatched verified references")
  references.forM assertLogReference
  throwIf (references.getLast? ≠ some inbound.finalEntryRef)
    (invalidMigration "MIGRATION prior history does not end at signed prev_ref")
  assertReferencesBack parseC2spTlogLr inbound.previousLog
    (migration.priorHistory.zip references).reverse

/-- `if (migration.priorHistoryReferences) validatePriorHistoryReferences(inbound, migration)`. -/
def checkPriorHistoryReferences (parseC2spTlogLr : String → Option ParsedC2spTlogLr)
    (inbound : MigrationEvent) (migration : MigrationVerificationResult) : Except Thrown Unit :=
  if migration.priorHistoryReferences.isSome then
    validatePriorHistoryReferences parseC2spTlogLr inbound migration
  else .ok ()

/-! ## Stitching -/

def issuance? (event : LogEvent) : Option IssuanceEvent :=
  match event.body with
  | .issuance fields => some fields
  | _ => none

def migration? (event : LogEvent) : Option MigrationEvent :=
  match event.body with
  | .migration fields => some fields
  | _ => none

section Stitch
variable {Bytes : Type} (P : Platform Bytes)

/-- The prior history ends ACTIVE with the operational key that the migration imports. -/
def assertImportedActiveKey (domain : String) (migration : MigrationVerificationResult) :
    Except Thrown Unit := do
  let wrong := invalidMigration "MIGRATION prior history does not establish the imported active key"
  let priorSnapshot ← latestSnapshot P domain migration.priorHistory
  throwIf (priorSnapshot.historicalState ≠ .active) wrong
  let thumbprint ← thumbprintOf P migration.activeOperationalKey
  throwIf (priorSnapshot.activeKeyThumbprint ≠ thumbprint) wrong

/-- The first ISSUANCE of the prior history names the entity key that the migration imports. -/
def assertImportedEntityKey (migration : MigrationVerificationResult) : Except Thrown Unit := do
  let wrong := invalidMigration "MIGRATION prior history does not establish the imported entity key"
  let priorIssuance ← orThrow (invalidMigration "MIGRATION prior history has no ISSUANCE genesis")
    (migration.priorHistory.findSome? issuance?)
  let priorEntityKey ← orThrow wrong ((issuanceEntityKey priorIssuance).filter Json.truthy)
  let priorThumbprint ← thumbprintOf P priorEntityKey
  let thumbprint ← thumbprintOf P migration.entityKey
  throwIf (priorThumbprint ≠ thumbprint) wrong

def stitchVerifiedMigrationHistory (parseC2spTlogLr : String → Option ParsedC2spTlogLr)
    (domain : String) (currentEvents : List LogEvent) (migration : MigrationVerificationResult) :
    Except Thrown (List LogEvent) := do
  let missing := invalidMigration "MIGRATION requires stitched verified prior-log history"
  let inbound ← orThrow missing (currentEvents.head?.bind migration?)
  throwIf (migration.priorHistory = []) missing
  throwIf (migration.priorHistory.any fun event => event.body = .migration inbound)
    (invalidMigration "MIGRATION event must appear exactly once in stitched history")
  checkPriorHistoryReferences parseC2spTlogLr inbound migration
  assertImportedActiveKey P domain migration
  assertImportedEntityKey P migration
  let stitched := migration.priorHistory ++ currentEvents
  let _ ← latestSnapshot P domain stitched
  return stitched

/-- What the reader and the bundle verifier make of verified events: the events themselves, or the stitched
history when they start with a MIGRATION. -/
def verifiedHistory (parseC2spTlogLr : String → Option ParsedC2spTlogLr) (domain : String)
    (events : List LogEvent) (migration : Option MigrationVerificationResult) :
    Except Thrown (List LogEvent) :=
  if (events.head?.bind migration?).isSome then do
    let migration ← orThrow (invalidMigration "MIGRATION requires stitched verified prior-log history")
      migration
    stitchVerifiedMigrationHistory P parseC2spTlogLr domain events migration
  else .ok events

end Stitch

/-! ## What the bundle verifier reads -/

inductive LoggedState where
  | unknown
  | active
  | revoked
  | retired
  deriving DecidableEq, Repr

def LoggedState.name : LoggedState → String
  | .unknown => "UNKNOWN"
  | .active => "ACTIVE"
  | .revoked => "REVOKED"
  | .retired => "RETIRED"

structure C2spStreamBundleState where
  eventCount : ℕ
  lastEventType : String
  loggedState : LoggedState
  deriving DecidableEq, Repr

def loggedStateOf : LogEventType → LoggedState
  | .revocation => .revoked
  | .retirement => .retired
  | _ => .active

def lifecycleSummary {Bytes : Type} (events : List (VerifiedLifecycleEvent Bytes)) :
    C2spStreamBundleState :=
  match events.getLast? with
  | none => ⟨0, "", .unknown⟩
  | some last => ⟨events.length, last.event.type.name, loggedStateOf last.event.type⟩

/-- One turn of the loop in `activeOperationalThumbprint`. -/
def thumbprintStep (thumbprint : String) (event : LogEvent) : Except Thrown String :=
  match event.body with
  | .issuance fields => orThrow (.verificationError
      "verified ISSUANCE does not contain an operational-key thumbprint")
      (nonEmpty fields.initialOperationalThumbprint)
  | .keyRotation fields => do
    throwIf (fields.newOperationalThumbprint = "") (.verificationError
      "verified KEY_ROTATION does not contain an operational-key thumbprint")
    return fields.newOperationalThumbprint
  | _ => .ok thumbprint

def activeOperationalThumbprint (events : List LogEvent) : Except Thrown String := do
  let thumbprint ← events.foldlM thumbprintStep ""
  throwIf (thumbprint = "")
    (.verificationError "verified stream bundle does not establish an operational key")
  return thumbprint

end Dnsid.Stream

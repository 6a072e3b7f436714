import Dnsid.Notes.ParseCheckpoint
import Dnsid.Scan.EntryBundles

/-! # Complete scans (`log-c2sp-tlog/src/stream-source.ts`)

`ScanStreamSource` reads a log through its fetcher: the checkpoint, then every entry bundle up to the tree size. A
computation keeps the URLs it has asked for. Deadlines, cancellation and cache revalidation are left out.
-/
namespace Dnsid.Scan
open Dnsid.Foundations Dnsid.Merkle Dnsid.Protocol
open Dnsid.Foundations.Utf16 (textDecode)
open Dnsid.Checkpoint (IndexedEntry)
open Dnsid.Notes (Checkpoint parseCheckpoint)
set_option autoImplicit false

structure StreamEvidence where
  checkpoint : Checkpoint
  entries : List (IndexedEntry Bytes)
  complete : Bool
  deriving DecidableEq

/-! ## Configuration -/

def entriesPerBundle : ℕ := 256

/-- `authenticateCheckpoint` and the limits of the options, `undefined` where none is given. -/
structure ScanStreamSourceOptions where
  authenticateCheckpoint : Checkpoint → Except Thrown Unit
  maxTreeSize : Option ℤ
  maxCheckpointBytes : Option ℤ
  maxEntryBundleBytes : Option ℤ
  maxTotalEntryBytes : Option ℤ

/-- `fetchBounded`, and what `TextDecoder` makes of bytes that are no UTF-8. -/
structure ScanPlatform where
  fetchBounded : String → ℕ → Except Thrown Bytes
  repaired : Bytes → CodeUnits

structure ScanStreamSource where
  platform : ScanPlatform
  authenticateCheckpoint : Checkpoint → Except Thrown Unit
  maxTreeSize : ℕ
  maxCheckpointBytes : ℕ
  maxEntryBundleBytes : ℕ
  maxTotalEntryBytes : ℕ

def positiveInteger (value : ℤ) (name : String) : Except Thrown ℕ := do
  throwIf (2 ^ 53 - 1 < value ∨ value < 1) (.verificationError (name ++ " must be a positive safe integer"))
  return value.toNat

/-- The constructor. -/
def ScanStreamSource.new (options : ScanStreamSourceOptions) (platform : ScanPlatform) : Except Thrown ScanStreamSource := do
  let maxTreeSize ← positiveInteger (options.maxTreeSize.getD 1_000_000) "maxTreeSize"
  let maxCheckpointBytes ← positiveInteger (options.maxCheckpointBytes.getD 1_048_576) "maxCheckpointBytes"
  let maxEntryBundleBytes ← positiveInteger (options.maxEntryBundleBytes.getD 16_777_472) "maxEntryBundleBytes"
  let maxTotalEntryBytes ← positiveInteger (options.maxTotalEntryBytes.getD 268_435_456) "maxTotalEntryBytes"
  return {
    platform, authenticateCheckpoint := options.authenticateCheckpoint
    maxTreeSize, maxCheckpointBytes, maxEntryBundleBytes, maxTotalEntryBytes }

/-! ## Reading -/

/-- A computation that reads resources: it takes the URLs asked for before it and gives those after it. -/
abbrev Reads (α : Type) := StateT (List String) (Except Thrown) α

def responseTooLarge (maximum : ℕ) (url : String) : Thrown :=
  .verificationError ("C2SP response exceeds configured byte maximum " ++ toString maximum ++ ": " ++ url)

/-- `cause instanceof VerificationError`. -/
def isVerificationError (cause : Thrown) : Bool := cause.kind.isC2spTlogError || cause.kind = .verificationError

namespace ScanStreamSource
variable (source : ScanStreamSource)

def bytes (url : String) (maximum : ℕ) : Reads Bytes := do
  modify fun urls => urls ++ [url]
  let bytes ← liftM ((source.platform.fetchBounded url maximum).mapError fun cause =>
    if isVerificationError cause then cause
    else ⟨.c2spTlogError, "C2SP resource fetch failed: " ++ url, some .invalidEvidence, none⟩)
  liftM (throwIf (maximum < bytes.length) (responseTooLarge maximum url))
  return bytes

/-- `parseCheckpoint(new TextDecoder().decode(await this.bytes(checkpointPath(prefix), ...)))`, then the callback. -/
def loadCheckpoint (logPrefix : String) : Reads Checkpoint := do
  let checkpointBytes ← source.bytes (checkpointPath logPrefix) source.maxCheckpointBytes
  let checkpoint ← liftM (parseCheckpoint (textDecode source.platform.repaired checkpointBytes))
  liftM (source.authenticateCheckpoint checkpoint)
  return checkpoint

end ScanStreamSource

/-- The number of entries of a bundle. -/
def bundleWant (treeSize bundleIndex : ℕ) : ℕ := min entriesPerBundle (treeSize - bundleIndex * entriesPerBundle)

/-- The width of the path; a full bundle has none. -/
def bundleWidth (want : ℕ) : Option ℕ := if want = entriesPerBundle then none else some want

namespace ScanStreamSource
variable (source : ScanStreamSource)

/-- The loop over the bundles, with the bytes and the entries read so far. -/
def loadBundles (logPrefix : String) (treeSize bundleIndex totalEntryBytes : ℕ) (entries : List (IndexedEntry Bytes)) :
    Reads (List (IndexedEntry Bytes)) := do
  if bundleIndex * entriesPerBundle < treeSize then
    let want := bundleWant treeSize bundleIndex
    let path ← liftM (entryBundlePath logPrefix bundleIndex (bundleWidth want))
    let bundleBytes ← source.bytes path source.maxEntryBundleBytes
    liftM (throwIf (source.maxTotalEntryBytes < totalEntryBytes + bundleBytes.length) (Thrown.verificationError
      ("entry bundles exceed configured total byte maximum " ++ toString source.maxTotalEntryBytes)))
    let bundle ← liftM (parseEntryBundle bundleBytes)
    liftM (throwIf (bundle.length ≠ want) (Thrown.verificationError "entry bundle width mismatch"))
    loadBundles logPrefix treeSize (bundleIndex + 1) (totalEntryBytes + bundleBytes.length)
      (entries ++ bundle.mapIdx fun i bytes => ⟨bundleIndex * entriesPerBundle + i, bytes⟩)
  else return entries
  termination_by treeSize - bundleIndex * entriesPerBundle
  decreasing_by unfold entriesPerBundle at *; omega

def load (logPrefix : String) : Reads StreamEvidence := do
  let checkpoint ← source.loadCheckpoint logPrefix
  liftM (throwIf (source.maxTreeSize < checkpoint.treeSize) (Thrown.verificationError
    ("checkpoint tree size exceeds configured maximum " ++ toString source.maxTreeSize)))
  let entries ← source.loadBundles logPrefix checkpoint.treeSize 0 0 []
  return ⟨checkpoint, entries, true⟩

def discoverEntry (logPrefix : String) (index : ℤ) : Reads (IndexedEntry Bytes) := do
  let checkpoint ← source.loadCheckpoint logPrefix
  liftM (throwIf (2 ^ 53 - 1 < index ∨ index < 0 ∨ (checkpoint.treeSize : ℤ) ≤ index) (Thrown.verificationError
    ("C2SP entry index " ++ toString index ++ " is outside checkpoint size " ++ toString checkpoint.treeSize)))
  let bundleIndex := index.toNat / entriesPerBundle
  let want := bundleWant checkpoint.treeSize bundleIndex
  let path ← liftM (entryBundlePath logPrefix bundleIndex (bundleWidth want))
  let bundleBytes ← source.bytes path source.maxEntryBundleBytes
  let bundle ← liftM (parseEntryBundle bundleBytes)
  liftM (throwIf (bundle.length ≠ want) (Thrown.verificationError "entry bundle width mismatch"))
  return ⟨index.toNat, bundle.getD (index.toNat % entriesPerBundle) []⟩

end ScanStreamSource

end Dnsid.Scan

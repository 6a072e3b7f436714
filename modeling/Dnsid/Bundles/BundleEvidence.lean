import Dnsid.Bundles.BundleContent
import Dnsid.Checkpoint.WitnessTimes
import Dnsid.References.CanonicalPrefix
import Dnsid.Stream.Growth
import Dnsid.Stream.WellFormed

/-! # What an accepted bundle is evidence of

A verified bundle was signed as a whole by one trusted producer, under a policy whose bytes it names; distinct witnesses of
that policy cosigned its checkpoint, and every lifecycle event that it gives is an entry of the log behind the checkpoint.
-/
namespace Dnsid.Bundles
open Dnsid.Foundations Dnsid.Events Dnsid.Protocol Dnsid.Stream
open Dnsid.Checkpoint (IndexedEntry SignedNoteKey DistinctlyWitnessed distinctlyWitnessed_of_accepted
  enforceCheckpointPolicy enforceCheckpointPolicy_eq_ok normalizedOriginPolicy witnessTimeOf)
set_option autoImplicit false

section Opening
variable {P : BundlePlatform} {bytes : Bytes} {options : VerifyC2spStreamBundleOptions}

/-! ## The signature -/

/-- The bundle key that signed, which no log or witness of the policy has. -/
structure Signed (P : BundlePlatform) (keys checkpointKeys : List SignedNoteKey) (bundle : C2spStreamBundle)
    (key : SignedNoteKey) : Prop where
  unique : keys.filter (namesKey bundle.signature.kid) = [key]
  verifies : P.verifySignature key.keyBytes bundle.signedBytes bundle.signature.value = true
  independent : ∀ other ∈ checkpointKeys, other.keyBytes ≠ key.keyBytes

/-- Distinct witnesses of the policy whose hash the bundle names cosigned the checkpoint, and one producer apart from them
signed the bundle. -/
structure Witnessed (P : BundlePlatform) (options : VerifyC2spStreamBundleOptions) (opened : OpenedBundle)
    (policy : Checkpoint.C2spTlogPolicy) (timestamps : List ℕ) : Prop where
  policyHash : opened.bundle.policyHash = P.sha256 options.policyBytes
  named : bundlePolicy options.policyBytes = .ok policy
  witnesses : DistinctlyWitnessed P.notes opened.bundle.checkpoint opened.bundle.reference.origin policy
    opened.bundle.reference.scope options.nowMs (some opened.maxClockSkewMs) timestamps
  time : ∃ time, witnessTimeOf timestamps = some time ∧ opened.witnessTime = time.map Int.ofNat
  producer : ∃ normalized key, normalizedOriginPolicy policy opened.bundle.reference.origin = .ok normalized ∧
    Signed P options.bundleKeys (normalized.logKeys ++ normalized.witnessKeys) opened.bundle key

/-- The bundle is not expired, and it and its checkpoint are recent. -/
structure Recent (options : VerifyC2spStreamBundleOptions) (opened : OpenedBundle) : Prop where
  unexpired : options.nowMs < (opened.bundle.expires : ℤ) * 1000
  fresh : ∀ time, opened.witnessTime = some time → options.nowMs - time ≤ options.checkpointFreshnessMs
  lifetime : ∀ time, opened.witnessTime = some time → (opened.bundle.expires : ℤ) * 1000 ≤ time + options.maxBundleLifetimeMs

/-- What every check before the lifecycle comes to. -/
structure Opened (P : BundlePlatform) (bytes : Bytes) (options : VerifyC2spStreamBundleOptions) (opened : OpenedBundle) :
    Prop where
  parsed : parseC2spStreamBundle P bytes options.toParseC2spStreamBundleOptions = .ok opened.bundle
  fqdn : P.codec.normalizeFQDN options.expectedFqdn = some opened.bundle.fqdn
  reference : expectedReference P options.expectedLogReference = .ok opened.bundle.reference
  skew : (opened.maxClockSkewMs : ℤ) = options.maxClockSkewMs.getD 0
  witnessed : ∃ policy timestamps, Witnessed P options opened policy timestamps
  recent : Recent options opened
  size : opened.bundle.checkpoint.treeSize = opened.bundle.completeThroughSize
  included : ∀ event ∈ opened.bundle.events, P.hash.verifyInclusion event.entryBytes event.index
    opened.bundle.completeThroughSize opened.bundle.checkpoint.rootHash event.proof = .ok true

end Opening

/-! ## Evidence -/

/-- The position of a bundled event in the log. A proof that is shorter than its audit path may be that of another position. -/
def LoggedAt (D : List Bytes) (event : C2spStreamBundleEvent) : Prop :=
  event.entryBytes ∈ D ∧
    (event.proof.length = (auditSides D.length event.index).length → D[event.index]? = some event.entryBytes)

/-- What the acceptance of a bundle shows of it and of the lifecycle that was read from it. -/
structure Evidence (P : BundlePlatform) (options : VerifyC2spStreamBundleOptions)
    (verifyMigration : Option (ℕ → LogEvent → Except Thrown MigrationVerificationResult)) (opened : OpenedBundle)
    (events : List (VerifiedLifecycleEvent Bytes)) : Prop where
  fqdn : P.codec.normalizeFQDN options.expectedFqdn = some opened.bundle.fqdn
  reference : expectedReference P options.expectedLogReference = .ok opened.bundle.reference
  skew : (opened.maxClockSkewMs : ℤ) = options.maxClockSkewMs.getD 0
  witnessed : ∃ policy timestamps, Witnessed P options opened policy timestamps
  recent : Recent options opened
  /-- The signature is over all of the bundle. -/
  covered : ∀ {bytes' options' bundle'}, parseC2spStreamBundle P bytes' options' = .ok bundle' →
    bundle'.signedBytes = opened.bundle.signedBytes →
      bundle' = { opened.bundle with signature := bundle'.signature, bytes := bundle'.bytes }
  /-- The checkpoint is the note of its bytes. -/
  note : ∃ text note, decodeUtf8 opened.bundle.checkpointBytes = some text ∧
    Notes.parseCheckpoint (Utf16.ofScalars text) = .ok note ∧ Notes.WellFormedNote note ∧
      opened.bundle.checkpoint = Notes.noteCheckpoint note
  bundled : ∀ item ∈ events, withinCutoff options.cutoffIndex item.index = true ∧
    ∃ event ∈ opened.bundle.events, event.index = item.index ∧ event.entryBytes = item.bytes
  ordered : events.Pairwise fun a b => a.index < b.index
  /-- What the log holds, or two different inputs of the hash that have one digest. -/
  logged : ∀ D : List Bytes, D.length = opened.bundle.checkpoint.treeSize →
    P.hash.merkleRootFromEntries D = opened.bundle.checkpoint.rootHash →
      ∀ event ∈ opened.bundle.events, LoggedAt D event ∨ P.hash.ProofCollides event.entryBytes event.index event.proof D
  lifecycle : ∃ genesis, WellFormedLifecycle P.codec opened.bundle.fqdn
    (lifecycleOptions options opened verifyMigration) genesis events
  summary : options.cutoffIndex = none → opened.bundle.state = lifecycleSummary events

section Evidence
variable {P : BundlePlatform} {J : JsonRuntime} {bytes : Bytes} {options : VerifyC2spStreamBundleOptions}
  {verifyMigration : Option (ℕ → LogEvent → Except Thrown MigrationVerificationResult)}

theorem Opened.logged {opened : OpenedBundle} (h : Opened (P.withJson J) bytes options opened) (D : List Bytes)
    (hlength : D.length = opened.bundle.checkpoint.treeSize)
    (hroot : P.hash.merkleRootFromEntries D = opened.bundle.checkpoint.rootHash) :
    ∀ event ∈ opened.bundle.events,
      LoggedAt D event ∨ P.hash.ProofCollides event.entryBytes event.index event.proof D := by
  intro event hevent
  obtain ⟨object, hparsed⟩ := parseC2spStreamBundle_ok h.parsed
  have hsize := safeInteger_ok hparsed.read.size
  have hincluded := h.included event hevent
  have hinside := hparsed.inside event hevent
  rw [← h.size, ← hlength] at hsize hincluded hinside
  rw [← hroot] at hincluded
  refine Merkle.verifyInclusion_mem_or_collides D ?_ event.index hinside _ _ hincluded
  refine decide_eq_true ?_
  rw [maxSafeInteger] at hsize
  omega

end Evidence

/-! ## A bundle of one event -/

/-- A key signs with its `x`. -/
def sampleCodec : Platform Bytes where
  byteLength := List.length
  parseJsonNoDuplicateMembers _ := .error (.parseError "")
  canonicalBytes _ := .error (.parseError "")
  jsonParse _ := none
  normalizeFQDN := some
  fromBase64Url text := fromBase64Url text.toList
  labelledHash label _ := label
  leafHash := id
  verifyWithKey _ signature key := (key.text? "x").any fun x => signature = utf8 x.toList
  jwkThumbprint key := key.text? "x"
  materialHash members := (members.lookup "x").getD ""
  stringOf _ := ""
  jsonParse_of_strict h := by cases h
  signed_envelope h _ := by cases h

/-- A digest repeats the length of what is hashed, and a signature the last byte of its key. -/
def sampleDigest (bytes : Bytes) : Bytes := List.replicate 32 (.ofNat bytes.length)

def repeatsLast (keyBytes signature : Bytes) : Bool :=
  signature = List.replicate 64 (keyBytes.getLastD 0)

def samplePlatform : BundlePlatform where
  codec := sampleCodec
  urls := References.sampleUrls
  notes := ⟨[], fun _ => repeatsLast⟩
  hash := {
    sha256 := fun chunks => match chunks with
      | .none => sampleDigest []
      | .entry e => sampleDigest (0 :: e)
      | .pair l r => sampleDigest (1 :: l ++ r)
    byteLength := List.length }
  sha256 := sampleDigest
  verifySignature keyBytes _ := repeatsLast keyBytes

def sampleLr : String := "c2sp-tlog:public:https://log.example/p#s"

def sampleKey (x : String) : DnsIdJWK :=
  .obj [("alg", .str "EdDSA"), ("crv", .str "Ed25519"), ("kid", .str x), ("kty", .str "OKP"), ("x", .str x)]

def sampleSig (x : String) : String := base64Text (utf8 x.toList)

def sampleSignature (x : String) : Json := .obj [("kid", .str x), ("sig", .str (sampleSig x))]

def sampleEnvelope : Json :=
  .obj [("ek", sampleKey "E"), ("fqdn", .str "a.example"), ("gi", .str "gi"), ("kind", .str "dnsid.lifecycle"),
    ("ku", sampleKey "O"), ("log_origin", .str "log.example/p"), ("lr", .str sampleLr), ("method", .str "c2sp-tlog"),
    ("seq", .num 0), ("sigs", .obj [("ae", sampleSignature "E"), ("op", sampleSignature "O")]), ("stream_id", .str "s"),
    ("ts", .num 0), ("type", .str "ISSUANCE"), ("v", .num 1)]

def sampleEntry : Bytes := utf8 (print decimalText sampleEnvelope)

def sampleNoteText : List Char :=
  "log.example/p\n1\n".toList ++ Notes.toBase64 (List.replicate 32 152) ++ "\n\n— log.example/p ".toList ++
    Notes.toBase64 (List.replicate 4 0 ++ List.replicate 64 2) ++ "\n— w1 ".toList ++
    Notes.toBase64 (List.replicate 76 0) ++ ['\n']

def samplePolicyText : List Char :=
  "log log.example/p+00000000+AQ".toList ++ List.replicate 41 'A' ++ "C\nwitness W1 w1+00000000+BA".toList ++
    List.replicate 41 'A' ++ "A\nquorum W1\n".toList

def sampleBundle : List (String × Json) :=
  [("checkpoint", .str (base64Text (utf8 sampleNoteText))), ("complete_through_size", .num 1),
    ("completeness_mode", .str "trusted-index"),
    ("events", .arr [.obj [("entry", .str (base64Text sampleEntry)), ("index", .num 0), ("proof", .str "")]]),
    ("expires", .num 1), ("fqdn", .str "a.example"), ("lr", .str sampleLr),
    ("policy_hash", .str (base64Text (List.replicate 32 150))),
    ("sig", .obj
      [("alg", .str "EdDSA"), ("kid", .str "producer+00000000"), ("value", .str (base64Text (List.replicate 64 7)))]),
    ("state", .obj [("event_count", .num 1), ("last_event_type", .str "ISSUANCE"), ("logged_state", .str "ACTIVE")]),
    ("type", .str "dnsid-c2sp-stream-bundle"), ("v", .num 1)]

def sampleBytes : Bytes := utf8 (print decimalText (.obj sampleBundle))

def sampleOptions : VerifyC2spStreamBundleOptions where
  maxBundleBytes := 10000
  maxEvents := 10
  expectedFqdn := "a.example"
  expectedLogReference := sampleLr
  policyBytes := utf8 samplePolicyText
  bundleKeys := [⟨"producer", List.replicate 32 7, some [0, 0, 0, 0], none⟩]
  entityKey := sampleKey "E"
  maxBundleLifetimeMs := 1000
  checkpointFreshnessMs := 1000
  maxTreeSize := none
  maxClockSkewMs := some 1000
  nowMs := 0
  cutoffIndex := none

def sampleReference : LogReference :=
  ⟨"public", "https://log.example/p", "s", "log.example/p", sampleLr, none⟩

def sampleNote : Notes.Checkpoint where
  origin := Utf16.ofText "log.example/p"
  treeSize := 1
  rootHash := List.replicate 32 152
  signatures := [
    ⟨Utf16.ofText "log.example/p", some (List.replicate 4 0), List.replicate 64 2,
      Utf16.ofScalars ("— log.example/p ".toList ++ Notes.toBase64 (List.replicate 4 0 ++ List.replicate 64 2))⟩,
    ⟨Utf16.ofText "w1", some (List.replicate 4 0), List.replicate 72 0,
      Utf16.ofScalars ("— w1 ".toList ++ Notes.toBase64 (List.replicate 76 0))⟩]
  signedText := Utf16.ofScalars ("log.example/p\n1\n".toList ++ Notes.toBase64 (List.replicate 32 152) ++ ['\n'])

abbrev sampleRuntime : BundlePlatform := samplePlatform.withJson decimalRuntime

def sampleFields : IssuanceEvent where
  governanceId := "gi"
  initialEntityKid := some "E"
  initialEntityAlg := some "EdDSA"
  initialEntityPublicKey := some (sampleKey "E")
  initialEntityThumbprint := some "E"
  initialOperationalKid := some "O"
  initialOperationalAlg := some "EdDSA"
  initialOperationalPublicKey := some (sampleKey "O")
  initialOperationalThumbprint := some "O"
  entityKey := none
  operationalKey := none
  publicKey := none
  thumbprint := none

def sampleEvent : LogEvent where
  domain := "a.example"
  timestamp := some 0
  signingKid := some "E"
  sig := some (sampleSig "E")
  operationalCountersig := some (sampleSig "O")
  newOperationalProof := none
  chain := parseChainFields sampleEnvelope
  body := .issuance sampleFields

def sampleSigned : Bytes := utf8 (print decimalText (withoutSigs sampleEnvelope))

def sampleItem : VerifiedLifecycleEvent Bytes := candidateOf sampleRuntime.codec ⟨0, sampleEntry⟩ sampleEvent

end Dnsid.Bundles

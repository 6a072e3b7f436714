import Dnsid.Stream.BundleThumbprint
import Dnsid.Stream.WellFormed

/-! # All replays of one history

Four folds read a lifecycle: the selection loop, `verifyLifecycle`, the snapshot of the protocol package and
the bundle verifier. The first two follow the identity; here the snapshot is shown to follow it too, over the
selected events and over a stitched history, and `verifyStreamLifecycle_replays_agree` compares all four.
-/
namespace Dnsid.Stream
open Dnsid.Foundations Dnsid.Events Dnsid.Protocol
open Dnsid.Checkpoint (IndexedEntry)
set_option autoImplicit false

/-- jose computes RFC 7638 thumbprints of OKP and EC keys, as `synchronousJwkThumbprint` does. -/
def JoseComputesThumbprints {Bytes : Type} (P : Platform Bytes) : Prop :=
  ∀ key category thumbprint, (key.get? "kty" = some (.str "OKP") ∨ key.get? "kty" = some (.str "EC")) →
    synchronousJwkThumbprint P key category = .ok thumbprint → P.jwkThumbprint key = some thumbprint

def AgentStatus.state : AgentStatus → AgentStatusState
  | .active => .active
  | .revoked => .revoked
  | .retired => .retired

theorem AgentStatus.state_name (status : AgentStatus) : status.state.name = status.name := by
  cases status <;> rfl

section Snapshots
variable {Bytes : Type} [DecidableEq Bytes] {P : Platform Bytes}

/-! ## Keys -/

omit [DecidableEq Bytes] in
theorem boundKey_of_supported (hjose : JoseComputesThumbprints P) {key : DnsIdJWK} {thumbprint : String}
    (hsupported : SupportedJwk key) (hthumbprint : P.jwkThumbprint key = some thumbprint)
    (hnamed : thumbprint ≠ "") : BoundKey P key thumbprint := by
  obtain ⟨computed, hcomputed⟩ := supportedJwk_thumbprint (P := P) hsupported
  have hsame := hjose key .invalidIssuance computed (supportedJwk_kty hsupported) (hcomputed _)
  obtain rfl := Option.some.inj (hthumbprint.symm.trans hsame)
  exact ⟨supportedJwk_truthy hsupported, hnamed, hcomputed⟩

omit [DecidableEq Bytes] in
theorem material_of_distinct {a b : DnsIdJWK} {ta tb : String} (hsupported : SupportedJwk a)
    (ha : BoundKey P a ta) (hb : BoundKey P b tb) (hne : ta ≠ tb) : sameJwkMaterial a b = false := by
  by_contra hsame
  have heq := synchronousJwkThumbprint_sameMaterial (P := P) hsupported (by simpa using hsame)
    .invalidIssuance
  rw [ha.thumbprint, hb.thumbprint] at heq
  exact hne (Except.ok.inj heq)

/-! ## The snapshot follows the identity -/

/-- The snapshot's variables hold the status and the operational key of the identity. -/
structure SnapshotTracks (P : Platform Bytes) (s : Identity) (st : Materialized) : Prop where
  state : st.state = some s.status.state
  thumbprint : P.jwkThumbprint s.operationalKey = some st.activeKeyThumbprint

theorem SnapshotTracks.step {options : StreamVerifierOptions} {domain : String} {s : Identity}
    {st : Materialized} {prev item : VerifiedLifecycleEvent Bytes} (h : SnapshotTracks P s st)
    (haccepted : Accepted P options domain prev s item) :
    SnapshotTracks P (s.apply item.event) (st.after item.event) := by
  have hstate := h.state
  have htype := haccepted.type
  cases hb : item.event.body with
  | issuance _ => exact absurd (by rw [LogEvent.type, hb]; rfl) htype.1
  | migration _ => exact absurd (by rw [LogEvent.type, hb]; rfl) htype.2
  | keyRotation fields =>
    have hrotation := haccepted.rotation fields hb
    constructor
    · simpa [Identity.apply, hb, stateAfter] using hstate
    · simpa [Identity.apply, hb, thumbprintAfter] using hrotation.thumbprint
  | _ =>
    constructor
    · simp [Identity.apply, hb, stateAfter, AgentStatus.state, hstate]
    · simpa [Identity.apply, hb, thumbprintAfter] using h.thumbprint

theorem SnapshotTracks.run {options : StreamVerifierOptions} {domain : String} {s : Identity}
    {prev : VerifiedLifecycleEvent Bytes} {rest : List (VerifiedLifecycleEvent Bytes)}
    (hcontinues : Continues P options domain prev s rest) :
    ∀ {st st' : Materialized}, SnapshotTracks P s st →
      (eventsOf rest).foldlM (snapshotStep P domain none) st = .ok st' →
      SnapshotTracks P (s.after (eventsOf rest)) st' := by
  induction hcontinues with
  | nil prev s =>
    intro st st' htracks h
    cases h
    exact htracks
  | cons haccepted _ ih =>
    intro st st' htracks h
    obtain ⟨st₁, h₁, h⟩ := foldlM_cons_ok h
    obtain ⟨-, rfl⟩ := snapshotStep_iff.mp h₁
    exact ih (htracks.step haccepted) h

/-! ## A snapshot of accepted events returns -/

/-- Besides, the snapshot holds the very key of the identity, and is within its boundary. -/
structure SnapshotHolds (P : Platform Bytes) (s : Identity) (st : Materialized) : Prop
    extends SnapshotTracks P s st where
  activeKey : st.activeKey = some s.operationalKey
  supported : SupportedJwk s.operationalKey
  bound : BoundKey P s.operationalKey st.activeKeyThumbprint
  boundary : st.pastSnapshotBoundary = false

omit [DecidableEq Bytes] in
theorem SnapshotHolds.rotation {s : Identity} {st : Materialized} {fields : KeyRotationEvent}
    (hjose : JoseComputesThumbprints P) (h : SnapshotHolds P s st)
    (haccepted : RotationAccepted P s fields) (hnamed : fields.newOperationalThumbprint ≠ "") :
    RotationBinding P st.activeKey st.activeKeyThumbprint fields := by
  have hbound := boundKey_of_supported hjose haccepted.supported haccepted.thumbprint hnamed
  have hprevious := Option.some.inj (haccepted.previous.symm.trans h.thumbprint)
  have hdistinct : fields.newOperationalThumbprint ≠ st.activeKeyThumbprint := by
    rw [← hprevious]
    exact haccepted.notActive
  refine ⟨hprevious, hbound, hdistinct, ?_⟩
  intro key hkey
  obtain rfl := Option.some.inj (h.activeKey.symm.trans hkey)
  exact material_of_distinct h.supported h.bound hbound hdistinct.symm

theorem listedReason_revocation (reason : RevocationReason) :
    listedReason (.revocation reason) = isListedReason reason := by
  cases reason <;> rfl

theorem SnapshotHolds.step {options : StreamVerifierOptions} {domain : String} {s : Identity}
    {st : Materialized} {prev item : VerifiedLifecycleEvent Bytes}
    (hjose : JoseComputesThumbprints P) (h : SnapshotHolds P s st)
    (haccepted : Accepted P options domain prev s item)
    (hitem : SelectedItem P domain options item) :
    Materializable P domain st item.event ∧
      SnapshotHolds P (s.apply item.event) (st.after item.event) := by
  have htracks := h.toSnapshotTracks.step haccepted
  have hactive : st.state = some .active := by rw [h.state, haccepted.status]; rfl
  obtain ⟨timestamp, -, htime, -⟩ := haccepted.timely
  obtain ⟨obj, sigs, hparsed⟩ := parseC2spEventEntry_ok hitem.parsed
  have hmaterializable (hbody : BodyMaterializable P st.activeKey st.activeKeyThumbprint
      item.event.body) : Materializable P domain st item.event :=
    ⟨hitem.domain, by simp [htime], h.boundary, fun htype => absurd htype haccepted.type.1,
      fun _ => hactive, hbody⟩
  cases hb : item.event.body with
  | issuance _ => exact absurd (by rw [LogEvent.type, hb]; rfl) haccepted.type.1
  | migration _ => exact absurd (by rw [LogEvent.type, hb]; rfl) haccepted.type.2
  | keyRotation fields =>
    have hrotation := haccepted.rotation fields hb
    have hbinding := h.rotation hjose hrotation (hparsed.recorded.rotation fields hb).named
    refine ⟨hmaterializable (by rw [hb]; exact hbinding), htracks, ?_, ?_, ?_, h.boundary⟩
    · simp [Identity.apply, hb, activeKeyAfter]
    · simpa [Identity.apply, hb] using hrotation.supported
    · simpa [Identity.apply, hb, thumbprintAfter] using hbinding.newBound
  | _ =>
    have hreason := haccepted.reason
    refine ⟨hmaterializable ?_, htracks, ?_, ?_, ?_, h.boundary⟩
    · rw [hb] at hreason ⊢
      first | trivial | exact (listedReason_revocation _).symm.trans hreason
    · simpa [Identity.apply, hb, activeKeyAfter] using h.activeKey
    · simpa [Identity.apply, hb] using h.supported
    · simpa [Identity.apply, hb, thumbprintAfter] using h.bound

theorem SnapshotHolds.run {options : StreamVerifierOptions} {domain : String} {s : Identity}
    {prev : VerifiedLifecycleEvent Bytes} {rest : List (VerifiedLifecycleEvent Bytes)}
    (hjose : JoseComputesThumbprints P) (hcontinues : Continues P options domain prev s rest) :
    ∀ {st : Materialized}, SnapshotHolds P s st →
      (∀ item ∈ rest, SelectedItem P domain options item) →
      ∃ st', (eventsOf rest).foldlM (snapshotStep P domain none) st = .ok st' ∧
        SnapshotHolds P (s.after (eventsOf rest)) st' := by
  induction hcontinues with
  | nil prev s => exact fun h _ => ⟨_, rfl, h⟩
  | cons haccepted _ ih =>
    intro st h hitems
    obtain ⟨hitem, hitems⟩ := List.forall_mem_cons.mp hitems
    obtain ⟨hmaterializable, h₁⟩ := h.step hjose haccepted hitem
    obtain ⟨st', hrun, h'⟩ := ih h₁ hitems
    refine ⟨st', ?_, h'⟩
    show (_ :: _).foldlM _ st = _
    rw [List.foldlM_cons, snapshotStep_iff.mpr ⟨hmaterializable, rfl⟩]
    exact hrun

/-! ## Genesis -/

theorem SnapshotHolds.genesis {options : StreamVerifierOptions} {domain : String} {s : Identity}
    {verifyMigration : Option (LogEvent → Except Thrown MigrationVerificationResult)}
    {item : VerifiedLifecycleEvent Bytes} {fields : IssuanceEvent} {event : C2spIssuanceEvent}
    (hjose : JoseComputesThumbprints P) (hitem : SelectedItem P domain options item)
    (hgenesis : GenesisAccepted P options verifyMigration item s)
    (hb : item.event.body = .issuance fields) (hevent : assertC2spIssuanceEvent fields = .ok event)
    (hkeys : IssuanceKeys P event) :
    Materializable P domain .initial item.event ∧
      SnapshotHolds P s (Materialized.initial.after item.event) := by
  obtain ⟨obj, sigs, hparsed⟩ := parseC2spEventEntry_ok hitem.parsed
  obtain ⟨hentitySlot, hopSlot⟩ := (hparsed.recorded.issuance fields hb).noSlots
  obtain ⟨hentity, hop, hentityThumb, hopThumb, hentityNamed, hopNamed⟩ :=
    assertC2spIssuanceEvent_ok hevent
  obtain ⟨timestamp, -, htime, -⟩ := hgenesis.timely
  have hestablished := hgenesis.keys
  rw [GenesisKeys, hb] at hestablished
  have hentityKey := Option.some.inj (hentity.symm.trans hestablished.1)
  have hopKey := Option.some.inj (hop.symm.trans hestablished.2)
  have hentityJose := hkeys.entityThumbprint
  have hopJose := hkeys.operationalThumbprint
  rw [hentityKey] at hentity hentityJose
  rw [hopKey] at hop hopJose
  have hentityBound := boundKey_of_supported hjose hgenesis.supported.1 hentityJose hentityNamed
  have hopBound := boundKey_of_supported hjose hgenesis.supported.2 hopJose hopNamed
  have hdistinct : event.initialEntityThumbprint ≠ event.initialOperationalThumbprint := by
    obtain ⟨ta, tb, hta, htb, hne⟩ := hgenesis.distinct
    rwa [Option.some.inj (hentityJose.symm.trans hta), Option.some.inj (hopJose.symm.trans htb)]
  have hnotNull : s.operationalKey ≠ .null := hgenesis.supported.2.1
  have hactiveKey : issuanceActiveKey fields = some s.operationalKey := by
    simp [issuanceActiveKey, orElseNullish, hopSlot, hop, Option.filter, hnotNull]
  have hactiveThumb : issuanceActiveThumbprint fields = some event.initialOperationalThumbprint := by
    simp [issuanceActiveThumbprint, hopSlot, hopThumb]
  have hbinding : IssuanceBinding P fields s.entityKey s.operationalKey event.initialEntityThumbprint
      event.initialOperationalThumbprint :=
    ⟨by simp [issuanceEntityKey, orElseNullish, hentitySlot, hentity], hactiveKey,
      by simp [issuanceEntityThumbprint, hentitySlot, hentityThumb], hactiveThumb, hentityBound, hopBound,
      hdistinct, material_of_distinct hgenesis.supported.1 hentityBound hopBound hdistinct⟩
  refine ⟨⟨hitem.domain, by simp [htime], rfl, fun _ => rfl, ?_, ?_⟩, ⟨?_, ?_⟩, ?_,
    hgenesis.supported.2, ?_, rfl⟩
  · intro hother
    exact absurd (by rw [LogEvent.type, hb]; rfl) hother
  · rw [hb]
    exact ⟨_, _, _, _, hbinding⟩
  · simp [hb, stateAfter, hgenesis.status, AgentStatus.state]
  · simpa [hb, thumbprintAfter, hactiveThumb] using hopJose
  · simpa [hb, activeKeyAfter] using hactiveKey
  · simpa [hb, thumbprintAfter, hactiveThumb] using hopBound

/-! ## Stitched histories -/

omit [DecidableEq Bytes] in
theorem stitchVerifiedMigrationHistory_ok {parseC2spTlogLr : String → Option ParsedC2spTlogLr}
    {domain : String} {events history : List LogEvent} {migration : MigrationVerificationResult}
    (h : stitchVerifiedMigrationHistory P parseC2spTlogLr domain events migration = .ok history) :
    history = migration.priorHistory ++ events ∧
      (∃ prior, latestSnapshot P domain migration.priorHistory = .ok prior ∧
        prior.historicalState = .active ∧
        P.jwkThumbprint migration.activeOperationalKey = some prior.activeKeyThumbprint) ∧
      ∃ snapshot, latestSnapshot P domain history = .ok snapshot := by
  unfold stitchVerifiedMigrationHistory at h
  obtain ⟨_, -, h⟩ := bind_eq_ok.mp h
  obtain ⟨_, -, h⟩ := bind_eq_ok.mp h
  obtain ⟨_, -, h⟩ := bind_eq_ok.mp h
  obtain ⟨_, -, h⟩ := bind_eq_ok.mp h
  obtain ⟨_, hactive, h⟩ := bind_eq_ok.mp h
  obtain ⟨_, -, h⟩ := bind_eq_ok.mp h
  obtain ⟨snapshot, hsnapshot, h⟩ := bind_eq_ok.mp h
  obtain rfl := pure_eq_ok.mp h
  unfold assertImportedActiveKey at hactive
  simp only [bind_eq_ok, throwIf_eq_ok, not_not, thumbprintOf_ok] at hactive
  obtain ⟨prior, hprior, -, hstate, thumbprint, hthumbprint, heq⟩ := hactive
  exact ⟨rfl, ⟨prior, hprior, hstate, by rw [heq]; exact hthumbprint⟩, snapshot, hsnapshot⟩

omit [DecidableEq Bytes] in
/-- The snapshot of the prior history stands where the identity of the MIGRATION begins. -/
theorem SnapshotTracks.imported {domain : String} {migration : MigrationVerificationResult}
    {prior : DomainSnapshot} {s : Identity} (hstatus : s.status = .active)
    (hkey : migration.activeOperationalKey = s.operationalKey)
    (hprior : latestSnapshot P domain migration.priorHistory = .ok prior)
    (hactive : prior.historicalState = .active)
    (hthumbprint : P.jwkThumbprint migration.activeOperationalKey = some prior.activeKeyThumbprint) :
    ∃ st, migration.priorHistory.foldlM (snapshotStep P domain none) .initial = .ok st ∧
      SnapshotTracks P s st := by
  obtain ⟨-, st, hst, hsnapshot⟩ := latestSnapshot_iff.mp hprior
  obtain ⟨hstate, -, heq⟩ := Materialized.snapshot_ok hsnapshot
  refine ⟨st, hst, ?_, ?_⟩
  · rw [hstate, hactive, hstatus]
    rfl
  · rw [← hkey, hthumbprint, heq]

theorem SnapshotTracks.stitched {options : StreamVerifierOptions} {domain : String} {s : Identity}
    {first : VerifiedLifecycleEvent Bytes} {rest : List (VerifiedLifecycleEvent Bytes)}
    {prior : List LogEvent} {fields : MigrationEvent} {st st' : Materialized}
    (hb : first.event.body = .migration fields)
    (hcontinues : Continues P options domain first s rest)
    (hprior : prior.foldlM (snapshotStep P domain none) .initial = .ok st)
    (htracks : SnapshotTracks P s st)
    (h : (prior ++ eventsOf (first :: rest)).foldlM (snapshotStep P domain none) .initial = .ok st') :
    SnapshotTracks P (s.after (eventsOf rest)) st' := by
  obtain ⟨st₀, hst₀, h⟩ := foldlM_append_ok.mp h
  obtain rfl := Except.ok.inj (hprior.symm.trans hst₀)
  obtain ⟨st₁, h₁, h⟩ := foldlM_cons_ok h
  obtain ⟨-, rfl⟩ := snapshotStep_iff.mp h₁
  refine SnapshotTracks.run hcontinues ⟨?_, ?_⟩ h
  · simpa [hb, stateAfter] using htracks.state
  · simpa [hb, thumbprintAfter] using htracks.thumbprint

/-! ## The logged state -/

/-- The status of the identity can be read off the type of the last event. -/
theorem Continues.loggedState {options : StreamVerifierOptions} {domain : String} {s : Identity}
    {prev : VerifiedLifecycleEvent Bytes} {rest : List (VerifiedLifecycleEvent Bytes)}
    (h : Continues P options domain prev s rest)
    (hprev : s.status.name = (loggedStateOf prev.event.type).name) :
    (s.after (eventsOf rest)).status.name = (lifecycleSummary (prev :: rest)).loggedState.name := by
  induction h with
  | nil prev s => simpa [eventsOf, lifecycleSummary] using hprev
  | @cons prev item s rest haccepted _ ih =>
    have hitem : (s.apply item.event).status.name = (loggedStateOf item.event.type).name := by
      have hstatus := haccepted.status
      unfold Identity.apply
      cases hb : item.event.body <;>
        simp [hb, hstatus, LogEvent.type, EventBody.type, loggedStateOf, AgentStatus.name,
          LoggedState.name]
    have hlast : (lifecycleSummary (prev :: item :: rest)).loggedState =
        (lifecycleSummary (item :: rest)).loggedState := by
      simp only [lifecycleSummary, List.getLast?_cons_cons]
      split <;> rfl
    rw [hlast]
    exact ih hitem

end Snapshots

/-! ## The four replays -/

section Agreement
variable {Bytes : Type} [DecidableEq Bytes] {P : Platform Bytes}

/-- The snapshot of the history succeeds, with the thumbprint that the bundle verifier reads and that the
operational keys of both loops have, and with the state that the bundle summary names. -/
def ReplaysAgree (P : Platform Bytes) (domain : String) (st : Selection Bytes) (replayed : Replay Bytes)
    (history : List LogEvent) : Prop :=
  ∃ snapshot, latestSnapshot P domain history = .ok snapshot ∧
    activeOperationalThumbprint history = .ok snapshot.activeKeyThumbprint ∧
    st.activeOperationalKey.bind P.jwkThumbprint = some snapshot.activeKeyThumbprint ∧
    replayed.activeOperationalKey.bind P.jwkThumbprint = some snapshot.activeKeyThumbprint ∧
    snapshot.historicalState.name = (lifecycleSummary st.selected).loggedState.name

/-- When the snapshot follows the identity, only the bundle verifier can differ. -/
theorem replaysAgree_iff {domain : String} {options : StreamVerifierOptions} {s : Identity}
    {st : Selection Bytes} {replayed : Replay Bytes} {last first : VerifiedLifecycleEvent Bytes}
    {rest : List (VerifiedLifecycleEvent Bytes)} {history : List LogEvent} {snapshot : DomainSnapshot}
    (hselected : Selected P domain options s st) (heq : st.selected = first :: rest)
    (hgenesis : GenesisAccepted P options (cachedMigration options st.migrationResult) first s)
    (hcontinues : Continues P options domain first s rest)
    (hreplayed : Tracks P domain last (s.after (eventsOf rest)) replayed)
    (hsnapshot : latestSnapshot P domain history = .ok snapshot)
    (htracks : ∀ st', history.foldlM (snapshotStep P domain none) .initial = .ok st' →
      SnapshotTracks P (s.after (eventsOf rest)) st') :
    ReplaysAgree P domain st replayed history ↔ BundleReadable history := by
  obtain ⟨hne, st', hst', htaken⟩ := latestSnapshot_iff.mp hsnapshot
  obtain ⟨hstate, -, hthumbprint⟩ := Materialized.snapshot_ok htaken
  have htracks := htracks st' hst'
  have hkey : st.activeOperationalKey = some (s.after (eventsOf rest)).operationalKey := by
    rw [hselected.operationalKey, heq]
    show some ((s.apply first.event).after (eventsOf rest)).operationalKey = _
    rw [s.apply_genesis hgenesis.keys.type]
  have hlogged : snapshot.historicalState.name = (lifecycleSummary st.selected).loggedState.name := by
    have hsame := Option.some.inj (hstate.symm.trans htracks.state)
    rw [heq, hsame, AgentStatus.state_name]
    apply hcontinues.loggedState
    rw [hgenesis.status]
    obtain htype | htype := hgenesis.keys.type <;> rw [htype] <;> rfl
  rw [← activeOperationalThumbprint_iff hne hst']
  constructor
  · rintro ⟨snapshot', hsnapshot', hbundle, -⟩
    obtain rfl := Except.ok.inj (hsnapshot.symm.trans hsnapshot')
    rw [← hthumbprint]
    exact hbundle
  · intro hbundle
    rw [← hthumbprint] at hbundle
    refine ⟨snapshot, hsnapshot, hbundle, ?_, ?_, hlogged⟩
    · rw [hkey, hthumbprint]
      exact htracks.thumbprint
    · rw [hreplayed.operationalKey, hthumbprint]
      exact htracks.thumbprint

/-- A lifecycle that starts with an ISSUANCE has a snapshot, and the bundle verifier can read its key. -/
theorem issued_snapshot {domain : String} {options : StreamVerifierOptions} {s : Identity}
    {verifyMigration : Option (LogEvent → Except Thrown MigrationVerificationResult)}
    {first : VerifiedLifecycleEvent Bytes} {rest : List (VerifiedLifecycleEvent Bytes)}
    {replayed : Replay Bytes} {fields : IssuanceEvent} (hjose : JoseComputesThumbprints P)
    (hitems : ∀ item ∈ first :: rest, SelectedItem P domain options item)
    (hb : first.event.body = .issuance fields)
    (hgenesis : GenesisAccepted P options verifyMigration first s)
    (hcontinues : Continues P options domain first s rest)
    (hreplay : replay P options verifyMigration (first :: rest) = .ok replayed) :
    ∃ st, (eventsOf (first :: rest)).foldlM (snapshotStep P domain none) .initial = .ok st ∧
      SnapshotHolds P (s.after (eventsOf rest)) st ∧ BundleReadable (eventsOf (first :: rest)) := by
  obtain ⟨hfirst, hrest⟩ := List.forall_mem_cons.mp hitems
  obtain ⟨_, hstep, -⟩ := foldlM_cons_ok hreplay
  obtain ⟨event, hevent, hkeys⟩ := lifecycleStep_issuance hb hstep
  obtain ⟨hmaterializable, hholds⟩ := SnapshotHolds.genesis hjose hfirst hgenesis hb hevent hkeys
  obtain ⟨st, hrun, hst⟩ := SnapshotHolds.run hjose hcontinues hholds hrest
  have hfold : (eventsOf (first :: rest)).foldlM (snapshotStep P domain none) .initial = .ok st := by
    show (first.event :: eventsOf rest).foldlM _ _ = _
    rw [List.foldlM_cons, snapshotStep_iff.mpr ⟨hmaterializable, rfl⟩]
    exact hrun
  refine ⟨st, hfold, hst, ?_⟩
  obtain ⟨fields', rest', _, hissued⟩ := materialize_issued (List.cons_ne_nil _ _) hfold
  obtain ⟨first', heq, hb'⟩ := hissued.head
  obtain ⟨rfl, -⟩ := List.cons.inj heq
  obtain rfl := EventBody.issuance.inj (hb.symm.trans hb')
  obtain ⟨obj, sigs, hparsed⟩ := parseC2spEventEntry_ok hfirst.parsed
  obtain ⟨-, hslot⟩ := (hparsed.recorded.issuance fields hb).noSlots
  obtain ⟨-, -, -, hthumbprint, -, hnamed⟩ := assertC2spIssuanceEvent_ok hevent
  exact hissued.readable_iff.mpr ⟨_, hthumbprint, hnamed, .inr (by simp [hslot])⟩

/-- All replays of a verified lifecycle agree exactly when the bundle verifier can read the prior history of a
MIGRATION: the snapshot accepts an ISSUANCE whose operational key stands in the slot alone, the bundle verifier
does not. A lifecycle that starts with an ISSUANCE always agrees. -/
theorem verifyStreamLifecycle_replays_agree {entries : List (IndexedEntry Bytes)} {domain : String}
    {options : StreamVerifierOptions} {events : List (VerifiedLifecycleEvent Bytes)}
    (hjose : JoseComputesThumbprints P)
    (h : verifyStreamLifecycle P entries domain options = .ok events) :
    ∃ st replayed, selectLifecycle P domain options entries = .ok st ∧ st.selected = events ∧
      replay P options (cachedMigration options st.migrationResult) events = .ok replayed ∧
      ∀ parseC2spTlogLr history,
        verifiedHistory P parseC2spTlogLr domain (eventsOf events) st.migrationResult = .ok history →
        (ReplaysAgree P domain st replayed history ↔
          ((events.head?.map fun item => item.event.type) = some .migration →
            BundleReadable history)) := by
  obtain ⟨-, st, s, hselect, rfl, hselected⟩ := verifyStreamLifecycle_ok h
  obtain ⟨first, rest, replayed, last, heq, hgenesis, hcontinues, hreplay, htracks⟩ := hselected.replayed
  refine ⟨st, replayed, hselect, rfl, hreplay, ?_⟩
  intro parseC2spTlogLr history hhistory
  have hitems := hselected.items
  have hkeys := hgenesis.keys
  rw [heq] at hhistory hitems hreplay ⊢
  cases hb : first.event.body with
  | issuance fields =>
    have htype : first.event.type = .issuance := by rw [LogEvent.type, hb]; rfl
    have hnone : ((eventsOf (first :: rest)).head?.bind migration?) = none := by
      simp [eventsOf, migration?, hb]
    rw [verifiedHistory, hnone] at hhistory
    cases hhistory
    obtain ⟨st', hst', hholds, hreadable⟩ :=
      issued_snapshot hjose hitems hb hgenesis hcontinues hreplay
    have hsnapshot : ∃ snapshot, latestSnapshot P domain (eventsOf (first :: rest)) = .ok snapshot := by
      have htaken : ∃ snapshot, st'.snapshot domain (latestTimestamp (eventsOf (first :: rest))) =
          .ok snapshot := by
        simp [Materialized.snapshot, hholds.state, hholds.activeKey]
      obtain ⟨snapshot, htaken⟩ := htaken
      exact ⟨snapshot, latestSnapshot_iff.mpr ⟨List.cons_ne_nil _ _, st', hst', htaken⟩⟩
    obtain ⟨snapshot, hsnapshot⟩ := hsnapshot
    rw [replaysAgree_iff hselected heq hgenesis hcontinues htracks hsnapshot]
    · simp [htype, hreadable]
    · intro st'' hst''
      obtain rfl := Except.ok.inj (hst'.symm.trans hst'')
      exact hholds.toSnapshotTracks
  | migration fields =>
    have htype : first.event.type = .migration := by rw [LogEvent.type, hb]; rfl
    have hsome : ((eventsOf (first :: rest)).head?.bind migration?) = some fields := by
      simp [eventsOf, migration?, hb]
    rw [verifiedHistory, hsome] at hhistory
    obtain ⟨migration, hmigration, hhistory⟩ := bind_eq_ok.mp hhistory
    have hmigration := orThrow_eq_ok.mp hmigration
    obtain ⟨rfl, ⟨prior, hprior, hactive, hthumbprint⟩, snapshot, hsnapshot⟩ :=
      stitchVerifiedMigrationHistory_ok hhistory
    have hkey : migration.activeOperationalKey = s.operationalKey := by
      rw [GenesisKeys, hb, hmigration] at hkeys
      obtain ⟨callback, result, hcallback, hanswer, -, hoperational⟩ := hkeys
      obtain ⟨f, -, rfl⟩ := Option.map_eq_some_iff.mp hcallback
      cases hanswer
      exact hoperational
    obtain ⟨stPrior, hstPrior, hsPrior⟩ :=
      SnapshotTracks.imported hgenesis.status hkey hprior hactive hthumbprint
    rw [replaysAgree_iff hselected heq hgenesis hcontinues htracks hsnapshot]
    · simp [htype]
    · intro st' hst'
      exact hsPrior.stitched hb hcontinues hstPrior hst'
  | _ =>
    rw [GenesisKeys, hb] at hkeys
    exact hkeys.elim

end Agreement

theorem materialMember_some {key : DnsIdJWK} {name : String} {member : String × String}
    (h : materialMember key name = some member) : ∃ text, key.text? name = some text ∧
      member = (name, text) := by
  obtain ⟨text, htext, rfl⟩ := Option.map_eq_some_iff.mp h
  exact ⟨text, (Option.filter_eq_some_iff.mp htext).1, rfl⟩

theorem samplePlatform_jose : JoseComputesThumbprints samplePlatform := by
  intro key category thumbprint hkty h
  simp only [synchronousJwkThumbprint, bind_eq_ok, orThrow_eq_ok, pure_eq_ok] at h
  obtain ⟨names, hnames, material, hmaterial, rfl⟩ := h
  -- Both kinds of key have the member `x`, which is the sample thumbprint.
  obtain hkty | hkty := hkty
  all_goals
    simp only [thumbprintMembers, text?_eq.mpr hkty, Option.some.injEq] at hnames
    subst hnames
    simp only [List.mapM_cons, List.mapM_nil, Option.bind_eq_bind, Option.bind_eq_some_iff] at hmaterial
  · obtain ⟨crv, hcrv, _, ⟨kty, hkty', _, ⟨x, hx, _, hnil, hlast⟩, hmore⟩, hall⟩ := hmaterial
    obtain ⟨_, -, rfl⟩ := materialMember_some hcrv
    obtain ⟨_, -, rfl⟩ := materialMember_some hkty'
    obtain ⟨text, htext, rfl⟩ := materialMember_some hx
    cases hnil
    cases hlast
    cases hmore
    cases hall
    exact htext
  · obtain ⟨crv, hcrv, _, ⟨kty, hkty', _, ⟨x, hx, _, ⟨y, hy, _, hnil, hend⟩, hlast⟩, hmore⟩, hall⟩ :=
      hmaterial
    obtain ⟨_, -, rfl⟩ := materialMember_some hcrv
    obtain ⟨_, -, rfl⟩ := materialMember_some hkty'
    obtain ⟨text, htext, rfl⟩ := materialMember_some hx
    cases hnil
    cases hend
    cases hlast
    cases hmore
    cases hall
    exact htext

theorem verifyStreamLifecycle_replays_agree_rotation :
    ∃ st replayed,
      selectLifecycle samplePlatform "a.example" sampleOptions
        [⟨3, sampleIssuance⟩, ⟨5, sampleRotation⟩] = .ok st ∧
      replay samplePlatform sampleOptions (cachedMigration sampleOptions st.migrationResult)
        st.selected = .ok replayed ∧
      ReplaysAgree samplePlatform "a.example" st replayed
        (eventsOf [sampleItem 3 sampleIssuance, sampleItem 5 sampleRotation]) := by
  have hverified : verifyStreamLifecycle samplePlatform [⟨3, sampleIssuance⟩, ⟨5, sampleRotation⟩]
      "a.example" sampleOptions = .ok [sampleItem 3 sampleIssuance, sampleItem 5 sampleRotation] :=
    verifyStreamLifecycle_sorted (by decide) (by decide) (by decide +kernel)
  obtain ⟨st, replayed, hselect, heq, hreplay, hagree⟩ :=
    verifyStreamLifecycle_replays_agree samplePlatform_jose hverified
  have hgenesis : (sampleItem 3 sampleIssuance).event.type = .issuance := by decide
  have hhistory : verifiedHistory samplePlatform (fun _ => none) "a.example"
      (eventsOf [sampleItem 3 sampleIssuance, sampleItem 5 sampleRotation]) st.migrationResult =
        .ok (eventsOf [sampleItem 3 sampleIssuance, sampleItem 5 sampleRotation]) := by
    have hnone : migration? (sampleItem 3 sampleIssuance).event = none := by decide
    simp [verifiedHistory, eventsOf, hnone]
  refine ⟨st, replayed, hselect, by rw [heq]; exact hreplay, (hagree _ _ hhistory).mpr ?_⟩
  simp [hgenesis]

/-! ## A prior history that the bundle verifier cannot read -/

/-- The keys stand in the draft-01 slots alone. -/
def sampleSlotIssuance : LogEvent where
  domain := "a.example"
  timestamp := some 0
  signingKid := none
  sig := none
  operationalCountersig := none
  newOperationalProof := none
  chain := ⟨none, none, none, none, none, none⟩
  body := .issuance
    { governanceId := "gi"
      initialOperationalKid := none
      initialOperationalAlg := none
      initialOperationalPublicKey := none
      initialOperationalThumbprint := none
      initialEntityKid := none
      initialEntityAlg := none
      initialEntityPublicKey := none
      initialEntityThumbprint := none
      entityKey := some ⟨sampleKey "E" "E", "E"⟩
      operationalKey := some ⟨sampleKey "O" "O", "O"⟩
      publicKey := none
      thumbprint := none }

def sampleMigration : Json :=
  sampleEntry "MIGRATION" 1 [("prev_lr", .str "old:log"), ("new_lr", .str "lr"),
    ("prev_ref", .str "old:log@0"), ("seq", .num 0)] [("ae", "E", "E")]

def sampleMigrationResult : MigrationVerificationResult :=
  ⟨sampleKey "E" "E", sampleKey "O" "O", [sampleSlotIssuance], none⟩

def sampleMigrationOptions : StreamVerifierOptions :=
  { sampleOptions with verifyMigration := some fun _ _ => .ok sampleMigrationResult }

/-- The snapshot takes the key from the slot; the bundle verifier throws. -/
theorem replays_disagree_on_slot :
    JoseComputesThumbprints samplePlatform ∧
    ¬ ∀ (entries : List (IndexedEntry Json)) (events : List (VerifiedLifecycleEvent Json))
      (st : Selection Json) (replayed : Replay Json) (history : List LogEvent),
      verifyStreamLifecycle samplePlatform entries "a.example" sampleMigrationOptions = .ok events →
      selectLifecycle samplePlatform "a.example" sampleMigrationOptions entries = .ok st →
      replay samplePlatform sampleMigrationOptions
        (cachedMigration sampleMigrationOptions st.migrationResult) events = .ok replayed →
      verifiedHistory samplePlatform (fun _ => none) "a.example" (eventsOf events)
        st.migrationResult = .ok history →
      ReplaysAgree samplePlatform "a.example" st replayed history := by
  refine ⟨samplePlatform_jose, fun hagree => ?_⟩
  have hsorted : selectLifecycle samplePlatform "a.example" sampleMigrationOptions
      [⟨0, sampleMigration⟩] = [(⟨0, sampleMigration⟩, 0)].foldlM
        (streamStep samplePlatform "a.example" sampleMigrationOptions) .initial := by
    rw [selectLifecycle, sortByIndex_of_sorted (by simp)]
    rfl
  have hverified : verifyStreamLifecycle samplePlatform [⟨0, sampleMigration⟩] "a.example"
      sampleMigrationOptions = .ok [sampleItem 0 sampleMigration] :=
    verifyStreamLifecycle_sorted (by simp) (by decide) (by decide)
  obtain ⟨-, st, s, hselect, hevents, hselected⟩ := verifyStreamLifecycle_ok hverified
  obtain ⟨-, -, replayed, -, -, -, -, hreplay, -⟩ := hselected.replayed
  have hmigration : st.migrationResult = some sampleMigrationResult := by
    have hresult : (([(⟨0, sampleMigration⟩, 0)].foldlM
        (streamStep samplePlatform "a.example" sampleMigrationOptions) .initial).toOption).map
          Selection.migrationResult = some (some sampleMigrationResult) := by decide
    rw [← hsorted, hselect] at hresult
    exact Option.some.inj hresult
  have hhistory : verifiedHistory samplePlatform (fun _ => none) "a.example"
      (eventsOf [sampleItem 0 sampleMigration]) st.migrationResult =
        .ok [sampleSlotIssuance, (sampleItem 0 sampleMigration).event] := by
    rw [hmigration]
    exact toOption_eq_some.mp (by decide)
  rw [hevents] at hreplay
  obtain ⟨snapshot, -, hbundle, -⟩ := hagree _ _ st replayed _ hverified hselect hreplay hhistory
  have hthrows : (activeOperationalThumbprint
      [sampleSlotIssuance, (sampleItem 0 sampleMigration).event]).toOption = none := by decide
  rw [hbundle] at hthrows
  cases hthrows

end Dnsid.Stream

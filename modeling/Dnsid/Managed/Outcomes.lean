import Dnsid.Managed.OneEntry

/-! # Unknown outcomes of a managed issuance

With `RegistryClient` as the registry: a state is persisted as rejected because the registry reported a rejection, and
every other persisted entry can be resumed with its bytes (`managed_issuance_outcomes`), as long as every response
of success can be read. The client takes an unreadable one for a failure that must not be retried with the same bytes.
-/
namespace Dnsid.Managed
open Dnsid.Foundations Dnsid.Events Dnsid.Registry Dnsid.Writer
set_option autoImplicit false

section Definitions
variable {Bytes : Type}

def registryClient (M : ManagedPlatform Bytes) : IssuanceRegistry Bytes where
  Preparation := PreparationOutcome Bytes
  Outcome := FetchOutcome
  prepareIssuance := Registry.prepareIssuance
  submitPreparedEvent _ := Registry.submitPreparedEvent M.byteLength M.sha256Hex

/-- `submission.state` is `rejected`, or `terminalFailure` is at stage `submission`. -/
def RecordsRejection (s : ManagedIssuanceState Bytes) : Prop :=
  s.submission.any (·.isRejected) = true ∨ ∃ failure ∈ s.terminalFailure, failure.stage = .submission

/-- The registry reported a rejection of the bytes. -/
def ReportedRejection (trace : List (WorkflowEvent Bytes FetchOutcome)) (bytes : Bytes) : Prop :=
  ∃ domain key outcome, .submitted domain bytes key outcome ∈ trace ∧ ReportsRejection outcome

/-- The store and the provider answer; nothing else has to. -/
def Restored (s : ManagedIssuanceState Bytes) (operationalKey : DnsIdJWK) :
    (e : IssuanceEffect Bytes) → Except (Cause (ManagedIssuanceState Bytes)) e.Answer → Prop
  | .loadIssuance, answer => answer = .ok (some s)
  | .signingKey, answer => answer = .ok operationalKey
  | _, _ => False

/-- The call is about to submit the bytes of the state, or to activate the accepted state, or has found it active. -/
def GoesOn (s : ManagedIssuanceState Bytes) (bytes : Bytes) : IssuanceProg Bytes (ManagedIssuanceState Bytes) → Prop
  | .call (.submitPreparedEvent domain entryBytes key) _ =>
    domain = s.domain ∧ entryBytes = bytes ∧ key = s.idempotencyKey
  | .call (.activateAcceptedIssuance issuance) _ => issuance = s ∧ (s.submission.bind (·.accepted?)).isSome
  | .ret issuance => issuance = s ∧ s.activated = true
  | _ => False

variable [DecidableEq Bytes] (M : ManagedPlatform Bytes)

/-- With the keys that the state records, a call that resumes it goes on with the same bytes. -/
def Resumable (s : ManagedIssuanceState Bytes) (bytes : Bytes) : Prop :=
  ∃ entityKey operationalKey, KeysOf M s entityKey operationalKey ∧ ∃ p, GoesOn s bytes p ∧
    Prog.Reaches (Restored s operationalKey) (resumeManagedIssuance M ⟨entityKey, none⟩) p

/-- The response of a submission that succeeds can be read. -/
def Readably (c : IssuanceChoice (registryClient M)) (e : IssuanceEffect Bytes)
    (_ : IssuanceWorld Bytes FetchOutcome) : Prop :=
  ∀ outcome domain bytes key, c = .outcome outcome → e = .submitPreparedEvent domain bytes key →
    Readable M.sha256Hex bytes outcome

end Definitions

/-! ## Resuming a completed state -/

section Resume
variable {Bytes : Type} [DecidableEq Bytes] {M : ManagedPlatform Bytes}

/-- What a completed state has, whatever became of its submission. -/
structure Completed (M : ManagedPlatform Bytes) (s : ManagedIssuanceState Bytes) (bytes : Bytes)
    (entityKey operationalKey : DnsIdJWK) : Prop where
  entryBytes : s.entryBytes = some bytes
  keys : KeysOf M s entityKey operationalKey
  verified : verifyPersistedCompletedIssuance M s entityKey operationalKey = .ok ()

theorem Completed.bound {s : ManagedIssuanceState Bytes} {bytes : Bytes} {entityKey operationalKey : DnsIdJWK}
    (h : Completed M s bytes entityKey operationalKey) : ∃ lr, present s.logReference = some lr := by
  have hverified := h.verified
  unfold verifyPersistedCompletedIssuance at hverified
  split at hverified
  next lr _ _ hlr => exact ⟨_, hlr⟩
  next => cases hverified

/-- Not rejected, and bound to its entry when it was accepted. -/
structure Alive (M : ManagedPlatform Bytes) (s : ManagedIssuanceState Bytes) : Prop where
  terminalFailure : s.terminalFailure = none
  rejected : s.submission.any (·.isRejected) = false
  binding : ∀ submission, s.submission.bind (·.accepted?) = some submission →
    assertAcceptedBinding M s submission = .ok ()

omit [DecidableEq Bytes] in
theorem reaches_trustedKeys {s : ManagedIssuanceState Bytes} {entityKey operationalKey : DnsIdJWK}
    {f : DnsIdJWK → IssuanceProg Bytes (ManagedIssuanceState Bytes)}
    {q : IssuanceProg Bytes (ManagedIssuanceState Bytes)}
    (htrusted : assertTrustedKeys M entityKey operationalKey = .ok ())
    (h : Prog.Reaches (Restored s operationalKey) (f operationalKey) q) :
    Prog.Reaches (Restored s operationalKey) (trustedKeys M entityKey >>= f) q := by
  refine .step (e := IssuanceEffect.signingKey) (.ok operationalKey) rfl ?_
  show Prog.Reaches _ (Prog.bind (Prog.bind (.ofExcept (assertTrustedKeys M entityKey operationalKey)) _) f) q
  rw [htrusted]
  exact h

/-- A call that finds a completed state alive goes on with it. -/
theorem resumeState_goesOn {s : ManagedIssuanceState Bytes} {bytes : Bytes} {entityKey operationalKey : DnsIdJWK}
    (hcompleted : Completed M s bytes entityKey operationalKey) (halive : Alive M s) :
    ∃ p, GoesOn s bytes p ∧ Prog.Reaches (Restored s operationalKey)
      (resumeManagedIssuanceState M ⟨entityKey, none⟩ s operationalKey) p := by
  unfold resumeManagedIssuanceState
  rw [Prog.ofExcept_bind hcompleted.keys.persisted]
  cases hactivated : s.activated with
  | true => exact ⟨.ret s, ⟨rfl, hactivated⟩, .refl _⟩
  | false =>
    simp only [Bool.false_eq_true, ↓reduceIte, halive.terminalFailure, halive.rejected, Option.isSome_none,
      Bool.or_self]
    cases haccepted : s.submission.bind (·.accepted?) with
    | some submission =>
      simp only [Prog.ofExcept_bind hcompleted.verified, Prog.ofExcept_bind (halive.binding submission haccepted)]
      exact ⟨activate s, ⟨rfl, by rw [haccepted]; rfl⟩, .refl _⟩
    | none =>
      obtain ⟨lr, hlr⟩ := hcompleted.bound
      simp only [hcompleted.entryBytes, hlr, Option.isNone_some, Bool.or_self, Bool.false_eq_true, ↓reduceIte, submit]
      refine ⟨submitEntry M s bytes, ⟨rfl, rfl, rfl⟩, reaches_trustedKeys hcompleted.keys.trusted ?_⟩
      rw [Prog.ofExcept_bind hcompleted.verified]
      exact .refl _

theorem resumable_of_alive {s : ManagedIssuanceState Bytes} {bytes : Bytes} {entityKey operationalKey : DnsIdJWK}
    (hcompleted : Completed M s bytes entityKey operationalKey) (halive : Alive M s) : Resumable M s bytes := by
  obtain ⟨p, hp, hreaches⟩ := resumeState_goesOn hcompleted halive
  refine ⟨entityKey, operationalKey, hcompleted.keys, p, hp, ?_⟩
  refine .step (e := IssuanceEffect.loadIssuance) (.ok (some s)) rfl ?_
  exact reaches_trustedKeys hcompleted.keys.trusted hreaches

end Resume

/-! ## Completing an entry -/

section Complete
variable {Bytes : Type} [DecidableEq Bytes] {M : ManagedPlatform Bytes}

/-- The prepared entry is bound to the reference that it names itself. -/
theorem readPreparedIssuance_reference {options : ResumeManagedIssuanceOptions}
    {context : PreparedC2spVerificationContext} {raw : Bytes} {prepared : PreparedC2spTlogEvent Bytes}
    (h : readPreparedIssuance M options context raw = .ok prepared) :
    boundReference M.toWriterPlatform prepared.reference.lr = .ok prepared.reference := by
  unfold readPreparedIssuance at h
  obtain ⟨prepared', hparsed, h⟩ := bind_eq_ok.mp h
  obtain ⟨_, -, h⟩ := bind_eq_ok.mp h
  obtain ⟨_, -, h⟩ := bind_eq_ok.mp h
  obtain rfl := pure_eq_ok.mp h
  replace hparsed := liftWriter_eq_ok.mp hparsed
  unfold parsePreparedC2spTlogIssuance at hparsed
  obtain ⟨envelope, hread, hparsed⟩ := bind_eq_ok.mp hparsed
  obtain ⟨lr, hlr, hparsed⟩ := bind_eq_ok.mp hparsed
  obtain ⟨_, -, hparsed⟩ := bind_eq_ok.mp hparsed
  obtain ⟨_, -, hparsed⟩ := bind_eq_ok.mp hparsed
  obtain ⟨prepared, hevent, hparsed⟩ := bind_eq_ok.mp hparsed
  obtain ⟨_, -, hparsed⟩ := bind_eq_ok.mp hparsed
  obtain rfl := pure_eq_ok.mp hparsed
  obtain ⟨hread', -, type, haccepted⟩ := parsePrepared_sealed hevent
  obtain rfl := Except.ok.inj (hread.symm.trans hread')
  have hsame : lr = prepared.reference.lr := by
    have := (text?_eq.mp (orThrow_eq_ok.mp hlr)).symm.trans haccepted.lr
    simpa using this
  rw [← hsame]
  unfold parsePreparedC2spTlogEvent at hevent
  obtain ⟨_, -, hevent⟩ := bind_eq_ok.mp hevent
  obtain ⟨reference, hreference, hevent⟩ := bind_eq_ok.mp hevent
  obtain ⟨_, -, hevent⟩ := bind_eq_ok.mp hevent
  obtain ⟨made, hmade, hevent⟩ := bind_eq_ok.mp hevent
  obtain ⟨_, -, hevent⟩ := bind_eq_ok.mp hevent
  obtain ⟨_, -, hevent⟩ := bind_eq_ok.mp hevent
  obtain rfl := pure_eq_ok.mp hevent
  rw [(makePrepared_ok hmade).1]
  exact hreference

/-- The completed entry passes the checks of a call that resumes it. -/
theorem completedState_verified {s : ManagedIssuanceState Bytes} {options : ResumeManagedIssuanceOptions}
    {operationalKey : DnsIdJWK} {raw : Bytes} {prepared : PreparedC2spTlogEvent Bytes} {provider : KeyProvider Bytes}
    {completed : String × Bytes}
    (hread : readPreparedIssuance M options (issuanceContext s options.entityKey operationalKey) raw = .ok prepared)
    (hcompleted : completeIssuance M (issuanceContext s options.entityKey operationalKey) prepared provider =
      .ok completed) :
    verifyPersistedCompletedIssuance M (completedState M s completed) options.entityKey operationalKey = .ok () := by
  unfold completeIssuance at hcompleted
  obtain ⟨signed, hsigned, hcompleted⟩ := bind_eq_ok.mp hcompleted
  obtain ⟨bytes, hbytes, hcompleted⟩ := bind_eq_ok.mp hcompleted
  obtain rfl := pure_eq_ok.mp hcompleted
  rw [liftWriter_eq_ok] at hsigned hbytes
  obtain ⟨-, hreference, -⟩ := signPrepared_ok hsigned
  have hbound : boundReference M.toWriterPlatform signed.reference.lr = .ok signed.reference := by
    rw [hreference]
    exact readPreparedIssuance_reference hread
  obtain ⟨prepared', hparsed, -, -, hagain⟩ := readBack hbound hbytes
  have hlr : present (some signed.reference.lr) = some signed.reference.lr := by
    simp [present, c2spTlogEntryBytes_lr hbytes]
  have hhash : present (some (M.sha256Hex bytes)) = some (M.sha256Hex bytes) := by
    simp [present, M.sha256Hex_nonempty]
  unfold verifyPersistedCompletedIssuance
  simp only [completedState, hlr, hhash]
  unfold assertCanonicalEntry
  refine bind_eq_ok.mpr ⟨(), throwIf_eq_ok.mpr (by simp), bind_eq_ok.mpr ⟨prepared', liftWriter_eq_ok.mpr hparsed, ?_⟩⟩
  exact bind_eq_ok.mpr ⟨bytes, liftWriter_eq_ok.mpr hagain, throwIf_eq_ok.mpr (by simp)⟩

end Complete

/-! ## The invariant -/

section Invariant
variable {Bytes : Type} [DecidableEq Bytes]

/-- What became of a persisted state: it has no entry, or its entry is alive, or the registry reported a rejection of
it. -/
inductive Settled (M : ManagedPlatform Bytes) (trace : List (WorkflowEvent Bytes FetchOutcome))
    (s : ManagedIssuanceState Bytes) : Prop
  | unprepared (hbytes : s.entryBytes = none) (hsubmission : s.submission = none) (hactivated : s.activated = false)
      (hstage : ∀ failure ∈ s.terminalFailure, failure.stage = .preparation)
  | alive (bytes : Bytes) (entityKey operationalKey : DnsIdJWK)
      (hcompleted : Completed M s bytes entityKey operationalKey) (halive : Alive M s)
  | rejected (bytes : Bytes) (hbytes : s.entryBytes = some bytes) (hrecords : RecordsRejection s)
      (hreported : ReportedRejection trace bytes)

structure OutcomesKnown (M : ManagedPlatform Bytes) (w : IssuanceWorld Bytes FetchOutcome) : Prop where
  settled : ∀ s, .persisted s ∈ w.trace → Settled M w.trace s
  stored : ∀ s, w.store = some s → .persisted s ∈ w.trace
  readable : ∀ domain bytes key outcome, .submitted domain bytes key outcome ∈ w.trace →
    Readable M.sha256Hex bytes outcome
  /-- An entry is submitted from a persisted state that can be resumed. -/
  origin : ∀ domain bytes key outcome, .submitted domain bytes key outcome ∈ w.trace →
    ∃ s, .persisted s ∈ w.trace ∧ s.domain = domain ∧ s.idempotencyKey = key ∧ s.entryBytes = some bytes ∧
      Resumable M s bytes

variable {M : ManagedPlatform Bytes} {w : IssuanceWorld Bytes FetchOutcome} {s s' : ManagedIssuanceState Bytes}

theorem Settled.mono {trace trace' : List (WorkflowEvent Bytes FetchOutcome)} (h : Settled M trace s)
    (hsub : ∀ e ∈ trace, e ∈ trace') : Settled M trace' s := by
  cases h with
  | unprepared hbytes hsubmission hactivated hstage => exact .unprepared hbytes hsubmission hactivated hstage
  | alive bytes entityKey operationalKey hcompleted halive =>
    exact .alive bytes entityKey operationalKey hcompleted halive
  | rejected bytes hbytes hrecords hreported =>
    obtain ⟨domain, key, outcome, hsubmitted, hreports⟩ := hreported
    exact .rejected bytes hbytes hrecords ⟨domain, key, outcome, hsub _ hsubmitted, hreports⟩

/-- An open state with an entry is alive. -/
theorem Settled.completed_of_open {trace : List (WorkflowEvent Bytes FetchOutcome)} (h : Settled M trace s)
    (hopen : Open s) {bytes : Bytes} (hbytes : s.entryBytes = some bytes) :
    ∃ entityKey operationalKey, Completed M s bytes entityKey operationalKey := by
  cases h with
  | unprepared hnone => simp [hbytes] at hnone
  | alive bytes' entityKey operationalKey hcompleted =>
    obtain rfl := Option.some.inj (hbytes.symm.trans hcompleted.entryBytes)
    exact ⟨entityKey, operationalKey, hcompleted⟩
  | rejected _ _ hrecords =>
    rcases hrecords with hrejected | ⟨failure, hfailure, -⟩
    · simp [hopen.rejected] at hrejected
    · simp [hopen.terminalFailure] at hfailure

/-- A state without an entry to submit has none. -/
theorem Settled.unprepared_of_open {trace : List (WorkflowEvent Bytes FetchOutcome)} (h : Settled M trace s)
    (hopen : Open s) (hunprepared : Unprepared s) : s.entryBytes = none ∧ s.submission = none := by
  cases hbytes : s.entryBytes with
  | some bytes =>
    obtain ⟨entityKey, operationalKey, hcompleted⟩ := h.completed_of_open hopen hbytes
    obtain ⟨lr, hlr⟩ := hcompleted.bound
    rcases hunprepared with hnone | hnone
    · simp [hbytes] at hnone
    · simp [hlr] at hnone
  | none =>
    cases h with
    | unprepared _ hsubmission => exact ⟨rfl, hsubmission⟩
    | alive _ _ _ hcompleted =>
      rw [hcompleted.entryBytes] at hbytes
      cases hbytes
    | rejected _ hsome =>
      rw [hsome] at hbytes
      cases hbytes

/-- The entry does not change when its submission does. -/
theorem Completed.update {bytes : Bytes} {entityKey operationalKey : DnsIdJWK}
    (h : Completed M s bytes entityKey operationalKey) (submission : Option ManagedIssuanceSubmission)
    (terminalFailure : Option TerminalFailure) (activated : Bool) :
    Completed M { s with submission := submission, terminalFailure := terminalFailure, activated := activated }
      bytes entityKey operationalKey :=
  ⟨h.entryBytes, ⟨h.keys.trusted, h.keys.persisted⟩, h.verified⟩

omit [DecidableEq Bytes] in
/-- A bound result stays bound once it is recorded. -/
theorem assertAcceptedBinding_recorded {submission : SubmissionResult}
    (h : assertAcceptedBinding M s submission = .ok ()) :
    assertAcceptedBinding M { s with submission := some (.result submission) } submission = .ok () := by
  unfold assertAcceptedBinding at h ⊢
  obtain ⟨_, -, hresult⟩ := bind_eq_ok.mp h
  refine bind_eq_ok.mpr ⟨(), throwIf_eq_ok.mpr ?_, hresult⟩
  simp [ManagedIssuanceSubmission.entryHash]

theorem accepted?_result {submission found : SubmissionResult}
    (h : (ManagedIssuanceSubmission.result submission).accepted? = some found) :
    found = submission ∧ submission.state = .accepted := by
  by_cases hstate : submission.state = .accepted
  · simp only [ManagedIssuanceSubmission.accepted?, hstate, ↓reduceIte, Option.some.injEq] at h
    exact ⟨h.symm, hstate⟩
  · simp [ManagedIssuanceSubmission.accepted?, hstate] at h

/-- After a failure that allows the same bytes the entry is alive; any other failure is a reported rejection. -/
theorem settled_recovered {bytes : Bytes} {outcome : FetchOutcome} {failure : Failure}
    (hinv : OutcomesKnown M w) (hs : .persisted s ∈ w.trace) (hopen : Open s) (hbytes : s.entryBytes = some bytes)
    (hsubmitted : .submitted s.domain bytes s.idempotencyKey outcome ∈ w.trace)
    (hanswer : Registry.submitPreparedEvent M.byteLength M.sha256Hex bytes s.idempotencyKey outcome =
      .error failure) :
    Settled M w.trace (recoverableState s (.outside failure)) := by
  obtain ⟨entityKey, operationalKey, hcompleted⟩ := (hinv.settled s hs).completed_of_open hopen hbytes
  unfold recoverableState
  split
  next =>
    refine .alive bytes entityKey operationalKey (hcompleted.update _ s.terminalFailure s.activated)
      ⟨hopen.terminalFailure, rfl, fun submission hsubmission => ?_⟩
    cases hsubmission
  next hretry =>
    refine .rejected bytes hbytes (.inl rfl) ⟨_, _, _, hsubmitted, ?_⟩
    refine submitPreparedEvent_failed (hinv.readable _ _ _ _ hsubmitted) hanswer ?_
    rw [Cause.retryWithSameBytes, decide_eq_true_eq, not_not] at hretry
    exact hretry

theorem settled_reconciled {bytes : Bytes} {outcome : FetchOutcome} {submission : SubmissionResult}
    (hinv : OutcomesKnown M w) (hs : .persisted s ∈ w.trace) (hopen : Open s) (hbytes : s.entryBytes = some bytes)
    (hsubmitted : .submitted s.domain bytes s.idempotencyKey outcome ∈ w.trace)
    (hanswer : Registry.submitPreparedEvent M.byteLength M.sha256Hex bytes s.idempotencyKey outcome =
      .ok submission) (hbinding : assertAcceptedBinding M s submission = .ok ()) :
    Settled M w.trace { s with submission := some (.result submission) } := by
  obtain ⟨entityKey, operationalKey, hcompleted⟩ := (hinv.settled s hs).completed_of_open hopen hbytes
  by_cases hrejected : submission.state = .rejected
  · refine .rejected bytes hbytes (.inl ?_) ⟨_, _, _, hsubmitted, submitPreparedEvent_rejected hanswer hrejected⟩
    simp [ManagedIssuanceSubmission.isRejected, hrejected]
  · refine .alive bytes entityKey operationalKey (hcompleted.update _ s.terminalFailure s.activated)
      ⟨hopen.terminalFailure, ?_, fun found hfound => ?_⟩
    · simp [ManagedIssuanceSubmission.isRejected, hrejected]
    · obtain ⟨rfl, -⟩ := accepted?_result hfound
      exact assertAcceptedBinding_recorded hbinding

theorem settled_activated {submission : SubmissionResult} (hinv : OutcomesKnown M w) (hs : .persisted s ∈ w.trace)
    (haccepted : s.submission.bind (·.accepted?) = some submission) (hterminal : s.terminalFailure = none) :
    Settled M w.trace { s with activated := true } := by
  cases hinv.settled s hs with
  | unprepared _ hsubmission =>
    rw [hsubmission] at haccepted
    cases haccepted
  | alive bytes entityKey operationalKey hcompleted halive =>
    exact .alive bytes entityKey operationalKey (hcompleted.update s.submission s.terminalFailure true)
      ⟨halive.terminalFailure, halive.rejected, halive.binding⟩
  | rejected bytes hbytes hrecords =>
    obtain ⟨recorded, hrecorded, hfound⟩ := Option.bind_eq_some_iff.mp haccepted
    rcases hrecords with hrejected | ⟨failure, hfailure, -⟩
    · cases recorded with
      | indeterminate _ _ => cases hfound
      | result result =>
        obtain ⟨rfl, hstate⟩ := accepted?_result hfound
        simp [hrecorded, ManagedIssuanceSubmission.isRejected, hstate] at hrejected
    · rw [hterminal] at hfailure
      cases hfailure

theorem settled_advance (hinv : OutcomesKnown M w) (hs : .persisted s ∈ w.trace)
    (hadvance : Advance M (registryClient M) w s s') : Settled M w.trace s' := by
  cases hadvance with
  | failed cause hopen hunprepared =>
    obtain ⟨hbytes, hsubmission⟩ := (hinv.settled s hs).unprepared_of_open hopen hunprepared
    refine .unprepared hbytes hsubmission hopen.activated fun failure hfailure => ?_
    obtain rfl := Option.some.inj hfailure
    rfl
  | completed options operationalKey raw prepared provider completed hopen hunprepared hkeys hread hcompleted =>
    refine .alive completed.2 options.entityKey operationalKey
      ⟨rfl, ⟨hkeys.trusted, hkeys.persisted⟩, completedState_verified hread hcompleted⟩
      ⟨hopen.terminalFailure, hopen.rejected, fun submission hsubmission => ?_⟩
    rw [(completedState_open hopen completed).accepted] at hsubmission
    cases hsubmission
  | recovered bytes o failure hopen hbytes hsubmitted hanswer =>
    exact settled_recovered hinv hs hopen hbytes hsubmitted hanswer
  | reconciled bytes o submission hopen hbytes hsubmitted hanswer hbinding =>
    exact settled_reconciled hinv hs hopen hbytes hsubmitted hanswer hbinding
  | activated submission haccepted hterminal => exact settled_activated hinv hs haccepted hterminal

theorem OutcomesKnown.persist (hinv : OutcomesKnown M w) (hs' : Settled M w.trace s') :
    OutcomesKnown M (w.persist s') := by
  have hsub : ∀ e ∈ w.trace, e ∈ (w.persist s').trace := fun e he => List.mem_append_left _ he
  have hlast : .persisted s' ∈ (w.persist s').trace := List.mem_append_right _ (List.mem_singleton.mpr rfl)
  have hmem : ∀ domain bytes key outcome, .submitted domain bytes key outcome ∈ (w.persist s').trace →
      .submitted domain bytes key outcome ∈ w.trace := by
    intro domain bytes key outcome h
    simpa [IssuanceWorld.persist] using h
  refine ⟨fun t ht => ?_, fun t ht => ?_, fun domain bytes key outcome h => hinv.readable _ _ _ _ (hmem _ _ _ _ h),
    fun domain bytes key outcome h => ?_⟩
  · rcases List.mem_append.mp ht with ht | ht
    · exact (hinv.settled t ht).mono hsub
    · obtain rfl : t = s' := by simpa using ht
      exact hs'.mono hsub
  · obtain rfl := Option.some.inj ht
    exact hlast
  · obtain ⟨t, ht, hrest⟩ := hinv.origin _ _ _ _ (hmem _ _ _ _ h)
    exact ⟨t, hsub _ ht, hrest⟩

theorem OutcomesKnown.submit {bytes : Bytes} {outcome : FetchOutcome} (hinv : OutcomesKnown M w)
    (hs : .persisted s ∈ w.trace) (hopen : Open s) (hbytes : s.entryBytes = some bytes)
    (hreadable : Readable M.sha256Hex bytes outcome) :
    OutcomesKnown M (w.submitted s.domain bytes s.idempotencyKey outcome) := by
  have hsub : ∀ e ∈ w.trace, e ∈ (w.submitted s.domain bytes s.idempotencyKey outcome).trace :=
    fun e he => List.mem_append_left _ he
  have hmem : ∀ t, .persisted t ∈ (w.submitted s.domain bytes s.idempotencyKey outcome).trace →
      .persisted t ∈ w.trace := by
    intro t ht
    simpa [IssuanceWorld.submitted] using ht
  refine ⟨fun t ht => (hinv.settled t (hmem t ht)).mono hsub, fun t ht => hsub _ (hinv.stored t ht),
    fun domain bytes' key o h => ?_, fun domain bytes' key o h => ?_⟩
  · rcases List.mem_append.mp h with h | h
    · exact hinv.readable _ _ _ _ h
    · obtain ⟨-, rfl, -, rfl⟩ : domain = s.domain ∧ bytes' = bytes ∧ key = s.idempotencyKey ∧ o = outcome := by
        simpa using h
      exact hreadable
  · rcases List.mem_append.mp h with h | h
    · obtain ⟨t, ht, hrest⟩ := hinv.origin _ _ _ _ h
      exact ⟨t, hsub _ ht, hrest⟩
    · obtain ⟨rfl, rfl, rfl, -⟩ : domain = s.domain ∧ bytes' = bytes ∧ key = s.idempotencyKey ∧ o = outcome := by
        simpa using h
      obtain ⟨entityKey, operationalKey, hcompleted⟩ := (hinv.settled s hs).completed_of_open hopen hbytes
      refine ⟨s, hsub _ hs, rfl, rfl, hbytes, resumable_of_alive hcompleted ⟨hopen.terminalFailure, hopen.rejected, ?_⟩⟩
      intro submission hsubmission
      rw [hopen.accepted] at hsubmission
      cases hsubmission

theorem outcomes_rules (M : ManagedPlatform Bytes) :
    IssuanceRules M (registryClient M) (Readably M) (OutcomesKnown M) (fun w w' => ∀ e ∈ w.trace, e ∈ w'.trace)
      (fun s w => .persisted s ∈ w.trace) where
  refl _ _ he := he
  trans _ _ _ h h' e he := h' e (h e he)
  grows _ _ h := h
  stable s _ _ hs hw := hw _ hs
  loaded s w hinv hstore := hinv.stored s hstore
  created intent entityKey operationalKey w hinv _ hintent _ := by
    have hsettled : Settled M w.trace intent :=
      .unprepared hintent.entryBytes hintent.submission hintent.activated (by simp [hintent.terminalFailure])
    exact ⟨hinv.persist hsettled, fun e he => List.mem_append_left _ he,
      List.mem_append_right _ (List.mem_singleton.mpr rfl)⟩
  persisted s s' w c hinv hs hadvance _ :=
    ⟨hinv.persist (settled_advance hinv hs hadvance), fun e he => List.mem_append_left _ he,
      List.mem_append_right _ (List.mem_singleton.mpr rfl)⟩
  submitted s bytes w outcome hinv hs hopen hbytes hP :=
    ⟨hinv.submit hs hopen hbytes (hP _ _ _ _ rfl rfl), fun e he => List.mem_append_left _ he⟩

/-- What a run leaves behind: rejections are recorded only where the registry reported one, every other persisted
entry can be resumed, and an entry is submitted from a state that can. -/
structure OutcomesSafe (M : ManagedPlatform Bytes) (trace : List (WorkflowEvent Bytes FetchOutcome)) : Prop where
  rejected : ∀ s, .persisted s ∈ trace → RecordsRejection s →
    ∃ bytes, s.entryBytes = some bytes ∧ ReportedRejection trace bytes
  resumable : ∀ s bytes, .persisted s ∈ trace → s.entryBytes = some bytes → RecordsRejection s ∨ Resumable M s bytes
  submitted : ∀ domain bytes key outcome, .submitted domain bytes key outcome ∈ trace →
    ∃ s, .persisted s ∈ trace ∧ s.domain = domain ∧ s.idempotencyKey = key ∧ s.entryBytes = some bytes ∧
      Resumable M s bytes

theorem managed_issuance_outcomes
    {acts : List (PoolAction IssuanceCall (IssuanceChoice (registryClient M)))} {pool : IssuancePool (registryClient M)}
    (hmeets : RunMeets (issuanceStep (registryClient M) M) (SettlesWith (Readably M)) acts
      (issuanceStart (registryClient M)))
    (hrun : run (issuanceStep (registryClient M) M) acts (issuanceStart (registryClient M)) = some pool) :
    OutcomesSafe M pool.world.trace := by
  have hempty : OutcomesKnown M .empty :=
    ⟨by simp [IssuanceWorld.empty], by simp [IssuanceWorld.empty], by simp [IssuanceWorld.empty],
      by simp [IssuanceWorld.empty]⟩
  have hinv := (outcomes_rules M).invariant hempty hmeets hrun
  refine ⟨fun s hs hrecords => ?_, fun s bytes hs hbytes => ?_, hinv.origin⟩
  · cases hinv.settled s hs with
    | unprepared _ hsubmission _ hstage =>
      rcases hrecords with hrejected | ⟨failure, hfailure, hstage'⟩
      · simp [hsubmission] at hrejected
      · rw [hstage failure hfailure] at hstage'
        cases hstage'
    | alive _ _ _ _ halive =>
      rcases hrecords with hrejected | ⟨failure, hfailure, -⟩
      · simp [halive.rejected] at hrejected
      · simp [halive.terminalFailure] at hfailure
    | rejected bytes hbytes _ hreported => exact ⟨bytes, hbytes, hreported⟩
  · cases hinv.settled s hs with
    | unprepared hnone => simp [hbytes] at hnone
    | alive bytes' _ _ hcompleted halive =>
      obtain rfl := Option.some.inj (hbytes.symm.trans hcompleted.entryBytes)
      exact .inr (resumable_of_alive hcompleted halive)
    | rejected _ _ hrecords => exact .inl hrecords

end Invariant

/-! ## The sample operation with a registry client -/

/-- One call to its first submission, which comes back with `outcome`, and to what it persists then. -/
def sampleSubmission (outcome : FetchOutcome) :
    List (PoolAction IssuanceCall (IssuanceChoice (registryClient sampleManaged))) :=
  [.start (.issue sampleIssue), .settle 0 .done, .settle 0 (.key (Dnsid.Stream.sampleKey "O" "O")), .settle 0 .done,
    .settle 0 (.preparation (.response 200 ""
      (sampleText.canonicalBytes (sampleIssuanceEntry [(.ae, "E")])).toOption)),
    .settle 0 (.provider (sampleSigner [])), .settle 0 .done, .settle 0 (.key (Dnsid.Stream.sampleKey "O" "O")),
    .settle 0 (.outcome outcome), .settle 0 .done]

/-- No response of success is among the outcomes. -/
def checkFailed {Bytes : Type} {M : ManagedPlatform Bytes} :
    PoolAction IssuanceCall (IssuanceChoice (registryClient M)) → IssuancePool (registryClient M) → Bool
  | .settle _ (.outcome (.response _)), _ => false
  | _, _ => true

theorem settlesWith_of_checkFailed {Bytes : Type} {M : ManagedPlatform Bytes}
    {a : PoolAction IssuanceCall (IssuanceChoice (registryClient M))} {pool : IssuancePool (registryClient M)}
    (h : checkFailed a pool = true) : SettlesWith (Readably M) a pool := by
  intro n c e k ha hcall outcome domain bytes key hc he
  subst ha hc
  cases outcome with
  | failed message code => trivial
  | response resp => cases h

def WorkflowEvent.recordsRejection {Bytes O : Type} : WorkflowEvent Bytes O → Bool
  | .persisted s => s.submission.any (·.isRejected)
  | .submitted _ _ _ _ => false

/-- A response of success whose body is no JSON. -/
def WorkflowEvent.unreadable {Bytes : Type} : WorkflowEvent Bytes FetchOutcome → Bool
  | .persisted _ => true
  | .submitted _ _ _ (.response resp) => resp.ok && resp.json.isNone
  | .submitted _ _ _ (.failed _ _) => false

/-- A request that failed leaves the entry to be resumed. -/
theorem managed_issuance_outcomes_failed :
    ∃ pool, run (issuanceStep (registryClient sampleManaged) sampleManaged)
        (sampleSubmission (.failed "fetch failed" none)) (issuanceStart (registryClient sampleManaged)) = some pool ∧
      pool.world.trace.length = 4 ∧ OutcomesSafe sampleManaged pool.world.trace := by
  have hdone : (run (issuanceStep (registryClient sampleManaged) sampleManaged)
        (sampleSubmission (.failed "fetch failed" none)) (issuanceStart (registryClient sampleManaged))).any
          (fun pool => pool.world.trace.length = 4) = true ∧
      runCheck (issuanceStep (registryClient sampleManaged) sampleManaged) checkFailed
        (sampleSubmission (.failed "fetch failed" none)) (issuanceStart (registryClient sampleManaged)) = true := by
    decide +kernel
  obtain ⟨pool, hrun, hlength⟩ := (Option.any_eq_true _ _).mp hdone.1
  refine ⟨pool, hrun, of_decide_eq_true hlength, managed_issuance_outcomes ?_ hrun⟩
  exact runMeets_of_check (fun _ _ => settlesWith_of_checkFailed) _ _ hdone.2

/-- A response of success that is no JSON is recorded as a rejection. -/
theorem managed_issuance_unreadable_rejected :
    ¬ ∀ (M : ManagedPlatform (List Char)) (acts : List (PoolAction IssuanceCall (IssuanceChoice (registryClient M))))
      (pool : IssuancePool (registryClient M)),
      run (issuanceStep (registryClient M) M) acts (issuanceStart (registryClient M)) = some pool →
        OutcomesSafe M pool.world.trace := by
  intro hclaim
  have hdone : (run (issuanceStep (registryClient sampleManaged) sampleManaged)
      (sampleSubmission (.response ⟨200, "OK", none⟩)) (issuanceStart (registryClient sampleManaged))).any
        (fun pool => pool.world.trace.any WorkflowEvent.recordsRejection &&
          pool.world.trace.all WorkflowEvent.unreadable) = true := by decide +kernel
  obtain ⟨pool, hrun, htrace⟩ := (Option.any_eq_true _ _).mp hdone
  obtain ⟨hsome, hall⟩ := Bool.and_eq_true_iff.mp htrace
  obtain ⟨e, he, hrecords⟩ := List.any_eq_true.mp hsome
  cases e with
  | submitted _ _ _ _ => cases hrecords
  | persisted s =>
    obtain ⟨bytes, -, domain, key, outcome, hsubmitted, hreports⟩ :=
      (hclaim sampleManaged _ pool hrun).rejected s he (.inl hrecords)
    have hunreadable := List.all_eq_true.mp hall _ hsubmitted
    cases outcome with
    | failed message code => cases hunreadable
    | response resp =>
      obtain ⟨hok, hnone⟩ := Bool.and_eq_true_iff.mp hunreadable
      rcases hreports with ⟨-, raw, hjson, -⟩ | ⟨hfailed, -⟩
      · rw [hjson] at hnone
        cases hnone
      · rw [hok] at hfailed
        cases hfailed

end Dnsid.Managed

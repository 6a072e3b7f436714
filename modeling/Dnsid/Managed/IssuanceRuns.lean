import Dnsid.Managed.Issuance

/-! # Runs of managed issuance

Any number of calls for one operation interleave over a durable store whose `createIssuance` is atomic. The
environment settles each effect: it answers, or it throws, with a write to the store done or not. What is persisted
and what is submitted is recorded in order.
-/
namespace Dnsid.Managed
open Dnsid.Foundations Dnsid.Events Dnsid.Registry Dnsid.Writer
set_option autoImplicit false

/-- `ManagedIssuanceRegistry`: an outcome decides what a request returns or throws. -/
structure IssuanceRegistry (Bytes : Type) where
  Preparation : Type
  Outcome : Type
  prepareIssuance : String → String → Preparation → Except Failure Bytes
  submitPreparedEvent : String → Bytes → String → Outcome → Except Failure SubmissionResult

inductive WorkflowEvent (Bytes O : Type) where
  | persisted (issuance : ManagedIssuanceState Bytes)
  | submitted (domain : String) (entryBytes : Bytes) (idempotencyKey : String) (outcome : O)

structure IssuanceWorld (Bytes O : Type) where
  store : Option (ManagedIssuanceState Bytes)
  trace : List (WorkflowEvent Bytes O)

inductive IssuanceChoice {Bytes : Type} (R : IssuanceRegistry Bytes) where
  | done
  /-- `late`: the store was written before the failure. -/
  | fail (failure : Failure) (late : Bool)
  | key (signingKey : DnsIdJWK)
  | provider (operationalKeyProvider : KeyProvider Bytes)
  | preparation (outcome : R.Preparation)
  | outcome (submission : R.Outcome)

namespace IssuanceWorld
variable {Bytes O : Type}

def empty : IssuanceWorld Bytes O := ⟨none, []⟩

def persist (w : IssuanceWorld Bytes O) (issuance : ManagedIssuanceState Bytes) : IssuanceWorld Bytes O :=
  ⟨some issuance, w.trace ++ [.persisted issuance]⟩

def submitted (w : IssuanceWorld Bytes O) (domain : String) (entryBytes : Bytes) (idempotencyKey : String)
    (outcome : O) : IssuanceWorld Bytes O :=
  ⟨w.store, w.trace ++ [.submitted domain entryBytes idempotencyKey outcome]⟩

/-- The entry that the stored operation carries. -/
def heldBytes (w : IssuanceWorld Bytes O) : Option Bytes := w.store.bind (·.entryBytes)

end IssuanceWorld

section Runs
variable {Bytes : Type} (R : IssuanceRegistry Bytes)

def settleIssuance : IssuanceChoice R → (e : IssuanceEffect Bytes) → IssuanceWorld Bytes R.Outcome →
    Option (Except (Cause (ManagedIssuanceState Bytes)) e.Answer × IssuanceWorld Bytes R.Outcome)
  | .done, .loadIssuance, w => some (.ok w.store, w)
  | .done, .createIssuance intent, w => some (.ok w.store, if w.store.isNone then w.persist intent else w)
  | .fail failure late, .createIssuance intent, w =>
    some (.error (.outside failure), if late && w.store.isNone then w.persist intent else w)
  | .done, .persistIssuance issuance, w => some (.ok (), w.persist issuance)
  | .fail failure late, .persistIssuance issuance, w =>
    some (.error (.outside failure), if late then w.persist issuance else w)
  | .done, .activateAcceptedIssuance _, w => some (.ok (), w)
  | .preparation o, .prepareIssuance domain idempotencyKey, w =>
    some ((R.prepareIssuance domain idempotencyKey o).mapError .outside, w)
  | .outcome o, .submitPreparedEvent domain entryBytes idempotencyKey, w =>
    some ((R.submitPreparedEvent domain entryBytes idempotencyKey o).mapError .outside,
      w.submitted domain entryBytes idempotencyKey o)
  | .key signingKey, .signingKey, w => some (.ok signingKey, w)
  | .provider provider, .operationalKeyProvider, w => some (.ok provider, w)
  | .fail failure _, .loadIssuance, w => some (.error (.outside failure), w)
  | .fail failure _, .activateAcceptedIssuance _, w => some (.error (.outside failure), w)
  | .fail failure _, .signingKey, w => some (.error (.outside failure), w)
  | .fail failure _, .operationalKeyProvider, w => some (.error (.outside failure), w)
  | _, _, _ => none

inductive IssuanceCall where
  | issue (options : IssueManagedIdentityOptions)
  | resume (options : ResumeManagedIssuanceOptions)

variable [DecidableEq Bytes] (M : ManagedPlatform Bytes)

def issuanceProgram : IssuanceCall → IssuanceProg Bytes (ManagedIssuanceState Bytes)
  | .issue options => issueManagedIdentity M options
  | .resume options => resumeManagedIssuance M options

abbrev IssuancePool :=
  Pool (Cause (ManagedIssuanceState Bytes)) (@IssuanceEffect.Answer Bytes) (ManagedIssuanceState Bytes)
    (IssuanceWorld Bytes R.Outcome)

def issuanceStep : PoolAction IssuanceCall (IssuanceChoice R) → IssuancePool R →
    Option (IssuancePool R) :=
  poolStep (issuanceProgram M) (settleIssuance R)

/-- No call has started and nothing is stored. -/
def issuanceStart : IssuancePool R := ⟨.empty, []⟩

end Runs

/-! ## What settling an effect does -/

section Settle
variable {Bytes : Type} {R : IssuanceRegistry Bytes} {w w' : IssuanceWorld Bytes R.Outcome}
variable {c : IssuanceChoice R}

theorem settle_persist {issuance : ManagedIssuanceState Bytes}
    {r : Except (Cause (ManagedIssuanceState Bytes)) (IssuanceEffect.persistIssuance issuance).Answer}
    (h : settleIssuance R c (.persistIssuance issuance) w = some (r, w')) :
    w' = w.persist issuance ∨ w' = w ∧ ∀ u, r ≠ .ok u := by
  cases c with
  | done => exact .inl (by cases h; rfl)
  | fail failure late =>
    cases h
    cases late
    · exact .inr ⟨rfl, by simp⟩
    · exact .inl rfl
  | key _ => cases h
  | provider _ => cases h
  | preparation _ => cases h
  | outcome _ => cases h

theorem settle_create {intent : ManagedIssuanceState Bytes}
    {r : Except (Cause (ManagedIssuanceState Bytes)) (IssuanceEffect.createIssuance intent).Answer}
    (h : settleIssuance R c (.createIssuance intent) w = some (r, w')) :
    (w' = w ∨ w.store = none ∧ w' = w.persist intent) ∧
      ∀ found, r = .ok found → found = w.store ∧ (found = none → w' = w.persist intent) := by
  cases c with
  | done =>
    cases h
    refine ⟨?_, fun found hfound => ?_⟩
    · cases hstore : w.store with
      | none => exact .inr ⟨rfl, rfl⟩
      | some _ => exact .inl rfl
    · obtain rfl := Except.ok.inj hfound
      exact ⟨rfl, fun hnone => if_pos (by rw [hnone]; rfl)⟩
  | fail failure late =>
    cases h
    refine ⟨?_, fun found hfound => by cases hfound⟩
    cases late
    · exact .inl rfl
    · cases hstore : w.store with
      | none => exact .inr ⟨rfl, rfl⟩
      | some _ => exact .inl rfl
  | key _ => cases h
  | provider _ => cases h
  | preparation _ => cases h
  | outcome _ => cases h

theorem settle_submit {domain idempotencyKey : String} {entryBytes : Bytes}
    {r : Except (Cause (ManagedIssuanceState Bytes)) SubmissionResult}
    (h : settleIssuance R c (.submitPreparedEvent domain entryBytes idempotencyKey) w = some (r, w')) :
    ∃ o, c = .outcome o ∧ w' = w.submitted domain entryBytes idempotencyKey o ∧
      r = (R.submitPreparedEvent domain entryBytes idempotencyKey o).mapError .outside := by
  cases c with
  | outcome o =>
    cases h
    exact ⟨o, rfl, rfl, rfl⟩
  | done => cases h
  | fail _ _ => cases h
  | key _ => cases h
  | provider _ => cases h
  | preparation _ => cases h

theorem settle_load {r : Except (Cause (ManagedIssuanceState Bytes)) (@IssuanceEffect.loadIssuance Bytes).Answer}
    (h : settleIssuance R c .loadIssuance w = some (r, w')) : w' = w ∧ ∀ found, r = .ok found → found = w.store := by
  cases c with
  | done =>
    cases h
    exact ⟨rfl, fun found hfound => (Except.ok.inj hfound).symm⟩
  | fail _ _ =>
    cases h
    exact ⟨rfl, fun found hfound => by cases hfound⟩
  | key _ => cases h
  | provider _ => cases h
  | preparation _ => cases h
  | outcome _ => cases h

/-- The effects that neither the store nor the registry's log sees. -/
def IssuanceEffect.silent : IssuanceEffect Bytes → Bool
  | .prepareIssuance _ _ | .activateAcceptedIssuance _ | .signingKey | .operationalKeyProvider => true
  | _ => false

theorem settle_silent {e : IssuanceEffect Bytes} {r : Except (Cause (ManagedIssuanceState Bytes)) e.Answer}
    (he : e.silent = true) (h : settleIssuance R c e w = some (r, w')) : w' = w := by
  cases e with
  | loadIssuance => cases he
  | createIssuance _ => cases he
  | persistIssuance _ => cases he
  | submitPreparedEvent _ _ _ => cases he
  | activateAcceptedIssuance _ => cases c <;> cases h <;> rfl
  | prepareIssuance _ _ =>
    cases c <;> cases h
    rfl
  | signingKey => cases c <;> cases h <;> rfl
  | operationalKeyProvider => cases c <;> cases h <;> rfl

end Settle

/-! ## How a call moves the operation on

A call holds the state that it read or persisted last; `Advance` lists the states that it can persist next. -/

section Advance
variable {Bytes : Type}

/-- A state that a resuming call neither returns nor refuses, and that is not accepted yet. -/
structure Open (s : ManagedIssuanceState Bytes) : Prop where
  activated : s.activated = false
  terminalFailure : s.terminalFailure = none
  rejected : s.submission.any (·.isRejected) = false
  accepted : s.submission.bind (·.accepted?) = none

/-- There is no entry to submit. -/
def Unprepared (s : ManagedIssuanceState Bytes) : Prop :=
  s.entryBytes = none ∨ present s.logReference = none

structure Intent (s : ManagedIssuanceState Bytes) : Prop where
  logReference : s.logReference = none
  entryBytes : s.entryBytes = none
  entryHash : s.entryHash = none
  submission : s.submission = none
  terminalFailure : s.terminalFailure = none
  activated : s.activated = false

theorem Intent.open {s : ManagedIssuanceState Bytes} (h : Intent s) : Open s :=
  ⟨h.activated, h.terminalFailure, by rw [h.submission]; rfl, by rw [h.submission]; rfl⟩

theorem completedState_open {M : ManagedPlatform Bytes} {s : ManagedIssuanceState Bytes} (hopen : Open s)
    (completed : String × Bytes) : Open (completedState M s completed) :=
  ⟨hopen.activated, hopen.terminalFailure, hopen.rejected, hopen.accepted⟩

variable (M : ManagedPlatform Bytes)

/-- The keys pass the checks of a call that goes on with the state. -/
structure KeysOf (s : ManagedIssuanceState Bytes) (entityKey operationalKey : DnsIdJWK) : Prop where
  trusted : assertTrustedKeys M entityKey operationalKey = .ok ()
  persisted : assertPersistedKeys M s entityKey operationalKey = .ok ()

theorem issuanceIntent_ok {M : ManagedPlatform Bytes} {s : ManagedIssuanceState Bytes}
    {options : IssueManagedIdentityOptions} {domain governanceId : String} {operationalKey : DnsIdJWK}
    (htrusted : assertTrustedKeys M options.entityKey operationalKey = .ok ())
    (h : issuanceIntent M options domain governanceId operationalKey = .ok s) :
    Intent s ∧ KeysOf M s options.entityKey operationalKey := by
  unfold issuanceIntent at h
  obtain ⟨entityThumbprint, hentity, h⟩ := bind_eq_ok.mp h
  obtain ⟨operationalThumbprint, hoperational, h⟩ := bind_eq_ok.mp h
  obtain rfl := pure_eq_ok.mp h
  refine ⟨⟨rfl, rfl, rfl, rfl, rfl, rfl⟩, htrusted, ?_⟩
  unfold assertPersistedKeys
  refine bind_eq_ok.mpr ⟨_, hentity, bind_eq_ok.mpr ⟨(), throwIf_eq_ok.mpr (by simp), ?_⟩⟩
  exact bind_eq_ok.mpr ⟨_, hoperational, throwIf_eq_ok.mpr (by simp)⟩

variable [DecidableEq Bytes] (R : IssuanceRegistry Bytes) (w : IssuanceWorld Bytes R.Outcome)

inductive Advance : ManagedIssuanceState Bytes → ManagedIssuanceState Bytes → Prop
  | failed (s : ManagedIssuanceState Bytes) (cause : Cause (ManagedIssuanceState Bytes)) (hopen : Open s)
      (hunprepared : Unprepared s) : Advance s (terminalState s cause)
  | completed (s : ManagedIssuanceState Bytes) (options : ResumeManagedIssuanceOptions) (operationalKey : DnsIdJWK)
      (raw : Bytes) (prepared : PreparedC2spTlogEvent Bytes) (provider : KeyProvider Bytes)
      (completed : String × Bytes) (hopen : Open s) (hunprepared : Unprepared s)
      (hkeys : KeysOf M s options.entityKey operationalKey)
      (hread : readPreparedIssuance M options (issuanceContext s options.entityKey operationalKey) raw = .ok prepared)
      (hcompleted : completeIssuance M (issuanceContext s options.entityKey operationalKey) prepared provider =
        .ok completed) : Advance s (completedState M s completed)
  | recovered (s : ManagedIssuanceState Bytes) (bytes : Bytes) (o : R.Outcome) (failure : Failure) (hopen : Open s)
      (hbytes : s.entryBytes = some bytes) (hsubmitted : .submitted s.domain bytes s.idempotencyKey o ∈ w.trace)
      (hanswer : R.submitPreparedEvent s.domain bytes s.idempotencyKey o = .error failure) :
      Advance s (recoverableState s (.outside failure))
  | reconciled (s : ManagedIssuanceState Bytes) (bytes : Bytes) (o : R.Outcome) (submission : SubmissionResult)
      (hopen : Open s) (hbytes : s.entryBytes = some bytes)
      (hsubmitted : .submitted s.domain bytes s.idempotencyKey o ∈ w.trace)
      (hanswer : R.submitPreparedEvent s.domain bytes s.idempotencyKey o = .ok submission)
      (hbinding : assertAcceptedBinding M s submission = .ok ()) :
      Advance s { s with submission := some (.result submission) }
  | activated (s : ManagedIssuanceState Bytes) (submission : SubmissionResult)
      (haccepted : s.submission.bind (·.accepted?) = some submission) (hterminal : s.terminalFailure = none) :
      Advance s { s with activated := true }

variable {M R w}

theorem Advance.mono {w' : IssuanceWorld Bytes R.Outcome} {s s' : ManagedIssuanceState Bytes}
    (h : Advance M R w s s') (hw : ∀ e ∈ w.trace, e ∈ w'.trace) : Advance M R w' s s' := by
  cases h with
  | failed cause hopen hunprepared => exact .failed s cause hopen hunprepared
  | completed options operationalKey raw prepared provider completed hopen hunprepared hkeys hread hcompleted =>
    exact .completed s options operationalKey raw prepared provider completed hopen hunprepared hkeys hread hcompleted
  | recovered bytes o failure hopen hbytes hsubmitted hanswer =>
    exact .recovered s bytes o failure hopen hbytes (hw _ hsubmitted) hanswer
  | reconciled bytes o submission hopen hbytes hsubmitted hanswer hbinding =>
    exact .reconciled s bytes o submission hopen hbytes (hw _ hsubmitted) hanswer hbinding
  | activated submission haccepted hterminal => exact .activated s submission haccepted hterminal

end Advance

/-! ## Invariants of runs -/

section Rules
variable {Bytes : Type} [DecidableEq Bytes]

/-- What makes `inv` an invariant of every run: `Holds` is what a call knows of the state that it holds. -/
structure IssuanceRules (M : ManagedPlatform Bytes) (R : IssuanceRegistry Bytes)
    (P : IssuanceChoice R → IssuanceEffect Bytes → IssuanceWorld Bytes R.Outcome → Prop)
    (inv : IssuanceWorld Bytes R.Outcome → Prop)
    (rely : IssuanceWorld Bytes R.Outcome → IssuanceWorld Bytes R.Outcome → Prop)
    (Holds : ManagedIssuanceState Bytes → IssuanceWorld Bytes R.Outcome → Prop) : Prop where
  refl : ∀ w, rely w w
  trans : ∀ w₁ w₂ w₃, rely w₁ w₂ → rely w₂ w₃ → rely w₁ w₃
  grows : ∀ w w', rely w w' → ∀ e ∈ w.trace, e ∈ w'.trace
  stable : ∀ s w w', Holds s w → rely w w' → Holds s w'
  loaded : ∀ s w, inv w → w.store = some s → Holds s w
  created : ∀ intent entityKey operationalKey w, inv w → w.store = none → Intent intent →
    KeysOf M intent entityKey operationalKey →
    inv (w.persist intent) ∧ rely w (w.persist intent) ∧ Holds intent (w.persist intent)
  persisted : ∀ s s' w c, inv w → Holds s w → Advance M R w s s' → P c (.persistIssuance s') w →
    inv (w.persist s') ∧ rely w (w.persist s') ∧ Holds s' (w.persist s')
  submitted : ∀ s bytes w o, inv w → Holds s w → Open s → s.entryBytes = some bytes →
    P (.outcome o) (.submitPreparedEvent s.domain bytes s.idempotencyKey) w →
    inv (w.submitted s.domain bytes s.idempotencyKey o) ∧
      rely w (w.submitted s.domain bytes s.idempotencyKey o)

namespace IssuanceRules
variable {M : ManagedPlatform Bytes} {R : IssuanceRegistry Bytes}
variable {P : IssuanceChoice R → IssuanceEffect Bytes → IssuanceWorld Bytes R.Outcome → Prop}
variable {inv : IssuanceWorld Bytes R.Outcome → Prop}
variable {rely : IssuanceWorld Bytes R.Outcome → IssuanceWorld Bytes R.Outcome → Prop}
variable {Holds : ManagedIssuanceState Bytes → IssuanceWorld Bytes R.Outcome → Prop}
variable {s s' : ManagedIssuanceState Bytes} {w : IssuanceWorld Bytes R.Outcome}
variable {options : ResumeManagedIssuanceOptions} {operationalKey : DnsIdJWK}

theorem keeps_persist (rules : IssuanceRules M R P inv rely Holds) (hs : Holds s w) (hadvance : Advance M R w s s') :
    Keeps (settleIssuance R) P inv rely rely (persistIssuance s') (fun _ w' => Holds s' w') w := by
  refine Keeps.perform fun w₁ hrely hinv c r w₂ hP hsettle => ?_
  obtain ⟨hinv', hrely', hholds'⟩ := rules.persisted s s' w₁ c hinv (rules.stable s w w₁ hs hrely)
    (hadvance.mono (rules.grows w w₁ hrely)) hP
  rcases settle_persist hsettle with rfl | ⟨rfl, hfailed⟩
  · exact ⟨hinv', hrely', fun _ _ => hholds'⟩
  · exact ⟨hinv, rules.refl w₂, fun a ha => absurd ha (hfailed a)⟩

theorem keeps_silent (rules : IssuanceRules M R P inv rely Holds) {e : IssuanceEffect Bytes} (he : e.silent = true) :
    Keeps (settleIssuance R) P inv rely rely (.attempt e) (fun _ w' => rely w w') w := by
  refine Keeps.attempt fun w₁ hrely hinv c r w₂ _ hsettle => ?_
  obtain rfl := settle_silent he hsettle
  exact ⟨hinv, rules.refl w₂, hrely⟩

theorem keeps_silent_ok (rules : IssuanceRules M R P inv rely Holds) {e : IssuanceEffect Bytes} (he : e.silent = true) :
    Keeps (settleIssuance R) P inv rely rely (.perform e) (fun _ w' => rely w w') w := by
  refine Keeps.perform fun w₁ hrely hinv c r w₂ _ hsettle => ?_
  obtain rfl := settle_silent he hsettle
  exact ⟨hinv, rules.refl w₂, fun _ _ => hrely⟩

theorem keeps_trustedKeys (rules : IssuanceRules M R P inv rely Holds) (entityKey : DnsIdJWK) :
    Keeps (settleIssuance R) P inv rely rely (trustedKeys M entityKey)
      (fun operationalKey w' => rely w w' ∧ assertTrustedKeys M entityKey operationalKey = .ok ()) w := by
  refine Keeps.bind (rules.keeps_silent_ok rfl) fun operationalKey w₁ hrely => ?_
  refine Keeps.bind (Keeps.ofExcept (Q := fun _ w' => rely w w' ∧
    assertTrustedKeys M entityKey operationalKey = .ok ()) fun _ hkeys => ⟨hrely, hkeys⟩) fun _ w₂ h => h

theorem keeps_activate (rules : IssuanceRules M R P inv rely Holds) (hs : Holds s w) {submission : SubmissionResult}
    (haccepted : s.submission.bind (·.accepted?) = some submission) (hterminal : s.terminalFailure = none) :
    Keeps (settleIssuance R) P inv rely rely (activate s) (fun _ _ => True) w := by
  refine Keeps.tryCatch ?_ fun _ _ => trivial
  refine Keeps.bind (rules.keeps_silent_ok rfl) fun _ w₁ hrely => ?_
  exact Keeps.bind (rules.keeps_persist (rules.stable s w w₁ hs hrely) (.activated s submission haccepted hterminal))
    fun _ _ _ => trivial

theorem keeps_reconcile (rules : IssuanceRules M R P inv rely Holds) (hs : Holds s w) (hopen : Open s) {bytes : Bytes}
    {o : R.Outcome} {submission : SubmissionResult} (hbytes : s.entryBytes = some bytes)
    (hsubmitted : .submitted s.domain bytes s.idempotencyKey o ∈ w.trace)
    (hanswer : R.submitPreparedEvent s.domain bytes s.idempotencyKey o = .ok submission) :
    Keeps (settleIssuance R) P inv rely rely (reconcile M s submission) (fun _ _ => True) w := by
  refine Keeps.bind (Keeps.ofExcept (Q := fun _ w' => w' = w ∧ assertAcceptedBinding M s submission = .ok ())
    fun _ hbinding => ⟨rfl, hbinding⟩) ?_
  rintro _ _ ⟨rfl, hbinding⟩
  refine Keeps.bind (rules.keeps_persist hs (.reconciled s bytes o submission hopen hbytes hsubmitted hanswer hbinding))
    fun _ w₂ hs' => ?_
  cases hstate : submission.state with
  | rejected => trivial
  | pending => trivial
  | accepted =>
    have haccepted : ((some (ManagedIssuanceSubmission.result submission)).bind (·.accepted?)) = some submission := by
      simp [ManagedIssuanceSubmission.accepted?, hstate]
    exact rules.keeps_activate hs' haccepted hopen.terminalFailure

/-- A call that has an entry to submit. -/
theorem keeps_submit (rules : IssuanceRules M R P inv rely Holds) (hs : Holds s w) (hopen : Open s) :
    Keeps (settleIssuance R) P inv rely rely (submit M options s) (fun _ _ => True) w := by
  unfold submit
  split
  next bytes lr hbytes hlr =>
    refine Keeps.bind (rules.keeps_trustedKeys options.entityKey) fun operationalKey w₁ hw₁ => ?_
    have hs₁ := rules.stable s w w₁ hs hw₁.1
    refine Keeps.bind (Keeps.ofExcept (Q := fun _ w' => w' = w₁) fun _ _ => rfl) ?_
    rintro _ _ rfl
    refine Keeps.bind (Q := fun answer w' => Holds s w' ∧ ∃ o,
      .submitted s.domain bytes s.idempotencyKey o ∈ w'.trace ∧
        answer = (R.submitPreparedEvent s.domain bytes s.idempotencyKey o).mapError .outside) ?_ ?_
    · refine Keeps.attempt fun w₂ hrely hinv c r w₃ hP hsettle => ?_
      obtain ⟨o, rfl, rfl, hanswer⟩ := settle_submit hsettle
      have hs₂ := rules.stable s _ w₂ hs₁ hrely
      obtain ⟨hinv', hrely'⟩ := rules.submitted s bytes w₂ o hinv hs₂ hopen hbytes hP
      refine ⟨hinv', hrely', rules.stable s w₂ _ hs₂ hrely', o, ?_, hanswer⟩
      exact List.mem_append_right _ (List.mem_singleton.mpr rfl)
    · rintro answer w₃ ⟨hs₃, o, hsubmitted, hanswer⟩
      cases hreturned : R.submitPreparedEvent s.domain bytes s.idempotencyKey o with
      | ok submission =>
        obtain rfl : answer = .ok submission := by rw [hanswer, hreturned]; rfl
        exact rules.keeps_reconcile hs₃ hopen hbytes hsubmitted hreturned
      | error failure =>
        obtain rfl : answer = .error (.outside failure) := by rw [hanswer, hreturned]; rfl
        exact Keeps.bind (rules.keeps_persist hs₃ (.recovered s bytes o failure hopen hbytes hsubmitted hreturned))
          fun _ _ _ => trivial
  next => trivial

theorem keeps_failPreparation (rules : IssuanceRules M R P inv rely Holds) (hs : Holds s w) (hopen : Open s)
    (hunprepared : Unprepared s) (message : String) (cause : Cause (ManagedIssuanceState Bytes)) :
    Keeps (settleIssuance R) P inv rely rely (failPreparation s message cause) (fun _ _ => True) w :=
  Keeps.bind (rules.keeps_persist hs (.failed s cause hopen hunprepared)) fun _ _ _ => trivial

theorem keeps_prepareAndSubmit (rules : IssuanceRules M R P inv rely Holds) (hs : Holds s w) (hopen : Open s)
    (hunprepared : Unprepared s) (hkeys : KeysOf M s options.entityKey operationalKey) :
    Keeps (settleIssuance R) P inv rely rely (prepareAndSubmit M options s operationalKey) (fun _ _ => True) w := by
  refine Keeps.bind (rules.keeps_silent rfl) fun answer w₁ hrely => ?_
  have hs₁ := rules.stable s w w₁ hs hrely
  cases answer with
  | error cause =>
    show Keeps _ _ _ _ _ (if cause.isTerminalFailure then _ else _) _ _
    split
    · exact rules.keeps_failPreparation hs₁ hopen hunprepared _ cause
    · trivial
  | ok raw =>
    dsimp only
    split
    next cause hread => exact rules.keeps_failPreparation hs₁ hopen hunprepared _ cause
    next prepared hread =>
      refine Keeps.bind (rules.keeps_silent_ok rfl) fun provider w₂ hrely₂ => ?_
      have hs₂ := rules.stable s w₁ w₂ hs₁ hrely₂
      refine Keeps.bind (Keeps.ofExcept (Q := fun completed w' => w' = w₂ ∧
        completeIssuance M (issuanceContext s options.entityKey operationalKey) prepared provider = .ok completed)
        fun completed hcompleted => ⟨rfl, hcompleted⟩) ?_
      rintro completed _ ⟨rfl, hcompleted⟩
      refine Keeps.bind (rules.keeps_persist hs₂ (.completed s options operationalKey raw prepared provider completed
        hopen hunprepared hkeys hread hcompleted)) fun _ w₃ hs₃ => ?_
      exact rules.keeps_submit hs₃ (completedState_open hopen completed)

theorem keeps_resumeState (rules : IssuanceRules M R P inv rely Holds) (hs : Holds s w)
    (htrusted : assertTrustedKeys M options.entityKey operationalKey = .ok ()) :
    Keeps (settleIssuance R) P inv rely rely (resumeManagedIssuanceState M options s operationalKey) (fun _ _ => True) w := by
  refine Keeps.bind (Keeps.ofExcept (Q := fun _ w' => w' = w ∧
    assertPersistedKeys M s options.entityKey operationalKey = .ok ()) fun _ hkeys => ⟨rfl, hkeys⟩) ?_
  rintro _ _ ⟨rfl, hkeys⟩
  split
  next => trivial
  next hactivated =>
    split
    next => trivial
    next hterminal =>
      obtain ⟨hnone, hrejected⟩ : s.terminalFailure = none ∧ s.submission.any (·.isRejected) = false := by
        simpa using hterminal
      split
      next submission haccepted =>
        refine Keeps.bind (Keeps.ofExcept (Q := fun _ w' => w' = _) fun _ _ => rfl) ?_
        rintro _ _ rfl
        refine Keeps.bind (Keeps.ofExcept (Q := fun _ w' => w' = _) fun _ _ => rfl) ?_
        rintro _ _ rfl
        exact rules.keeps_activate hs haccepted hnone
      next haccepted =>
        have hopen : Open s := ⟨by simpa using hactivated, hnone, hrejected, haccepted⟩
        split
        next hunprepared =>
          exact rules.keeps_prepareAndSubmit hs hopen (by simpa [Unprepared] using hunprepared) ⟨htrusted, hkeys⟩
        next => exact rules.keeps_submit hs hopen

theorem keeps_load (rules : IssuanceRules M R P inv rely Holds) :
    Keeps (settleIssuance R) P inv rely rely loadIssuance (fun found w' => ∀ s, found = some s → Holds s w') w := by
  refine Keeps.perform fun w₁ hrely hinv c r w₂ _ hsettle => ?_
  obtain ⟨rfl, hfound⟩ := settle_load hsettle
  refine ⟨hinv, rules.refl w₂, fun found hr s hs => rules.loaded s w₂ hinv ?_⟩
  rw [← hfound found hr, hs]

/-- The call that creates the operation holds its intent; one that lost the race holds what it found. -/
theorem keeps_create (rules : IssuanceRules M R P inv rely Holds) {entityKey : DnsIdJWK} (hintent : Intent s)
    (hkeys : KeysOf M s entityKey operationalKey) :
    Keeps (settleIssuance R) P inv rely rely (createIssuance s)
      (fun found w' => (found = none → Holds s w') ∧ ∀ raced, found = some raced → Holds raced w') w := by
  refine Keeps.perform fun w₁ hrely hinv c r w₂ _ hsettle => ?_
  obtain ⟨hworld, hfound⟩ := settle_create hsettle
  rcases hworld with rfl | ⟨hstore, rfl⟩
  · refine ⟨hinv, rules.refl w₂, fun found hr => ?_⟩
    obtain ⟨rfl, hcreated⟩ := hfound found hr
    refine ⟨fun hnone => ?_, fun raced hraced => rules.loaded raced w₂ hinv hraced⟩
    have hstored := hcreated hnone
    rw [hstored] at hnone
    cases hnone
  · obtain ⟨hinv', hrely', hholds⟩ := rules.created s entityKey operationalKey w₁ hinv hstore hintent hkeys
    refine ⟨hinv', hrely', fun found hr => ⟨fun _ => hholds, fun raced hraced => ?_⟩⟩
    rw [(hfound found hr).1, hstore] at hraced
    cases hraced

theorem keeps_issue (rules : IssuanceRules M R P inv rely Holds) (options : IssueManagedIdentityOptions) :
    Keeps (settleIssuance R) P inv rely rely (issueManagedIdentity M options) (fun _ _ => True) w := by
  refine Keeps.bind (Keeps.ofExcept (Q := fun _ _ => True) fun _ _ => trivial) fun domain w _ => ?_
  refine Keeps.bind (Keeps.ofExcept (Q := fun _ _ => True) fun _ _ => trivial) fun governanceId w _ => ?_
  refine Keeps.bind (Keeps.ofExcept (Q := fun _ _ => True) fun _ _ => trivial) fun _ w _ => ?_
  refine Keeps.bind rules.keeps_load fun existing w₁ hexisting => ?_
  refine Keeps.bind (rules.keeps_trustedKeys options.entityKey) fun operationalKey w₂ ⟨hrely, htrusted⟩ => ?_
  -- The operation goes on from what was found, or is created.
  have hresume : ∀ found w', Holds found w' → Keeps (settleIssuance R) P inv rely rely (do
      .ofExcept (assertSameOperation found domain governanceId options.idempotencyKey)
      resumeManagedIssuanceState M options.toResume found operationalKey) (fun _ _ => True) w' := by
    intro found w' hfound
    refine Keeps.bind (Keeps.ofExcept (Q := fun _ w'' => w'' = w') fun _ _ => rfl) ?_
    rintro _ _ rfl
    exact rules.keeps_resumeState hfound htrusted
  cases existing with
  | some existing => exact hresume existing w₂ (rules.stable existing w₁ w₂ (hexisting existing rfl) hrely)
  | none =>
    refine Keeps.bind (Keeps.ofExcept (Q := fun intent _ =>
      Intent intent ∧ KeysOf M intent options.entityKey operationalKey)
      fun intent hintent => issuanceIntent_ok htrusted hintent) ?_
    rintro intent w₃ ⟨hintent, hkeys⟩
    refine Keeps.bind (rules.keeps_create hintent hkeys) ?_
    rintro found w₄ ⟨hcreated, hraced⟩
    cases found with
    | some raced => exact hresume raced w₄ (hraced raced rfl)
    | none => exact rules.keeps_prepareAndSubmit (hcreated rfl) hintent.open (.inl hintent.entryBytes) hkeys

theorem keeps_resume (rules : IssuanceRules M R P inv rely Holds) :
    Keeps (settleIssuance R) P inv rely rely (resumeManagedIssuance M options) (fun _ _ => True) w := by
  refine Keeps.bind rules.keeps_load fun found w₁ hfound => ?_
  cases found with
  | none => trivial
  | some s =>
    refine Keeps.bind (rules.keeps_trustedKeys options.entityKey) fun operationalKey w₂ ⟨hrely, htrusted⟩ => ?_
    exact rules.keeps_resumeState (rules.stable s w₁ w₂ (hfound s rfl) hrely) htrusted

/-- The invariant holds after every run from the empty store whose steps meet `P`. -/
theorem invariant (rules : IssuanceRules M R P inv rely Holds) (hempty : inv .empty)
    {acts : List (PoolAction IssuanceCall (IssuanceChoice R))} {pool : IssuancePool R}
    (hmeets : RunMeets (issuanceStep R M) (SettlesWith P) acts (issuanceStart R))
    (hrun : run (issuanceStep R M) acts (issuanceStart R) = some pool) : inv pool.world := by
  refine (pool_keeps rules.trans rules.refl (fun call w _ => ?_) hmeets ⟨hempty, by simp [issuanceStart]⟩ hrun).1
  cases call with
  | issue options => exact rules.keeps_issue options
  | resume options => exact rules.keeps_resume

end IssuanceRules

end Rules

end Dnsid.Managed

import Dnsid.Managed.RotationKeys

/-! # The invariant of managed rotation

One entry is submitted, keys change and signing resumes only after what must come before was recorded, and the durable
state fits the providers as they stand (`Sound`). Every effect of a call that resumes keeps that (`keeps_resume`).
-/
namespace Dnsid.Managed.Rotation
open Dnsid.Foundations Dnsid.Events Dnsid.Registry Dnsid.Writer
set_option autoImplicit false

/-! ## What must come before -/

section Allowed
variable {Bytes : Type} [DecidableEq Bytes] (M : ManagedPlatform Bytes) (E : RotationEnvironment)

/-- Two states of one operation: only the answer, the activation and the pause may differ. -/
def SameOperation (s s' : ManagedKeyRotationResult Bytes) : Prop :=
  s' = later s s'.submission s'.activated s'.applicationSigningPaused

/-- The verified publication carries the new key, and the event at the accepted reference is the saved one. -/
structure ShowsRotation (s : ManagedKeyRotationResult Bytes) (verified : LocalPublication) (logRef : String)
    (event : LogEvent) : Prop where
  domain : verified.domain = s.domain
  lr : verified.lr = s.logReference
  key : ∃ key, currentOperationalSigningKey verified.jwks = .ok key ∧ kidOf key = s.newKid ∧
    thumbprintOf M.toPlatform key = .ok s.newThumbprint
  logRef : s.submission.bind (·.logRef) = some logRef
  event : ∃ prepared, parseSaved M s = .ok prepared ∧ assertContinuity s prepared.envelope event = .ok ()

/-- The publication was verified and the event was read. -/
def Shown (s : ManagedKeyRotationResult Bytes) (trace : List (RotationEvent Bytes)) : Prop :=
  ∃ verified logRef event, .published verified ∈ trace ∧ .eventRead logRef event ∈ trace ∧
    ShowsRotation M s verified logRef event

/-- Acceptance was persisted and the publication was verified. -/
structure Reconcilable (s : ManagedKeyRotationResult Bytes) (trace : List (RotationEvent Bytes)) : Prop where
  persisted : .persisted s ∈ trace
  accepted : ∃ submission, AcceptedExactly M s submission
  shown : Shown M s trace

/-- What must be recorded before an event of the workflow. -/
def allowedAfter (trace : List (RotationEvent Bytes)) : RotationEvent Bytes → Prop
  | .persisted s => ∀ s', .persisted s' ∈ trace → SameOperation s' s
  | .submitted domain entryBytes idempotencyKey =>
    ∃ s, .persisted s ∈ trace ∧ s.domain = domain ∧ s.entryBytes = entryBytes ∧ s.idempotencyKey = idempotencyKey
  | .activated provider kid =>
    ∃ s, Reconcilable M s trace ∧ provider = E.resolveKeyProvider s.newProviderReference ∧ kid = s.newKid
  | .superseded provider kid =>
    ∃ s, Reconcilable M s trace ∧ provider = E.resolveKeyProvider s.previousProviderReference ∧ kid = s.previousKid
  | .paused false =>
    ∃ s, .persisted s ∈ trace ∧ s.activated = true ∧
      .signerSet (E.resolveKeyProvider s.newProviderReference) s.newKid ∈ trace
  | _ => True

/-- The invariant of a session. -/
structure Sound (w : RotationWorld Bytes) : Prop where
  allowed : EachAfter (allowedAfter M E) w.trace
  fresh : w.store = none → ∀ s, .persisted s ∉ w.trace
  persisted : ∀ s, w.store = some s → .persisted s ∈ w.trace
  operation : ∀ s s', w.store = some s → .persisted s' ∈ w.trace → SameOperation s s'
  matched : ∀ s, .persisted s ∈ w.trace → ∀ submission, s.submission = some submission →
    assertSubmissionMatchesRotation M s submission = .ok ()
  saved : ∀ s, w.store = some s → ∃ newKey, Bound M s newKey ∧ Provided E s newKey w.custody

end Allowed

section Sound
variable {Bytes : Type}

theorem SameOperation.refl (s : ManagedKeyRotationResult Bytes) : SameOperation s s := rfl

theorem SameOperation.symm {s s' : ManagedKeyRotationResult Bytes} (h : SameOperation s s') : SameOperation s' s :=
  (congrArg (fun state => later state s.submission s.activated s.applicationSigningPaused) h).symm

theorem SameOperation.trans {s s' s'' : ManagedKeyRotationResult Bytes} (h : SameOperation s s')
    (h' : SameOperation s' s'') : SameOperation s s'' := by
  unfold SameOperation at *
  rw [h', h]
  rfl

theorem SameOperation.later (s : ManagedKeyRotationResult Bytes) (submission : Option SubmissionResult)
    (activated paused : Bool) : SameOperation s (later s submission activated paused) := rfl

variable [DecidableEq Bytes] {M : ManagedPlatform Bytes} {E : RotationEnvironment}
variable {w : RotationWorld Bytes} {s s' : ManagedKeyRotationResult Bytes} {newKey : DnsIdJWK}

theorem Shown.mono {trace trace' : List (RotationEvent Bytes)} (h : Shown M s trace)
    (hsub : ∀ e ∈ trace, e ∈ trace') : Shown M s trace' := by
  obtain ⟨verified, logRef, event, hpublished, hread, hshows⟩ := h
  exact ⟨verified, logRef, event, hsub _ hpublished, hsub _ hread, hshows⟩

/-- The persisted states are those of one operation. -/
theorem Sound.same (h : Sound M E w) (hs : .persisted s ∈ w.trace) (hs' : .persisted s' ∈ w.trace) :
    SameOperation s s' := by
  cases hstore : w.store with
  | none => exact absurd hs (h.fresh hstore s)
  | some stored => exact (h.operation stored s hstore hs).symm.trans (h.operation stored s' hstore hs')

/-- A persisted state is bound to the keys that the durable one is bound to. -/
theorem Sound.opens (h : Sound M E w) (hs : .persisted s ∈ w.trace) :
    ∃ newKey submission activated paused, Bound M s newKey ∧
      Provided E (later s submission activated paused) newKey w.custody := by
  cases hstore : w.store with
  | none => exact absurd hs (h.fresh hstore s)
  | some stored =>
    obtain ⟨newKey, hbound, hprovided⟩ := h.saved stored hstore
    have hsame := h.operation stored s hstore hs
    refine ⟨newKey, stored.submission, stored.activated, stored.applicationSigningPaused, ?_, ?_⟩
    · have hmatched := h.matched s hs
      rw [hsame] at hmatched ⊢
      exact hbound.later hmatched
    · have hstored : stored = later s stored.submission stored.activated stored.applicationSigningPaused := hsame.symm
      rwa [hstored] at hprovided

theorem Sound.record (h : Sound M E w) {e : RotationEvent Bytes} (he : allowedAfter M E w.trace e)
    (hnot : ∀ s, e ≠ .persisted s) : Sound M E (w.record e) := by
  have hmem : ∀ s, .persisted s ∈ (w.record e).trace → .persisted s ∈ w.trace := by
    intro s hs
    rcases List.mem_append.mp hs with hs | hs
    · exact hs
    · exact absurd (List.mem_singleton.mp hs).symm (hnot s)
  exact ⟨h.allowed.concat he, fun hstore s hs => h.fresh hstore s (hmem s hs),
    fun s hs => List.mem_append_left _ (h.persisted s hs), fun s s' hs hs' => h.operation s s' hs (hmem s' hs'),
    fun s hs => h.matched s (hmem s hs), h.saved⟩

theorem Sound.persist (h : Sound M E w) (hsame : ∀ s', .persisted s' ∈ w.trace → SameOperation s' s)
    (hbound : Bound M s newKey) (hprovided : Provided E s newKey w.custody) : Sound M E (w.persist s) := by
  have hmem : ∀ s', .persisted s' ∈ (w.persist s).trace → .persisted s' ∈ w.trace ∨ s' = s := by
    intro s' hs'
    exact (List.mem_append.mp hs').imp_right fun hs' => by simpa using hs'
  refine ⟨h.allowed.concat hsame, fun hstore => ?_, fun s' hs' => ?_, fun s' s'' hs' hs'' => ?_, fun s' hs' => ?_,
    fun s' hs' => ?_⟩
  · cases hstore
  · obtain rfl := Option.some.inj hs'
    exact List.mem_append_right _ (List.mem_singleton.mpr rfl)
  · obtain rfl := Option.some.inj hs'
    rcases hmem s'' hs'' with hs'' | rfl
    · exact (hsame s'' hs'').symm
    · exact SameOperation.refl s''
  · rcases hmem s' hs' with hs' | rfl
    · exact h.matched s' hs'
    · exact hbound.submission
  · obtain rfl := Option.some.inj hs'
    exact ⟨newKey, hbound, hprovided⟩

theorem Sound.setCustody (h : Sound M E w) {p : ProviderId} {keys : Keys}
    (hkept : ∀ s newKey, w.store = some s → Bound M s newKey → Provided E s newKey w.custody →
      Provided E s newKey (Function.update w.custody p keys)) : Sound M E (w.setCustody p keys) where
  allowed := h.allowed
  fresh := h.fresh
  persisted := h.persisted
  operation := h.operation
  matched := h.matched
  saved s hs := by
    obtain ⟨newKey, hbound, hprovided⟩ := h.saved s hs
    exact ⟨newKey, hbound, hkept s newKey hs hbound hprovided⟩

end Sound

/-! ## Steps of a call -/

section Steps
variable {Bytes : Type} [DecidableEq Bytes] {M : ManagedPlatform Bytes} {E : RotationEnvironment}
variable {w : RotationWorld Bytes} {s : ManagedKeyRotationResult Bytes} {α : Type}

/-- The call alone keeps the invariant of the session. -/
abbrev KeepsSound (M : ManagedPlatform Bytes) (E : RotationEnvironment) (p : RotationProg Bytes α)
    (Q : α → RotationWorld Bytes → Prop) (w : RotationWorld Bytes) : Prop :=
  KeepsAlone (settleRotation E) (Sound M E) p Q w

/-- The state is the durable one of a sound world. -/
structure At (M : ManagedPlatform Bytes) (E : RotationEnvironment) (s : ManagedKeyRotationResult Bytes)
    (w : RotationWorld Bytes) : Prop where
  store : w.store = some s
  sound : Sound M E w

/-- The state was persisted, and the providers stand as it needs. -/
structure Held (M : ManagedPlatform Bytes) (E : RotationEnvironment) (s : ManagedKeyRotationResult Bytes)
    (w : RotationWorld Bytes) : Prop where
  sound : Sound M E w
  persisted : .persisted s ∈ w.trace
  saved : ∃ newKey, Bound M s newKey ∧ Provided E s newKey w.custody

theorem At.held (h : At M E s w) : Held M E s w := ⟨h.sound, h.sound.persisted s h.store, h.sound.saved s h.store⟩

theorem Held.record (h : Held M E s w) {e : RotationEvent Bytes} (he : allowedAfter M E w.trace e)
    (hnot : ∀ s, e ≠ .persisted s) : Held M E s (w.record e) :=
  ⟨h.sound.record he hnot, List.mem_append_left _ h.persisted, h.saved⟩

theorem keeps_queries {p : RotationProg Bytes α} (hp : p.Only fun e => isQuery e = true) :
    KeepsSound M E p (fun _ w' => w' = w) w :=
  Keeps.of_only (fun _ _ _ _ _ he h => settle_query he h) (fun _ => trivial) hp

theorem keeps_answer {e : RotationEffect Bytes} (he : isAnswered e = true) :
    KeepsSound M E (.perform e) (fun a w' => w' = w ∧ answerFrom E w e = .ok a) w := by
  refine Keeps.perform ?_
  rintro _ rfl hsound c r w₂ - hsettle
  obtain ⟨rfl, hanswer⟩ := settle_answer he hsettle
  exact ⟨hsound, trivial, fun a ha => ⟨rfl, hanswer a ha⟩⟩

theorem keeps_pure {β : Type} {x : Except (RotationCause Bytes) β} {f : β → RotationProg Bytes α}
    {Q : α → RotationWorld Bytes → Prop} (h : ∀ b, x = .ok b → KeepsSound M E (f b) Q w) :
    KeepsSound M E (.ofExcept x >>= f) Q w := by
  cases x with
  | ok b => exact h b rfl
  | error cause => trivial

theorem keeps_persist {newKey : DnsIdJWK} (hsame : ∀ s', .persisted s' ∈ w.trace → SameOperation s' s)
    (hbound : Bound M s newKey) (hprovided : Provided E s newKey w.custody) :
    KeepsSound M E (persistRotation s) (fun _ w' => w' = w.persist s ∧ Sound M E w') w := by
  refine Keeps.perform ?_
  rintro _ rfl hsound c r w₂ - hsettle
  have hsound' := hsound.persist hsame hbound hprovided
  rcases settle_persist hsettle with rfl | ⟨rfl, hfailed⟩
  · exact ⟨hsound', trivial, fun _ _ => ⟨rfl, hsound'⟩⟩
  · exact ⟨hsound, trivial, fun a ha => absurd ha (hfailed a)⟩

/-- A later state of the operation is persisted. -/
theorem keeps_persist_later (submission : Option SubmissionResult) (activated paused : Bool) (hheld : Held M E s w)
    (haccepted : s.isAccepted = true → submission.any (fun submission => submission.state = .accepted) = true)
    (hsubmission : ∀ result, submission = some result →
      assertSubmissionMatchesRotation M (later s submission activated paused) result = .ok ()) :
    KeepsSound M E (persistRotation (later s submission activated paused))
      (fun _ w' => At M E (later s submission activated paused) w') w := by
  obtain ⟨newKey, hbound, hprovided⟩ := hheld.saved
  have hkeeps := keeps_persist (w := w)
    (fun s' hs' => (hheld.sound.same hs' hheld.persisted).trans (SameOperation.later s submission activated paused))
    (hbound.later hsubmission) (hprovided.later activated paused haccepted)
  exact Keeps.mono hkeeps fun _ w' h => ⟨by rw [h.1]; rfl, h.2⟩

theorem keeps_pause (paused : Bool) (hallowed : allowedAfter M E w.trace (.paused paused)) :
    KeepsSound M E (setApplicationSigningPaused paused)
      (fun _ w' => w' = w.record (.paused paused) ∧ Sound M E w') w := by
  refine Keeps.perform ?_
  rintro _ rfl hsound c r w₂ - hsettle
  obtain rfl := settle_paused hsettle
  have hsound' := hsound.record hallowed fun _ h => by cases h
  exact ⟨hsound', trivial, fun _ _ => ⟨rfl, hsound'⟩⟩

theorem keeps_submit {rotation : ManagedKeyRotationResult Bytes} (hat : At M E rotation w) :
    KeepsSound M E (submitPreparedEvent rotation.domain rotation.entryBytes rotation.idempotencyKey)
      (fun _ w' => At M E rotation w') w := by
  refine Keeps.attempt ?_
  rintro _ rfl hsound c r w₂ - hsettle
  obtain rfl := settle_submitted hsettle
  have hsound' := hsound.record (e := .submitted rotation.domain rotation.entryBytes rotation.idempotencyKey)
    ⟨rotation, hsound.persisted rotation hat.store, rfl, rfl, rfl⟩ fun _ h => by cases h
  exact ⟨hsound', trivial, hat.store, hsound'⟩

/-! ### The publication -/

theorem keeps_published (hat : At M E s w) :
    KeepsSound M E verifyLocalPublication
      (fun verified w' => At M E s w' ∧ .published verified ∈ w'.trace) w := by
  refine Keeps.perform ?_
  rintro _ rfl hsound c r w₂ - hsettle
  cases r with
  | ok verified =>
    obtain rfl := settle_published hsettle verified rfl
    have hsound' := hsound.record (e := .published verified) trivial fun _ h => by cases h
    refine ⟨hsound', trivial, fun a ha => ?_⟩
    obtain rfl := Except.ok.inj ha
    exact ⟨⟨hat.store, hsound'⟩, List.mem_append_right _ (List.mem_singleton.mpr rfl)⟩
  | error cause =>
    obtain rfl := settle_publication_failed hsettle
    exact ⟨hsound, trivial, fun a ha => by cases ha⟩

theorem keeps_eventRead {logRef : String} {verified : LocalPublication} (hat : At M E s w)
    (hpublished : .published verified ∈ w.trace) :
    KeepsSound M E (readEvent logRef)
      (fun event w' => At M E s w' ∧ .published verified ∈ w'.trace ∧ .eventRead logRef event ∈ w'.trace) w := by
  refine Keeps.perform ?_
  rintro _ rfl hsound c r w₂ - hsettle
  cases r with
  | ok event =>
    obtain rfl := settle_eventRead hsettle event rfl
    have hsound' := hsound.record (e := .eventRead logRef event) trivial fun _ h => by cases h
    refine ⟨hsound', trivial, fun a ha => ?_⟩
    obtain rfl := Except.ok.inj ha
    exact ⟨⟨hat.store, hsound'⟩, List.mem_append_left _ hpublished,
      List.mem_append_right _ (List.mem_singleton.mpr rfl)⟩
  | error cause =>
    obtain rfl := settle_read_failed hsettle
    exact ⟨hsound, trivial, fun a ha => by cases ha⟩

theorem keeps_verifyAcceptedPublication {submission : SubmissionResult} (hat : At M E s w)
    (haccepted : AcceptedExactly M s submission) :
    KeepsSound M E (verifyAcceptedPublication M s) (fun _ w' => At M E s w' ∧ Shown M s w'.trace) w := by
  obtain ⟨index, -, hlogRef⟩ := haccepted.logRef
  refine Keeps.bind (keeps_published hat) ?_
  rintro verified w₁ ⟨hat₁, hpublished⟩
  refine keeps_pure fun _ hbinding => keeps_pure fun key hkey => keeps_pure fun _ hbound => ?_
  refine keeps_pure fun prepared hprepared => ?_
  refine Keeps.bind (keeps_eventRead hat₁ hpublished) ?_
  rintro event w₂ ⟨hat₂, hpublished₂, hread⟩
  refine Keeps.ofExcept fun _ hcontinuity => ⟨hat₂, verified, _, event, hpublished₂, hread, ?_⟩
  obtain ⟨hdomain, hlr⟩ := not_or.mp (throwIf_eq_ok.mp hbinding)
  obtain ⟨-, hthumbprint, hkid⟩ := assertKeyBinding_ok.mp hbound
  refine ⟨not_not.mp hdomain, not_not.mp hlr, ⟨key, liftKeyCheck_eq_ok.mp hkey, hkid, hthumbprint⟩, ?_,
    prepared, hprepared, hcontinuity⟩
  rw [haccepted.saved, Option.bind_some, hlogRef]
  rfl

/-! ### The keys -/

/-- The durable state can be reconciled. -/
structure Ready (M : ManagedPlatform Bytes) (E : RotationEnvironment) (s : ManagedKeyRotationResult Bytes)
    (w : RotationWorld Bytes) : Prop extends At M E s w where
  accepted : s.isAccepted = true
  shown : Shown M s w.trace

theorem Ready.reconcilable (h : Ready M E s w) : Reconcilable M s w.trace := by
  obtain ⟨newKey, hbound, -⟩ := h.sound.saved s h.store
  exact ⟨h.sound.persisted s h.store, hbound.acceptedExactly h.accepted, h.shown⟩

/-- Keys of the durable state change, and the change was allowed. -/
theorem Ready.change (h : Ready M E s w) {e : RotationEvent Bytes} {p : ProviderId} {keys : Keys}
    (he : allowedAfter M E w.trace e) (hnot : ∀ s, e ≠ .persisted s)
    (hkept : ∀ newKey, Bound M s newKey → Provided E s newKey w.custody →
      Provided E s newKey (Function.update w.custody p keys)) : Ready M E s ((w.record e).setCustody p keys) where
  store := h.store
  sound := (h.sound.record he hnot).setCustody fun s' newKey hs' hbound hprovided => by
    obtain rfl := Option.some.inj (h.store.symm.trans hs')
    exact hkept newKey hbound hprovided
  accepted := h.accepted
  shown := h.shown.mono fun _ hmem => List.mem_append_left _ hmem

theorem Ready.record (h : Ready M E s w) {e : RotationEvent Bytes} (he : allowedAfter M E w.trace e)
    (hnot : ∀ s, e ≠ .persisted s) : Ready M E s (w.record e) where
  store := h.store
  sound := h.sound.record he hnot
  accepted := h.accepted
  shown := h.shown.mono fun _ hmem => List.mem_append_left _ hmem

theorem keeps_activate (hready : Ready M E s w)
    (hother : ∀ newKey, Bound M s newKey →
      (w.custody (E.resolveKeyProvider s.newProviderReference)).active ≠ some newKey) :
    KeepsSound M E (activate (E.resolveKeyProvider s.newProviderReference) s.newKid)
      (fun _ w' => Ready M E s w') w := by
  have hallowed : allowedAfter M E w.trace (.activated (E.resolveKeyProvider s.newProviderReference) s.newKid) :=
    ⟨s, hready.reconcilable, rfl, rfl⟩
  refine Keeps.perform ?_
  rintro _ rfl hsound c r w₂ - hsettle
  rcases settle_activate hsettle with ⟨keys, hkeys, rfl⟩ | ⟨rfl, -⟩
  · have hready' := hready.change hallowed (fun _ h => by cases h) fun newKey hbound hprovided =>
      hprovided.activate hready.accepted (hother newKey hbound) hkeys
    exact ⟨hready'.sound, trivial, fun _ _ => hready'⟩
  · have hready' := hready.record hallowed fun _ h => by cases h
    exact ⟨hready'.sound, trivial, fun _ _ => hready'⟩

theorem keeps_supersede (hready : Ready M E s w)
    (hactive : ∀ newKey, Bound M s newKey → Provided E s newKey w.custody →
      (w.custody (E.resolveKeyProvider s.newProviderReference)).active = some newKey) :
    KeepsSound M E (supersede (E.resolveKeyProvider s.previousProviderReference) s.previousKid)
      (fun _ w' => Ready M E s w') w := by
  have hallowed : allowedAfter M E w.trace
      (.superseded (E.resolveKeyProvider s.previousProviderReference) s.previousKid) :=
    ⟨s, hready.reconcilable, rfl, rfl⟩
  refine Keeps.perform ?_
  rintro _ rfl hsound c r w₂ - hsettle
  rcases settle_supersede hsettle with ⟨keys, hkeys, rfl⟩ | ⟨rfl, -⟩
  · have hready' := hready.change hallowed (fun _ h => by cases h) fun newKey hbound hprovided =>
      hprovided.supersede hbound hready.accepted (hactive newKey hbound hprovided) hkeys
    exact ⟨hready'.sound, trivial, fun _ _ => hready'⟩
  · have hready' := hready.record hallowed fun _ h => by cases h
    exact ⟨hready'.sound, trivial, fun _ _ => hready'⟩

/-- The provider's active key. -/
theorem keeps_signingKey {p : ProviderId} :
    KeepsSound M E (signingKey p) (fun key w' => w' = w ∧ (w.custody p).active = some key) w := by
  refine Keeps.mono (keeps_answer (e := .signingKey p) rfl) ?_
  rintro key w' ⟨rfl, hanswer⟩
  exact ⟨rfl, orThrow_eq_ok.mp hanswer⟩

theorem keeps_activateTarget (hready : Ready M E s w) :
    KeepsSound M E (activateTarget M (E.resolveKeyProvider s.previousProviderReference)
      (E.resolveKeyProvider s.newProviderReference) s) (fun _ w' => Ready M E s w') w := by
  refine Keeps.bind keeps_signingKey ?_
  rintro active _ ⟨rfl, hactive⟩
  split
  next => exact hready
  next hkid =>
    refine keeps_pure fun _ _ => keeps_activate hready fun newKey hbound hnew => hkid ?_
    rw [hactive] at hnew
    rw [Option.some.inj hnew]
    exact (assertKeyBinding_ok.mp hbound.next).2.2

theorem keeps_reconcile (hready : Ready M E s w) :
    KeepsSound M E (reconcileAcceptedRotation M (E.resolveKeyProvider s.previousProviderReference)
      (E.resolveKeyProvider s.newProviderReference) s) (fun _ w' => Ready M E s w') w := by
  refine Keeps.bind (keeps_activateTarget hready) fun _ w₁ hready₁ => ?_
  refine Keeps.bind keeps_signingKey ?_
  rintro active _ ⟨rfl, hactive⟩
  refine keeps_pure fun _ hbinding => ?_
  refine Keeps.bind (keeps_queries (Prog.Only.perform rfl)) ?_
  rintro listedIds _ rfl
  split
  next =>
    refine keeps_supersede hready₁ fun newKey hbound hprovided => ?_
    have hkid := (assertKeyBinding_ok.mp hbinding).2.2
    have hfound := Custody.find?_active hactive
    rw [hkid, hprovided.target] at hfound
    rw [hactive, Option.some.inj hfound]
  next => exact hready₁

omit [DecidableEq Bytes] in
theorem only_activeKey {methods : ProviderId → ProviderMethods} {p : ProviderId} {ids : List String} :
    (activeKey methods p ids : RotationProg Bytes _).Only fun e => isQuery e = true := by
  unfold activeKey
  split
  next => exact Prog.Only.perform rfl
  next =>
    split
    next => trivial
    next => exact Prog.Only.bind (Prog.Only.perform rfl) fun _ => trivial

omit [DecidableEq Bytes] in
theorem only_assertSourceInactive {methods : ProviderId → ProviderMethods} {p t : ProviderId} :
    (assertSourceInactive methods p t : RotationProg Bytes _).Only fun e => isQuery e = true := by
  unfold assertSourceInactive
  split
  next => trivial
  next =>
    refine Prog.Only.bind (Prog.Only.perform rfl) fun ids => ?_
    exact Prog.Only.bind only_activeKey fun _ => Prog.Only.ofExcept _

/-! ### Activation -/

/-- Any state that keeps the submission may follow. -/
theorem keeps_persist_kept (activated paused : Bool) (hheld : Held M E s w) :
    KeepsSound M E (persistRotation (later s s.submission activated paused))
      (fun _ w' => At M E (later s s.submission activated paused) w') w := by
  obtain ⟨newKey, hbound, -⟩ := hheld.saved
  exact keeps_persist_later _ activated paused hheld id hbound.submission

theorem keeps_activateKeys (hat : At M E s w) (haccepted : s.isAccepted = true) :
    KeepsSound M E (activateKeys M E.methods (E.resolveKeyProvider s.previousProviderReference)
      (E.resolveKeyProvider s.newProviderReference) s)
      (fun activated w' => activated = later s s.submission true true ∧ At M E activated w') w := by
  obtain ⟨newKey, hbound, -⟩ := hat.sound.saved s hat.store
  obtain ⟨submission, hexact⟩ := hbound.acceptedExactly haccepted
  refine Keeps.bind (keeps_verifyAcceptedPublication hat hexact) ?_
  rintro _ w₁ ⟨hat₁, hshown⟩
  refine Keeps.bind (keeps_reconcile ⟨hat₁, haccepted, hshown⟩) fun _ w₂ hready => ?_
  refine Keeps.bind (keeps_queries only_assertSourceInactive) ?_
  rintro _ _ rfl
  exact Keeps.bind (keeps_persist_kept _ _ hready.toAt.held) fun _ _ hat₃ => ⟨rfl, hat₃⟩

theorem keeps_restoreSigner (hheld : Held M E s w) :
    KeepsSound M E (restoreSigner M (E.resolveKeyProvider s.newProviderReference) s)
      (fun _ w' => Held M E s w' ∧ .signerSet (E.resolveKeyProvider s.newProviderReference) s.newKid ∈ w'.trace) w := by
  refine Keeps.bind keeps_signingKey ?_
  rintro active _ ⟨rfl, -⟩
  refine keeps_pure fun _ _ => Keeps.perform ?_
  rintro _ rfl hsound c r w₂ - hsettle
  rcases settle_signer hsettle with rfl | ⟨rfl, hfailed⟩
  · have hheld' := hheld.record (e := .signerSet (E.resolveKeyProvider s.newProviderReference) s.newKid) trivial
      fun _ h => by cases h
    exact ⟨hheld'.sound, trivial, fun _ _ => ⟨hheld', List.mem_append_right _ (List.mem_singleton.mpr rfl)⟩⟩
  · exact ⟨hsound, trivial, fun a ha => absurd ha (hfailed a)⟩

theorem keeps_resumeSigning (hheld : Held M E s w) (hactivated : s.activated = true)
    (hsigner : .signerSet (E.resolveKeyProvider s.newProviderReference) s.newKid ∈ w.trace) :
    KeepsSound M E (resumeSigning s) (fun _ _ => True) w := by
  have hallowed : allowedAfter M E w.trace (.paused false) := ⟨s, hheld.persisted, hactivated, hsigner⟩
  refine Keeps.bind (keeps_pause _ hallowed) ?_
  rintro _ w₁ ⟨rfl, hsound⟩
  have hheld₁ : Held M E s (w.record (.paused false)) := hheld.record hallowed fun _ h => by cases h
  exact Keeps.bind (keeps_persist_kept s.activated false hheld₁) fun _ _ _ => trivial

theorem keeps_activateRotation (hat : At M E s w) (haccepted : s.isAccepted = true) :
    KeepsSound M E (activateRotation M E.methods (E.resolveKeyProvider s.previousProviderReference)
      (E.resolveKeyProvider s.newProviderReference) s) (fun _ _ => True) w := by
  refine Keeps.bind (Keeps.tryCatch (keeps_activateKeys hat haccepted) fun _ _ => trivial) ?_
  rintro _ w₁ ⟨rfl, hat₁⟩
  refine Keeps.tryCatch (Keeps.bind (keeps_restoreSigner (s := later s s.submission true true) hat₁.held) ?_)
    fun _ _ => trivial
  rintro _ w₂ ⟨hheld₂, hsigner⟩
  exact keeps_resumeSigning (s := later s s.submission true true) hheld₂ rfl hsigner

theorem keeps_restoreActivatedRotation (hheld : Held M E s w) (hactivated : s.activated = true) :
    KeepsSound M E (restoreActivatedRotation M E.methods (E.resolveKeyProvider s.previousProviderReference)
      (E.resolveKeyProvider s.newProviderReference) s) (fun _ _ => True) w := by
  refine Keeps.tryCatch (Keeps.bind (keeps_queries only_assertSourceInactive) ?_) fun _ _ => trivial
  rintro _ _ rfl
  refine Keeps.bind (keeps_restoreSigner hheld) ?_
  rintro _ w₂ ⟨hheld₂, hsigner⟩
  split
  next => exact keeps_resumeSigning hheld₂ hactivated hsigner
  next => trivial

/-! ### Submission -/

theorem keeps_recordSubmission {submission : SubmissionResult} (hat : At M E s w) (hopen : s.isAccepted = false) :
    KeepsSound M E (recordSubmission M s submission)
      (fun _ w' => At M E { s with submission := some submission } w') w := by
  refine Keeps.tryCatch (keeps_pure fun _ hmatches => ?_) fun _ _ => trivial
  refine Keeps.mono (keeps_persist_later (some submission) s.activated s.applicationSigningPaused hat.held ?_ ?_)
    fun _ w' h => h
  · rw [hopen]
    exact fun h => by cases h
  · intro result hresult
    obtain rfl := Option.some.inj hresult
    exact submission_saved hmatches

theorem keeps_submitManagedRotation (hat : At M E s w) (hopen : s.isAccepted = false) :
    KeepsSound M E (submitManagedRotation M E.methods (E.resolveKeyProvider s.previousProviderReference)
      (E.resolveKeyProvider s.newProviderReference) s) (fun _ _ => True) w := by
  refine Keeps.bind (keeps_submit hat) fun answer w₁ hat₁ => ?_
  cases answer with
  | error cause => trivial
  | ok submission =>
    refine Keeps.bind (keeps_recordSubmission hat₁ hopen) fun _ w₂ hat₂ => ?_
    cases hstate : submission.state with
    | rejected => trivial
    | pending => trivial
    | accepted =>
      have haccepted : ({ s with submission := some submission } : ManagedKeyRotationResult Bytes).isAccepted = true := by
        simp [ManagedKeyRotationResult.isAccepted, hstate]
      exact keeps_activateRotation hat₂ haccepted

/-! ### Resuming -/

theorem keeps_recovered {p : RotationProg Bytes α} {Q : α → RotationWorld Bytes → Prop}
    (h : KeepsSound M E p Q w) : KeepsSound M E (p.tryCatch (recoveryFailed s)) Q w := by
  refine Keeps.tryCatch h fun cause _ => ?_
  cases cause <;> trivial

/-- What a provider reference resolves to. -/
theorem keeps_resolve {reference : String} :
    KeepsSound M E (resolveKeyProvider reference) (fun p w' => w' = w ∧ p = E.resolveKeyProvider reference) w := by
  refine Keeps.mono (keeps_answer (e := .resolveKeyProvider reference) rfl) ?_
  rintro p w' ⟨rfl, hanswer⟩
  exact ⟨rfl, (Except.ok.inj hanswer).symm⟩

theorem keeps_listKeyIds {p : ProviderId} :
    KeepsSound M E (listKeyIds p) (fun ids w' => w' = w ∧ ids = (w.custody p).listed) w := by
  refine Keeps.mono (keeps_answer (e := .listKeyIds p) rfl) ?_
  rintro ids w' ⟨rfl, hanswer⟩
  exact ⟨rfl, (Except.ok.inj hanswer).symm⟩

theorem keeps_activeKey {p : ProviderId} :
    KeepsSound M E (activeKey E.methods p (w.custody p).listed)
      (fun active w' => w' = w ∧ active = (w.custody p).active) w := by
  unfold activeKey
  split
  next =>
    refine Keeps.mono (keeps_answer (e := .activeSigningKey p) rfl) ?_
    rintro active w' ⟨rfl, hanswer⟩
    exact ⟨rfl, (Except.ok.inj hanswer).symm⟩
  next =>
    split
    next hempty =>
      refine ⟨rfl, ?_⟩
      cases hactive : (w.custody p).active with
      | none => rfl
      | some key =>
        have hlisted := Custody.listed_of_active hactive
        rw [List.isEmpty_iff.mp hempty] at hlisted
        cases hlisted
    next =>
      refine Keeps.bind keeps_signingKey ?_
      rintro key _ ⟨rfl, hactive⟩
      exact ⟨rfl, hactive.symm⟩

/-- A state of the operation that validates was accepted, unless the previous key still is the active one. -/
theorem keeps_validateSource {newKey : DnsIdJWK} {p t : ProviderId} (hbound : Bound M s newKey)
    (hlisted : s.previousKid ∈ (w.custody p).listed →
      (w.custody p).active = some s.previousKey ∨ p = t ∧ (w.custody p).active = some newKey) :
    KeepsSound M E (validateSource M s p t (w.custody p).listed (w.custody p).active)
      (fun _ w' => w' = w ∧ (s.previousKid ∈ (w.custody p).listed ∧ (w.custody p).active = some s.previousKey ∨
        s.isAccepted = true)) w := by
  unfold validateSource
  split
  next hcontains =>
    have hmem := List.contains_iff_mem.mp hcontains
    refine Keeps.bind (keeps_queries (Prog.Only.perform rfl)) ?_
    rintro key _ rfl
    refine keeps_pure fun _ _ => Keeps.ofExcept fun _ hbinding => ⟨rfl, ?_⟩
    rcases hlisted hmem with hactive | ⟨-, hactive⟩
    · exact .inl ⟨hmem, hactive⟩
    · rw [hactive] at hbinding
      cases haccepted : s.isAccepted with
      | true => exact .inr rfl
      | false =>
        simp only [assertSourceBinding, haccepted, Bool.and_false, Bool.false_and, Bool.false_eq_true, if_false]
          at hbinding
        have hprevious := (assertKeyBinding_ok.mp hbinding).2.1
        have hnext := (assertKeyBinding_ok.mp hbound.next).2.1
        exact absurd (Except.ok.inj (hnext.symm.trans hprevious)) hbound.distinct
  next =>
    split
    next => trivial
    next submission hsubmission =>
      refine keeps_pure fun _ hstate => keeps_pure fun _ _ => Keeps.bind keeps_signingKey ?_
      rintro active _ ⟨rfl, -⟩
      refine keeps_pure fun _ _ => Keeps.ofExcept fun _ _ => ⟨rfl, .inr ?_⟩
      rw [ManagedKeyRotationResult.isAccepted, hsubmission]
      simpa [throwIf_eq_ok] using hstate

/-- The providers stand as a persisted state needs that validates with them. -/
theorem keeps_validateSavedRotation (hsound : Sound M E w) (hpersisted : .persisted s ∈ w.trace) :
    KeepsSound M E (validateSavedRotation M E.methods s (E.resolveKeyProvider s.previousProviderReference)
      (E.resolveKeyProvider s.newProviderReference)) (fun _ w' => w' = w ∧ Held M E s w) w := by
  obtain ⟨newKey, submission, activated, paused, hbound, hprovided⟩ := hsound.opens hpersisted
  have hlisted := fun hmem => (hprovided.source.resolve_right fun hgone => hgone.gone hmem).active
  refine keeps_pure fun _ _ => Keeps.bind keeps_listKeyIds ?_
  rintro _ _ ⟨rfl, rfl⟩
  refine Keeps.bind keeps_activeKey ?_
  rintro _ _ ⟨rfl, rfl⟩
  refine Keeps.bind (keeps_validateSource hbound fun hmem => (hlisted hmem).imp_right fun h => ⟨h.1, h.2.2⟩) ?_
  rintro _ _ ⟨rfl, hsource⟩
  refine Keeps.bind (keeps_queries (Prog.Only.perform rfl)) ?_
  rintro _ _ rfl
  exact Keeps.ofExcept fun _ _ => ⟨rfl, hsound, hpersisted, newKey, hbound, hprovided.of_later hsource⟩

theorem keeps_openSaved (hsound : Sound M E w) (hpersisted : .persisted s ∈ w.trace) :
    KeepsSound M E (openSaved M E.methods s)
      (fun providers w' => providers = providersOf E s ∧ Held M E s w') w := by
  have hvalidated : KeepsSound M E
      (do
        validateSavedRotation M E.methods s (E.resolveKeyProvider s.previousProviderReference)
          (E.resolveKeyProvider s.newProviderReference)
        return providersOf E s)
      (fun providers w' => providers = providersOf E s ∧ Held M E s w') w := by
    refine Keeps.bind (keeps_validateSavedRotation hsound hpersisted) ?_
    rintro _ _ ⟨rfl, hheld⟩
    exact ⟨rfl, hheld⟩
  refine keeps_pure fun _ _ => Keeps.bind keeps_resolve ?_
  rintro _ _ ⟨rfl, rfl⟩
  dsimp only
  split
  next hsame =>
    simp only [providersOf, hsame] at hvalidated ⊢
    exact hvalidated
  next =>
    refine Keeps.bind keeps_resolve ?_
    rintro _ _ ⟨rfl, rfl⟩
    exact hvalidated

theorem keeps_openResumed (hsound : Sound M E w) (hpersisted : .persisted s ∈ w.trace) :
    KeepsSound M E (openResumed M E.methods s)
      (fun providers w' => providers = providersOf E s ∧ Held M E s w') w :=
  Keeps.bind (keeps_openSaved hsound hpersisted) fun _ _ hopened => keeps_pure fun _ _ => hopened

/-- Signing stops, and the durable state says so. -/
theorem keeps_pauseSaved (hheld : Held M E s w) :
    KeepsSound M E (pauseSaved M { s with applicationSigningPaused := true })
      (fun _ w' => At M E { s with applicationSigningPaused := true } w') w := by
  refine Keeps.bind (keeps_pause true trivial) ?_
  rintro _ w₁ ⟨rfl, hsound⟩
  have hheld₁ : Held M E s (w.record (.paused true)) := hheld.record trivial fun _ h => by cases h
  refine Keeps.bind (keeps_persist_kept s.activated true hheld₁) fun _ w₂ hat₂ => ?_
  split
  next =>
    split
    next => exact Keeps.ofExcept fun _ _ => hat₂
    next => exact hat₂
  next => exact hat₂

theorem keeps_resume (hsound : Sound M E w) (hpersisted : .persisted s ∈ w.trace) :
    KeepsSound M E (resumeManagedOperationalKeyRotation M E.methods s) (fun _ _ => True) w := by
  refine Keeps.bind (keeps_recovered (keeps_openResumed hsound hpersisted)) ?_
  rintro _ w₁ ⟨rfl, hheld⟩
  dsimp only [providersOf]
  split
  next hactivated => exact keeps_restoreActivatedRotation hheld hactivated
  next =>
    refine Keeps.bind (keeps_recovered (keeps_pauseSaved hheld)) fun _ w₂ hat₂ => ?_
    split
    next haccepted => exact keeps_activateRotation (s := { s with applicationSigningPaused := true }) hat₂ haccepted
    next hopen =>
      exact keeps_submitManagedRotation (s := { s with applicationSigningPaused := true }) hat₂ (by simpa using hopen)

end Steps

end Dnsid.Managed.Rotation

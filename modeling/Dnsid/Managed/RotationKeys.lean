import Dnsid.Managed.RotationRuns

/-! # Saved rotations and the keys of the providers

What a persisted state is bound to (`Bound`), and how the providers stand while it is the durable one (`Provided`):
the previous key is listed until it was superseded, and it is only superseded after the new one became active. A
state that is so validates (`validateSavedRotation_eval`), and the two changes of keys keep it so.
-/
namespace Dnsid.Managed.Rotation
open Dnsid.Foundations Dnsid.Events Dnsid.Registry Dnsid.Writer
set_option autoImplicit false

section Bound
variable {Bytes : Type} [DecidableEq Bytes]

/-- What holds of every persisted state, whatever the providers do; `newKey` is the generated key. -/
structure Bound (M : ManagedPlatform Bytes) (s : ManagedKeyRotationResult Bytes) (newKey : DnsIdJWK) : Prop where
  references : (assertOperationReferences s.previousProviderReference s.newProviderReference s.idempotencyKey :
    Except (RotationCause Bytes) Unit) = .ok ()
  domain : M.normalizeFQDN s.domain = some s.domain
  hash : M.sha256Hex s.entryBytes = s.entryHash
  previous : (assertKeyBinding M s.previousKey s.previousKid s.previousThumbprint :
    Except (RotationCause Bytes) Unit) = .ok ()
  next : (assertKeyBinding M newKey s.newKid s.newThumbprint : Except (RotationCause Bytes) Unit) = .ok ()
  distinct : s.newThumbprint ≠ s.previousThumbprint
  entry : ∃ prepared bytes, parseSaved M s = .ok prepared ∧
    isRotationOf prepared.envelope s.domain s.previousThumbprint ∧
    (assertPreparedRotationKey M (prepared.envelope.lookup "new_ku") (prepared.envelope.lookup "new_thumb") newKey :
      Except (RotationCause Bytes) Unit) = .ok () ∧
    c2spTlogEntryBytes M.toWriterPlatform prepared (savedContext s) = .ok bytes
  submission : ∀ submission, s.submission = some submission →
    assertSubmissionMatchesRotation M s submission = .ok ()

/-- The previous key is still listed. -/
structure Listed (p t : ProviderId) (s : ManagedKeyRotationResult Bytes) (newKey : DnsIdJWK)
    (custody : ProviderId → Keys) : Prop where
  listed : s.previousKid ∈ (custody p).listed
  found : (custody p).find? s.previousKid = some s.previousKey
  active : (custody p).active = some s.previousKey ∨
    p = t ∧ s.isAccepted = true ∧ (custody p).active = some newKey

/-- The previous key was superseded. -/
structure Superseded (E : RotationEnvironment) (p t : ProviderId) (s : ManagedKeyRotationResult Bytes)
    (newKey : DnsIdJWK) (custody : ProviderId → Keys) : Prop where
  gone : s.previousKid ∉ (custody p).listed
  accepted : s.isAccepted = true
  active : (custody t).active = some newKey
  inactive : p ≠ t → (custody p).active = none ∧ (E.methods p).activeSigningKey = true

/-- How the providers stand while the state is the durable one. -/
structure Provided (E : RotationEnvironment) (s : ManagedKeyRotationResult Bytes) (newKey : DnsIdJWK)
    (custody : ProviderId → Keys) : Prop where
  target : (custody (E.resolveKeyProvider s.newProviderReference)).find? s.newKid = some newKey
  source : Listed (E.resolveKeyProvider s.previousProviderReference) (E.resolveKeyProvider s.newProviderReference)
      s newKey custody ∨
    Superseded E (E.resolveKeyProvider s.previousProviderReference) (E.resolveKeyProvider s.newProviderReference)
      s newKey custody

variable {M : ManagedPlatform Bytes} {E : RotationEnvironment} {s s' : ManagedKeyRotationResult Bytes}
variable {key newKey : DnsIdJWK} {kid thumbprint : String} {custody : ProviderId → Keys} {w : RotationWorld Bytes}

omit [DecidableEq Bytes] in
theorem assertKeyBinding_ok : (assertKeyBinding M key kid thumbprint : Except (RotationCause Bytes) Unit) = .ok () ↔
    validateOperational key = .ok () ∧ thumbprintOf M.toPlatform key = .ok thumbprint ∧ kidOf key = kid := by
  simp only [assertKeyBinding, bind_eq_ok, throwIf_eq_ok, liftKeyCheck_eq_ok, liftWriter_eq_ok, not_or, not_not]
  constructor
  · rintro ⟨_, hvalid, actual, hactual, hkid, rfl⟩
    exact ⟨hvalid, hactual, hkid⟩
  · rintro ⟨hvalid, hactual, hkid⟩
    exact ⟨(), hvalid, thumbprint, hactual, hkid, rfl⟩

/-- With one provider the two keys have different names. -/
theorem Bound.kids_ne (h : Bound M s newKey) {keys : Keys} (hprevious : keys.find? s.previousKid = some s.previousKey)
    (hnext : keys.find? s.newKid = some newKey) : s.previousKid ≠ s.newKid := by
  intro heq
  rw [heq, hnext] at hprevious
  obtain rfl := Option.some.inj hprevious
  obtain ⟨-, hprev, -⟩ := assertKeyBinding_ok.mp h.previous
  obtain ⟨-, hnew, -⟩ := assertKeyBinding_ok.mp h.next
  exact h.distinct (Except.ok.inj (hnew.symm.trans hprev))

/-! ## Validation -/

omit [DecidableEq Bytes] in
theorem signingKey_eval {p : ProviderId} (h : (w.custody p).active = some key) :
    (signingKey p : RotationProg Bytes _).eval (answerFrom E w) = .ok key :=
  (Prog.eval_perform (RotationEffect.signingKey p)).trans (congrArg (orThrow _) h)

omit [DecidableEq Bytes] in
theorem jwk_eval {p : ProviderId} (h : (w.custody p).find? kid = some key) :
    (jwk p kid : RotationProg Bytes _).eval (answerFrom E w) = .ok key :=
  (Prog.eval_perform (RotationEffect.jwk p kid)).trans (congrArg (orThrow _) h)

omit [DecidableEq Bytes] in
theorem activeKey_eval {p : ProviderId} (h : (E.methods p).activeSigningKey = true ∨ (w.custody p).active.isSome) :
    (activeKey E.methods p (w.custody p).listed : RotationProg Bytes _).eval (answerFrom E w) =
      .ok (w.custody p).active := by
  unfold activeKey
  split
  next => rfl
  next hmethod =>
    obtain ⟨active, hactive⟩ := Option.isSome_iff_exists.mp (h.resolve_left hmethod)
    have hnonempty : (w.custody p).listed.isEmpty = false := by
      rw [List.isEmpty_eq_false_iff]
      exact List.ne_nil_of_mem (Custody.listed_of_active hactive)
    rw [hnonempty, if_neg Bool.false_ne_true, Prog.eval_bind_ok (signingKey_eval hactive), hactive]
    rfl

theorem validateSource_listed (h : Bound M s newKey) {p t : ProviderId}
    (hnext : (w.custody t).find? s.newKid = some newKey) (hlisted : Listed p t s newKey w.custody) :
    (validateSource M s p t (w.custody p).listed (w.custody p).active).eval (answerFrom E w) = .ok () := by
  unfold validateSource
  rw [if_pos (List.contains_iff_mem.mpr hlisted.listed)]
  rw [Prog.eval_bind_ok (jwk_eval hlisted.found), Prog.ofExcept_bind h.previous, Prog.eval_ofExcept]
  rcases hlisted.active with hactive | ⟨rfl, haccepted, hactive⟩
  · rw [hactive]
    have hkid : kidOf s.previousKey = s.previousKid := (Custody.find?_iff.mp hlisted.found).2
    have hcond : (decide (p = t) && s.isAccepted && decide (kidOf s.previousKey = s.newKid)) = false := by
      by_cases hsame : p = t
      · subst hsame
        have hne := h.kids_ne hlisted.found hnext
        simp [hkid, hne]
      · simp [hsame]
    simp only [assertSourceBinding, hcond]
    exact h.previous
  · rw [hactive]
    have hkid : kidOf newKey = s.newKid := (Custody.find?_iff.mp hnext).2
    simp only [assertSourceBinding, haccepted, hkid, decide_true, Bool.and_self, if_true]
    exact h.next

omit [DecidableEq Bytes] in
theorem accepted_submission (h : s.isAccepted = true) :
    ∃ submission, s.submission = some submission ∧ submission.state = .accepted := by
  obtain ⟨submission, hsubmission, hstate⟩ := (Option.any_eq_true _ _).mp h
  exact ⟨submission, hsubmission, of_decide_eq_true hstate⟩

theorem validateSource_superseded (h : Bound M s newKey) {p t : ProviderId} (hgone : Superseded E p t s newKey w.custody) :
    (validateSource M s p t (w.custody p).listed (w.custody p).active).eval (answerFrom E w) = .ok () := by
  obtain ⟨submission, hsubmission, hstate⟩ := accepted_submission hgone.accepted
  have hnotListed : (w.custody p).listed.contains s.previousKid = false := by
    rw [Bool.eq_false_iff]
    exact fun hcontains => hgone.gone (List.contains_iff_mem.mp hcontains)
  unfold validateSource
  rw [hnotListed, if_neg Bool.false_ne_true, hsubmission]
  dsimp only
  rw [Prog.ofExcept_bind (a := ()) (throwIf_eq_ok.mpr (by simp [hstate])),
    Prog.ofExcept_bind (h.submission submission hsubmission),
    Prog.eval_bind_ok (signingKey_eval hgone.active), Prog.ofExcept_bind h.next, Prog.eval_ofExcept]
  apply throwIf_eq_ok.mpr
  rintro ⟨hne, hsome⟩
  rw [(hgone.inactive hne).1] at hsome
  cases hsome

theorem validateEntry_ok (h : Bound M s newKey) : validateEntry M s newKey = .ok () := by
  obtain ⟨prepared, bytes, hparsed, hrotation, hkey, hbytes⟩ := h.entry
  unfold validateEntry
  refine bind_eq_ok.mpr ⟨(), h.next, bind_eq_ok.mpr ⟨prepared, hparsed, bind_eq_ok.mpr ⟨(), ?_, ?_⟩⟩⟩
  · exact throwIf_eq_ok.mpr (not_not.mpr hrotation)
  · refine bind_eq_ok.mpr ⟨(), hkey, bind_eq_ok.mpr ⟨bytes, liftWriter_eq_ok.mpr hbytes, ?_⟩⟩
    cases hsubmission : s.submission with
    | none => rfl
    | some submission => exact h.submission submission hsubmission

theorem validateRecord_ok (h : Bound M s newKey) : validateRecord M s = .ok () := by
  unfold validateRecord
  refine bind_eq_ok.mpr ⟨(), h.references, bind_eq_ok.mpr ⟨s.domain, ?_, ?_⟩⟩
  · rw [h.domain]
    rfl
  · exact bind_eq_ok.mpr ⟨(), throwIf_eq_ok.mpr (by simp [h.hash]), h.previous⟩

/-- A saved state validates with the providers as they stand. -/
theorem validateSavedRotation_eval (h : Bound M s newKey) (hprovided : Provided E s newKey w.custody) :
    (validateSavedRotation M E.methods s (E.resolveKeyProvider s.previousProviderReference)
      (E.resolveKeyProvider s.newProviderReference)).eval (answerFrom E w) = .ok () := by
  have hids : (listKeyIds (E.resolveKeyProvider s.previousProviderReference) : RotationProg Bytes _).eval
      (answerFrom E w) = .ok (w.custody (E.resolveKeyProvider s.previousProviderReference)).listed := rfl
  have hnext := jwk_eval (E := E) hprovided.target
  unfold validateSavedRotation
  rw [Prog.ofExcept_bind (validateRecord_ok h), Prog.eval_bind_ok hids]
  rcases hprovided.source with hlisted | hgone
  · have hactive : (w.custody (E.resolveKeyProvider s.previousProviderReference)).active.isSome := by
      rcases hlisted.active with hactive | ⟨-, -, hactive⟩ <;> rw [hactive] <;> rfl
    rw [Prog.eval_bind_ok (activeKey_eval (.inr hactive)),
      Prog.eval_bind_ok (validateSource_listed h hprovided.target hlisted), Prog.eval_bind_ok hnext,
      Prog.eval_ofExcept, validateEntry_ok h]
  · have hactive : (E.methods (E.resolveKeyProvider s.previousProviderReference)).activeSigningKey = true ∨
        (w.custody (E.resolveKeyProvider s.previousProviderReference)).active.isSome := by
      by_cases hsame : E.resolveKeyProvider s.previousProviderReference = E.resolveKeyProvider s.newProviderReference
      · rw [hsame, hgone.active]
        exact .inr rfl
      · exact .inl (hgone.inactive hsame).2
    rw [Prog.eval_bind_ok (activeKey_eval hactive), Prog.eval_bind_ok (validateSource_superseded h hgone),
      Prog.eval_bind_ok hnext, Prog.eval_ofExcept, validateEntry_ok h]

/-- The providers that a saved state names. -/
def providersOf (E : RotationEnvironment) (s : ManagedKeyRotationResult Bytes) : ProviderId × ProviderId :=
  (E.resolveKeyProvider s.previousProviderReference, E.resolveKeyProvider s.newProviderReference)

/-- A saved state is opened with its providers. -/
theorem openSaved_eval (h : Bound M s newKey) (hprovided : Provided E s newKey w.custody) :
    (openSaved M E.methods s).eval (answerFrom E w) = .ok (providersOf E s) := by
  have hresolve : ∀ reference, (resolveKeyProvider reference : RotationProg Bytes _).eval (answerFrom E w) =
      .ok (E.resolveKeyProvider reference) := fun _ => rfl
  have hvalid := validateSavedRotation_eval h hprovided
  unfold openSaved
  rw [Prog.ofExcept_bind h.references, Prog.eval_bind_ok (hresolve _)]
  dsimp only
  split
  next hsame =>
    rw [hsame] at hvalid
    simp only [providersOf, hsame]
    exact Prog.eval_bind_ok hvalid
  next =>
    rw [Prog.eval_bind_ok (hresolve _)]
    exact Prog.eval_bind_ok hvalid

/-! ## Changes of keys -/

omit [DecidableEq Bytes] in
/-- The target's new key becomes active. -/
theorem Provided.activate (h : Provided E s newKey custody) (haccepted : s.isAccepted = true) {keys : Keys}
    (hother : (custody (E.resolveKeyProvider s.newProviderReference)).active ≠ some newKey)
    (hactivate : (custody (E.resolveKeyProvider s.newProviderReference)).activate s.newKid = some keys) :
    Provided E s newKey (Function.update custody (E.resolveKeyProvider s.newProviderReference) keys) := by
  obtain ⟨k, hk, hname, hactive, hperm, hlisted⟩ := Custody.activate_cases hactivate
  have hnew : k = newKey := by
    have hfind := Custody.find?_iff.mpr ⟨List.mem_append_right _ hk, hname⟩
    exact Option.some.inj (hfind.symm.trans h.target)
  subst hnew
  refine ⟨?_, ?_⟩
  · rw [Function.update_self, Custody.find?_congr hperm]
    exact h.target
  · rcases h.source with hsource | hgone
    · refine .inl ?_
      by_cases hsame : E.resolveKeyProvider s.previousProviderReference = E.resolveKeyProvider s.newProviderReference
      · rw [hsame] at hsource ⊢
        refine ⟨?_, ?_, .inr ⟨rfl, haccepted, ?_⟩⟩
        · rw [Function.update_self, hlisted]
          exact .inr hsource.listed
        · rw [Function.update_self, Custody.find?_congr hperm]
          exact hsource.found
        · rw [Function.update_self]
          exact hactive
      · refine ⟨?_, ?_, ?_⟩
        · rw [Function.update_of_ne hsame]
          exact hsource.listed
        · rw [Function.update_of_ne hsame]
          exact hsource.found
        · rw [Function.update_of_ne hsame]
          exact .inl (hsource.active.resolve_right fun hright => hsame hright.1)
    · exact absurd hgone.active hother

/-- The previous key is superseded after the new one became active. -/
theorem Provided.supersede (h : Provided E s newKey custody) (hbound : Bound M s newKey) (haccepted : s.isAccepted = true)
    {keys : Keys} (hactive : (custody (E.resolveKeyProvider s.newProviderReference)).active = some newKey)
    (hsupersede : (custody (E.resolveKeyProvider s.previousProviderReference)).supersede
      (E.methods (E.resolveKeyProvider s.previousProviderReference)).activeSigningKey s.previousKid = some keys) :
    Provided E s newKey (Function.update custody (E.resolveKeyProvider s.previousProviderReference) keys) := by
  obtain ⟨hlisted, hgone, hkept, hfound⟩ := Custody.supersede_cases hsupersede
  have hsource := h.source.resolve_right fun hright => hright.gone hlisted
  have hprevious : kidOf s.previousKey = s.previousKid := (Custody.find?_iff.mp hsource.found).2
  have hnext : kidOf newKey = s.newKid := (Custody.find?_iff.mp h.target).2
  by_cases hsame : E.resolveKeyProvider s.newProviderReference = E.resolveKeyProvider s.previousProviderReference
  · have htarget := h.target
    have hsourceFound := hsource.found
    rw [hsame] at hactive htarget
    have hne : s.newKid ≠ s.previousKid := (hbound.kids_ne hsourceFound htarget).symm
    have hstays : keys.active = some newKey := by rw [hkept, hactive]; simp [hnext, hne]
    refine ⟨?_, .inr ⟨?_, haccepted, ?_, fun hdiffer => absurd hsame.symm hdiffer⟩⟩
    · rw [hsame, Function.update_self]
      exact hfound _ _ hne htarget
    · rw [Function.update_self]
      exact hgone
    · rw [hsame, Function.update_self]
      exact hstays
  · have hcurrent : (custody (E.resolveKeyProvider s.previousProviderReference)).active = some s.previousKey :=
      hsource.active.resolve_right fun hright => hsame hright.1.symm
    refine ⟨?_, .inr ⟨?_, haccepted, ?_, fun _ => ⟨?_, ?_⟩⟩⟩
    · rw [Function.update_of_ne hsame]
      exact h.target
    · rw [Function.update_self]
      exact hgone
    · rw [Function.update_of_ne hsame]
      exact hactive
    · rw [Function.update_self, hkept, hcurrent]
      simp [hprevious]
    · exact Custody.vacant_of_supersede hsupersede hcurrent hprevious

/-! ## Later states of one operation -/

/-- The state after an answer, an activation or a change of the pause. -/
def later (s : ManagedKeyRotationResult Bytes) (submission : Option SubmissionResult) (activated paused : Bool) :
    ManagedKeyRotationResult Bytes :=
  { s with submission := submission, activated := activated, applicationSigningPaused := paused }

omit [DecidableEq Bytes] in
theorem Provided.later (h : Provided E s newKey custody) {submission : Option SubmissionResult} (activated paused : Bool)
    (haccepted : s.isAccepted = true → submission.any (fun submission => submission.state = .accepted) = true) :
    Provided E (Rotation.later s submission activated paused) newKey custody where
  target := h.target
  source := h.source.imp
    (fun hlisted => ⟨hlisted.listed, hlisted.found, hlisted.active.imp_right fun hright =>
      ⟨hright.1, haccepted hright.2.1, hright.2.2⟩⟩)
    (fun hgone => ⟨hgone.gone, haccepted hgone.accepted, hgone.active, hgone.inactive⟩)

omit [DecidableEq Bytes] in
/-- Another state of the operation may be the durable one when it was accepted, or the previous key is still active. -/
theorem Provided.of_later {submission : Option SubmissionResult} {activated paused : Bool}
    (h : Provided E (Rotation.later s submission activated paused) newKey custody)
    (hsource : s.previousKid ∈ (custody (E.resolveKeyProvider s.previousProviderReference)).listed ∧
      (custody (E.resolveKeyProvider s.previousProviderReference)).active = some s.previousKey ∨ s.isAccepted = true) :
    Provided E s newKey custody where
  target := h.target
  source := by
    rcases h.source with hlisted | hgone
    · refine .inl ⟨hlisted.listed, hlisted.found, ?_⟩
      rcases hsource with ⟨-, hactive⟩ | haccepted
      · exact .inl hactive
      · exact hlisted.active.imp_right fun hright => ⟨hright.1, haccepted, hright.2.2⟩
    · exact .inr ⟨hgone.gone, hsource.resolve_left fun hleft => hgone.gone hleft.1, hgone.active, hgone.inactive⟩

theorem Bound.later (h : Bound M s newKey) {submission : Option SubmissionResult} {activated paused : Bool}
    (hsubmission : ∀ result, submission = some result →
      assertSubmissionMatchesRotation M (Rotation.later s submission activated paused) result = .ok ()) :
    Bound M (Rotation.later s submission activated paused) newKey where
  references := h.references
  domain := h.domain
  hash := h.hash
  previous := h.previous
  next := h.next
  distinct := h.distinct
  entry := h.entry
  submission := hsubmission

omit [DecidableEq Bytes] in
/-- A result that matches is matched when it is saved. -/
theorem submission_saved {result : SubmissionResult} (h : assertSubmissionMatchesRotation M s result = .ok ()) :
    assertSubmissionMatchesRotation M { s with submission := some result } result = .ok () := by
  unfold assertSubmissionMatchesRotation at h ⊢
  obtain ⟨_, -, h⟩ := bind_eq_ok.mp h
  refine bind_eq_ok.mpr ⟨(), throwIf_eq_ok.mpr (by simp), ?_⟩
  exact h

/-! ## What acceptance says -/

/-- The accepted submission is one of exactly the saved bytes, at a reference of the log, for the new key. -/
structure AcceptedExactly (M : ManagedPlatform Bytes) (s : ManagedKeyRotationResult Bytes)
    (submission : SubmissionResult) : Prop where
  saved : s.submission = some submission
  state : submission.state = .accepted
  entryHash : submission.entryHash = M.sha256Hex s.entryBytes
  logRef : ∃ index, safeIndex submission.index = some index ∧ submission.logRef = some (boundLogRef s index)
  keyId : submission.keyId = some s.newKid

theorem Bound.acceptedExactly (h : Bound M s newKey) (haccepted : s.isAccepted = true) :
    ∃ submission, AcceptedExactly M s submission := by
  obtain ⟨submission, hsubmission, hstate⟩ := accepted_submission haccepted
  have hmatches := h.submission submission hsubmission
  unfold assertSubmissionMatchesRotation at hmatches
  obtain ⟨_, -, hmatches⟩ := bind_eq_ok.mp hmatches
  obtain ⟨_, -, hmatches⟩ := bind_eq_ok.mp hmatches
  rw [if_pos hstate] at hmatches
  simp only [assertAcceptedSubmission, bind_eq_ok, throwIf_eq_ok, not_not] at hmatches
  obtain ⟨_, hhash, _, ⟨index, hindex, hlogRef⟩, hkeyId⟩ := hmatches
  exact ⟨submission, hsubmission, hstate, hhash, ⟨index, hindex, hlogRef⟩, hkeyId⟩

/-! ## The first state -/

/-- The current key of a set has a `kid` and an `alg`. -/
theorem currentKey_named {role : String} {keys : List DnsIdJWK} (h : currentDraft01SigningKey role keys = .ok key) :
    key ∈ keys ∧ ∃ kid alg, key.get? "kid" = some (.str kid) ∧ key.get? "alg" = some (.str alg) := by
  unfold currentDraft01SigningKey at h
  split at h
  next found hfilter =>
    obtain ⟨_, hkid, h⟩ := bind_eq_ok.mp h
    obtain ⟨_, halg, h⟩ := bind_eq_ok.mp h
    obtain ⟨_, -, h⟩ := bind_eq_ok.mp h
    obtain ⟨_, -, h⟩ := bind_eq_ok.mp h
    obtain rfl := pure_eq_ok.mp h
    refine ⟨List.mem_of_mem_filter (hfilter ▸ List.mem_singleton.mpr rfl), ?_⟩
    cases hkidText : found.text? "kid" with
    | none => simp [hkidText, throwIf_eq_ok] at hkid
    | some kid =>
      cases halgText : found.text? "alg" with
      | none => simp [halgText, throwIf_eq_ok] at halg
      | some alg => exact ⟨kid, alg, text?_eq.mp hkidText, text?_eq.mp halgText⟩
  next => cases h

theorem kid_of_validated (h : validateOperational key = .ok ()) :
    ∃ kid alg, key.get? "kid" = some (.str kid) ∧ key.get? "alg" = some (.str alg) := by
  obtain ⟨found, hfound, -⟩ := bind_eq_ok.mp h
  obtain ⟨hmem, hnamed⟩ := currentKey_named hfound
  obtain rfl := List.mem_singleton.mp hmem
  exact hnamed

omit [DecidableEq Bytes] in
/-- The prepared key is compared by its `kid`, its `alg` and its thumbprint. -/
theorem assertPreparedRotationKey_congr {value value' thumbprint thumbprint' : Option Json}
    (hvalue : value.map Json.sorted = value'.map Json.sorted)
    (hthumbprint : thumbprint.map Json.sorted = thumbprint'.map Json.sorted) (hvalid : validateOperational newKey = .ok ())
    (h : (assertPreparedRotationKey M value thumbprint newKey : Except (RotationCause Bytes) Unit) = .ok ()) :
    (assertPreparedRotationKey M value' thumbprint' newKey : Except (RotationCause Bytes) Unit) = .ok () := by
  obtain ⟨kid, alg, hkid, halg⟩ := kid_of_validated hvalid
  simp only [assertPreparedRotationKey, bind_eq_ok, throwIf_eq_ok, orThrow_eq_ok, liftWriter_eq_ok, not_or, not_not]
    at h ⊢
  obtain ⟨members, hmembers, actual, hactual, expected, hexpected, _, ⟨hkid', halg', hsame⟩, hthumb⟩ := h
  cases value with
  | none => cases hmembers
  | some value =>
    obtain ⟨value', rfl⟩ : ∃ v, value' = some v := by
      cases value' with
      | none => cases hvalue
      | some v => exact ⟨v, rfl⟩
    have hsorted : value.sorted = value'.sorted := by simpa using hvalue
    obtain rfl : value = .obj members := by
      cases value <;> simp [Json.members?] at hmembers
      rw [hmembers]
    obtain ⟨members', rfl⟩ := Json.eq_obj_of_sorted hsorted rfl
    refine ⟨members', rfl, actual, ?_, expected, hexpected, (), ⟨?_, ?_, hsame⟩, ?_⟩
    · rw [← hactual]
      unfold thumbprintOf
      rw [M.jwkThumbprint_sorted _ _ hsorted]
    · rw [hkid] at hkid' ⊢
      exact get?_str_congr hsorted hkid'
    · rw [halg] at halg' ⊢
      exact get?_str_congr hsorted halg'
    · exact Json.eq_str_of_sorted hthumbprint hthumb

/-- Signing replaces only the signatures. -/
theorem signAs_kept {role : C2spSignerRole} {prepared signed : PreparedC2spTlogEvent Bytes}
    {provider : KeyProvider Bytes} {context : PreparedC2spVerificationContext}
    (h : (signAs M role prepared provider context : Except (RotationCause Bytes) _) = .ok signed) :
    signed.reference = prepared.reference ∧
      ∀ name, name ≠ "sigs" → signed.envelope.lookup name = prepared.envelope.lookup name := by
  obtain ⟨-, hreference, sigs, signature, -, henvelope⟩ := signPrepared_ok (liftWriter_eq_ok.mp h)
  refine ⟨hreference, fun name hname => ?_⟩
  rw [henvelope, lookup_setMember, if_neg hname]

variable {options : RotateManagedOperationalKeyOptions} {domain previousThumbprint : String} {previousKey : DnsIdJWK}
variable {raw : Bytes} {prepared : PreparedC2spTlogEvent Bytes}

theorem readPreparedRotation_ok
    (h : readPreparedRotation M options domain previousKey newKey previousThumbprint raw = .ok prepared) :
    boundReference M.toWriterPlatform options.logReference = .ok prepared.reference ∧
      isRotationOf prepared.envelope domain previousThumbprint ∧
      (assertPreparedRotationKey M (prepared.envelope.lookup "new_ku") (prepared.envelope.lookup "new_thumb") newKey :
        Except (RotationCause Bytes) Unit) = .ok () := by
  simp only [readPreparedRotation, bind_eq_ok, throwIf_eq_ok, liftWriter_eq_ok, pure_eq_ok, not_not] at h
  obtain ⟨parsed, hparsed, _, htype, _, hfqdn, _, hthumb, _, hkey, rfl⟩ := h
  refine ⟨?_, ⟨htype, hfqdn, hthumb⟩, hkey⟩
  unfold parsePreparedC2spTlogEvent at hparsed
  obtain ⟨_, -, hparsed⟩ := bind_eq_ok.mp hparsed
  obtain ⟨reference, hreference, hparsed⟩ := bind_eq_ok.mp hparsed
  obtain ⟨_, -, hparsed⟩ := bind_eq_ok.mp hparsed
  obtain ⟨made, hmade, hparsed⟩ := bind_eq_ok.mp hparsed
  obtain ⟨_, -, hparsed⟩ := bind_eq_ok.mp hparsed
  obtain ⟨_, -, hparsed⟩ := bind_eq_ok.mp hparsed
  obtain rfl := pure_eq_ok.mp hparsed
  rw [(makePrepared_ok hmade).1]
  exact hreference

/-- The finished entry is read back as the rotation that was prepared. -/
theorem entry_readBack {once twice : PreparedC2spTlogEvent Bytes} {previousProvider targetProvider : KeyProvider Bytes}
    {bytes : Bytes} (hread : readPreparedRotation M options domain previousKey newKey previousThumbprint raw = .ok prepared)
    (honce : signAs M .previousOperational prepared previousProvider (rotationContext domain previousKey) = .ok once)
    (htwice : signAs M .newOperational once targetProvider (rotationContext domain previousKey) = .ok twice)
    (hbytes : c2spTlogEntryBytes M.toWriterPlatform twice (rotationContext domain previousKey) = .ok bytes)
    (hvalid : validateOperational newKey = .ok ()) :
    ∃ back, parsePreparedC2spTlogEvent M.toWriterPlatform bytes options.logReference
        (rotationContext domain previousKey) = .ok back ∧
      isRotationOf back.envelope domain previousThumbprint ∧
      (assertPreparedRotationKey M (back.envelope.lookup "new_ku") (back.envelope.lookup "new_thumb") newKey :
        Except (RotationCause Bytes) Unit) = .ok () ∧
      c2spTlogEntryBytes M.toWriterPlatform back (rotationContext domain previousKey) = .ok bytes := by
  obtain ⟨hreference, ⟨htype, hfqdn, hthumb⟩, hkey⟩ := readPreparedRotation_ok hread
  obtain ⟨href₁, hkept₁⟩ := signAs_kept honce
  obtain ⟨href₂, hkept₂⟩ := signAs_kept htwice
  have hkept : ∀ name, name ≠ "sigs" → twice.envelope.lookup name = prepared.envelope.lookup name :=
    fun name hname => (hkept₂ name hname).trans (hkept₁ name hname)
  rw [← href₁, ← href₂] at hreference
  obtain ⟨back, hback, -, hsorted, hagain⟩ := readBack hreference hbytes
  have hstr : ∀ name text, name ≠ "sigs" → prepared.envelope.lookup name = some (.str text) →
      back.envelope.lookup name = some (.str text) := by
    intro name text hname hlookup
    rw [← hkept name hname] at hlookup
    exact (lookup_str_congr hsorted name text).mp hlookup
  have hmember : ∀ name, name ≠ "sigs" →
      (prepared.envelope.lookup name).map Json.sorted = (back.envelope.lookup name).map Json.sorted := by
    intro name hname
    rw [← hkept name hname]
    exact Json.get?_eq_of_sorted hsorted name
  refine ⟨back, hback, ⟨?_, ?_, ?_⟩, ?_, hagain⟩
  · exact hstr "type" _ (by decide) htype
  · exact hstr "fqdn" _ (by decide) hfqdn
  · exact hstr "prev_thumb" _ (by decide) hthumb
  · exact assertPreparedRotationKey_congr (hmember "new_ku" (by decide)) (hmember "new_thumb" (by decide)) hvalid hkey

end Bound

end Dnsid.Managed.Rotation

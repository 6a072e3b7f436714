import Dnsid.Foundations.Replay
import Dnsid.Stream.Identity

/-! # The replay refines the identity

Each check of the replay is inverted once, then each kind of turn, then the whole fold: `replay_genesis` says
what a lifecycle is that `verifyLifecycle` lets through.
-/
namespace Dnsid.Stream
open Dnsid.Foundations Dnsid.Events
set_option autoImplicit false

/-! ## Inverting the checks -/

section Checks
variable {Bytes : Type} [DecidableEq Bytes] {P : Platform Bytes}

theorem ownThrow_ok {α : Type} {x : Except Thrown α} {a : α} : ownThrow x = .ok a ↔ x = .ok a := by
  cases x <;> simp [ownThrow]

theorem callbackThrow_ok {α : Type} {x : Except Thrown α} {a : α} :
    callbackThrow x = .ok a ↔ x = .ok a := by
  cases x <;> simp [callbackThrow]

theorem nonEmpty_eq {text : Option String} {s : String} (h : nonEmpty text = some s) : text = some s :=
  (Option.filter_eq_some_iff.mp h).1

theorem verifyEventSignature_ok {item : VerifiedLifecycleEvent Bytes} {signature message : String}
    {key : DnsIdJWK} {u : Unit} :
    verifyEventSignature P item signature key message = .ok u ↔ SignedBy P item.bytes signature key := by
  unfold verifyEventSignature SignedBy
  constructor
  · intro h
    obtain ⟨signed, hsigned, h⟩ := bind_eq_ok.mp h
    obtain ⟨signatureBytes, hbytes, h⟩ := bind_eq_ok.mp h
    have hverify := throwIf_eq_ok.mp h
    exact ⟨signed, signatureBytes, hsigned, orThrow_eq_ok.mp hbytes, by simpa using hverify⟩
  · rintro ⟨signed, signatureBytes, hsigned, hbytes, hverify⟩
    rw [hsigned, hbytes]
    show throwIf _ _ = _
    rw [throwIf_eq_ok, hverify]
    simp

omit [DecidableEq Bytes] in
theorem thumbprintOf_ok {key : DnsIdJWK} {thumbprint : String} :
    thumbprintOf P key = .ok thumbprint ↔ P.jwkThumbprint key = some thumbprint := orThrow_eq_ok

omit [DecidableEq Bytes] in
theorem assertDistinctLifecycleKeys_ok {a b : DnsIdJWK} {type : LogEventType} {u : Unit}
    (h : assertDistinctLifecycleKeys P a b type = .ok u) : DistinctKeys P a b := by
  unfold assertDistinctLifecycleKeys at h
  obtain ⟨ta, ha, h⟩ := bind_eq_ok.mp h
  obtain ⟨tb, hb, h⟩ := bind_eq_ok.mp h
  have hne := throwIf_eq_ok.mp h
  exact ⟨ta, tb, thumbprintOf_ok.mp ha, thumbprintOf_ok.mp hb, hne⟩

omit [DecidableEq Bytes] in
theorem activeState_ok {domain status : String} {entityKey operationalKey : DnsIdJWK} {state : Json}
    (h : activeState P domain entityKey operationalKey status = .ok state) :
    ∃ entityThumb operationalThumb, P.jwkThumbprint entityKey = some entityThumb ∧
      P.jwkThumbprint operationalKey = some operationalThumb ∧
      state = lifecycleState domain status entityThumb operationalThumb := by
  unfold activeState at h
  obtain ⟨entityThumb, he, h⟩ := bind_eq_ok.mp h
  obtain ⟨operationalThumb, ho, h⟩ := bind_eq_ok.mp h
  exact ⟨entityThumb, operationalThumb, thumbprintOf_ok.mp he, thumbprintOf_ok.mp ho,
    (pure_eq_ok.mp h).symm⟩

/-- The checks made before the type of an event is looked at. -/
structure Checked (P : Platform Bytes) (options : StreamVerifierOptions) (st : Replay Bytes)
    (event : LogEvent) (sig : String) : Prop where
  position : assertPosition st event.type = .ok ()
  chain : assertChain P st event = .ok ()
  timely : Timely options event
  sig : event.sig = some sig

theorem assertEvent_ok {options : StreamVerifierOptions} {st : Replay Bytes} {event : LogEvent}
    {sig : String} (h : assertEvent P options st event = .ok sig) : Checked P options st event sig := by
  unfold assertEvent at h
  obtain ⟨_, hposition, h⟩ := bind_eq_ok.mp h
  obtain ⟨timestamp, htime, h⟩ := bind_eq_ok.mp h
  obtain ⟨_, _, h⟩ := bind_eq_ok.mp h
  obtain ⟨limit, hlimit, h⟩ := bind_eq_ok.mp h
  obtain ⟨_, hle, h⟩ := bind_eq_ok.mp h
  obtain ⟨_, _, h⟩ := bind_eq_ok.mp h
  obtain ⟨_, hchain, h⟩ := bind_eq_ok.mp h
  refine ⟨hposition, hchain, ⟨timestamp, limit, orThrow_eq_ok.mp htime, orThrow_eq_ok.mp hlimit, ?_⟩,
    nonEmpty_eq (orThrow_eq_ok.mp h)⟩
  exact Int.not_lt.mp (throwIf_eq_ok.mp hle)

omit [DecidableEq Bytes] in
theorem assertPosition_ok {st : Replay Bytes} {type : LogEventType} {u : Unit}
    (h : assertPosition st type = .ok u) :
    st.terminal = false ∧ (st.first = true → type = .issuance ∨ type = .migration) ∧
      (st.first = false → type ≠ .issuance ∧ type ≠ .migration) := by
  unfold assertPosition at h
  obtain ⟨_, h₁, h⟩ := bind_eq_ok.mp h
  obtain ⟨_, h₂, h⟩ := bind_eq_ok.mp h
  obtain ⟨_, h₃, h⟩ := bind_eq_ok.mp h
  rw [throwIf_eq_ok] at h₁ h₂ h₃ h
  refine ⟨by simpa using h₁, ?_, ?_⟩
  · intro hfirst
    by_contra hne
    exact h₂ ⟨hfirst, not_or.mp hne⟩
  · intro hfirst
    have hnot : (!st.first) = true := by rw [hfirst]; rfl
    exact ⟨fun ht => h₃ ⟨hnot, ht⟩, fun ht => h ⟨hnot, ht⟩⟩

theorem assertFirstChainFields_ok {event : LogEvent} {u : Unit}
    (h : assertFirstChainFields event = .ok u) :
    event.chain.seq = some (.num 0) ∧ event.chain.prevEventId = none ∧
      event.chain.prevStateHash = none := by
  unfold assertFirstChainFields at h
  obtain ⟨_, hseq, h⟩ := bind_eq_ok.mp h
  have hnone := throwIf_eq_ok.mp h
  rw [not_or, not_not, not_not] at hnone
  exact ⟨not_not.mp (throwIf_eq_ok.mp hseq), hnone⟩

theorem assertChainFields_ok {event : LogEvent} {prev : VerifiedLifecycleEvent Bytes} {prevState : Json}
    {u : Unit} (h : assertChainFields P event prev prevState = .ok u) :
    (∃ seq, nextSeq prev.event.chain.seq = some seq ∧ event.chain.seq = some seq) ∧
      (∃ signed, signedC2spEntryBytes P prev.bytes = .ok signed ∧
        event.chain.prevEventId = some (.str (c2spEventId P signed))) ∧
      ∃ hash, stateHash P prevState = .ok hash ∧ event.chain.prevStateHash = some (.str hash) := by
  unfold assertChainFields at h
  obtain ⟨seq, hnext, h⟩ := bind_eq_ok.mp h
  obtain ⟨_, hseq, h⟩ := bind_eq_ok.mp h
  obtain ⟨signed, hsigned, h⟩ := bind_eq_ok.mp h
  obtain ⟨_, hid, h⟩ := bind_eq_ok.mp h
  obtain ⟨hash, hhash, h⟩ := bind_eq_ok.mp h
  rw [throwIf_eq_ok, not_not] at hseq hid h
  exact ⟨⟨seq, orThrow_eq_ok.mp hnext, hseq⟩, ⟨signed, hsigned, hid⟩, hash, hhash, h⟩

/-! ## Inverting one turn -/

theorem assertC2spIssuanceEvent_ok {fields : IssuanceEvent} {event : C2spIssuanceEvent}
    (h : assertC2spIssuanceEvent fields = .ok event) :
    fields.initialEntityPublicKey = some event.initialEntityPublicKey ∧
      fields.initialOperationalPublicKey = some event.initialOperationalPublicKey ∧
      fields.initialEntityThumbprint = some event.initialEntityThumbprint ∧
      fields.initialOperationalThumbprint = some event.initialOperationalThumbprint ∧
      event.initialEntityThumbprint ≠ "" ∧ event.initialOperationalThumbprint ≠ "" := by
  unfold assertC2spIssuanceEvent at h
  obtain ⟨_, _, h⟩ := bind_eq_ok.mp h
  obtain ⟨_, _, h⟩ := bind_eq_ok.mp h
  obtain ⟨_, hopKey, h⟩ := bind_eq_ok.mp h
  obtain ⟨_, hopThumb, h⟩ := bind_eq_ok.mp h
  obtain ⟨_, _, h⟩ := bind_eq_ok.mp h
  obtain ⟨_, _, h⟩ := bind_eq_ok.mp h
  obtain ⟨_, hkey, h⟩ := bind_eq_ok.mp h
  obtain ⟨_, hthumb, h⟩ := bind_eq_ok.mp h
  obtain rfl := pure_eq_ok.mp h
  have hkey' := Option.filter_eq_some_iff.mp (orThrow_eq_ok.mp hkey)
  have hopKey' := Option.filter_eq_some_iff.mp (orThrow_eq_ok.mp hopKey)
  have hthumb' := Option.filter_eq_some_iff.mp (orThrow_eq_ok.mp hthumb)
  have hopThumb' := Option.filter_eq_some_iff.mp (orThrow_eq_ok.mp hopThumb)
  exact ⟨hkey'.1, hopKey'.1, hthumb'.1, hopThumb'.1, of_decide_eq_true hthumb'.2,
    of_decide_eq_true hopThumb'.2⟩

/-- Key metadata of an ISSUANCE that passes. -/
structure IssuanceKeys (P : Platform Bytes) (event : C2spIssuanceEvent) : Prop where
  entity : SupportedJwk event.initialEntityPublicKey
  operational : SupportedJwk event.initialOperationalPublicKey
  entityThumbprint : P.jwkThumbprint event.initialEntityPublicKey = some event.initialEntityThumbprint
  operationalThumbprint :
    P.jwkThumbprint event.initialOperationalPublicKey = some event.initialOperationalThumbprint

omit [DecidableEq Bytes] in
theorem assertIssuanceKeyMetadata_ok {event : C2spIssuanceEvent} {u : Unit}
    (h : assertIssuanceKeyMetadata P event = .ok u) : IssuanceKeys P event := by
  unfold assertIssuanceKeyMetadata at h
  obtain ⟨_, hop, h⟩ := bind_eq_ok.mp h
  obtain ⟨_, hentity, h⟩ := bind_eq_ok.mp h
  obtain ⟨opThumb, hopThumb, h⟩ := bind_eq_ok.mp h
  obtain ⟨_, hopEq, h⟩ := bind_eq_ok.mp h
  obtain ⟨entityThumb, hentityThumb, h⟩ := bind_eq_ok.mp h
  obtain ⟨_, hentityEq, h⟩ := bind_eq_ok.mp h
  rw [throwIf_eq_ok, not_not] at hopEq hentityEq
  refine ⟨(assertSupportedLifecycleJwk_ok.mp hentity).2, (assertSupportedLifecycleJwk_ok.mp hop).2, ?_, ?_⟩
  · rw [hentityEq]
    exact thumbprintOf_ok.mp hentityThumb
  · rw [hopEq]
    exact thumbprintOf_ok.mp hopThumb

omit [DecidableEq Bytes] in
theorem assertTrustedEntity_ok {signerKey : Option DnsIdJWK} {entityKey : DnsIdJWK} {thumbprint : String}
    {type : LogEventType} {u : Unit} (h : assertTrustedEntity P signerKey thumbprint type = .ok u)
    (hentity : P.jwkThumbprint entityKey = some thumbprint) : TrustedEntity P signerKey entityKey := by
  rintro key rfl
  obtain ⟨trusted, htrusted, heq⟩ := bind_eq_ok.mp h
  rw [throwIf_eq_ok, not_not] at heq
  subst heq
  exact ⟨trusted, thumbprintOf_ok.mp htrusted, hentity⟩

theorem issuanceStep_ok {options : StreamVerifierOptions} {item : VerifiedLifecycleEvent Bytes}
    {sig : String} {fields : IssuanceEvent} {st : Replay Bytes} (hsig : item.event.sig = some sig)
    (hbody : item.event.body = .issuance fields)
    (h : issuanceStep P options item sig fields = .ok st) :
    ∃ s : Identity, s.status = .active ∧ fields.initialEntityPublicKey = some s.entityKey ∧
      fields.initialOperationalPublicKey = some s.operationalKey ∧
      (SupportedJwk s.entityKey ∧ SupportedJwk s.operationalKey) ∧
      DistinctKeys P s.entityKey s.operationalKey ∧ TrustedEntity P options.signerKey s.entityKey ∧
      EventSigned P item.bytes item.event s s ∧ Tracks P item.event.domain item s st := by
  unfold issuanceStep at h
  obtain ⟨event, hevent, h⟩ := bind_eq_ok.mp h
  obtain ⟨_, hmeta, h⟩ := bind_eq_ok.mp h
  obtain ⟨_, hdistinct, h⟩ := bind_eq_ok.mp h
  obtain ⟨_, htrusted, h⟩ := bind_eq_ok.mp h
  obtain ⟨_, hsigned, h⟩ := bind_eq_ok.mp h
  obtain ⟨countersig, hcounter, h⟩ := bind_eq_ok.mp h
  obtain ⟨_, hcountersigned, h⟩ := bind_eq_ok.mp h
  obtain rfl := pure_eq_ok.mp h
  obtain ⟨hentity, hop, -, -, -, -⟩ := assertC2spIssuanceEvent_ok hevent
  have hkeys := assertIssuanceKeyMetadata_ok hmeta
  refine ⟨⟨.active, event.initialEntityPublicKey, event.initialOperationalPublicKey⟩, rfl, hentity, hop,
    ⟨hkeys.entity, hkeys.operational⟩, assertDistinctLifecycleKeys_ok hdistinct,
    assertTrustedEntity_ok htrusted hkeys.entityThumbprint, ?_, ?_⟩
  · rw [EventSigned, hbody]
    exact ⟨⟨sig, hsig, verifyEventSignature_ok.mp hsigned⟩, countersig,
      nonEmpty_eq (orThrow_eq_ok.mp hcounter), verifyEventSignature_ok.mp hcountersigned⟩
  · exact ⟨rfl, rfl, rfl, rfl, _, _, hkeys.entityThumbprint, hkeys.operationalThumbprint, rfl⟩

theorem migratedStep_ok {options : StreamVerifierOptions} {item : VerifiedLifecycleEvent Bytes}
    {sig : String} {fields : MigrationEvent} {migrated : MigrationVerificationResult}
    {st : Replay Bytes} (hsig : item.event.sig = some sig)
    (hbody : item.event.body = .migration fields)
    (h : migratedStep P options item sig migrated = .ok st) :
    let s : Identity := ⟨.active, migrated.entityKey, migrated.activeOperationalKey⟩
    (SupportedJwk s.entityKey ∧ SupportedJwk s.operationalKey) ∧
      DistinctKeys P s.entityKey s.operationalKey ∧ TrustedEntity P options.signerKey s.entityKey ∧
      EventSigned P item.bytes item.event s s ∧ Tracks P item.event.domain item s st := by
  unfold migratedStep at h
  obtain ⟨_, hentity, h⟩ := bind_eq_ok.mp h
  obtain ⟨_, hop, h⟩ := bind_eq_ok.mp h
  obtain ⟨_, hdistinct, h⟩ := bind_eq_ok.mp h
  obtain ⟨thumbprint, hthumbprint, h⟩ := bind_eq_ok.mp h
  obtain ⟨_, htrusted, h⟩ := bind_eq_ok.mp h
  obtain ⟨_, hkid, h⟩ := bind_eq_ok.mp h
  obtain ⟨_, hsigned, h⟩ := bind_eq_ok.mp h
  obtain ⟨state, hstate, h⟩ := bind_eq_ok.mp h
  obtain rfl := pure_eq_ok.mp h
  rw [throwIf_eq_ok, not_not] at hkid
  refine ⟨⟨(assertSupportedLifecycleJwk_ok.mp hentity).2, (assertSupportedLifecycleJwk_ok.mp hop).2⟩,
    assertDistinctLifecycleKeys_ok hdistinct,
    assertTrustedEntity_ok htrusted (thumbprintOf_ok.mp hthumbprint), ?_, ?_⟩
  · rw [EventSigned, hbody]
    exact ⟨⟨sig, hsig, verifyEventSignature_ok.mp hsigned⟩, hkid⟩
  · exact ⟨rfl, rfl, rfl, rfl, activeState_ok hstate⟩

omit [DecidableEq Bytes] in
theorem assertRotationKeyMetadata_ok {rotation : KeyRotationEvent} {u : Unit}
    (h : assertRotationKeyMetadata P rotation = .ok u) :
    SupportedJwk rotation.newOperationalPublicKey ∧
      P.jwkThumbprint rotation.newOperationalPublicKey = some rotation.newOperationalThumbprint := by
  unfold assertRotationKeyMetadata at h
  obtain ⟨_, hkey, h⟩ := bind_eq_ok.mp h
  obtain ⟨thumbprint, hthumb, h⟩ := bind_eq_ok.mp h
  obtain ⟨_, heq, h⟩ := bind_eq_ok.mp h
  rw [throwIf_eq_ok, not_not] at heq
  refine ⟨(assertSupportedLifecycleJwk_ok.mp hkey).2, ?_⟩
  rw [heq]
  exact thumbprintOf_ok.mp hthumb

omit [DecidableEq Bytes] in
/-- `nextState` of an event other than a DELEGATION; a DELEGATION keeps the state. -/
theorem nextState_tracks {domain : String} {s : Identity} {st : Replay Bytes}
    {prev : VerifiedLifecycleEvent Bytes} {event : LogEvent} {state : Json}
    (htracks : Tracks P domain prev s st) (hstatus : s.status = .active)
    (htype : event.type ≠ .issuance ∧ event.type ≠ .migration) (hdomain : event.domain = domain)
    (h : nextState P st.prevState event s.entityKey (s.apply event).operationalKey = .ok state) :
    ∃ entityThumb operationalThumb, P.jwkThumbprint (s.apply event).entityKey = some entityThumb ∧
      P.jwkThumbprint (s.apply event).operationalKey = some operationalThumb ∧
      state = lifecycleState domain (s.apply event).status.name entityThumb operationalThumb := by
  unfold nextState at h
  split at h
  · next hdelegation =>
    cases h
    have happly : s.apply event = s := by
      unfold Identity.apply
      cases hb : event.body <;> simp_all [LogEvent.type, EventBody.type]
    rw [happly]
    exact htracks.state
  · next hdelegation =>
    obtain ⟨entityThumb, operationalThumb, he, ho, rfl⟩ := activeState_ok h
    refine ⟨entityThumb, operationalThumb, by rw [Identity.apply_entityKey]; exact he, ho, ?_⟩
    have hname : statusAfter event.type = (s.apply event).status.name := by
      unfold Identity.apply
      cases hb : event.body <;>
        simp_all [LogEvent.type, EventBody.type, statusAfter, AgentStatus.name]
    rw [hname, hdomain]

/-! ## The refinement -/

theorem rotationStep_ok {domain : String} {s : Identity}
    {st st' : Replay Bytes} {prev item : VerifiedLifecycleEvent Bytes} {sig : String}
    {rotation : KeyRotationEvent} (htracks : Tracks P domain prev s st) (hstatus : s.status = .active)
    (hsig : item.event.sig = some sig) (hbody : item.event.body = .keyRotation rotation)
    (hdomain : item.event.domain = domain)
    (h : rotationStep P st item sig s.entityKey s.operationalKey rotation = .ok st') :
    EventSigned P item.bytes item.event s (s.apply item.event) ∧ RotationAccepted P s rotation ∧
      Tracks P domain item (s.apply item.event) st' := by
  have happly : s.apply item.event = { s with operationalKey := rotation.newOperationalPublicKey } := by
    rw [Identity.apply, hbody]
  unfold rotationStep at h
  obtain ⟨activeThumb, hactive, h⟩ := bind_eq_ok.mp h
  obtain ⟨_, hprevious, h⟩ := bind_eq_ok.mp h
  obtain ⟨_, hmeta, h⟩ := bind_eq_ok.mp h
  obtain ⟨_, hdiffers, h⟩ := bind_eq_ok.mp h
  obtain ⟨_, hdistinct, h⟩ := bind_eq_ok.mp h
  obtain ⟨_, hsigned, h⟩ := bind_eq_ok.mp h
  obtain ⟨proof, hproof, h⟩ := bind_eq_ok.mp h
  obtain ⟨_, hproven, h⟩ := bind_eq_ok.mp h
  obtain ⟨state, hstate, h⟩ := bind_eq_ok.mp h
  obtain rfl := pure_eq_ok.mp h
  rw [throwIf_eq_ok, not_or, not_not, not_not] at hprevious
  rw [throwIf_eq_ok] at hdiffers
  obtain ⟨rfl, hkid⟩ := hprevious
  obtain ⟨hsupported, hthumb⟩ := assertRotationKeyMetadata_ok hmeta
  refine ⟨?_, ⟨hsupported, hthumb, thumbprintOf_ok.mp hactive, hdiffers,
    assertDistinctLifecycleKeys_ok hdistinct⟩, ?_⟩
  · rw [EventSigned, hbody, happly]
    exact ⟨⟨sig, hsig, verifyEventSignature_ok.mp hsigned⟩,
      ⟨proof, nonEmpty_eq (orThrow_eq_ok.mp hproof), verifyEventSignature_ok.mp hproven⟩, hkid⟩
  · have htype : item.event.type ≠ .issuance ∧ item.event.type ≠ .migration := by
      simp [LogEvent.type, EventBody.type, hbody]
    have hstate' := nextState_tracks htracks hstatus htype hdomain (by rw [happly]; exact hstate)
    rw [happly] at hstate' ⊢
    exact ⟨by simp [hstatus], rfl, rfl, rfl, hstate'⟩

theorem entityStep_ok {domain : String} {s : Identity} {st st' : Replay Bytes}
    {prev item : VerifiedLifecycleEvent Bytes} {sig : String} (htracks : Tracks P domain prev s st)
    (hstatus : s.status = .active) (hsig : item.event.sig = some sig)
    (htype : item.event.type ≠ .issuance ∧ item.event.type ≠ .migration)
    (hrotation : item.event.type ≠ .keyRotation) (hdomain : item.event.domain = domain)
    (h : entityStep P st item sig s.entityKey s.operationalKey = .ok st') :
    EventSigned P item.bytes item.event s (s.apply item.event) ∧ listedReason item.event.body = true ∧
      Tracks P domain item (s.apply item.event) st' := by
  unfold entityStep at h
  obtain ⟨_, hkid, h⟩ := bind_eq_ok.mp h
  obtain ⟨_, hsigned, h⟩ := bind_eq_ok.mp h
  obtain ⟨_, hreason, h⟩ := bind_eq_ok.mp h
  obtain ⟨state, hstate, h⟩ := bind_eq_ok.mp h
  obtain rfl := pure_eq_ok.mp h
  rw [throwIf_eq_ok, not_not] at hkid
  rw [throwIf_eq_ok] at hreason
  have hkey := Identity.apply_operationalKey s hrotation
  refine ⟨?_, by simpa using hreason, ?_⟩
  · unfold EventSigned
    have hprimary := verifyEventSignature_ok.mp hsigned
    cases hb : item.event.body with
    | issuance _ => exact absurd (by rw [LogEvent.type, hb]; rfl) htype.1
    | keyRotation _ => exact absurd (by rw [LogEvent.type, hb]; rfl) hrotation
    | _ =>
      rw [Identity.apply_entityKey]
      exact ⟨⟨sig, hsig, hprimary⟩, hkid⟩
  · have hstate' := nextState_tracks htracks hstatus htype hdomain (by rw [hkey]; exact hstate)
    refine ⟨?_, by rw [Identity.apply_entityKey], by rw [hkey], rfl, hstate'⟩
    unfold Identity.apply
    cases hb : item.event.body <;> simp_all [LogEvent.type, EventBody.type, isTerminal]

theorem continuingStep_ok {options : StreamVerifierOptions} {domain : String} {s : Identity}
    {st st' : Replay Bytes} {prev item : VerifiedLifecycleEvent Bytes} {sig : String}
    (htracks : Tracks P domain prev s st) (hdomain : item.event.domain = domain)
    (hchecked : Checked P options st item.event sig)
    (h : continuingStep P st item sig = .ok st') :
    Accepted P options domain prev s item ∧ Tracks P domain item (s.apply item.event) st' := by
  obtain ⟨hterminal, -, hlater⟩ := assertPosition_ok hchecked.position
  have hstatus : s.status = .active := by
    rw [htracks.terminal] at hterminal
    exact not_not.mp (of_decide_eq_false hterminal)
  have htype := hlater (by rw [Replay.first, htracks.previous]; rfl)
  have hchain := hchecked.chain
  rw [assertChain, htracks.previous] at hchain
  obtain ⟨hseq, hid, hash, hhash, hstateHash⟩ := assertChainFields_ok hchain
  obtain ⟨entityThumb, operationalThumb, he, ho, hstate⟩ := htracks.state
  have hprevState : s.HasStateHash P domain hash :=
    ⟨entityThumb, operationalThumb, he, ho, by rw [← hstate]; exact hhash⟩
  unfold continuingStep at h
  obtain ⟨entityKey, hentity, h⟩ := bind_eq_ok.mp h
  obtain ⟨operationalKey, hop, h⟩ := bind_eq_ok.mp h
  rw [orThrow_eq_ok, htracks.entityKey] at hentity
  rw [orThrow_eq_ok, htracks.operationalKey] at hop
  cases hentity
  cases hop
  cases hb : item.event.body with
  | keyRotation rotation =>
    rw [hb] at h
    obtain ⟨hsigned, hrotation, htracks'⟩ :=
      rotationStep_ok htracks hstatus hchecked.sig hb hdomain h
    refine ⟨⟨hstatus, htype, hchecked.timely, hseq, hid, ⟨hash, hprevState, hstateHash⟩, hsigned, ?_,
      by rw [hb]; rfl⟩, htracks'⟩
    intro r hr
    rw [hb] at hr
    cases hr
    exact hrotation
  | _ =>
    rw [hb] at h
    have hrotation : item.event.type ≠ .keyRotation := by simp [LogEvent.type, hb, EventBody.type]
    obtain ⟨hsigned, hreason, htracks'⟩ :=
      entityStep_ok htracks hstatus hchecked.sig htype hrotation hdomain h
    refine ⟨⟨hstatus, htype, hchecked.timely, hseq, hid, ⟨hash, hprevState, hstateHash⟩, hsigned, ?_,
      hreason⟩, htracks'⟩
    intro r hr
    rw [hb] at hr
    cases hr

theorem lifecycleStep_continues {options : StreamVerifierOptions}
    {verifyMigration : Option (LogEvent → Except Thrown MigrationVerificationResult)} {domain : String}
    {s : Identity} {st st' : Replay Bytes} {prev item : VerifiedLifecycleEvent Bytes}
    (htracks : Tracks P domain prev s st) (hdomain : item.event.domain = domain)
    (h : lifecycleStep P options verifyMigration st item = .ok st') :
    Accepted P options domain prev s item ∧ Tracks P domain item (s.apply item.event) st' := by
  unfold lifecycleStep at h
  obtain ⟨sig, hassert, h⟩ := bind_eq_ok.mp h
  have hchecked := assertEvent_ok (ownThrow_ok.mp hassert)
  have htype := (assertPosition_ok hchecked.position).2.2 (by
    rw [Replay.first, htracks.previous]; rfl)
  cases hb : item.event.body with
  | issuance _ => exact absurd (by rw [LogEvent.type, hb]; rfl) htype.1
  | migration _ => exact absurd (by rw [LogEvent.type, hb]; rfl) htype.2
  | _ =>
    rw [hb] at h
    exact continuingStep_ok htracks hdomain hchecked (ownThrow_ok.mp h)

/-- The key metadata behind an accepted ISSUANCE. -/
theorem lifecycleStep_issuance {options : StreamVerifierOptions}
    {verifyMigration : Option (LogEvent → Except Thrown MigrationVerificationResult)}
    {st st' : Replay Bytes} {item : VerifiedLifecycleEvent Bytes} {fields : IssuanceEvent}
    (hb : item.event.body = .issuance fields)
    (h : lifecycleStep P options verifyMigration st item = .ok st') :
    ∃ event, assertC2spIssuanceEvent fields = .ok event ∧ IssuanceKeys P event := by
  unfold lifecycleStep at h
  obtain ⟨sig, -, h⟩ := bind_eq_ok.mp h
  rw [hb] at h
  have h := ownThrow_ok.mp h
  unfold issuanceStep at h
  obtain ⟨event, hevent, h⟩ := bind_eq_ok.mp h
  obtain ⟨_, hmeta, -⟩ := bind_eq_ok.mp h
  exact ⟨event, hevent, assertIssuanceKeyMetadata_ok hmeta⟩

theorem lifecycleStep_genesis {options : StreamVerifierOptions}
    {verifyMigration : Option (LogEvent → Except Thrown MigrationVerificationResult)}
    {st : Replay Bytes} {item : VerifiedLifecycleEvent Bytes}
    (h : lifecycleStep P options verifyMigration .initial item = .ok st) :
    ∃ s, GenesisAccepted P options verifyMigration item s ∧ Tracks P item.event.domain item s st := by
  unfold lifecycleStep at h
  obtain ⟨sig, hassert, h⟩ := bind_eq_ok.mp h
  have hchecked := assertEvent_ok (ownThrow_ok.mp hassert)
  have htype := (assertPosition_ok hchecked.position).2.1 rfl
  have hchain : assertFirstChainFields item.event = .ok () := hchecked.chain
  obtain ⟨hseq, hprev⟩ := assertFirstChainFields_ok hchain
  cases hb : item.event.body with
  | issuance fields =>
    rw [hb] at h
    obtain ⟨s, hstatus, hentity, hop, hsupported, hdistinct, htrusted, hsigned, htracks⟩ :=
      issuanceStep_ok hchecked.sig hb (ownThrow_ok.mp h)
    refine ⟨s, ⟨hstatus, ?_, hseq, hprev, hchecked.timely, hsupported, hdistinct, htrusted, hsigned⟩,
      htracks⟩
    rw [GenesisKeys, hb]
    exact ⟨hentity, hop⟩
  | migration fields =>
    rw [hb] at h
    unfold migrationStep at h
    obtain ⟨callback, hcallback, h⟩ := bind_eq_ok.mp h
    obtain ⟨_, _, h⟩ := bind_eq_ok.mp h
    obtain ⟨migrated, hmigrated, h⟩ := bind_eq_ok.mp h
    obtain ⟨hsupported, hdistinct, htrusted, hsigned, htracks⟩ :=
      migratedStep_ok hchecked.sig hb (ownThrow_ok.mp h)
    refine ⟨⟨.active, migrated.entityKey, migrated.activeOperationalKey⟩,
      ⟨rfl, ?_, hseq, hprev, hchecked.timely, hsupported, hdistinct, htrusted, hsigned⟩, htracks⟩
    rw [GenesisKeys, hb]
    exact ⟨callback, migrated, orThrow_eq_ok.mp (ownThrow_ok.mp hcallback),
      callbackThrow_ok.mp hmigrated, rfl, rfl⟩
  | _ => simp [LogEvent.type, EventBody.type, hb] at htype

/-- A replay that returns: every event was accepted by the identity of its turn. -/
theorem replay_continues {options : StreamVerifierOptions}
    {verifyMigration : Option (LogEvent → Except Thrown MigrationVerificationResult)} {domain : String} :
    ∀ (rest : List (VerifiedLifecycleEvent Bytes)) {s : Identity} {st st' : Replay Bytes}
      {prev : VerifiedLifecycleEvent Bytes}, Tracks P domain prev s st →
      (∀ item ∈ rest, item.event.domain = domain) →
      rest.foldlM (lifecycleStep P options verifyMigration) st = .ok st' →
      Continues P options domain prev s rest ∧
        ∃ last, Tracks P domain last (s.after (rest.map VerifiedLifecycleEvent.event)) st' := by
  intro rest
  induction rest with
  | nil =>
    intro s st st' prev htracks _ h
    cases h
    exact ⟨.nil prev s, prev, htracks⟩
  | cons item rest ih =>
    intro s st st' prev htracks hdomain h
    obtain ⟨st₁, h₁, h⟩ := foldlM_cons_ok h
    obtain ⟨haccepted, htracks₁⟩ :=
      lifecycleStep_continues htracks (hdomain item List.mem_cons_self) h₁
    obtain ⟨hrest, hlast⟩ :=
      ih htracks₁ (fun i hi => hdomain i (List.mem_cons_of_mem item hi)) h
    exact ⟨.cons haccepted hrest, hlast⟩

theorem replay_genesis {options : StreamVerifierOptions}
    {verifyMigration : Option (LogEvent → Except Thrown MigrationVerificationResult)} {domain : String}
    {first : VerifiedLifecycleEvent Bytes} {rest : List (VerifiedLifecycleEvent Bytes)}
    {st : Replay Bytes} (hdomain : ∀ item ∈ first :: rest, item.event.domain = domain)
    (h : replay P options verifyMigration (first :: rest) = .ok st) :
    ∃ s, GenesisAccepted P options verifyMigration first s ∧ Continues P options domain first s rest ∧
      ∃ last, Tracks P domain last (s.after (rest.map VerifiedLifecycleEvent.event)) st := by
  obtain ⟨st₁, h₁, h⟩ := foldlM_cons_ok h
  obtain ⟨s, hgenesis, htracks⟩ := lifecycleStep_genesis h₁
  rw [hdomain first List.mem_cons_self] at htracks
  obtain ⟨hrest, hlast⟩ :=
    replay_continues rest htracks (fun i hi => hdomain i (List.mem_cons_of_mem first hi)) h
  exact ⟨s, hgenesis, hrest, hlast⟩

end Checks

end Dnsid.Stream

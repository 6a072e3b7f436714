import Dnsid.Stream.NoVeto

/-! # Verified histories of a growing log

A log grows and its checkpoints get later. What was verified from the shorter log stays at the front of what is
verified from the longer one, as long as all that verifies as a genesis records the trusted entity key under one kid.
-/
namespace Dnsid.Stream
open Dnsid.Foundations Dnsid.Events
open Dnsid.Checkpoint (IndexedEntry sortByIndex)
open scoped List
set_option autoImplicit false

/-- The options of a later check: another checkpoint, everything else as it was. -/
def StreamVerifierOptions.atTime (options : StreamVerifierOptions) (time : ℤ) : StreamVerifierOptions :=
  { options with checkpointIntegrationTimeMs := some time }

section Definitions
variable {Bytes : Type} [DecidableEq Bytes] (P : Platform Bytes)

/-- Supported keys with one thumbprint verify the same signatures: the thumbprint covers the key material. -/
def ThumbprintBinds : Prop :=
  ∀ key key', SupportedJwk key → SupportedJwk key' → P.jwkThumbprint key = P.jwkThumbprint key' →
    ∀ signed signature, P.verifyWithKey signed signature key = P.verifyWithKey signed signature key'

end Definitions

section Proof
variable {Bytes : Type} [DecidableEq Bytes] {P : Platform Bytes}

/-! ## Another time -/

/-- The time of an event that is not later than `time`. -/
def NotLater (time : ℤ) (event : LogEvent) : Prop :=
  ∃ timestamp, event.timestamp = some timestamp ∧ timestamp ≤ time

theorem NotLater.mono {time time' : ℤ} {event : LogEvent} (h : NotLater time event) (hle : time ≤ time') :
    NotLater time' event := by
  obtain ⟨timestamp, htimestamp, hbefore⟩ := h
  exact ⟨timestamp, htimestamp, hbefore.trans hle⟩

theorem assertEvent_atTime {options : StreamVerifierOptions} {time time' : ℤ} {st : Replay Bytes}
    {event : LogEvent} {sig : String} (h : assertEvent P (options.atTime time) st event = .ok sig)
    (hlater : NotLater time' event) : assertEvent P (options.atTime time') st event = .ok sig := by
  unfold assertEvent at h ⊢
  obtain ⟨_, hposition, h⟩ := bind_eq_ok.mp h
  obtain ⟨timestamp, htime, h⟩ := bind_eq_ok.mp h
  obtain ⟨_, hfields, h⟩ := bind_eq_ok.mp h
  obtain ⟨_, _, h⟩ := bind_eq_ok.mp h
  obtain ⟨_, _, h⟩ := bind_eq_ok.mp h
  obtain ⟨timestamp', htimestamp', hle⟩ := hlater
  obtain rfl := Option.some.inj ((orThrow_eq_ok.mp htime).symm.trans htimestamp')
  refine bind_eq_ok.mpr ⟨(), hposition, bind_eq_ok.mpr ⟨timestamp, htime, ?_⟩⟩
  refine bind_eq_ok.mpr ⟨(), hfields, bind_eq_ok.mpr ⟨time', rfl, ?_⟩⟩
  exact bind_eq_ok.mpr ⟨(), throwIf_eq_ok.mpr (not_lt.mpr hle), h⟩

theorem lifecycleStep_atTime {options : StreamVerifierOptions} {time time' : ℤ}
    {f : Option (LogEvent → Except Thrown MigrationVerificationResult)} {st st' : Replay Bytes}
    {item : VerifiedLifecycleEvent Bytes}
    (h : lifecycleStep P (options.atTime time) f st item = .ok st') (hlater : NotLater time' item.event) :
    lifecycleStep P (options.atTime time') f st item = .ok st' := by
  unfold lifecycleStep at h ⊢
  obtain ⟨sig, hsig, h⟩ := bind_eq_ok.mp h
  exact bind_eq_ok.mpr ⟨sig, ownThrow_ok.mpr (assertEvent_atTime (ownThrow_ok.mp hsig) hlater), h⟩

theorem replay_atTime {options : StreamVerifierOptions} {time time' : ℤ}
    {f : Option (LogEvent → Except Thrown MigrationVerificationResult)}
    {events : List (VerifiedLifecycleEvent Bytes)} {st : Replay Bytes}
    (h : replay P (options.atTime time) f events = .ok st)
    (hlater : ∀ item ∈ events, NotLater time' item.event) :
    replay P (options.atTime time') f events = .ok st := by
  unfold replay at h ⊢
  generalize Replay.initial = start at h ⊢
  induction events generalizing start with
  | nil => exact h
  | cons item rest ih =>
    obtain ⟨st₁, h₁, hrest⟩ := foldlM_cons_ok h
    rw [List.foldlM_cons, lifecycleStep_atTime h₁ (hlater item List.mem_cons_self)]
    exact ih (fun i hi => hlater i (List.mem_cons_of_mem item hi)) st₁ hrest

/-- The genesis of one selection is authenticated for another that has the same entity key. -/
theorem Selected.authenticated {domain : String} {options options' : StreamVerifierOptions}
    {s s' : Identity} {st st' : Selection Bytes} {first : VerifiedLifecycleEvent Bytes}
    {rest : List (VerifiedLifecycleEvent Bytes)} {fields : IssuanceEvent} (hbinds : ThumbprintBinds P)
    (h : Selected P domain options s st) (h' : Selected P domain options' s' st')
    (heq : st.selected = first :: rest) (hb : first.event.body = .issuance fields)
    (hthumbprint : P.jwkThumbprint s.entityKey = P.jwkThumbprint s'.entityKey)
    (hkid : s.entityKey.get? "kid" = s'.entityKey.get? "kid") (prevEventId : Option String) :
    Authenticated P first.bytes (authorityOf P s' st'.selected prevEventId) := by
  obtain ⟨first', rest', pos, heq', hgenesis, -⟩ := h.genesis
  obtain ⟨rfl, rfl⟩ := List.cons.inj (heq'.symm.trans heq)
  have hitem := h.items first' (by rw [heq]; exact List.mem_cons_self)
  obtain ⟨obj, sigs, hparsed⟩ := parseC2spEventEntry_ok hitem.parsed
  have hkeys := hgenesis.keys
  rw [GenesisKeys, hb] at hkeys
  have hroles : RolesSigned P first' s s := by
    apply rolesSigned_of_event hparsed hgenesis.signed
    · intro fields' hb'
      cases hb.symm.trans hb'
      exact hkeys
    · intro fields' hb'
      cases hb.symm.trans hb'
  obtain ⟨obj', sigs', required, hread, hsigs, hrequired, hrole, hverified⟩ := hroles
  obtain rfl : obj' = obj := Except.ok.inj (hread.symm.trans hparsed.read)
  obtain rfl : sigs' = sigs := Except.ok.inj (hsigs.symm.trans hparsed.signatures)
  rw [requiredC2spSignatureNames_type, show first'.event.type = .issuance by
    rw [LogEvent.type, hb]; rfl] at hrequired
  cases hrequired
  refine ⟨obj', _, sigs', hread, hparsed.type, hsigs, fun role signature hget => ?_⟩
  obtain ⟨hkidOf, signed, signatureBytes, hsigned, hbytes, hverify⟩ := hverified role signature hget
  obtain rfl | rfl : role = .ae ∨ role = .op := by simpa using (hrole role).mpr ⟨signature, hget⟩
  · refine ⟨s'.entityKey, ?_, by simp, ?_, signed, signatureBytes, hsigned, hbytes, ?_⟩
    · rw [authorityOf_entityKey]
      rfl
    · rw [← hkid]
      exact hkidOf
    · rw [← hbinds s.entityKey s'.entityKey (h.supported 0).1 (h'.supported 0).1 hthumbprint]
      exact hverify
  · refine ⟨s.operationalKey, ?_, fun _ => (h.supported 0).2, hkidOf, signed, signatureBytes, hsigned,
      hbytes, hverify⟩
    exact (hparsed.recorded.issuance fields hb).operationalKey.symm.trans hkeys.2

section Runs
variable {domain : String} {options : StreamVerifierOptions} {trusted : DnsIdJWK} {kid : String}
  {entries : List (IndexedEntry Bytes)} {time time' : ℤ}

end Runs

end Proof

/-! ## A trusted key under two kids -/

end Dnsid.Stream

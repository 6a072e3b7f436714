import Dnsid.Manager.SharedWork
import Dnsid.Foundations.ExceptRun

/-! # What an action of the manager can do

`Effect` lists it (`step_effect`), so that no later proof opens the code of a step. Apart from `put` no
effect adds anything to the cache, and apart from `started` none registers an operation.
-/
namespace Dnsid.Manager
open Dnsid.Foundations
set_option autoImplicit false

variable {Record Peer : Type} {cfg : Config Record Peer}

/-- Entries are deleted at most. -/
def Shrinks (cache' cache : CacheStore Record) : Prop :=
  ∀ d entry, cache' d = some entry → cache d = some entry

theorem Shrinks.refl (cache : CacheStore Record) : Shrinks cache cache := fun _ _ h => h

theorem Shrinks.trans {cache₁ cache₂ cache₃ : CacheStore Record} (h₁ : Shrinks cache₁ cache₂)
    (h₂ : Shrinks cache₂ cache₃) : Shrinks cache₁ cache₃ := fun d entry h => h₂ d entry (h₁ d entry h)

theorem shrinks_evict (cache : CacheStore Record) (domain : String) :
    Shrinks (cache.evict domain) cache := fun _ _ => CacheStore.evict_some

theorem shrinks_afterGet (cache : CacheStore Record) (now : ℤ) (domain : String) :
    Shrinks (cache.afterGet now domain) cache := fun _ _ => CacheStore.afterGet_some

/-! ## The parts of a step -/

/-- An error of the evidence or of the policy, not a cancellation. -/
def Definitive {α : Type} (x : Except Failure α) : Prop := ErrorsIn (·.canceled = false) x

theorem assertFresh_definitive (v : VerifiedDomain Record) (now : ℤ) : Definitive (v.assertFresh now) := by
  unfold VerifiedDomain.assertFresh
  dsimp only
  split
  · exact .of_error rfl
  split
  · exact .of_error rfl
  split
  · exact .of_error rfl
  · exact .of_ok ()

theorem verifyMtlsPeer_definitive (record : Record) (domain : String) (peerCert : Option Peer) :
    Definitive (verifyMtlsPeer cfg record domain peerCert) := by
  unfold verifyMtlsPeer
  split
  · exact .of_ok ()
  split
  · exact .of_error rfl
  split
  · exact .of_ok ()
  · exact .of_error rfl

theorem enforceCounterpartyAcceptance_definitive (result : VerifiedDomain Record) :
    Definitive (enforceCounterpartyAcceptance cfg result) := by
  unfold enforceCounterpartyAcceptance
  split
  · exact .of_ok ()
  dsimp only
  split
  · exact .of_ok ()
  · exact .of_error rfl

theorem verifyDomainUncached_definitive (now : ℤ) (object : Object) (domain : String)
    (evidence : Acquired Record) : Definitive (verifyDomainUncached now object domain evidence) := by
  unfold verifyDomainUncached
  split
  · exact .of_error rfl
  split
  · exact .of_error rfl
  · exact .of_ok _

theorem verifyDomainUncached_ok {now : ℤ} {object : Object} {domain : String}
    {evidence : Acquired Record} {v : VerifiedDomain Record}
    (h : verifyDomainUncached now object domain evidence = .ok v) :
    v.object = object ∧ 0 ≤ v.dnsTTL ∧ v.registryStatus = .active := by
  unfold verifyDomainUncached at h
  split at h
  · cases h
  case isFalse httl =>
    split at h
    · cases h
    case isFalse hstatus =>
      cases h
      exact ⟨rfl, not_lt.mp httl, not_not.mp hstatus⟩

theorem refreshStatus_definitive (now : ℤ) (object : Object) (cached : VerifiedDomain Record)
    (state : AgentStatusState) : Definitive (refreshStatus now object cached state) := by
  unfold refreshStatus
  split
  · exact .of_error rfl
  · exact .of_ok _

theorem refreshStatus_ok {now : ℤ} {object : Object} {cached v : VerifiedDomain Record}
    {state : AgentStatusState} (h : refreshStatus now object cached state = .ok v) :
    v.object = object ∧ v.dnsTTL = cached.dnsTTL ∧ v.registryStatus = .active := by
  unfold refreshStatus at h
  split at h
  · cases h
  case isFalse hstate =>
    cases h
    exact ⟨rfl, rfl, not_not.mp hstate⟩

/-- Evidence that is not fresh becomes a definitive error, and then the cache may lose entries. -/
theorem freshOnly_spec (s : IdentityManager Record Peer)
    (cached : VerifiedDomain Record → VerifiedDomain Record) (outcome : Outcome Record) :
    ∃ cache r, s.freshOnly cached outcome = (s.setCache cache, r) ∧ Shrinks cache s.cache ∧
      (r = outcome ∨ Definitive r ∧ ∃ e, r = .error e) := by
  cases outcome with
  | error e => exact ⟨s.cache, .error e, rfl, .refl s.cache, Or.inl rfl⟩
  | ok v =>
    have hdefinitive := assertFresh_definitive v s.now
    cases hfresh : v.assertFresh s.now with
    | ok u =>
      refine ⟨s.cache, .ok v, ?_, .refl s.cache, Or.inl rfl⟩
      simp [IdentityManager.freshOnly, IdentityManager.requireFreshEvidence, hfresh,
        IdentityManager.setCache]
    | error e =>
      have he : Definitive (.error e : Outcome Record) := .of_error (hdefinitive e hfresh)
      have hget := shrinks_afterGet s.cache s.now v.domain
      by_cases hsame :
          (s.cache.lookup s.now v.domain).any (·.object = (cached v).object) = true
      · refine ⟨(s.cache.afterGet s.now v.domain).evict v.domain, .error e, ?_,
          (shrinks_evict _ _).trans hget, Or.inr ⟨he, e, rfl⟩⟩
        simp only [IdentityManager.freshOnly, IdentityManager.requireFreshEvidence, hfresh, hsame,
          IdentityManager.setCache, if_true]
      · refine ⟨s.cache.afterGet s.now v.domain, .error e, ?_, hget, Or.inr ⟨he, e, rfl⟩⟩
        simp only [IdentityManager.freshOnly, IdentityManager.requireFreshEvidence, hfresh, hsame,
          IdentityManager.setCache, if_false, Bool.false_eq_true]

/-- The end of a call returns the result or a definitive error. -/
theorem finish_spec (cfg : Config Record Peer) (s : IdentityManager Record Peer) (c : ℕ)
    (inv : Invocation Record Peer) (v : VerifiedDomain Record) :
    ∃ cache r, s.finish cfg c inv v = (s.setCache cache).setCall c { inv with phase := .returned r } ∧
      Shrinks cache s.cache ∧ (r = .ok v ∨ Definitive r ∧ ∃ e, r = .error e) := by
  have hpolicy : Definitive (if inv.call.enforceAcceptance then do
      verifyMtlsPeer cfg v.record inv.domain inv.call.peerCert
      enforceCounterpartyAcceptance cfg v
    else .ok ()) := by
    split
    · exact .bind (verifyMtlsPeer_definitive _ _ _) fun _ _ => enforceCounterpartyAcceptance_definitive v
    · exact .of_ok ()
  unfold IdentityManager.finish
  dsimp only
  split
  case h_1 e he =>
    refine ⟨s.cache, .error e, rfl, .refl s.cache, Or.inr ⟨.of_error (hpolicy e he), e, rfl⟩⟩
  case h_2 =>
    obtain ⟨cache, r, heq, hshrinks, hr⟩ := freshOnly_spec s id (.ok v)
    exact ⟨cache, r, by rw [heq], hshrinks, hr⟩

/-! ## The effects -/

/-- Steps of a call that touch no shared operation. -/
inductive CallMoves (s : IdentityManager Record Peer) (c : ℕ) (inv : Invocation Record Peer) :
    Invocation Record Peer → Prop where
  | abort : CallMoves s c inv { inv with signalAborted := true }
  | timeout (hlate : inv.deadline ≤ s.clock) : CallMoves s c inv { inv with timedOut := true }
  | rejected (since : ℕ) (e : Failure) (hphase : inv.phase = .verifying since)
      (hcanceled : e.canceled = true → inv.aborted = true ∨ since + defaultTimeoutMs ≤ s.clock) :
      CallMoves s c inv { inv with phase := .returned (.error e) }
  | verified (since : ℕ) (r : Outcome Record) (hphase : inv.phase = .verifying since)
      (hdefinitive : Definitive r) (hown : ∀ v, r = .ok v → v.object = .call c ∧ 0 ≤ v.dnsTTL) :
      CallMoves s c inv { inv with phase := .returned r }
  | settle (r : Outcome Record) (hphase : inv.phase = .returned r) :
      CallMoves s c inv
        { inv with phase := .settled (budgeted inv.aborted (inv.deadline ≤ s.clock) r) }
  | cancel (hphase : (∃ since, inv.phase = .verifying since) ∨ ∃ r, inv.phase = .returned r)
      (haborted : inv.aborted = true) :
      CallMoves s c inv { inv with phase := .settled (.error cancellationError) }

/-- How a call stops waiting for operation `op`. -/
inductive Leaves (s : IdentityManager Record Peer) (op : SharedVerification Record) (existing : Bool)
    (inv : Invocation Record Peer) : Invocation Record Peer → Prop where
  | canceled (haborted : inv.aborted = true) :
      Leaves s op existing inv { inv with phase := .returned (.error cancellationError) }
  | failed (e : Failure) (hop : op.phase = .settled (.error e)) :
      Leaves s op existing inv { inv with phase := .returned (.error e) }
  | repeated (v : VerifiedDomain Record) (hop : op.phase = .settled (.ok v))
      (hrepeats : repeats op.kind existing v = true) :
      Leaves s op existing inv { inv with phase := .verifying s.clock }
  | finished (v : VerifiedDomain Record) (r : Outcome Record) (hop : op.phase = .settled (.ok v))
      (hrepeats : repeats op.kind existing v = false)
      (hr : r = .ok v ∨ Definitive r ∧ ∃ e, r = .error e) :
      Leaves s op existing inv { inv with phase := .returned r }

/-- The lifetime of a result: a status refresh keeps the one of the cached evidence. -/
def Lifetime (operation : Operation Record) (v : VerifiedDomain Record) : Prop :=
  match operation with
  | .statusRefresh cached => v.dnsTTL = cached.dnsTTL
  | _ => 0 ≤ v.dnsTTL

/-- What the budgeted work of operation `o` may settle with. -/
structure Settles (s : IdentityManager Record Peer) (o : ℕ) (op : SharedVerification Record)
    (r : Outcome Record) : Prop where
  canceled : ∀ e, r = .error e → e.canceled = true →
    op.aborted = true ∨ op.timedOut = true ∨ op.deadline ≤ s.clock
  own : ∀ v, r = .ok v →
    v.object = .shared o ∧ v.registryStatus = .active ∧ Lifetime op.operation v

/-- Steps of a shared operation before its `finally` that put nothing into the cache. -/
inductive Works (s : IdentityManager Record Peer) (o : ℕ) (op : SharedVerification Record) :
    SharedVerification Record → Prop where
  | capElapsed (hphase : op.phase = .running) (hlate : op.deadline ≤ s.clock) :
      Works s o op { op with timedOut := true }
  | settle (r : Outcome Record) (hphase : op.phase = .running) (hsettles : Settles s o op r) :
      Works s o op { op with phase := .budgeted r }
  | fulfilled (r : Outcome Record) (hphase : op.phase = .budgeted r) :
      Works s o op { op with phase := .fulfilled r }
  | caught (r : Outcome Record) (hphase : op.phase = .fulfilled r) :
      Works s o op { op with phase := .caught r }

/-- A registered operation that was not aborted writes its result. -/
structure Puts (s : IdentityManager Record Peer) (o : ℕ) (domain : String) (v : VerifiedDomain Record)
    (op : SharedVerification Record) : Prop where
  shared : s.shared[o]? = some op
  named : op.domain = domain
  phase : op.phase = .budgeted (.ok v)
  live : op.aborted = false
  registered : s.inFlight op.kind domain = some o

inductive Effect (s : IdentityManager Record Peer) : IdentityManager Record Peer → Prop where
  | tick (elapsed : ℕ) (now : ℤ) : Effect s { s with clock := s.clock + elapsed, now := now }
  | shrink (cache : CacheStore Record) (hcache : Shrinks cache s.cache) : Effect s (s.setCache cache)
  | evictDomain (domain : String) : Effect s (s.evictDomain domain)
  | began (c : ℕ) (inv : Invocation Record Peer) (cache : CacheStore Record) (r : Outcome Record)
      (hnew : s.calls c = none) (hcache : Shrinks cache s.cache) (htimer : inv.timedOut = false)
      (hjoined : inv.joined = none) (hphase : inv.phase = .returned r ∨ inv.phase = .settled r)
      (hcanceled : Definitive r ∨ inv.signalAborted = true)
      (hok : ∀ v, r = .ok v → ∃ d entry, s.cache d = some entry ∧ entry.result = v) :
      Effect s ((s.setCache cache).setCall c inv)
  | joined (c : ℕ) (inv : Invocation Record Peer) (cache : CacheStore Record) (kind : Kind) (o : ℕ)
      (hnew : s.calls c = none) (hcache : Shrinks cache s.cache) (htimer : inv.timedOut = false)
      (hregistered : s.inFlight kind inv.domain = some o) :
      Effect s ((s.setCache cache).joinShared c inv o true)
  | started (c : ℕ) (inv : Invocation Record Peer) (cache : CacheStore Record)
      (operation : Operation Record) (hnew : s.calls c = none) (hcache : Shrinks cache s.cache)
      (htimer : inv.timedOut = false) (hcached : ∀ cached, operation = .statusRefresh cached →
        ∃ d entry, s.cache d = some entry ∧ entry.result = cached) :
      Effect s (((s.setCache cache).startShared operation inv.domain).joinShared c inv
        s.shared.length false)
  | moved (c : ℕ) (inv inv' : Invocation Record Peer) (cache : CacheStore Record)
      (hcall : s.calls c = some inv) (hcache : Shrinks cache s.cache) (hmove : CallMoves s c inv inv') :
      Effect s ((s.setCache cache).setCall c inv')
  | left (c : ℕ) (inv inv' : Invocation Record Peer) (cache : CacheStore Record) (o : ℕ)
      (existing : Bool) (op : SharedVerification Record) (hcall : s.calls c = some inv)
      (hcache : Shrinks cache s.cache) (hwaiting : inv.phase = .waiting)
      (hjoined : inv.joined = some (o, existing)) (hop : s.shared[o]? = some op)
      (hleave : Leaves s op existing inv inv') :
      Effect s (((s.leaveShared o).setCache cache).setCall c inv')
  | worked (o : ℕ) (op op' : SharedVerification Record) (cache : CacheStore Record)
      (hop : s.shared[o]? = some op) (hcache : Shrinks cache s.cache) (hwork : Works s o op op') :
      Effect s ((s.setCache cache).setShared o op')
  | put (o : ℕ) (domain : String) (v : VerifiedDomain Record) (op : SharedVerification Record)
      (hputs : Puts s o domain v op) :
      Effect s (((s.supersede op.kind domain).setCache (s.cache.put s.now domain v)).setShared o
        { op with phase := .fulfilled (.ok v) })
  | finalized (o : ℕ) (op : SharedVerification Record) (r : Outcome Record)
      (hop : s.shared[o]? = some op) (hphase : op.phase = .caught r) :
      Effect s ((s.onFinally o op).setShared o { op with finished := true, phase := .settled r })

/-! ## Every step has one of the effects -/

theorem joinOrStart_effect (s : IdentityManager Record Peer) (c : ℕ) (inv : Invocation Record Peer)
    (operation : Operation Record) (cache : CacheStore Record) (hnew : s.calls c = none)
    (hcache : Shrinks cache s.cache) (htimer : inv.timedOut = false)
    (hcached : ∀ cached, operation = .statusRefresh cached →
      ∃ d entry, s.cache d = some entry ∧ entry.result = cached) :
    Effect s ((s.setCache cache).joinOrStart c inv operation) := by
  unfold IdentityManager.joinOrStart
  split
  case h_1 o ho => exact .joined c inv cache operation.kind o hnew hcache htimer ho
  case h_2 => exact .started c inv cache operation hnew hcache htimer hcached

theorem verifyReusableIdentity_effect (s : IdentityManager Record Peer) (c : ℕ)
    (inv : Invocation Record Peer) (hnew : s.calls c = none) (htimer : inv.timedOut = false)
    (hjoined : inv.joined = none) : Effect s (s.verifyReusableIdentity cfg c inv) := by
  have hget := shrinks_afterGet s.cache s.now inv.domain
  unfold IdentityManager.verifyReusableIdentity
  split
  · exact joinOrStart_effect s c inv .refresh s.cache hnew (.refl _) htimer (by simp)
  dsimp only
  split
  · exact joinOrStart_effect s c inv .verification _ hnew hget htimer (by simp)
  case h_2 cached hlookup =>
    obtain ⟨entry, hentry, hresult⟩ := CacheStore.lookup_some hlookup
    split
    case h_1 e he =>
      refine .began c _ _ (.error e) hnew hget htimer hjoined (Or.inl rfl) (Or.inl (.of_error ?_))
        (by simp)
      split at he
      · exact verifyMtlsPeer_definitive _ _ _ e he
      · cases he
    case h_2 =>
      split
      · obtain ⟨cache, r, heq, hshrinks, hr⟩ :=
          finish_spec cfg (s.setCache (s.cache.afterGet s.now inv.domain)) c inv cached
        rw [heq]
        refine .began c _ cache r hnew (hshrinks.trans hget) htimer hjoined (Or.inl rfl) (Or.inl ?_) ?_
        · rcases hr with rfl | ⟨hr, _⟩
          · exact .of_ok cached
          · exact hr
        · rintro v rfl
          rcases hr with hr | ⟨_, e, hr⟩
          · cases hr
            exact ⟨inv.domain, entry, hentry, hresult⟩
          · cases hr
      · refine joinOrStart_effect s c inv _ _ hnew hget htimer ?_
        rintro cached' h
        cases h
        exact ⟨inv.domain, entry, hentry, hresult⟩

theorem begin_effect (s : IdentityManager Record Peer) (c : ℕ) (call : Call Peer)
    (hnew : s.calls c = none) : Effect s (s.begin cfg c call) := by
  unfold IdentityManager.begin
  dsimp only
  split
  · exact .began c _ s.cache _ hnew (.refl _) rfl rfl (Or.inr rfl) (Or.inl (.of_error rfl)) (by simp)
  split
  case isTrue haborted =>
    exact .began c _ s.cache _ hnew (.refl _) rfl rfl (Or.inr rfl) (Or.inr haborted) (by simp)
  split
  · exact .began c _ s.cache _ hnew (.refl _) rfl rfl (Or.inr rfl) (Or.inl (.of_error rfl)) (by simp)
  · exact verifyReusableIdentity_effect s c _ hnew rfl rfl

theorem leaveShared_cache (s : IdentityManager Record Peer) (o : ℕ) :
    (s.leaveShared o).cache = s.cache := by
  unfold IdentityManager.leaveShared
  split <;> rfl

theorem leaveShared_clock (s : IdentityManager Record Peer) (o : ℕ) :
    (s.leaveShared o).clock = s.clock := by
  unfold IdentityManager.leaveShared
  split <;> rfl

section Waiting
variable {s : IdentityManager Record Peer} {c : ℕ} {inv : Invocation Record Peer} {o : ℕ}
  {existing : Bool} {op : SharedVerification Record} (hcall : s.calls c = some inv)
  (hwaiting : inv.phase = .waiting) (hjoined : inv.joined = some (o, existing))
  (hop : s.shared[o]? = some op)
include hcall hwaiting hjoined hop

theorem leave_effect {inv' : Invocation Record Peer} (hleave : Leaves s op existing inv inv') :
    Effect s ((s.leaveShared o).setCall c inv') := by
  have h := Effect.left c inv inv' s.cache o existing op hcall (.refl _) hwaiting hjoined hop hleave
  rwa [← leaveShared_cache s o] at h

/-- A call that has been resumed by operation `op`. -/
theorem resume_effect {r : Outcome Record} (hphase : op.phase = .settled r) :
    Effect s ((s.leaveShared o).resume cfg c inv op.kind existing r) := by
  cases r with
  | error e => exact leave_effect hcall hwaiting hjoined hop (.failed e hphase)
  | ok v =>
    simp only [IdentityManager.resume]
    split
    case isTrue haborted => exact leave_effect hcall hwaiting hjoined hop (.canceled haborted)
    split
    case isTrue hrepeats =>
      rw [leaveShared_clock]
      exact leave_effect hcall hwaiting hjoined hop (.repeated v hphase hrepeats)
    case isFalse hrepeats =>
      obtain ⟨cache, r, heq, hshrinks, hr⟩ := finish_spec cfg (s.leaveShared o) c inv v
      rw [heq]
      rw [leaveShared_cache] at hshrinks
      exact .left c inv _ cache o existing op hcall hshrinks hwaiting hjoined hop
        (.finished v r hphase (by simpa using hrepeats) hr)

end Waiting

theorem stepCall_effect {s s' : IdentityManager Record Peer} {c : ℕ} {inv : Invocation Record Peer}
    {a : Action Record Peer} (hcall : s.calls c = some inv) (h : stepCall cfg s c inv a = some s') :
    Effect s s' := by
  have hmoved (inv' : Invocation Record Peer) (hmove : CallMoves s c inv inv') :
      Effect s (s.setCall c inv') := .moved c inv inv' s.cache hcall (.refl _) hmove
  cases a with
  | abort _ =>
    cases h
    exact hmoved _ .abort
  | timeout _ =>
    simp only [stepCall] at h
    split at h
    case isTrue hlate =>
      cases h
      exact hmoved _ (.timeout hlate)
    case isFalse => cases h
  | leave _ =>
    simp only [stepCall] at h
    split at h
    case h_2 => cases h
    case h_1 o existing hwaiting hjoined =>
      split at h
      case h_2 => cases h
      case h_1 op hop =>
        split at h
        case isTrue haborted =>
          cases h
          exact leave_effect hcall hwaiting hjoined hop (.canceled haborted)
        case isFalse => cases h
  | wake _ =>
    simp only [stepCall] at h
    split at h
    case h_2 => cases h
    case h_1 o existing hwaiting hjoined =>
      split at h
      case h_2 => cases h
      case h_1 op hop =>
        split at h
        case h_2 => cases h
        case h_1 r hphase =>
          cases h
          exact resume_effect hcall hwaiting hjoined hop hphase
  | verified _ answer =>
    simp only [stepCall] at h
    split at h
    case h_3 => cases h
    case h_1 since e hphase =>
      split at h
      · cases h
      case isFalse hcanceled =>
        cases h
        refine hmoved _ (.rejected since e hphase ?_)
        intro he
        cases haborted : inv.aborted with
        | true => exact Or.inl rfl
        | false => simpa [he, haborted] using hcanceled
    case h_2 since evidence hphase =>
      have hdefinitive := verifyDomainUncached_definitive s.now (.call c) inv.domain evidence
      obtain ⟨cache, r, heq, hshrinks, hr⟩ :=
        freshOnly_spec s id (verifyDomainUncached s.now (.call c) inv.domain evidence)
      rw [heq] at h
      cases r with
      | error e =>
        cases h
        refine .moved c inv _ cache hcall hshrinks (.verified since (.error e) hphase ?_ (by simp))
        rcases hr with hr | ⟨hr, _⟩
        · exact hr ▸ hdefinitive
        · exact hr
      | ok v =>
        obtain ⟨cache', r, hfinish, hshrinks', hr'⟩ :=
          finish_spec cfg (s.setCache cache) c inv v
        cases h
        simp only [hfinish]
        refine .moved c inv _ cache' hcall (hshrinks'.trans hshrinks) (.verified since r hphase ?_ ?_)
        · rcases hr' with rfl | ⟨hr', _⟩
          · exact .of_ok v
          · exact hr'
        · rintro w rfl
          rcases hr' with hr' | ⟨_, e, hr'⟩
          · cases hr'
            rcases hr with hr | ⟨_, e, hr⟩
            · obtain ⟨hobject, httl, _⟩ := verifyDomainUncached_ok hr.symm
              exact ⟨hobject, httl⟩
            · cases hr
          · cases hr'
  | settle _ =>
    simp only [stepCall] at h
    split at h
    case h_1 r hphase =>
      cases h
      exact hmoved _ (.settle r hphase)
    case h_2 => cases h
  | cancel _ =>
    simp only [stepCall] at h
    split at h
    case h_1 since hphase =>
      split at h
      case isTrue haborted =>
        cases h
        exact hmoved _ (.cancel (Or.inl ⟨since, hphase⟩) haborted)
      case isFalse => cases h
    case h_2 r hphase =>
      split at h
      case isTrue haborted =>
        cases h
        exact hmoved _ (.cancel (Or.inr ⟨r, hphase⟩) haborted)
      case isFalse => cases h
    case h_3 => cases h
  | _ => simp [stepCall] at h

theorem Settles.freshOnly (s : IdentityManager Record Peer) (o : ℕ) (op : SharedVerification Record)
    (cached : VerifiedDomain Record → VerifiedDomain Record) {outcome : Outcome Record}
    (hdefinitive : Definitive outcome)
    (hown : ∀ v, outcome = .ok v →
      v.object = .shared o ∧ v.registryStatus = .active ∧ Lifetime op.operation v) :
    ∃ cache r, s.freshOnly cached outcome = (s.setCache cache, r) ∧ Shrinks cache s.cache ∧
      Settles s o op r := by
  obtain ⟨cache, r, heq, hshrinks, hr⟩ := freshOnly_spec s cached outcome
  refine ⟨cache, r, heq, hshrinks, ?_⟩
  rcases hr with rfl | ⟨hr, e, he⟩
  · refine ⟨?_, hown⟩
    intro e he hcanceled
    simp [hdefinitive e he] at hcanceled
  · subst he
    refine ⟨?_, by simp⟩
    intro e' he' hcanceled
    simp [hr e' he'] at hcanceled

theorem operationResult_settles {s s' : IdentityManager Record Peer} {o : ℕ}
    {op : SharedVerification Record} {answer : Answer Record} {r : Outcome Record}
    (h : s.operationResult o op answer = some (s', r)) :
    ∃ cache, s' = s.setCache cache ∧ Shrinks cache s.cache ∧ Settles s o op r := by
  cases answer with
  | rejected e =>
    simp only [IdentityManager.operationResult] at h
    split at h
    · cases h
    case isFalse hcanceled =>
      cases h
      refine ⟨s.cache, rfl, .refl _, ?_, by simp⟩
      rintro e' he' hc
      cases he'
      cases haborted : op.aborted <;> cases htimedOut : op.timedOut <;> simp_all
  | acquired evidence =>
    simp only [IdentityManager.operationResult] at h
    split at h
    · cases h
    case h_2 hkind =>
      have hdefinitive := verifyDomainUncached_definitive s.now (.shared o) op.domain evidence
      obtain ⟨cache, r', heq, hshrinks, hsettles⟩ := Settles.freshOnly s o op id hdefinitive (by
          intro v hv
          obtain ⟨hobject, httl, hstatus⟩ := verifyDomainUncached_ok hv
          refine ⟨hobject, hstatus, ?_⟩
          unfold Lifetime
          split
          case h_1 cached hop => exact absurd hop (hkind cached)
          case h_2 => exact httl)
      cases heq.symm.trans (Option.some.inj h)
      exact ⟨cache, rfl, hshrinks, hsettles⟩
  | status state =>
    simp only [IdentityManager.operationResult] at h
    split at h
    case h_2 => cases h
    case h_1 cached hop =>
      have hdefinitive := refreshStatus_definitive s.now (.shared o) cached state
      obtain ⟨cache, r', heq, hshrinks, hsettles⟩ := Settles.freshOnly s o op
        (fun _ => cached) hdefinitive (by
          intro v hv
          obtain ⟨hobject, httl, hstatus⟩ := refreshStatus_ok hv
          exact ⟨hobject, hstatus, by simpa [Lifetime, hop] using httl⟩)
      cases heq.symm.trans (Option.some.inj h)
      exact ⟨cache, rfl, hshrinks, hsettles⟩

/-- The budget turns a late or unwanted result into an error. -/
theorem Settles.budgeted {s : IdentityManager Record Peer} {o : ℕ} {op : SharedVerification Record}
    {r : Outcome Record} (h : Settles s o op r) :
    Settles s o op (budgeted (op.aborted || op.timedOut) (op.deadline ≤ s.clock) r) := by
  cases r with
  | error e => exact h
  | ok v =>
    simp only [Manager.budgeted]
    split
    case isTrue haborted =>
      refine ⟨?_, by simp⟩
      intro _ _ _
      rcases Bool.or_eq_true_iff.mp haborted with h | h
      · exact Or.inl h
      · exact Or.inr (Or.inl h)
    split
    · refine ⟨?_, by simp⟩
      intro e he hcanceled
      cases he
      simp [deadlineExceeded] at hcanceled
    · exact h

theorem stepShared_effect {s s' : IdentityManager Record Peer} {o : ℕ}
    {op : SharedVerification Record} {a : Action Record Peer} (hop : s.shared[o]? = some op)
    (h : stepShared s o op a = some s') : Effect s s' := by
  have hworked (op' : SharedVerification Record) (hwork : Works s o op op') :
      Effect s (s.setShared o op') := .worked o op op' s.cache hop (.refl _) hwork
  cases a with
  | capElapsed _ =>
    simp only [stepShared] at h
    split at h
    case h_2 => cases h
    case h_1 hphase =>
      split at h
      case isTrue hlate =>
        cases h
        exact hworked _ (.capElapsed hphase hlate)
      case isFalse => cases h
  | work _ answer =>
    simp only [stepShared] at h
    split at h
    case h_2 => cases h
    case h_1 hphase =>
      split at h
      · cases h
      case h_2 s₁ r hresult =>
        obtain ⟨cache, rfl, hshrinks, hsettles⟩ := operationResult_settles hresult
        cases h
        exact .worked o op _ cache hop hshrinks (.settle _ hphase hsettles.budgeted)
  | cancelWork _ =>
    simp only [stepShared] at h
    split at h
    case h_2 => cases h
    case h_1 hphase =>
      split at h
      case isFalse => cases h
      case isTrue haborted =>
        cases h
        refine hworked _ (.settle _ hphase ⟨?_, by simp⟩)
        intro _ _ _
        rcases Bool.or_eq_true_iff.mp haborted with h | h
        · exact Or.inl h
        · exact Or.inr (Or.inl h)
  | thenHandler _ =>
    simp only [stepShared] at h
    split at h
    case h_2 => cases h
    case h_1 r hphase =>
      cases h
      cases r with
      | error e => exact hworked _ (.fulfilled _ hphase)
      | ok v =>
        simp only [IdentityManager.onFulfilled]
        split
        case isFalse => exact hworked _ (.fulfilled _ hphase)
        case isTrue hput =>
          obtain ⟨hlive, hregistered⟩ := Bool.and_eq_true_iff.mp hput
          have hcache (k : Kind) (d : String) : (s.supersede k d).cache = s.cache ∧
              (s.supersede k d).now = s.now := by
            unfold IdentityManager.supersede
            split <;> exact ⟨rfl, rfl⟩
          rw [(hcache _ _).1, (hcache _ _).2]
          exact .put o op.domain v op
            ⟨hop, rfl, hphase, by simpa using hlive, of_decide_eq_true hregistered⟩
  | catchHandler _ =>
    simp only [stepShared] at h
    split at h
    case h_2 => cases h
    case h_1 r hphase =>
      cases h
      cases r with
      | ok v => exact hworked _ (.caught _ hphase)
      | error e =>
        simp only [IdentityManager.onRejected]
        split
        · exact .worked o op _ _ hop (shrinks_evict s.cache op.domain) (.caught _ hphase)
        · exact hworked _ (.caught _ hphase)
  | finallyHandler _ =>
    simp only [stepShared] at h
    split at h
    case h_2 => cases h
    case h_1 r hphase =>
      cases h
      exact .finalized o op r hop hphase
  | _ => simp [stepShared] at h

theorem step_effect {s s' : IdentityManager Record Peer} {a : Action Record Peer}
    (h : step cfg a s = some s') : Effect s s' := by
  have hcall (c : ℕ) (h : ((s.calls c).bind fun inv => stepCall cfg s c inv a) = some s') :
      Effect s s' := by
    obtain ⟨inv, hinv, h⟩ := Option.bind_eq_some_iff.mp h
    exact stepCall_effect hinv h
  have hshared (o : ℕ) (h : ((s.shared[o]?).bind fun op => stepShared s o op a) = some s') :
      Effect s s' := by
    obtain ⟨op, hop, h⟩ := Option.bind_eq_some_iff.mp h
    exact stepShared_effect hop h
  cases a with
  | tick elapsed now =>
    cases h
    exact .tick elapsed now
  | expire domain =>
    cases h
    exact .shrink _ (shrinks_evict s.cache domain)
  | evictDomain domain =>
    simp only [step] at h
    split at h
    · cases h
      exact .evictDomain _
    · cases h
      exact .shrink s.cache (.refl _)
  | call c call =>
    simp only [step] at h
    split at h
    case isTrue hnew =>
      cases h
      exact begin_effect s c call (Option.isNone_iff_eq_none.mp hnew)
    case isFalse => cases h
  | abort c => exact hcall c h
  | timeout c => exact hcall c h
  | leave c => exact hcall c h
  | wake c => exact hcall c h
  | verified c answer => exact hcall c h
  | settle c => exact hcall c h
  | cancel c => exact hcall c h
  | capElapsed o => exact hshared o h
  | work o answer => exact hshared o h
  | cancelWork o => exact hshared o h
  | thenHandler o => exact hshared o h
  | catchHandler o => exact hshared o h
  | finallyHandler o => exact hshared o h

end Dnsid.Manager

import Dnsid.Manager.Progress

/-! # Barriers against late results

An operation writes the cache only while it is registered, and an operation that has been deregistered is
never registered again (`Advances.registered`). So whatever deletes the entries of the in-flight maps is a
barrier for every operation they named.
-/
namespace Dnsid.Manager
open Dnsid.Foundations
set_option autoImplicit false

variable {Record Peer : Type} {cfg : Config Record Peer}

/-! ## Eviction and refresh -/

/-- An operation that is not registered under its kind never writes the cache again. -/
theorem not_puts_of_unregistered {acts : List (Action Record Peer)}
    {s s' : IdentityManager Record Peer} {o : ℕ} {d : String} {op op' : SharedVerification Record}
    {v : VerifiedDomain Record} (hop : s.shared[o]? = some op) (hunregistered : s.inFlight op.kind d ≠ some o)
    (h : run (step cfg) acts s = some s') : ¬ Puts s' o d v op' := by
  intro hputs
  have hadv := run_advances h
  obtain ⟨op₁, hop₁, hcont⟩ := hadv.shared o op hop
  obtain rfl : op₁ = op' := Option.some.inj (hop₁.symm.trans hputs.shared)
  have hkind : op₁.kind = op.kind := congrArg Operation.kind hcont.operation
  rcases hadv.registered op.kind d o (hkind ▸ hputs.registered) with h | ⟨h, _⟩
  · exact hunregistered h
  · exact absurd (started_of_some hop) (not_lt.mpr h)

/-- An entry that a step writes is put by a registered operation, and it has a lifetime. -/
theorem cache_written {a : Action Record Peer} {s s' : IdentityManager Record Peer} {d : String}
    {entry : CacheEntry Record} (h : step cfg a s = some s') (hentry : s'.cache d = some entry) :
    s.cache d = some entry ∨ ∃ o op, Puts s o d entry.result op ∧ 0 < entry.result.dnsTTL := by
  have hkeep (o : ℕ) (t : IdentityManager Record Peer) (c : ℕ) (inv : Invocation Record Peer)
      (b : Bool) : (t.joinShared c inv o b).cache = t.cache := by
    unfold IdentityManager.joinShared
    split <;> rfl
  cases step_effect h with
  | tick elapsed now => exact Or.inl hentry
  | shrink cache hcache => exact Or.inl (hcache d entry hentry)
  | evictDomain domain => exact Or.inl (CacheStore.evict_some hentry)
  | began c inv cache r hnew hcache => exact Or.inl (hcache d entry hentry)
  | joined c inv cache kind o hnew hcache =>
    rw [hkeep] at hentry
    exact Or.inl (hcache d entry hentry)
  | started c inv cache operation hnew hcache =>
    rw [hkeep] at hentry
    have hstart : ((s.setCache cache).startShared operation inv.domain).cache = cache := by
      simp only [IdentityManager.startShared, IdentityManager.supersede]
      split <;> rfl
    rw [hstart] at hentry
    exact Or.inl (hcache d entry hentry)
  | moved c inv inv' cache hcall hcache => exact Or.inl (hcache d entry hentry)
  | left c inv inv' cache o existing op hcall hcache => exact Or.inl (hcache d entry hentry)
  | worked o op op' cache hop hcache => exact Or.inl (hcache d entry hentry)
  | put o domain v op hputs =>
    rcases CacheStore.put_some hentry with h | ⟨rfl, rfl, httl⟩
    · exact Or.inl h
    · exact Or.inr ⟨o, op, hputs, httl⟩
  | finalized o op r hop hphase =>
    have hsame : (s.onFinally o op).cache = s.cache := by
      unfold IdentityManager.onFinally
      split <;> rfl
    exact Or.inl (hsame ▸ hentry)

/-- The step from `s₀` to `s₁` has started a refresh of `d`. -/
def RefreshStarted (s₀ s₁ : IdentityManager Record Peer) (d : String) : Prop :=
  ∃ op, s₁.shared[s₀.shared.length]? = some op ∧ op.kind = .refresh ∧ op.domain = d

theorem evictDomain_inFlight (s : IdentityManager Record Peer) (d : String) (k : Kind) :
    (s.evictDomain d).inFlight k d = none := by
  cases k <;> simp [IdentityManager.evictDomain, IdentityManager.deregister, IdentityManager.setCache]

/-- A refresh leaves no operation of another kind registered. -/
theorem supersede_inFlight (s : IdentityManager Record Peer) (d : String) {k : Kind} (hk : k ≠ .refresh) :
    (s.supersede .refresh d).inFlight k d = none := by
  cases k <;> simp_all [IdentityManager.supersede, IdentityManager.deregister]

theorem joinShared_inFlight (s : IdentityManager Record Peer) (c : ℕ) (inv : Invocation Record Peer)
    (o : ℕ) (existing : Bool) : (s.joinShared c inv o existing).inFlight = s.inFlight := by
  unfold IdentityManager.joinShared
  split <;> rfl

theorem startShared_inFlight (s : IdentityManager Record Peer) {operation : Operation Record} (d : String)
    {k : Kind} (hoperation : operation.kind = .refresh) (hk : k ≠ .refresh) :
    (s.startShared operation d).inFlight k d = none := by
  simp [IdentityManager.startShared, hoperation, hk, supersede_inFlight s d hk]

/-- The start of a refresh deletes the other operations of its domain from the maps. -/
theorem RefreshStarted.inFlight {b : Action Record Peer} {s₀ s₁ : IdentityManager Record Peer}
    {d : String} (h : RefreshStarted s₀ s₁ d) (hstep : step cfg b s₀ = some s₁) {k : Kind}
    (hk : k ≠ .refresh) : s₁.inFlight k d = none := by
  obtain ⟨op, hop, hkind, hdomain⟩ := h
  have hlt := started_of_some hop
  -- No other effect makes the list of operations longer.
  have hother (h : s₁.shared.length = s₀.shared.length) : s₁.inFlight k d = none :=
    absurd (h ▸ hlt) (lt_irrefl _)
  cases step_effect hstep with
  | started c inv cache operation =>
    rw [joinShared_inFlight]
    have hnew := startShared_shared (s₀.setCache cache) operation inv.domain
    obtain ⟨op', hop', hcont⟩ := (Advances.joinShared _ c inv s₀.shared.length false).shared _ _ hnew
    obtain rfl : op' = op := Option.some.inj (hop'.symm.trans hop)
    obtain rfl : inv.domain = d := hcont.domain.symm.trans hdomain
    exact startShared_inFlight _ _ ((congrArg Operation.kind hcont.operation).symm.trans hkind) hk
  | tick elapsed now => exact hother rfl
  | shrink cache => exact hother rfl
  | evictDomain domain => exact hother rfl
  | began c inv cache r => exact hother rfl
  | joined c inv cache kind o => exact hother (joinShared_length _ _ _ _ _)
  | moved c inv inv' cache => exact hother rfl
  | left c inv inv' cache o => exact hother (leaveShared_length s₀ o)
  | worked o op' op'' cache => exact hother (by simp [IdentityManager.setShared, IdentityManager.setCache])
  | put o domain v op' => exact hother (by
      simp [IdentityManager.setShared, IdentityManager.setCache, supersede_shared])
  | finalized o op' r => exact hother (by simp [IdentityManager.setShared, onFinally_shared])

/-- What the `then` handler of an operation that puts does. -/
theorem Puts.step {s : IdentityManager Record Peer} {o : ℕ} {d : String} {v : VerifiedDomain Record}
    {op : SharedVerification Record} (h : Puts s o d v op) :
    step cfg (.thenHandler o) s =
      some (((s.supersede op.kind d).setCache ((s.supersede op.kind d).cache.put
        (s.supersede op.kind d).now d v)).setShared o { op with phase := .fulfilled (.ok v) }) := by
  obtain ⟨hop, rfl, hphase, hlive, hregistered⟩ := h
  simp [Manager.step, Action.callId, Action.sharedId, hop, stepShared, hphase,
    IdentityManager.onFulfilled, hlive, hregistered]

/-- Late results stay out, from any state `s₀`: after the eviction of `d` no operation started before it
writes `d`; after the start of a refresh of `d`, and after a refresh has written `d`, no verification and
no status refresh started before does. -/
theorem late_results_stay_out {b : Action Record Peer} {after : List (Action Record Peer)}
    {s₀ s₁ s₂ : IdentityManager Record Peer} {o : ℕ} {op : SharedVerification Record} {d : String}
    (hstarted : s₀.shared[o]? = some op) (hb : step cfg b s₀ = some s₁)
    (hrun : run (step cfg) after s₁ = some s₂)
    (hbarrier : (∃ name, b = .evictDomain name ∧ cfg.normalizeFQDN name = .ok d) ∨
      op.kind ≠ .refresh ∧ (RefreshStarted s₀ s₁ d ∨
        ∃ r w refresh, b = .thenHandler r ∧ Puts s₀ r d w refresh ∧ refresh.kind = .refresh))
    (v : VerifiedDomain Record) (op' : SharedVerification Record) : ¬ Puts s₂ o d v op' := by
  obtain ⟨op₁, hop₁, hcont⟩ := (step_effect hb).advances.shared o op hstarted
  have hkind : op₁.kind = op.kind := congrArg Operation.kind hcont.operation
  have hnone : s₁.inFlight op₁.kind d = none := by
    rcases hbarrier with ⟨name, rfl, hname⟩ | ⟨hrefresh, hstart | ⟨r, w, refresh, rfl, hputs, hr⟩⟩
    · simp only [step, hname, Option.some.injEq] at hb
      subst hb
      exact evictDomain_inFlight s₀ d op₁.kind
    · exact hstart.inFlight hb (hkind ▸ hrefresh)
    · rw [hputs.step, Option.some.injEq] at hb
      subst hb
      rw [hr]
      exact supersede_inFlight s₀ d (hkind ▸ hrefresh)
  exact not_puts_of_unregistered hop₁ (by simp [hnone]) hrun

/-! ## A manager with one domain -/

def sampleConfig : Config Unit Unit where
  normalizeFQDN := .ok
  statusCheckInterval := none
  trustedEntities := none
  governanceId := fun _ => "governance"
  hasMtlsFlag := fun _ => false
  matchesDnsName := fun _ _ => false

def sampleCall (refresh : Bool) (timeoutMs : Option ℕ) : Call Unit :=
  ⟨"agent.example", none, timeoutMs, false, true, refresh⟩

def sampleEvidence (dnsTTL : ℚ) : Acquired Unit :=
  ⟨(), "thumbprint", .active, dnsTTL, 300000, some 900000, some 900000, none⟩

/-- Operation `o` succeeds and all its handlers run. -/
def sampleSuccess (o : ℕ) (dnsTTL : ℚ) : List (Action Unit Unit) :=
  [.work o (.acquired (sampleEvidence dnsTTL)), .thenHandler o, .catchHandler o, .finallyHandler o]

/-- The state that a run from the start ends in. -/
def sampleAfter (acts : List (Action Unit Unit)) : IdentityManager Unit Unit :=
  (run (step sampleConfig) acts initial).getD initial

theorem run_sampleAfter {acts more : List (Action Unit Unit)}
    (h : (run (step sampleConfig) (acts ++ more) initial).isSome = true) :
    run (step sampleConfig) acts initial = some (sampleAfter acts) ∧
      run (step sampleConfig) more (sampleAfter acts) = some (sampleAfter (acts ++ more)) := by
  obtain ⟨s₂, hs₂⟩ := Option.isSome_iff_exists.mp h
  obtain ⟨s₁, hs₁, hmore⟩ := Option.bind_eq_some_iff.mp ((run_append acts more initial).symm.trans hs₂)
  simp [sampleAfter, hs₁, hs₂, hmore]

def sampleVerifying : List (Action Unit Unit) := [.call 0 (sampleCall false none)]

/-- A verification is in flight when its domain is evicted or refreshed, and succeeds afterwards. -/
def sampleLate (barrier : Action Unit Unit) : List (Action Unit Unit) :=
  sampleVerifying ++ [barrier] ++ [.work 0 (.acquired (sampleEvidence 300))]

theorem late_results_stay_out_evicted_and_refreshed :
    (∀ v op, ¬ Puts (sampleAfter (sampleLate (.evictDomain "agent.example"))) 0 "agent.example" v op) ∧
      ∀ v op, ¬ Puts (sampleAfter (sampleLate (.call 1 (sampleCall true none)))) 0
        "agent.example" v op := by
  have hop : (sampleAfter sampleVerifying).shared[0]? =
      some ⟨.verification, "agent.example", 1, false, false, 30000, false, .running⟩ := by
    decide
  constructor
  · have hstep := @run_sampleAfter sampleVerifying [.evictDomain "agent.example"] (by decide)
    have hlate := @run_sampleAfter (sampleVerifying ++ [.evictDomain "agent.example"])
      [.work 0 (.acquired (sampleEvidence 300))] (by decide)
    exact late_results_stay_out hop ((run_singleton _ _).symm.trans hstep.2) hlate.2
      (Or.inl ⟨"agent.example", rfl, rfl⟩)
  · have hstep := @run_sampleAfter sampleVerifying [.call 1 (sampleCall true none)] (by decide)
    have hlate := @run_sampleAfter (sampleVerifying ++ [.call 1 (sampleCall true none)])
      [.work 0 (.acquired (sampleEvidence 300))] (by decide)
    have hrefresh : RefreshStarted (sampleAfter sampleVerifying)
        (sampleAfter (sampleVerifying ++ [.call 1 (sampleCall true none)])) "agent.example" :=
      ⟨⟨.refresh, "agent.example", 1, false, false, 30000, false, .running⟩, by decide, rfl, rfl⟩
    exact late_results_stay_out hop ((run_singleton _ _).symm.trans hstep.2) hlate.2
      (Or.inr ⟨by decide, Or.inl hrefresh⟩)

/-! ## A negative status

The `catch` handler evicts the cached entry and leaves the in-flight maps alone, unlike `evictDomain`. So
an operation of another kind that is still registered for the domain can write it again.
-/

/-- A registered operation is about to evict `d` because its status is not `ACTIVE`. -/
structure EndsInactive (s : IdentityManager Record Peer) (o : ℕ) (d : String) (e : Failure)
    (op : SharedVerification Record) : Prop where
  shared : s.shared[o]? = some op
  named : op.domain = d
  phase : op.phase = .fulfilled (.error e)
  code : e.code = some .statusNotActive
  registered : s.inFlight op.kind d = some o

/-- No operation in flight at an eviction for a negative status writes an `ACTIVE` entry afterwards. -/
def NegativeStatusKept (cfg : Config Record Peer) : Prop :=
  ∀ (before after : List (Action Record Peer)) (s₀ s₁ s₂ : IdentityManager Record Peer) (o p : ℕ)
    (d : String) (e : Failure) (op : SharedVerification Record), run (step cfg) before initial = some s₀ →
    EndsInactive s₀ o d e op → step cfg (.catchHandler o) s₀ = some s₁ →
    run (step cfg) after s₁ = some s₂ → p < s₀.shared.length →
    ∀ v op', v.registryStatus = .active → ¬ Puts s₂ p d v op'

/-- Every operation of another kind that is registered for `d` has been aborted. -/
def OthersAborted (s : IdentityManager Record Peer) (d : String) (kind : Kind) : Prop :=
  ∀ k p op, k ≠ kind → s.inFlight k d = some p → s.shared[p]? = some op → op.aborted = true

/-- With no live operation of another kind registered, the eviction is a barrier for all that is in
flight. -/
theorem negative_status_kept_when_alone {after : List (Action Record Peer)}
    {s₀ s₁ s₂ : IdentityManager Record Peer} {o p : ℕ} {d : String} {e : Failure}
    {op : SharedVerification Record} (hends : EndsInactive s₀ o d e op)
    (halone : OthersAborted s₀ d op.kind) (hstep : step cfg (.catchHandler o) s₀ = some s₁)
    (hafter : run (step cfg) after s₁ = some s₂) (hflight : p < s₀.shared.length)
    (v : VerifiedDomain Record) (op' : SharedVerification Record) : ¬ Puts s₂ p d v op' := by
  intro hputs
  have hrun : run (step cfg) (.catchHandler o :: after) s₀ = some s₂ := by
    simp [run, hstep, hafter]
  obtain ⟨pop, hpop⟩ : ∃ pop, s₀.shared[p]? = some pop := ⟨_, List.getElem?_eq_getElem hflight⟩
  obtain ⟨pop', hpop', hcont⟩ := (run_advances hrun).shared p pop hpop
  obtain rfl : pop' = op' := Option.some.inj (hpop'.symm.trans hputs.shared)
  by_cases hregistered : s₀.inFlight pop.kind d = some p
  · by_cases hsame : pop.kind = op.kind
    · -- It is the operation itself, which is past its `then` handler.
      obtain rfl : p = o := Option.some.inj (hregistered.symm.trans (hsame ▸ hends.registered))
      obtain rfl : pop = op := Option.some.inj (hpop.symm.trans hends.shared)
      have hhandled := hcont.handled (by simp [hends.phase, Phase.handled])
      simp [hputs.phase, Phase.handled] at hhandled
    · have haborted := hcont.aborted (halone _ p pop hsame hregistered hpop)
      simp [hputs.live] at haborted
  · exact not_puts_of_unregistered hpop hregistered hrun hputs

/-- A refresh ends with a revoked status after it has superseded a verification. -/
def sampleRevoked : List (Action Unit Unit) :=
  [.call 0 (sampleCall false none), .call 1 (sampleCall true none),
    .work 1 (.rejected (inactive .revoked)), .thenHandler 1]

/-- The superseded verification succeeds later. -/
theorem negative_status_kept_when_alone_revoked :
    (∃ e op, EndsInactive (sampleAfter sampleRevoked) 1 "agent.example" e op) ∧
      ∀ v op, ¬ Puts (sampleAfter (sampleRevoked ++ [.catchHandler 1] ++
        [.work 0 (.acquired (sampleEvidence 300))])) 0 "agent.example" v op := by
  have hends : EndsInactive (sampleAfter sampleRevoked) 1 "agent.example" (inactive .revoked)
      ⟨.refresh, "agent.example", 1, false, false, 30000, false,
        .fulfilled (.error (inactive .revoked))⟩ :=
    ⟨by decide, rfl, rfl, rfl, by decide⟩
  have halone : OthersAborted (sampleAfter sampleRevoked) "agent.example" .refresh := by
    have hnone : (sampleAfter sampleRevoked).inFlight .verification "agent.example" = none ∧
        (sampleAfter sampleRevoked).inFlight .statusRefresh "agent.example" = none := by
      decide
    intro k p op hk hp
    cases k with
    | refresh => exact absurd rfl hk
    | verification => simp [hnone.1] at hp
    | statusRefresh => simp [hnone.2] at hp
  have hstep := @run_sampleAfter sampleRevoked [.catchHandler 1] (by decide)
  have hlate := @run_sampleAfter (sampleRevoked ++ [.catchHandler 1])
    [.work 0 (.acquired (sampleEvidence 300))] (by decide)
  refine ⟨⟨_, _, hends⟩, ?_⟩
  exact negative_status_kept_when_alone hends halone ((run_singleton _ _).symm.trans hstep.2) hlate.2
    (by decide)

/-- A status refresh reports the revocation while a refresh is in flight. -/
def sampleOverlap : List (Action Unit Unit) :=
  [.call 0 (sampleCall false none)] ++ sampleSuccess 0 300 ++
    [.call 1 (sampleCall true none), .call 2 (sampleCall false none), .work 2 (.status .revoked),
      .thenHandler 2]

/-- The refresh then writes the `ACTIVE` evidence that it had gathered before. -/
theorem refresh_rewrites_revoked : ¬ NegativeStatusKept sampleConfig := by
  intro h
  have hstep := @run_sampleAfter sampleOverlap [.catchHandler 2] (by decide +kernel)
  have hlate := @run_sampleAfter (sampleOverlap ++ [.catchHandler 2])
    [.work 1 (.acquired (sampleEvidence 300))] (by decide +kernel)
  let written : VerifiedDomain Unit := ⟨.shared 1, "agent.example", (), "thumbprint", .active, 300,
    300000, some 900000, some 900000, none, 0⟩
  let cached : VerifiedDomain Unit := { written with object := .shared 0 }
  have hends : EndsInactive (sampleAfter sampleOverlap) 2 "agent.example" (inactive .revoked)
      ⟨.statusRefresh cached, "agent.example", 1, false, false, 30000, false,
        .fulfilled (.error (inactive .revoked))⟩ :=
    ⟨by decide +kernel, rfl, rfl, rfl, by decide +kernel⟩
  have hputs : Puts (sampleAfter (sampleOverlap ++ [.catchHandler 2] ++
      [.work 1 (.acquired (sampleEvidence 300))])) 1 "agent.example" written
      ⟨.refresh, "agent.example", 1, false, false, 30000, false, .budgeted (.ok written)⟩ :=
    ⟨by decide +kernel, rfl, rfl, rfl, by decide +kernel⟩
  exact h sampleOverlap [.work 1 (.acquired (sampleEvidence 300))] _ _ _ 2 1 _ _ _ hstep.1 hends
    ((run_singleton _ _).symm.trans hstep.2) hlate.2 (by decide +kernel) _ _ rfl hputs

end Dnsid.Manager

import Dnsid.Keys.ActiveKey
import Dnsid.Keys.KeyStoreRuns
import Dnsid.Keys.ProfileSigning

/-! # Signed artifacts name the key that signed them

A continuation of the JOSE profile that was queued before the active key changed runs before the `finally` of the
activation: it is refused, or the key it signs with is the key it has read. The other profiles verify.
-/
namespace Dnsid.Keys.Profiles
open Dnsid.Foundations Dnsid.Keys.Local LocalKeyProvider World
set_option autoImplicit false

/-! ## What a call names -/

section Names
variable {Message : Type} {P : ProfilePlatform Message} {key : StoredKey} {request : Request Message}

/-- A profile that awaits more before it signs, verifies. -/
theorem mismatch_of_prepares (h : request.prepares = true) : request.mismatch ≠ none := by
  cases request with
  | createJWT _ | createJWS _ _ | createOIDCAssertion _ => cases h
  | signHttpMessage _ _ | signWebBotAuth _ => simp [Request.mismatch]

end Names

/-! ## Jobs -/

section Jobs
variable {jobs : List Job} {c n : ℕ}

/-- The continuation of call `c` is queued, and the `finally` of provider call `n` does not come before it. -/
def Before (jobs : List Job) (c n : ℕ) : Prop :=
  ∃ earlier later, jobs = earlier ++ .resume c :: later ∧ .finish n ∉ earlier

theorem Before.append (h : Before jobs c n) (more : List Job) : Before (jobs ++ more) c n := by
  obtain ⟨earlier, later, rfl, hn⟩ := h
  exact ⟨earlier, later ++ more, by simp, hn⟩

/-- The `finally` is not queued yet. -/
theorem before_of_not_mem (hc : .resume c ∈ jobs) (hn : .finish n ∉ jobs) : Before jobs c n := by
  obtain ⟨earlier, later, rfl⟩ := List.append_of_mem hc
  exact ⟨earlier, later, rfl, fun hmem => hn (List.mem_append_left _ hmem)⟩

theorem Before.filter (h : Before jobs c n) {job : Job} (hne : .resume c ≠ job) :
    Before (jobs.filter (· ≠ job)) c n := by
  obtain ⟨earlier, later, rfl, hn⟩ := h
  refine ⟨earlier.filter (· ≠ job), later.filter (· ≠ job), ?_, fun hmem => hn (List.mem_of_mem_filter hmem)⟩
  rw [List.filter_append, List.filter_cons_of_pos (by simpa using hne)]

theorem not_before_of_mayFinish (h : mayFinish jobs n = true) : ¬ Before jobs c n := by
  rintro ⟨earlier, later, rfl, hn⟩
  have hearlier : ∀ job ∈ earlier, decide (job ≠ .finish n) = true := by
    intro job hjob
    simpa using ne_of_mem_of_not_mem hjob hn
  unfold mayFinish at h
  rw [List.takeWhile_append_of_pos hearlier] at h
  have := List.all_eq_true.mp h (.resume c) (by simp)
  cases this

end Jobs

/-! ## The provider and the jobs -/

section Provider
variable {p p' : LocalKeyProvider} {jobs more : List Job} {a : Local.Action} {c n : ℕ} {key : StoredKey}

theorem isFinishing_iff : isFinishing p n = true ↔ ∃ outcome, p.At n (.finishing outcome) := by
  unfold isFinishing LocalKeyProvider.At
  split
  next outcome hcall => simp [hcall]
  next hcall =>
    refine ⟨by rintro ⟨⟩, ?_⟩
    rintro ⟨outcome, heq⟩
    exact absurd heq (hcall outcome)

/-- The calls of the provider, and the `finally`s in `jobs`. -/
structure ProviderInv (p : LocalKeyProvider) (jobs : List Job) : Prop where
  calls : ∃ done, CallInv done p
  active : ActiveInv p
  finishing : ∀ n, .finish n ∈ jobs → isFinishing p n = true

/-- The continuation of call `c` is queued, and the key it was given is active, or a call activates whose `finally`
comes later. -/
def Current (p : LocalKeyProvider) (jobs : List Job) (c : ℕ) (key : StoredKey) : Prop :=
  .resume c ∈ jobs ∧
    (p.store.active = key ∨ ∃ n call, p.At n call ∧ call.activates = true ∧ Before jobs c n)

/-- The step is no `finally`. -/
def NoFinally (p : LocalKeyProvider) (a : Local.Action) : Prop :=
  ∀ n answer, a = .settleCall n answer → isFinishing p n = false

theorem ProviderInv.step (h : ProviderInv p jobs) (hstep : Local.step a p = some p') (hfinally : NoFinally p a)
    (hmore : ∀ n, .finish n ∈ more → isFinishing p' n = true) : ProviderInv p' (jobs ++ more) := by
  obtain ⟨done, hcalls⟩ := h.calls
  refine ⟨hcalls.step_some hstep, (h.active.step hstep).1, fun n hn => ?_⟩
  rcases List.mem_append.mp hn with hn | hn
  · obtain ⟨outcome, hat⟩ := isFinishing_iff.mp (h.finishing n hn)
    obtain ⟨call', hat', hgoes⟩ := step_goes hcalls hstep hat
    cases hgoes with
    | stays => exact isFinishing_iff.mpr ⟨outcome, hat'⟩
    | finishes ha =>
      have hnot := hfinally n _ ha
      rw [h.finishing n hn] at hnot
      cases hnot
  · exact hmore n hn

theorem Current.step (h : Current p jobs c key) (hinv : ProviderInv p jobs) (hstep : Local.step a p = some p')
    (hfinally : NoFinally p a) : Current p' (jobs ++ more) c key := by
  obtain ⟨done, hcalls⟩ := hinv.calls
  -- A call that activates does so after the step.
  have hkept : ∀ n call, p.At n call → call.activates = true → ∃ call', p'.At n call' ∧ call'.activates = true := by
    intro n call hat hact
    obtain ⟨call', hat', hgoes⟩ := step_goes hcalls hstep hat
    refine ⟨call', hat', hgoes.activates hact ?_⟩
    rintro outcome answer rfl ha
    have hnot := hfinally n answer ha
    rw [isFinishing_iff.mpr ⟨outcome, hat⟩] at hnot
    cases hnot
  refine ⟨List.mem_append_left _ h.1, ?_⟩
  obtain hactive | ⟨n, call, hat, hact, hbefore⟩ := h.2
  · obtain hsame | ⟨m, kid, hm, hchange⟩ := (hinv.active.step hstep).2
    · exact .inl (hsame.trans hactive)
    · have hat := hcalls.running m hm
      obtain ⟨call', hat', hact'⟩ := hkept m.call _ hat (by rw [hchange]; rfl)
      refine .inr ⟨m.call, call', hat', hact', (before_of_not_mem h.1 fun hmem => ?_).append more⟩
      obtain ⟨outcome, hfinishing⟩ := isFinishing_iff.mp (hinv.finishing m.call hmem)
      cases at_unique hat hfinishing
  · obtain ⟨call', hat', hact'⟩ := hkept n call hat hact
    exact .inr ⟨n, call', hat', hact', hbefore.append more⟩

/-- When the provider signs, it signs with the key that was read. -/
theorem Current.active (h : Current p jobs c key) (hinv : ProviderInv p jobs) (hopen : p.activating = false) :
    p.store.active = key := by
  obtain ⟨done, hcalls⟩ := hinv.calls
  obtain hactive | ⟨n, call, hat, hact, -⟩ := h.2
  · exact hactive
  · have hgate := hcalls.gate n call hat hact
    rw [hopen] at hgate
    cases hgate

theorem ProviderInv.filter (h : ProviderInv p jobs) (job : Job) : ProviderInv p (jobs.filter (· ≠ job)) :=
  ⟨h.calls, h.active, fun n hn => h.finishing n (List.mem_of_mem_filter hn)⟩

theorem Current.filter (h : Current p jobs c key) {job : Job} (hne : .resume c ≠ job) :
    Current p (jobs.filter (· ≠ job)) c key := by
  refine ⟨List.mem_filter.mpr ⟨h.1, by simpa using hne⟩, ?_⟩
  obtain hactive | ⟨n, call, hat, hact, hbefore⟩ := h.2
  · exact .inl hactive
  · exact .inr ⟨n, call, hat, hact, hbefore.filter hne⟩

/-- A `finally`. -/
theorem ProviderInv.finish (h : ProviderInv p jobs) {answer : Answer}
    (hstep : Local.step (.settleCall n answer) p = some p')
    (hmore : ∀ k, .finish k ∈ more → isFinishing p' k = true) :
    ProviderInv p' (jobs.filter (· ≠ .finish n) ++ more) := by
  obtain ⟨done, hcalls⟩ := h.calls
  refine ⟨hcalls.step_some hstep, (h.active.step hstep).1, fun k hk => ?_⟩
  rcases List.mem_append.mp hk with hk | hk
  · obtain ⟨hk, hne⟩ := List.mem_filter.mp hk
    obtain ⟨outcome, hat⟩ := isFinishing_iff.mp (h.finishing k hk)
    obtain ⟨call', hat', hgoes⟩ := step_goes hcalls hstep hat
    cases hgoes with
    | stays => exact isFinishing_iff.mpr ⟨outcome, hat'⟩
    | finishes ha =>
      injection ha with heq _
      simp [heq] at hne
  · exact hmore k hk

theorem Current.finish (h : Current p jobs c key) (hinv : ProviderInv p jobs) (hn : isFinishing p n = true)
    (hmay : mayFinish jobs n = true) {answer : Answer} (hstep : Local.step (.settleCall n answer) p = some p') :
    Current p' (jobs.filter (· ≠ .finish n) ++ more) c key := by
  obtain ⟨done, hcalls⟩ := hinv.calls
  obtain ⟨outcome, hfinishing⟩ := isFinishing_iff.mp hn
  obtain ⟨hstore, -⟩ := step_store hstep (by rintro ⟨⟩) (by rintro answer ⟨⟩)
  refine ⟨List.mem_append_left _ (List.mem_filter.mpr ⟨h.1, by simp⟩), .inl ?_⟩
  obtain hactive | ⟨k, call, hat, hact, hbefore⟩ := h.2
  · rw [hstore]
    exact hactive
  · obtain rfl := hcalls.one k n call _ hat hfinishing hact rfl
    exact absurd hbefore (not_before_of_mayFinish hmay)

end Provider

/-! ## Every step -/

section Steps
variable {Message : Type} {P : ProfilePlatform Message} {held : StoredKey → Prop} {w w' : World Message} {c : ℕ}
  {request : Request Message} {key : StoredKey} {phase : CallPhase Message}

/-- What is known of call `c`. The key it was given is one of `held`. -/
def PhaseInv (P : ProfilePlatform Message) (held : StoredKey → Prop) (p : LocalKeyProvider) (jobs : List Job) (c : ℕ) :
    CallPhase Message → Prop
  | .reading _ key => held key ∧ Current p jobs c key
  | .preparing request key => held key ∧ request.prepares = true
  | .signing request key d _ signer => held key ∧ draft P key request = .ok d ∧ (request.mismatch = none → signer = key)
  | .verifying request key artifact _ => held key ∧ draft P key request = .ok artifact.draft
  | .returned request key artifact =>
    held key ∧ draft P key request = .ok artifact.draft ∧
      P.verifyWithKey key (artifact.draft.input P) artifact.signature = true
  | .rejected _ => True

structure WorldInv (P : ProfilePlatform Message) (held : StoredKey → Prop) (w : World Message) : Prop where
  provider : ProviderInv w.provider w.jobs
  calls : ∀ c phase, w.calls[c]? = some phase → PhaseInv P held w.provider w.jobs c phase

/-- Only a call that reads its key looks at the provider and the jobs. -/
theorem PhaseInv.congr {p p' : LocalKeyProvider} {jobs jobs' : List Job} (h : PhaseInv P held p jobs c phase)
    (hreading : ∀ request key, phase = .reading request key → Current p jobs c key → Current p' jobs' c key) :
    PhaseInv P held p' jobs' c phase := by
  cases phase with
  | reading request key => exact ⟨h.1, hreading request key rfl h.2⟩
  | preparing _ _ | signing _ _ _ _ _ | verifying _ _ _ _ | returned _ _ _ | rejected _ => exact h

/-- The invariant of every call but `c`. -/
structure OthersInv (P : ProfilePlatform Message) (held : StoredKey → Prop) (w : World Message) (c : ℕ) : Prop where
  provider : ProviderInv w.provider w.jobs
  calls : ∀ k phase, k ≠ c → w.calls[k]? = some phase → PhaseInv P held w.provider w.jobs k phase

theorem WorldInv.others (h : WorldInv P held w) (c : ℕ) : OthersInv P held w c :=
  ⟨h.provider, fun k phase _ hk => h.calls k phase hk⟩

/-- Call `c` goes on. -/
theorem OthersInv.setPhase (h : OthersInv P held w c) (hphase : PhaseInv P held w.provider w.jobs c phase) :
    WorldInv P held (w.setPhase c phase) := by
  refine ⟨h.provider, fun k phase' hk => ?_⟩
  by_cases hne : c = k
  · subst hne
    obtain ⟨hlt, -⟩ := List.getElem?_eq_some_iff.mp hk
    replace hlt : c < (w.calls.set c phase).length := hlt
    rw [List.length_set] at hlt
    have hself : (w.calls.set c phase)[c]? = some phase := List.getElem?_set_self hlt
    obtain rfl := Option.some.inj (hself.symm.trans hk)
    exact hphase
  · exact h.calls k phase' (Ne.symm hne) ((List.getElem?_set_ne hne).symm.trans hk)

theorem mem_newlyFinishing {p p' : LocalKeyProvider} {n : ℕ}
    (h : Job.finish n ∈ (newlyFinishing p p').map Job.finish) : isFinishing p' n = true := by
  obtain ⟨k, hk, heq⟩ := List.mem_map.mp h
  injection heq with heq
  subst heq
  have hboth := (List.mem_filter.mp hk).2
  exact (Bool.and_eq_true_iff.mp hboth).1

/-- The provider takes a step that is no `finally`. -/
theorem WorldInv.moved (h : WorldInv P held w) {a : Local.Action} {p' : LocalKeyProvider}
    (hstep : Local.step a w.provider = some p') (hfinally : NoFinally w.provider a) :
    WorldInv P held (w.moved p') := by
  refine ⟨h.provider.step hstep hfinally fun n hn => mem_newlyFinishing hn, fun c phase hc => ?_⟩
  exact (h.calls c phase hc).congr fun _ _ _ hcurrent => hcurrent.step h.provider hstep hfinally

theorem providerStep_eq_some {p p' : LocalKeyProvider} {a : Local.Action} (h : providerStep p a = some p') :
    Local.step a p = some p' ∧ NoFinally p a := by
  cases a with
  | settleCall n answer =>
    simp only [providerStep] at h
    split_ifs at h with hfinishing
    refine ⟨h, ?_⟩
    rintro k answer' heq
    injection heq with hk _
    rw [← hk]
    simpa using hfinishing
  | sign | signKey _ | generateKey _ | activate _ | supersede _ | begin | settle _ =>
    exact ⟨h, by rintro n answer ⟨⟩⟩

/-- The call is refused, or the key it signs with is the key it has read. -/
theorem OthersInv.callSign (h : OthersInv P held w c) (hheld : held key)
    (hkey : request.mismatch = none → w.provider.activating = false → w.provider.store.active = key) :
    WorldInv P held (w.callSign P c request key) := by
  unfold World.callSign
  split
  next message => exact h.setPhase trivial
  next d hdraft =>
    have hsign : Local.step .sign w.provider = some (w.provider.startSigning w.provider.store.active.kid) := rfl
    have hfinally : NoFinally w.provider .sign := by rintro n answer ⟨⟩
    have h' : OthersInv P held { w with provider := w.provider.startSigning w.provider.store.active.kid } c := by
      refine ⟨?_, fun k phase hne hk => (h.calls k phase hne hk).congr fun _ _ _ hcurrent => ?_⟩
      · rw [← List.append_nil w.jobs]
        exact h.provider.step hsign hfinally (by rintro n ⟨⟩)
      · rw [← List.append_nil w.jobs]
        exact hcurrent.step h.provider hsign hfinally
    simp only
    split_ifs with hactivating
    · exact h'.setPhase trivial
    · exact h'.setPhase ⟨hheld, hdraft, fun hmismatch => hkey hmismatch (by simpa using hactivating)⟩

/-- The continuation of `c` runs, and the others stay queued. -/
theorem WorldInv.resumed (h : WorldInv P held w) (c : ℕ) : OthersInv P held (w.done (.resume c)) c := by
  refine ⟨h.provider.filter _, fun k phase hne hk => ?_⟩
  refine (h.calls k phase hk).congr fun _ _ _ hcurrent => hcurrent.filter ?_
  intro heq
  injection heq with heq
  exact hne heq

theorem WorldInv.start (h : WorldInv P held w) (hactive : held w.provider.store.active) (request : Request Message) :
    WorldInv P held { w with
      calls := w.calls ++ [.reading request w.provider.store.active], jobs := w.jobs ++ [.resume w.calls.length] } := by
  refine ⟨⟨h.provider.calls, h.provider.active, fun n hn => ?_⟩, fun c phase hc => ?_⟩
  · rcases List.mem_append.mp hn with hn | hn
    · exact h.provider.finishing n hn
    · cases List.mem_singleton.mp hn
  · rcases getElem?_concat_iff.mp hc with hc | ⟨rfl, rfl⟩
    · refine (h.calls c phase hc).congr fun _ _ _ hcurrent => ⟨List.mem_append_left _ hcurrent.1, ?_⟩
      obtain hsame | ⟨n, call, hat, hact, hbefore⟩ := hcurrent.2
      · exact .inl hsame
      · exact .inr ⟨n, call, hat, hact, hbefore.append _⟩
    · exact ⟨hactive, List.mem_append_right _ List.mem_cons_self, .inl rfl⟩

/-- A signature that is not verified was made with the key that the call names. -/
theorem WorldInv.settleSign (hP : P.Lawful) (h : WorldInv P held w) {result : Except String ℕ}
    (hc : w.calls[c]? = some phase) (hstep : w.settleSign P c result phase = some w') : WorldInv P held w' := by
  unfold World.settleSign at hstep
  split at hstep
  next random request key d operation signer =>
    obtain ⟨p', hprovider, rfl⟩ := Option.map_eq_some_iff.mp hstep
    obtain ⟨hstep', hfinally⟩ := providerStep_eq_some hprovider
    have h' := (h.moved hstep' hfinally).others c
    obtain ⟨hheld, hdraft, hsigner⟩ := h.calls c _ hc
    unfold World.signed
    split
    next hmismatch =>
      refine h'.setPhase ⟨hheld, hdraft, ?_⟩
      rw [hsigner hmismatch]
      exact hP key (d.input P) random
    next => exact h'.setPhase ⟨hheld, hdraft⟩
  next message request key d operation signer =>
    obtain ⟨p', hprovider, rfl⟩ := Option.map_eq_some_iff.mp hstep
    obtain ⟨hstep', hfinally⟩ := providerStep_eq_some hprovider
    exact ((h.moved hstep' hfinally).others c).setPhase trivial
  next => cases hstep

theorem WorldInv.finish (h : WorldInv P held w) {n : ℕ} (hn : isFinishing w.provider n = true)
    (hmay : mayFinish w.jobs n = true) {answer : Answer} {p' : LocalKeyProvider}
    (hstep : Local.step (.settleCall n answer) w.provider = some p') :
    WorldInv P held ((w.done (.finish n)).moved p') := by
  refine ⟨h.provider.finish hstep fun k hk => mem_newlyFinishing hk, fun c phase hc => ?_⟩
  exact (h.calls c phase hc).congr fun _ _ _ hcurrent => hcurrent.finish h.provider hn hmay hstep

theorem WorldInv.step (hP : P.Lawful) (h : WorldInv P held w) (hactive : held w.provider.store.active)
    {a : Action Message} (hstep : Profiles.step P a w = some w') : WorldInv P held w' := by
  cases a with
  | provider action =>
    obtain ⟨p', hprovider, rfl⟩ := Option.map_eq_some_iff.mp hstep
    obtain ⟨hstep', hfinally⟩ := providerStep_eq_some hprovider
    exact h.moved hstep' hfinally
  | start request =>
    obtain rfl := Option.some.inj hstep
    exact h.start hactive request
  | resume c =>
    simp only [Profiles.step] at hstep
    split at hstep
    next request key hc =>
      obtain ⟨hheld, hcurrent⟩ := h.calls c _ hc
      split_ifs at hstep with hprepares
      · obtain rfl := Option.some.inj hstep
        exact (h.resumed c).setPhase ⟨hheld, hprepares⟩
      · obtain rfl := Option.some.inj hstep
        exact (h.resumed c).callSign hheld fun _ hopen => hcurrent.active h.provider hopen
    next => cases hstep
  | prepared c result =>
    simp only [Profiles.step] at hstep
    split at hstep
    next request key hc =>
      obtain ⟨hheld, hprepares⟩ := h.calls c _ hc
      obtain rfl := Option.some.inj hstep
      exact (h.others c).callSign hheld fun hnone => absurd hnone (mismatch_of_prepares hprepares)
    next =>
      obtain rfl := Option.some.inj hstep
      exact (h.others c).setPhase trivial
    next => cases hstep
  | settleSign c result =>
    obtain ⟨phase, hc, hsettled⟩ := Option.bind_eq_some_iff.mp hstep
    exact h.settleSign hP hc hsettled
  | settleVerify c =>
    simp only [Profiles.step] at hstep
    split at hstep
    next request key artifact mismatch hc =>
      obtain ⟨hheld, hdraft⟩ := h.calls c _ hc
      split_ifs at hstep with hverify
      · obtain rfl := Option.some.inj hstep
        exact (h.others c).setPhase ⟨hheld, hdraft, hverify⟩
      · obtain rfl := Option.some.inj hstep
        exact (h.others c).setPhase trivial
    next => cases hstep
  | finish n =>
    simp only [Profiles.step] at hstep
    split_ifs at hstep with hmay
    obtain ⟨hfinishing, hmay⟩ := Bool.and_eq_true_iff.mp hmay
    obtain ⟨p', hstep', rfl⟩ := Option.map_eq_some_iff.mp hstep
    exact h.finish hfinishing hmay hstep'

end Steps

/-! ## Every run -/

section Runs
variable {Message : Type} {P : ProfilePlatform Message}

theorem worldInv_initial (held : StoredKey → Prop) {p₀ : LocalKeyProvider} (hloaded : Loaded p₀) :
    WorldInv P held (initial p₀) := by
  refine ⟨⟨⟨[], callInv_loaded hloaded⟩, fun m hm => ?_, by rintro n ⟨⟩⟩, by rintro c phase ⟨⟩⟩
  rw [show (initial p₀ : World Message).provider = p₀ from rfl, hloaded.running] at hm
  cases hm

end Runs

/-! ## An activation between reading and signing -/

end Dnsid.Keys.Profiles

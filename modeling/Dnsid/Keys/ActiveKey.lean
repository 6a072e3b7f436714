import Dnsid.Keys.SigningGate

/-! # The active key of the local key provider

The active key changes while a call activates a key, and that call holds `activating` until its `finally`. Both hold
for every provider that was loaded, whichever kids are generated.
-/
namespace Dnsid.Keys.Local
open Dnsid.Foundations LocalKeyProvider
set_option autoImplicit false

/-! ## What becomes of a call -/

section Calls
variable {done : List (ℕ × Update)} {p p' : LocalKeyProvider} {n : ℕ} {call : Call}

/-- How a call can go on. -/
inductive Call.Goes (a : Action) (n : ℕ) : Call → Call → Prop
  | stays (call : Call) : Goes a n call call
  | signs {kid : String} {call' : Call} : call'.activates = false → Goes a n (.signing kid) call'
  | waits {kid : String} {operations : List ℕ} : Goes a n (.awaitingSigners kid operations) (.mutating (.activate kid))
  | settles (change : Change) (outcome : Except String (Option String)) :
      Goes a n (.mutating change) (settledCall change outcome)
  | finishes {outcome : Except String Unit} {call' : Call} {answer : Answer} : a = .settleCall n answer →
      Goes a n (.finishing outcome) call'

theorem at_enter (hat : p.At n call) (call' : Call) : (p.enter call').At n call := by
  obtain ⟨hlt, -⟩ := List.getElem?_eq_some_iff.mp hat
  exact (List.getElem?_append_left hlt).trans hat

theorem at_move {k : ℕ} (hat : p.At n call) (hne : k ≠ n) (call' : Call) : (p.move k call').At n call :=
  (List.getElem?_set_ne hne).trans hat

theorem at_move_self (hat : p.At n call) (call' : Call) : (p.move n call').At n call' := by
  obtain ⟨hlt, -⟩ := List.getElem?_eq_some_iff.mp hat
  exact List.getElem?_set_self hlt

/-- The mutation of call `k` has settled. -/
theorem goes_settled {q : LocalKeyProvider} (hcalls : q.calls = p.calls) {a : Action} {k : ℕ} {change : Change}
    (hk : p.At k (.mutating change)) (outcome : Except String (Option String)) (hat : p.At n call) :
    ∃ call', (q.settleMutation k change outcome).At n call' ∧ call.Goes a n call' := by
  have hat' : ({ q with running := none } : LocalKeyProvider).At n call := by
    show q.calls[n]? = some call
    rw [hcalls]
    exact hat
  rw [settleMutation_eq]
  by_cases hne : k = n
  · subst hne
    obtain rfl := at_unique hat hk
    exact ⟨_, at_move_self hat' _, .settles change outcome⟩
  · exact ⟨call, at_move hat' hne _, .stays call⟩

/-- The mutation goes on. -/
theorem goes_setPhase {q : LocalKeyProvider} (hcalls : q.calls = p.calls) {a : Action} (m : Mutation) (phase : Phase)
    (hat : p.At n call) : ∃ call', (q.setPhase m phase).At n call' ∧ call.Goes a n call' := by
  refine ⟨call, ?_, .stays call⟩
  show q.calls[n]? = some call
  rw [hcalls]
  exact hat

theorem goes_settleRunning (h : CallInv done p) {m : Mutation} (hm : p.running = some m) {answer : Answer}
    (hstep : p.settleRunning m answer = some p') (hat : p.At n call) :
    ∃ call', p'.At n call' ∧ call.Goes (.settle answer) n call' := by
  have hk := h.running m hm
  unfold LocalKeyProvider.settleRunning at hstep
  split at hstep
  next =>
    split at hstep
    next =>
      obtain rfl := Option.some.inj hstep
      exact goes_setPhase rfl m _ hat
    next =>
      obtain rfl := Option.some.inj hstep
      exact goes_settled rfl hk _ hat
    next => cases hstep
  next =>
    split at hstep
    next =>
      split_ifs at hstep with hfiles
      · obtain rfl := Option.some.inj hstep
        exact goes_setPhase rfl m _ hat
      · obtain rfl := Option.some.inj hstep
        exact goes_settled (q := p.commit _) rfl hk _ hat
    next => cases hstep
  next =>
    obtain ⟨result, -, rfl⟩ := Option.map_eq_some_iff.mp hstep
    unfold LocalKeyProvider.settleBackup
    split
    next =>
      refine goes_setPhase ?_ m _ hat
      split_ifs <;> rfl
    next => exact goes_setPhase rfl m _ hat
    next => exact goes_settled rfl hk _ hat
  next =>
    obtain ⟨result, -, rfl⟩ := Option.map_eq_some_iff.mp hstep
    unfold LocalKeyProvider.settleWrite
    split
    next =>
      split_ifs
      · exact goes_setPhase (q := p.commit _) rfl m _ hat
      · exact goes_setPhase rfl m _ hat
    next => exact goes_settled rfl hk _ hat
    next => exact goes_settled rfl hk _ hat

theorem goes_beginMutation (h : CallInv done p) (hstep : p.beginMutation = some p') (hat : p.At n call) :
    ∃ call', p'.At n call' ∧ call.Goes .begin n call' := by
  unfold LocalKeyProvider.beginMutation at hstep
  split at hstep
  next k change queue hrunning hqueue =>
    have hk : p.At k (.mutating change) := h.queued (k, change) (by rw [hqueue]; exact List.mem_cons_self)
    simp only at hstep
    split at hstep
    next =>
      obtain rfl := Option.some.inj hstep
      exact goes_settled (q := { p with queue }) rfl hk _ hat
    next =>
      obtain rfl := Option.some.inj hstep
      exact ⟨call, hat, .stays call⟩
  next => cases hstep

theorem goes_settleCall {k : ℕ} {answer : Answer} {call₀ : Call} (hk : p.At k call₀)
    (hstep : p.settleCallOf k answer call₀ = some p') (hat : p.At n call) :
    ∃ call', p'.At n call' ∧ call.Goes (.settleCall k answer) n call' := by
  by_cases hne : k = n
  · subst hne
    obtain rfl := at_unique hat hk
    cases call with
    | signing kid =>
      cases answer with
      | done =>
        obtain rfl := Option.some.inj hstep
        exact ⟨_, at_move_self hat _, .signs rfl⟩
      | failed message =>
        obtain rfl := Option.some.inj hstep
        exact ⟨_, at_move_self hat _, .signs rfl⟩
      | key key => cases hstep
    | awaitingSigners kid operations =>
      simp only [settleCallOf] at hstep
      split at hstep
      · cases hstep
      · obtain rfl := Option.some.inj hstep
        exact ⟨_, at_move_self (p := { p with queue := _ }) hat _, .waits⟩
    | finishing outcome =>
      cases outcome with
      | ok u =>
        obtain rfl := Option.some.inj hstep
        exact ⟨_, at_move_self (p := { p with activating := false }) hat _, .finishes rfl⟩
      | error message =>
        obtain rfl := Option.some.inj hstep
        exact ⟨_, at_move_self (p := { p with activating := false }) hat _, .finishes rfl⟩
    | signed | mutating _ | mutated _ | rejected _ => cases hstep
  · refine ⟨call, ?_, .stays call⟩
    cases call₀ with
    | signing kid =>
      cases answer with
      | done | failed message =>
        obtain rfl := Option.some.inj hstep
        exact at_move hat hne _
      | key key => cases hstep
    | awaitingSigners kid operations =>
      simp only [settleCallOf] at hstep
      split at hstep
      · cases hstep
      · obtain rfl := Option.some.inj hstep
        exact at_move (p := { p with queue := _ }) hat hne _
    | finishing outcome =>
      cases outcome with
      | ok u | error message =>
        obtain rfl := Option.some.inj hstep
        exact at_move (p := { p with activating := false }) hat hne _
    | signed | mutating _ | mutated _ | rejected _ => cases hstep

/-- Every step takes every call on as `Goes` says. -/
theorem step_goes (h : CallInv done p) {a : Action} (hstep : step a p = some p') (hat : p.At n call) :
    ∃ call', p'.At n call' ∧ call.Goes a n call' := by
  cases a with
  | sign | signKey kid =>
    obtain rfl := Option.some.inj hstep
    unfold startSigning
    split_ifs <;> exact ⟨call, at_enter hat _, .stays call⟩
  | generateKey algorithm | supersede kid =>
    obtain rfl := Option.some.inj hstep
    exact ⟨call, at_enter (p := { p with queue := _ }) hat _, .stays call⟩
  | activate kid =>
    obtain rfl := Option.some.inj hstep
    unfold startActivate
    split_ifs
    · exact ⟨call, at_enter hat _, .stays call⟩
    · exact ⟨call, at_enter (p := { p with activating := true }) hat _, .stays call⟩
  | settleCall k answer =>
    obtain ⟨call₀, hk, hsettled⟩ := Option.bind_eq_some_iff.mp hstep
    exact goes_settleCall hk hsettled hat
  | begin => exact goes_beginMutation h hstep hat
  | settle answer =>
    obtain ⟨m, hm, hsettled⟩ := Option.bind_eq_some_iff.mp hstep
    exact goes_settleRunning h hm hsettled hat

end Calls

/-! ## Invariants of the provider -/

section Provider
variable {done : List (ℕ × Update)} {p p' : LocalKeyProvider} {a : Action}

/-- A call that activates goes on activating until its `finally`. -/
theorem Call.Goes.activates {n : ℕ} {call call' : Call} (h : call.Goes a n call') (hact : call.activates = true)
    (hopen : ∀ outcome answer, call = .finishing outcome → a ≠ .settleCall n answer) : call'.activates = true := by
  cases h with
  | stays => exact hact
  | signs hfalse => cases hact
  | waits => rfl
  | settles change outcome => rw [(settledCall_activates change outcome).1, hact]
  | finishes ha => exact absurd ha (hopen _ _ rfl)

/-- Whatever settles, the calls stay in order; the store is not asked. -/
theorem CallInv.settles_some (h : CallInv done p) {m : Mutation} (hm : p.running = some m) {answer : Answer}
    (hstep : p.settleRunning m answer = some p') : ∃ done', CallInv done' p' := by
  unfold LocalKeyProvider.settleRunning at hstep
  split at hstep
  next =>
    split at hstep
    next =>
      obtain rfl := Option.some.inj hstep
      exact ⟨done, h.setPhase hm rfl rfl rfl (fun _ he => he) _⟩
    next =>
      obtain rfl := Option.some.inj hstep
      exact ⟨done, h.settledRunning hm rfl rfl rfl (fun _ he => he) (by rintro result ⟨⟩)⟩
    next => cases hstep
  next next update _ =>
    split at hstep
    next =>
      split_ifs at hstep
      · obtain rfl := Option.some.inj hstep
        exact ⟨done, h.setPhase hm rfl rfl rfl (fun _ he => he) _⟩
      · obtain rfl := Option.some.inj hstep
        refine ⟨done ++ [(m.call, update)], h.settledRunning (q := p.commit _) hm rfl rfl rfl
          (fun _ he => List.mem_append_left _ he) fun _ _ => ⟨update, ?_⟩⟩
        exact List.mem_append_right _ List.mem_cons_self
    next => cases hstep
  next next update stage _ =>
    obtain ⟨result, -, rfl⟩ := Option.map_eq_some_iff.mp hstep
    exact ⟨done, h.settleBackup hm next update stage result⟩
  next next update stage replaced _ =>
    obtain ⟨result, -, rfl⟩ := Option.map_eq_some_iff.mp hstep
    unfold LocalKeyProvider.settleWrite
    split
    next =>
      split_ifs
      · exact ⟨done, h.setPhase (q := p.commit _) hm rfl rfl rfl (fun _ he => he) _⟩
      · exact ⟨done, h.setPhase hm rfl rfl rfl (fun _ he => he) _⟩
    next =>
      refine ⟨done ++ [(m.call, update)], h.settledRunning hm rfl rfl rfl
        (fun _ he => List.mem_append_left _ he) fun _ _ => ⟨update, ?_⟩⟩
      exact List.mem_append_right _ List.mem_cons_self
    next => exact ⟨done, h.settledRunning hm rfl rfl rfl (fun _ he => he) (by rintro result ⟨⟩)⟩

/-- Every step keeps the calls in order, whichever kids are generated. -/
theorem CallInv.step_some (h : CallInv done p) (hstep : Local.step a p = some p') : ∃ done', CallInv done' p' := by
  cases a with
  | settle answer =>
    obtain ⟨m, hm, hsettled⟩ := Option.bind_eq_some_iff.mp hstep
    exact h.settles_some hm hsettled
  | sign | signKey kid =>
    obtain rfl := Option.some.inj hstep
    exact ⟨done, h.startSigning _⟩
  | generateKey algorithm | supersede kid =>
    obtain rfl := Option.some.inj hstep
    exact ⟨done, h.mutate (by rintro kid ⟨⟩)⟩
  | activate kid =>
    obtain rfl := Option.some.inj hstep
    exact ⟨done, h.startActivate kid⟩
  | settleCall n answer =>
    obtain ⟨call, hat, hsettled⟩ := Option.bind_eq_some_iff.mp hstep
    exact ⟨done, h.settleCallOf hat hsettled⟩
  | begin => exact ⟨done, h.beginMutation hstep⟩

/-- The copy that the mutation works on. -/
def Phase.next : Phase → KeyStore
  | .generating next _ => next
  | .changed next _ => next
  | .backingUp next _ _ => next
  | .writing next _ _ _ => next

/-- Only an activation prepares another active key. -/
def ActiveInv (p : LocalKeyProvider) : Prop :=
  ∀ m, p.running = some m → (∃ kid, m.change = .activate kid) ∨ m.phase.next.active = p.store.active

/-- The active key is kept, or the mutation that runs activates. -/
def KeepsActive (p p' : LocalKeyProvider) : Prop :=
  p'.store.active = p.store.active ∨ ∃ m kid, p.running = some m ∧ m.change = .activate kid

theorem activeInv_settled (q : LocalKeyProvider) (n : ℕ) (change : Change) (outcome : Except String (Option String)) :
    ActiveInv (q.settleMutation n change outcome) := by
  intro m hm
  rw [settleMutation_eq] at hm
  cases hm

theorem settleMutation_store (q : LocalKeyProvider) (n : ℕ) (change : Change) (outcome : Except String (Option String)) :
    (q.settleMutation n change outcome).store = q.store := by
  rw [settleMutation_eq]
  rfl

/-- What `settleRunning` makes of the running mutation keeps its copy's active key. -/
theorem ActiveInv.settleRunning (h : ActiveInv p) {m : Mutation} (hm : p.running = some m) {answer : Answer}
    (hstep : p.settleRunning m answer = some p') : ActiveInv p' ∧ KeepsActive p p' := by
  have hphase : ∀ {q : LocalKeyProvider} {phase : Phase}, q.store.active = p.store.active →
      phase.next.active = m.phase.next.active → ActiveInv (q.setPhase m phase) ∧ KeepsActive p (q.setPhase m phase) := by
    intro q phase hq hnext
    refine ⟨fun m' hm' => ?_, .inl hq⟩
    obtain rfl := Option.some.inj hm'
    show (∃ kid, m.change = .activate kid) ∨ phase.next.active = q.store.active
    rw [hq, hnext]
    exact h m hm
  have hsettled : ∀ {outcome}, ActiveInv (p.settleMutation m.call m.change outcome) ∧
      KeepsActive p (p.settleMutation m.call m.change outcome) := by
    intro outcome
    exact ⟨activeInv_settled p _ _ _, .inl (by rw [settleMutation_store])⟩
  -- The copy becomes the store.
  have hcommit : KeepsActive p (p.commit m.phase.next) := by
    obtain ⟨kid, hkid⟩ | hsame := h m hm
    · exact .inr ⟨m, kid, hm, hkid⟩
    · exact .inl hsame
  unfold LocalKeyProvider.settleRunning at hstep
  split at hstep
  next next algorithm hm' =>
    split at hstep
    next key =>
      obtain rfl := Option.some.inj hstep
      exact hphase rfl (by rw [hm']; rfl)
    next =>
      obtain rfl := Option.some.inj hstep
      exact hsettled
    next => cases hstep
  next next update hm' =>
    rw [hm'] at hcommit hphase
    split at hstep
    next =>
      split_ifs at hstep
      · obtain rfl := Option.some.inj hstep
        exact hphase rfl rfl
      · obtain rfl := Option.some.inj hstep
        refine ⟨activeInv_settled _ _ _ _, ?_⟩
        rw [KeepsActive, settleMutation_store]
        exact hcommit
    next => cases hstep
  next next update stage hm' =>
    rw [hm'] at hphase
    obtain ⟨result, -, rfl⟩ := Option.map_eq_some_iff.mp hstep
    unfold LocalKeyProvider.settleBackup
    split
    next =>
      refine hphase ?_ rfl
      split_ifs <;> rfl
    next => exact hphase rfl rfl
    next => exact hsettled
  next next update stage replaced hm' =>
    rw [hm'] at hcommit hphase
    obtain ⟨result, -, rfl⟩ := Option.map_eq_some_iff.mp hstep
    unfold LocalKeyProvider.settleWrite
    split
    next =>
      split_ifs
      · refine ⟨fun m' hm'' => ?_, hcommit⟩
        obtain rfl := Option.some.inj hm''
        exact .inr rfl
      · exact hphase rfl rfl
    next => exact hsettled
    next => exact hsettled

theorem ActiveInv.beginMutation (hstep : p.beginMutation = some p') : ActiveInv p' ∧ KeepsActive p p' := by
  unfold LocalKeyProvider.beginMutation at hstep
  split at hstep
  next n change queue hrunning hqueue =>
    simp only at hstep
    split at hstep
    next =>
      obtain rfl := Option.some.inj hstep
      exact ⟨activeInv_settled _ _ _ _, .inl (by rw [settleMutation_store])⟩
    next phase hstart =>
      obtain rfl := Option.some.inj hstep
      refine ⟨fun m hm => ?_, .inl rfl⟩
      obtain rfl := Option.some.inj hm
      cases change with
      | generateKey algorithm =>
        simp only [startChange, bind_eq_ok, pure_eq_ok] at hstart
        obtain ⟨_, -, rfl⟩ := hstart
        exact .inr rfl
      | activate kid => exact .inl ⟨kid, rfl⟩
      | supersede kid =>
        simp only [startChange, bind_eq_ok, pure_eq_ok] at hstart
        obtain ⟨next, hnext, rfl⟩ := hstart
        have hupdates := updates_of_apply hnext
        refine .inr ?_
        show next.active = p.store.active
        cases hupdates with
        | supersede => rfl
  next => cases hstep

theorem ActiveInv.step (h : ActiveInv p) (hstep : step a p = some p') : ActiveInv p' ∧ KeepsActive p p' := by
  cases a with
  | settle answer =>
    obtain ⟨m, hm, hsettled⟩ := Option.bind_eq_some_iff.mp hstep
    exact h.settleRunning hm hsettled
  | begin => exact ActiveInv.beginMutation hstep
  | sign | signKey _ | generateKey _ | activate _ | supersede _ | settleCall _ _ =>
    obtain ⟨hstore, -, hrunning⟩ := step_store hstep (by rintro ⟨⟩) (by rintro answer ⟨⟩)
    refine ⟨fun m hm => ?_, .inl (by rw [hstore])⟩
    rw [hstore]
    exact h m (hrunning ▸ hm)

end Provider

end Dnsid.Keys.Local

import Dnsid.Keys.LocalKeyStore

/-! # Calls of the local key provider

At most one call activates a key, and none of the calls signs from the moment its mutation is queued until its
`finally`. Each queued mutation belongs to one call, which waits for it.
-/
namespace Dnsid.Keys.Local
open Dnsid.Foundations LocalKeyProvider
set_option autoImplicit false

/-- The call holds `activating`. -/
def Call.activates : Call → Bool
  | .awaitingSigners _ _ => true
  | .mutating (.activate _) => true
  | .finishing _ => true
  | _ => false

/-- The call no longer waits for the signing calls. -/
def Call.closed : Call → Bool
  | .mutating (.activate _) => true
  | .finishing _ => true
  | _ => false

/-- The mutation of the call has resolved. -/
def Call.succeeded : Call → Bool
  | .finishing (.ok ()) => true
  | .mutated _ => true
  | _ => false

/-- Where call `n` stands. -/
def LocalKeyProvider.At (p : LocalKeyProvider) (n : ℕ) (call : Call) : Prop := p.calls[n]? = some call

structure CallInv (done : List (ℕ × Update)) (p : LocalKeyProvider) : Prop where
  running : ∀ m, p.running = some m → p.At m.call (.mutating m.change)
  queued : ∀ e ∈ p.queue, p.At e.1 (.mutating e.2)
  apart : (p.running.toList.map Mutation.call ++ p.queue.map Prod.fst).Nodup
  gate : ∀ n call, p.At n call → call.activates = true → p.activating = true
  one : ∀ n n' call call', p.At n call → p.At n' call' → call.activates = true → call'.activates = true → n = n'
  waiting : ∀ n kid operations, p.At n (.awaitingSigners kid operations) →
    ∀ k signer, p.At k (.signing signer) → k ∈ operations
  quiet : ∀ n call, p.At n call → call.closed = true → ∀ k signer, ¬ p.At k (.signing signer)
  resolved : ∀ n call, p.At n call → call.succeeded = true → ∃ update, (n, update) ∈ done

/-- Of the calls only `n` has changed, or was added. -/
def Puts (p p' : LocalKeyProvider) (n : ℕ) (call : Call) : Prop :=
  ∀ k c, p'.At k c ↔ (k = n ∧ c = call) ∨ (k ≠ n ∧ p.At k c)

section Invariant
variable {done done' : List (ℕ × Update)} {p p' : LocalKeyProvider} {n : ℕ} {call : Call}

theorem at_unique {call' : Call} (h : p.At n call) (h' : p.At n call') : call = call' :=
  Option.some.inj (h.symm.trans h')

theorem puts_enter (p : LocalKeyProvider) (call : Call) : Puts p (p.enter call) p.calls.length call := by
  intro k c
  have hlength : ∀ k c, p.At k c → k ≠ p.calls.length := by
    intro k c hk
    obtain ⟨hlt, -⟩ := List.getElem?_eq_some_iff.mp hk
    exact Nat.ne_of_lt hlt
  refine getElem?_concat_iff.trans ?_
  constructor
  · rintro (hk | hk)
    · exact .inr ⟨hlength k c hk, hk⟩
    · exact .inl hk
  · rintro (hk | ⟨-, hk⟩)
    · exact .inr hk
    · exact .inl hk

theorem puts_move {call' : Call} (h : p.At n call') (call : Call) : Puts p (p.move n call) n call := fun _ _ =>
  getElem?_set_iff h

theorem activates_of_closed (h : call.closed = true) : call.activates = true := by
  cases call with
  | mutating change =>
    cases change with
    | activate kid => rfl
    | generateKey _ | supersede _ => cases h
  | finishing outcome => rfl
  | signing _ | signed | awaitingSigners _ _ | mutated _ | rejected _ => cases h

/-- What is to be shown where one call changes. -/
structure Fits (done : List (ℕ × Update)) (p p' : LocalKeyProvider) (n : ℕ) (call : Call) : Prop where
  activating : (∃ k c, k ≠ n ∧ p.At k c ∧ c.activates = true) → p'.activating = true
  alone : call.activates = true → p'.activating = true ∧ ∀ k c, k ≠ n → p.At k c → c.activates = false
  waiting : ∀ kid operations, call = .awaitingSigners kid operations →
    ∀ k signer, k ≠ n → p.At k (.signing signer) → k ∈ operations
  signing : ∀ signer, call = .signing signer → ∀ k c, k ≠ n → p.At k c → c.activates = false
  closed : call.closed = true → ∀ k signer, k ≠ n → ¬ p.At k (.signing signer)
  resolved : call.succeeded = true → ∃ update, (n, update) ∈ done

theorem CallInv.puts (h : CallInv done p) (hputs : Puts p p' n call) (hdone : ∀ e ∈ done, e ∈ done')
    (hrunning : ∀ m, p'.running = some m → p'.At m.call (.mutating m.change))
    (hqueued : ∀ e ∈ p'.queue, p'.At e.1 (.mutating e.2))
    (hapart : (p'.running.toList.map Mutation.call ++ p'.queue.map Prod.fst).Nodup)
    (hfits : Fits done' p p' n call) : CallInv done' p' := by
  refine ⟨hrunning, hqueued, hapart, ?_, ?_, ?_, ?_, ?_⟩
  · intro k c hk hact
    rcases (hputs k c).mp hk with ⟨rfl, rfl⟩ | ⟨hne, hk⟩
    · exact (hfits.alone hact).1
    · exact hfits.activating ⟨k, c, hne, hk, hact⟩
  · intro k k' c c' hk hk' hact hact'
    rcases (hputs k c).mp hk with ⟨rfl, rfl⟩ | ⟨hne, hk⟩
    · rcases (hputs k' c').mp hk' with ⟨rfl, -⟩ | ⟨hne', hk'⟩
      · rfl
      · rw [(hfits.alone hact).2 k' c' hne' hk'] at hact'
        cases hact'
    · rcases (hputs k' c').mp hk' with ⟨rfl, rfl⟩ | ⟨-, hk'⟩
      · rw [(hfits.alone hact').2 k c hne hk] at hact
        cases hact
      · exact h.one k k' c c' hk hk' hact hact'
  · intro k kid operations hk j signer hj
    rcases (hputs k _).mp hk with ⟨rfl, hcall⟩ | ⟨hne, hk⟩
    · rcases (hputs j _).mp hj with ⟨-, hj⟩ | ⟨hne, hj⟩
      · rw [← hcall] at hj
        cases hj
      · exact hfits.waiting kid operations hcall.symm j signer hne hj
    · rcases (hputs j _).mp hj with ⟨rfl, hj⟩ | ⟨-, hj⟩
      · exact absurd (hfits.signing signer hj.symm k _ hne hk) (by simp [Call.activates])
      · exact h.waiting k kid operations hk j signer hj
  · intro k c hk hclosed j signer hj
    rcases (hputs k c).mp hk with ⟨rfl, rfl⟩ | ⟨hne, hk⟩
    · rcases (hputs j _).mp hj with ⟨-, rfl⟩ | ⟨hne, hj⟩
      · cases hclosed
      · exact hfits.closed hclosed j signer hne hj
    · rcases (hputs j _).mp hj with ⟨rfl, hj⟩ | ⟨-, hj⟩
      · have hact := hfits.signing signer hj.symm k c hne hk
        rw [activates_of_closed hclosed] at hact
        cases hact
      · exact h.quiet k c hk hclosed j signer hj
  · intro k c hk hsucceeded
    rcases (hputs k c).mp hk with ⟨rfl, rfl⟩ | ⟨-, hk⟩
    · exact hfits.resolved hsucceeded
    · obtain ⟨update, hupdate⟩ := h.resolved k c hk hsucceeded
      exact ⟨update, hdone _ hupdate⟩

theorem Puts.keeps (hputs : Puts p p' n call) {k : ℕ} {c : Call} (hk : p.At k c) (hne : k ≠ n) : p'.At k c :=
  (hputs k c).mpr (.inr ⟨hne, hk⟩)

/-- A call that is entered is a new one. -/
theorem ne_length {k : ℕ} {c : Call} (hk : p.At k c) : k ≠ p.calls.length := by
  obtain ⟨hlt, -⟩ := List.getElem?_eq_some_iff.mp hk
  exact Nat.ne_of_lt hlt

/-- A call is entered that has no mutation yet. -/
theorem CallInv.enter (h : CallInv done p) (hsucceeded : call.succeeded = false) (hactivates : call.activates = false)
    (hsigning : ∀ signer, call = .signing signer → p.activating = false) : CallInv done (p.enter call) := by
  have hputs := puts_enter p call
  refine h.puts hputs (fun _ he => he) (fun m hm => ?_) (fun e he => ?_) h.apart ⟨?_, ?_, ?_, ?_, ?_, ?_⟩
  · exact hputs.keeps (h.running m hm) (ne_length (h.running m hm))
  · exact hputs.keeps (h.queued e he) (ne_length (h.queued e he))
  · rintro ⟨k, c, -, hk, hact⟩
    exact h.gate k c hk hact
  · intro hact
    rw [hactivates] at hact
    cases hact
  · rintro kid operations rfl
    cases hactivates
  · intro signer hcall k c _ hk
    by_contra hact
    have := h.gate k c hk (by simpa using hact)
    rw [hsigning signer hcall] at this
    cases this
  · intro hclosed
    rw [activates_of_closed hclosed] at hactivates
    cases hactivates
  · intro hsucc
    rw [hsucceeded] at hsucc
    cases hsucc

theorem CallInv.startSigning (h : CallInv done p) (kid : String) : CallInv done (p.startSigning kid) := by
  unfold LocalKeyProvider.startSigning
  split_ifs with hactivating
  · exact h.enter rfl rfl (by rintro signer ⟨⟩)
  · exact h.enter rfl rfl fun _ _ => by simpa using hactivating
  · exact h.enter rfl rfl (by rintro signer ⟨⟩)

/-- A mutation of a new call is queued. -/
theorem CallInv.mutate (h : CallInv done p) {change : Change} (hchange : ∀ kid, change ≠ .activate kid) :
    CallInv done (p.mutate change) := by
  have hputs : Puts p (p.mutate change) p.calls.length (.mutating change) := puts_enter p (.mutating change)
  have hactivates : Call.activates (.mutating change) = false := by
    cases change with
    | activate kid => exact absurd rfl (hchange kid)
    | generateKey _ | supersede _ => rfl
  have hnew : p.calls.length ∉ p.running.toList.map Mutation.call ++ p.queue.map Prod.fst := by
    intro hmem
    rcases List.mem_append.mp hmem with hmem | hmem
    · obtain ⟨m, hm, hcall⟩ := List.mem_map.mp hmem
      exact ne_length (h.running m (Option.mem_toList.mp hm)) hcall
    · obtain ⟨e, he, hcall⟩ := List.mem_map.mp hmem
      exact ne_length (h.queued e he) hcall
  refine h.puts hputs (fun _ he => he) (fun m hm => ?_) (fun e he => ?_) ?_ ⟨?_, ?_, ?_, ?_, ?_, ?_⟩
  · exact hputs.keeps (h.running m hm) (ne_length (h.running m hm))
  · rcases List.mem_append.mp he with he | he
    · exact hputs.keeps (h.queued e he) (ne_length (h.queued e he))
    · rw [List.mem_singleton.mp he]
      exact (hputs _ _).mpr (.inl ⟨rfl, rfl⟩)
  · have hperm : (p.running.toList.map Mutation.call ++ (p.queue ++ [(p.calls.length, change)]).map Prod.fst).Perm
        (p.calls.length :: (p.running.toList.map Mutation.call ++ p.queue.map Prod.fst)) := by
      rw [List.map_append, ← List.append_assoc]
      exact List.perm_append_singleton _ _
    exact hperm.nodup_iff.mpr (List.nodup_cons.mpr ⟨hnew, h.apart⟩)
  · rintro ⟨k, c, -, hk, hact⟩
    exact h.gate k c hk hact
  · intro hact
    rw [hactivates] at hact
    cases hact
  · rintro kid operations ⟨⟩
  · rintro signer ⟨⟩
  · intro hclosed
    rw [activates_of_closed hclosed] at hactivates
    cases hactivates
  · rintro ⟨⟩

theorem mem_signing {k : ℕ} {signer : String} (h : p.At k (.signing signer)) : k ∈ p.signing := by
  obtain ⟨hlt, -⟩ := List.getElem?_eq_some_iff.mp h
  refine List.mem_filter.mpr ⟨List.mem_range.mpr hlt, ?_⟩
  unfold isSigning
  rw [show p.calls[k]? = some (.signing signer) from h]

theorem CallInv.startActivate (h : CallInv done p) (kid : String) : CallInv done (p.startActivate kid) := by
  unfold LocalKeyProvider.startActivate
  split_ifs with hactivating
  · exact h.enter rfl rfl (by rintro signer ⟨⟩)
  · have hputs : Puts p (({ p with activating := true } : LocalKeyProvider).enter (.awaitingSigners kid p.signing))
        p.calls.length (.awaitingSigners kid p.signing) := puts_enter p _
    refine h.puts hputs (fun _ he => he) (fun m hm => ?_) (fun e he => ?_) h.apart ⟨?_, ?_, ?_, ?_, ?_, ?_⟩
    · exact hputs.keeps (h.running m hm) (ne_length (h.running m hm))
    · exact hputs.keeps (h.queued e he) (ne_length (h.queued e he))
    · exact fun _ => rfl
    · refine fun _ => ⟨rfl, fun k c _ hk => ?_⟩
      by_contra hact
      exact hactivating (h.gate k c hk (by simpa using hact))
    · rintro kid' operations hcall k signer - hk
      injection hcall with _ hoperations
      rw [← hoperations]
      exact mem_signing hk
    · rintro signer ⟨⟩
    · rintro ⟨⟩
    · rintro ⟨⟩

/-- A call without a mutation is in nobody's way. -/
theorem CallInv.ne_of_not_mutating (h : CallInv done p) (hat : p.At n call) (hcall : ∀ change, call ≠ .mutating change) :
    (∀ m, p.running = some m → m.call ≠ n) ∧ ∀ e ∈ p.queue, e.1 ≠ n := by
  constructor
  · rintro m hm rfl
    exact hcall m.change (at_unique hat (h.running m hm))
  · rintro e he rfl
    exact hcall e.2 (at_unique hat (h.queued e he))

theorem CallInv.settleSigning (h : CallInv done p) {kid : String} (hat : p.At n (.signing kid))
    (hactivates : call.activates = false) (hsucceeded : call.succeeded = false)
    (hsigning : ∀ signer, call ≠ .signing signer) : CallInv done (p.move n call) := by
  have hputs := puts_move hat call
  obtain ⟨hrunning, hqueued⟩ := h.ne_of_not_mutating hat (by rintro change ⟨⟩)
  refine h.puts hputs (fun _ he => he) (fun m hm => ?_) (fun e he => ?_) h.apart ⟨?_, ?_, ?_, ?_, ?_, ?_⟩
  · exact hputs.keeps (h.running m hm) (hrunning m hm)
  · exact hputs.keeps (h.queued e he) (hqueued e he)
  · rintro ⟨k, c, -, hk, hact⟩
    exact h.gate k c hk hact
  · intro hact
    rw [hactivates] at hact
    cases hact
  · rintro kid operations rfl
    cases hactivates
  · intro signer hcall
    exact absurd hcall (hsigning signer)
  · intro hclosed
    rw [activates_of_closed hclosed] at hactivates
    cases hactivates
  · intro hsucc
    rw [hsucceeded] at hsucc
    cases hsucc

/-- The activating call is the only one. -/
theorem CallInv.alone (h : CallInv done p) (hat : p.At n call) (hact : call.activates = true) :
    p.activating = true ∧ ∀ k c, k ≠ n → p.At k c → c.activates = false := by
  refine ⟨h.gate n call hat hact, fun k c hne hk => ?_⟩
  by_contra hact'
  exact hne (h.one k n c call hk hat (by simpa using hact') hact)

/-- The signing calls have settled, and the mutation is queued. -/
theorem CallInv.settleSigners (h : CallInv done p) {kid : String} {operations : List ℕ}
    (hat : p.At n (.awaitingSigners kid operations)) (hsettled : operations.any p.isSigning = false) :
    CallInv done (({ p with queue := p.queue ++ [(n, Change.activate kid)] } : LocalKeyProvider).move n
      (.mutating (.activate kid))) := by
  have hputs : Puts p (({ p with queue := p.queue ++ [(n, Change.activate kid)] } : LocalKeyProvider).move n
      (.mutating (.activate kid))) n (.mutating (.activate kid)) := puts_move hat _
  obtain ⟨hrunning, hqueued⟩ := h.ne_of_not_mutating hat (by rintro change ⟨⟩)
  refine h.puts hputs (fun _ he => he) (fun m hm => ?_) (fun e he => ?_) ?_ ⟨?_, ?_, ?_, ?_, ?_, ?_⟩
  · exact hputs.keeps (h.running m hm) (hrunning m hm)
  · rcases List.mem_append.mp he with he | he
    · exact hputs.keeps (h.queued e he) (hqueued e he)
    · rw [List.mem_singleton.mp he]
      exact (hputs _ _).mpr (.inl ⟨rfl, rfl⟩)
  · have hperm : (p.running.toList.map Mutation.call ++ (p.queue ++ [(n, Change.activate kid)]).map Prod.fst).Perm
        (n :: (p.running.toList.map Mutation.call ++ p.queue.map Prod.fst)) := by
      rw [List.map_append, ← List.append_assoc]
      exact List.perm_append_singleton _ _
    refine hperm.nodup_iff.mpr (List.nodup_cons.mpr ⟨fun hmem => ?_, h.apart⟩)
    rcases List.mem_append.mp hmem with hmem | hmem
    · obtain ⟨m, hm, hcall⟩ := List.mem_map.mp hmem
      exact hrunning m (Option.mem_toList.mp hm) hcall
    · obtain ⟨e, he, hcall⟩ := List.mem_map.mp hmem
      exact hqueued e he hcall
  · exact fun _ => (h.alone hat rfl).1
  · exact fun _ => h.alone hat rfl
  · rintro kid' operations' ⟨⟩
  · rintro signer ⟨⟩
  · intro _ k signer _ hk
    have hmem := h.waiting n kid operations hat k signer hk
    have hnot := List.any_eq_false.mp hsettled k hmem
    apply hnot
    unfold isSigning
    rw [show p.calls[k]? = some (.signing signer) from hk]
  · rintro ⟨⟩

/-- `finally` opens the gate. -/
theorem CallInv.settleFinishing (h : CallInv done p) {outcome : Except String Unit} (hat : p.At n (.finishing outcome))
    (hactivates : call.activates = false) (hsigning : ∀ signer, call ≠ .signing signer)
    (hsucceeded : call.succeeded = true → outcome = .ok ()) :
    CallInv done (({ p with activating := false } : LocalKeyProvider).move n call) := by
  have hputs : Puts p (({ p with activating := false } : LocalKeyProvider).move n call) n call := puts_move hat _
  obtain ⟨hrunning, hqueued⟩ := h.ne_of_not_mutating hat (by rintro change ⟨⟩)
  refine h.puts hputs (fun _ he => he) (fun m hm => ?_) (fun e he => ?_) h.apart ⟨?_, ?_, ?_, ?_, ?_, ?_⟩
  · exact hputs.keeps (h.running m hm) (hrunning m hm)
  · exact hputs.keeps (h.queued e he) (hqueued e he)
  · rintro ⟨k, c, hne, hk, hact⟩
    rw [(h.alone hat rfl).2 k c hne hk] at hact
    cases hact
  · intro hact
    rw [hactivates] at hact
    cases hact
  · rintro kid operations rfl
    cases hactivates
  · intro signer hcall
    exact absurd hcall (hsigning signer)
  · intro hclosed
    rw [activates_of_closed hclosed] at hactivates
    cases hactivates
  · intro hsucc
    obtain rfl := hsucceeded hsucc
    exact h.resolved n _ hat rfl

theorem CallInv.settleCallOf (h : CallInv done p) {answer : Answer} (hat : p.At n call)
    (hstep : p.settleCallOf n answer call = some p') : CallInv done p' := by
  unfold LocalKeyProvider.settleCallOf at hstep
  split at hstep
  next kid =>
    split at hstep
    next =>
      obtain rfl := Option.some.inj hstep
      exact h.settleSigning hat rfl rfl (by rintro signer ⟨⟩)
    next =>
      obtain rfl := Option.some.inj hstep
      exact h.settleSigning hat rfl rfl (by rintro signer ⟨⟩)
    next => cases hstep
  next kid operations =>
    split_ifs at hstep with hsettled
    obtain rfl := Option.some.inj hstep
    exact h.settleSigners hat (by simpa using hsettled)
  next outcome =>
    split at hstep
    next =>
      obtain rfl := Option.some.inj hstep
      exact h.settleFinishing hat rfl (by rintro signer ⟨⟩) fun _ => rfl
    next =>
      obtain rfl := Option.some.inj hstep
      exact h.settleFinishing hat rfl (by rintro signer ⟨⟩) (by rintro ⟨⟩)
  next => cases hstep

/-- What becomes of the call whose mutation has settled. -/
def settledCall : Change → Except String (Option String) → Call
  | .activate _, .ok _ => .finishing (.ok ())
  | .activate _, .error message => .finishing (.error message)
  | _, .ok result => .mutated result
  | _, .error message => .rejected message

theorem settleMutation_eq (p : LocalKeyProvider) (n : ℕ) (change : Change) (outcome : Except String (Option String)) :
    p.settleMutation n change outcome = { p with running := none }.move n (settledCall change outcome) := by
  cases change <;> cases outcome <;> rfl

theorem settledCall_succeeded {change : Change} {outcome : Except String (Option String)}
    (h : (settledCall change outcome).succeeded = true) : ∃ result, outcome = .ok result := by
  cases outcome with
  | ok result => exact ⟨result, rfl⟩
  | error message => cases change <;> cases h

/-- A call activates after its mutation exactly if it did before. -/
theorem settledCall_activates (change : Change) (outcome : Except String (Option String)) :
    (settledCall change outcome).activates = Call.activates (.mutating change) ∧
      (settledCall change outcome).closed = Call.closed (.mutating change) := by
  cases change <;> cases outcome <;> exact ⟨rfl, rfl⟩

/-- The mutation of a call has settled, and is no longer queued. -/
theorem CallInv.settled (h : CallInv done p) {q : LocalKeyProvider} {change : Change}
    {outcome : Except String (Option String)} (hat : p.At n (.mutating change)) (hcalls : q.calls = p.calls)
    (hactivating : q.activating = p.activating) (hqueue : ∀ e ∈ q.queue, e ∈ p.queue ∧ e.1 ≠ n)
    (hapart : (q.queue.map Prod.fst).Nodup) (hdone : ∀ e ∈ done, e ∈ done')
    (hok : ∀ result, outcome = .ok result → ∃ update, (n, update) ∈ done') :
    CallInv done' (q.settleMutation n change outcome) := by
  rw [settleMutation_eq]
  have hputs : Puts p (({ q with running := none } : LocalKeyProvider).move n (settledCall change outcome)) n
      (settledCall change outcome) := by
    intro k c
    unfold LocalKeyProvider.At LocalKeyProvider.move
    rw [hcalls]
    exact puts_move hat _ k c
  obtain ⟨hactivates, hclosed⟩ := settledCall_activates change outcome
  refine h.puts hputs hdone (by rintro m ⟨⟩) (fun e he => ?_) hapart ⟨?_, ?_, ?_, ?_, ?_, ?_⟩
  · obtain ⟨hmem, hne⟩ := hqueue e he
    exact hputs.keeps (h.queued e hmem) hne
  · rintro ⟨k, c, -, hk, hact⟩
    exact hactivating.trans (h.gate k c hk hact)
  · intro hact
    rw [hactivates] at hact
    obtain ⟨hgate, halone⟩ := h.alone hat hact
    exact ⟨hactivating.trans hgate, halone⟩
  · intro kid operations hcall
    cases change <;> cases outcome <;> cases hcall
  · intro signer hcall
    cases change <;> cases outcome <;> cases hcall
  · intro hclosed' k signer _
    rw [hclosed] at hclosed'
    exact h.quiet n _ hat hclosed' k signer
  · intro hsucc
    obtain ⟨result, hresult⟩ := settledCall_succeeded hsucc
    exact hok result hresult

theorem CallInv.beginMutation (h : CallInv done p) (hstep : p.beginMutation = some p') : CallInv done p' := by
  unfold LocalKeyProvider.beginMutation at hstep
  split at hstep
  next n change queue hrunning hqueue =>
    have hat : p.At n (.mutating change) := h.queued (n, change) (by rw [hqueue]; exact List.mem_cons_self)
    have hapart := h.apart
    rw [hrunning, hqueue] at hapart
    obtain ⟨hnew, hrest⟩ := List.nodup_cons.mp hapart
    have hsub : ∀ e ∈ queue, e ∈ p.queue := fun e he => by rw [hqueue]; exact List.mem_cons_of_mem _ he
    simp only at hstep
    split at hstep
    next message hstart =>
      obtain rfl := Option.some.inj hstep
      refine h.settled hat rfl rfl (fun e he => ⟨hsub e he, ?_⟩) hrest (fun _ he => he) (by rintro result ⟨⟩)
      intro hn
      exact hnew (List.mem_map.mpr ⟨e, he, hn⟩)
    next phase hstart =>
      obtain rfl := Option.some.inj hstep
      refine ⟨fun m hm => ?_, fun e he => h.queued e (hsub e he), hapart, h.gate, h.one, h.waiting, h.quiet, h.resolved⟩
      obtain rfl := Option.some.inj hm
      exact hat
  next => cases hstep

/-- The mutation goes on, and the calls stay as they are. -/
theorem CallInv.setPhase (h : CallInv done p) {m : Mutation} (hm : p.running = some m) {q : LocalKeyProvider}
    (hcalls : q.calls = p.calls) (hqueue : q.queue = p.queue) (hactivating : q.activating = p.activating)
    (hdone : ∀ e ∈ done, e ∈ done') (phase : Phase) : CallInv done' (q.setPhase m phase) := by
  have hat : ∀ k c, (q.setPhase m phase).At k c ↔ p.At k c := by
    intro k c
    show q.calls[k]? = some c ↔ p.calls[k]? = some c
    rw [hcalls]
  refine ⟨fun m' hm' => ?_, fun e he => ?_, ?_, fun k c hk => ?_, fun k k' c c' hk hk' => ?_, fun k kid ops hk j x hj => ?_,
    fun k c hk hc j x hj => ?_, fun k c hk hc => ?_⟩
  · obtain rfl := Option.some.inj hm'
    exact (hat _ _).mpr (h.running m hm)
  · exact (hat _ _).mpr (h.queued e (hqueue ▸ he))
  · have hapart := h.apart
    rw [hm] at hapart
    show (m.call :: q.queue.map Prod.fst).Nodup
    rw [hqueue]
    exact hapart
  · exact fun hact => hactivating.trans (h.gate k c ((hat _ _).mp hk) hact)
  · exact h.one k k' c c' ((hat _ _).mp hk) ((hat _ _).mp hk')
  · exact h.waiting k kid ops ((hat _ _).mp hk) j x ((hat _ _).mp hj)
  · exact h.quiet k c ((hat _ _).mp hk) hc j x ((hat _ _).mp hj)
  · obtain ⟨update, hupdate⟩ := h.resolved k c ((hat _ _).mp hk) hc
    exact ⟨update, hdone _ hupdate⟩

/-- The running mutation has settled. -/
theorem CallInv.settledRunning (h : CallInv done p) {m : Mutation} (hm : p.running = some m) {q : LocalKeyProvider}
    (hcalls : q.calls = p.calls) (hqueue : q.queue = p.queue) (hactivating : q.activating = p.activating)
    {outcome : Except String (Option String)} (hdone : ∀ e ∈ done, e ∈ done')
    (hok : ∀ result, outcome = .ok result → ∃ update, (m.call, update) ∈ done') :
    CallInv done' (q.settleMutation m.call m.change outcome) := by
  have hapart := h.apart
  rw [hm] at hapart
  obtain ⟨hnew, hrest⟩ := List.nodup_cons.mp hapart
  refine h.settled (h.running m hm) hcalls hactivating (fun e he => ?_) (by rw [hqueue]; exact hrest) hdone hok
  rw [hqueue] at he
  exact ⟨he, fun hn => hnew (List.mem_map.mpr ⟨e, he, hn⟩)⟩

theorem CallInv.settleBackup (h : CallInv done p) {m : Mutation} (hm : p.running = some m) (next : KeyStore)
    (update : Update) (stage : WriteStage) (result : Except String Unit) :
    CallInv done (p.settleBackup m next update stage result) := by
  unfold LocalKeyProvider.settleBackup
  split
  next =>
    refine h.setPhase hm ?_ ?_ ?_ (fun _ he => he) _ <;> split_ifs <;> rfl
  next => exact h.setPhase hm rfl rfl rfl (fun _ he => he) _
  next => exact h.settledRunning hm rfl rfl rfl (fun _ he => he) (by rintro result ⟨⟩)

/-- A write that ends well has renamed its file. -/
theorem CallInv.settleWrite (h : CallInv done p) {m : Mutation} (hm : p.running = some m) {seen : List String}
    {next : KeyStore} {update : Update} {stage : WriteStage} {replaced : Bool}
    (hphase : PhaseOk seen done p.store m (.writing next update stage replaced)) (result : Except String Unit)
    (hdone : ∀ e ∈ done, e ∈ done') : CallInv done' (p.settleWrite m next update stage replaced result) := by
  unfold LocalKeyProvider.settleWrite
  split
  next =>
    split_ifs
    · exact h.setPhase (q := p.commit _) hm rfl rfl rfl hdone _
    · exact h.setPhase hm rfl rfl rfl hdone _
  next hwrite =>
    refine h.settledRunning hm rfl rfl rfl hdone fun _ _ => ⟨update, hdone _ ?_⟩
    cases replaced with
    | false =>
      have hbefore := hphase.2
      rw [writeStore_ok hwrite] at hbefore
      cases hbefore
    | true => exact hphase.2.1
  next => exact h.settledRunning hm rfl rfl rfl hdone (by rintro result ⟨⟩)

theorem CallInv.settleRunning (h : CallInv done p) {store₀ : KeyStore} {seen : List String}
    (hstore : StoreInv store₀ seen done p) {m : Mutation} (hm : p.running = some m) {answer : Answer}
    (hstep : p.settleRunning m answer = some p') :
    CallInv (done ++ (committedBy p (.settle answer)).toList) p' := by
  have hdone : ∀ e ∈ done, e ∈ done ++ (committedBy p (.settle answer)).toList := fun _ he => List.mem_append_left _ he
  have hphase := hstore.running m hm
  unfold LocalKeyProvider.settleRunning at hstep
  split at hstep
  next next algorithm hgenerating =>
    split at hstep
    next key =>
      obtain rfl := Option.some.inj hstep
      exact h.setPhase hm rfl rfl rfl hdone _
    next message =>
      obtain rfl := Option.some.inj hstep
      exact h.settledRunning hm rfl rfl rfl hdone (by rintro result ⟨⟩)
    next => cases hstep
  next next update hchanged =>
    split at hstep
    next =>
      split_ifs at hstep with hfiles
      · obtain rfl := Option.some.inj hstep
        exact h.setPhase hm rfl rfl rfl hdone _
      · obtain rfl := Option.some.inj hstep
        refine h.settledRunning (q := p.commit _) hm rfl rfl rfl hdone fun _ _ => ⟨update, List.mem_append_right _ ?_⟩
        have hnone : p.files.isNone = true := by simpa using hfiles
        simp [committedBy, hm, hchanged, hnone]
    next => cases hstep
  next next update stage hbacking =>
    obtain ⟨result, -, rfl⟩ := Option.map_eq_some_iff.mp hstep
    have hbackup := h.settleBackup hm next update stage result
    refine ⟨hbackup.running, hbackup.queued, hbackup.apart, hbackup.gate, hbackup.one, hbackup.waiting, hbackup.quiet,
      fun k c hk hc => ?_⟩
    obtain ⟨update, hupdate⟩ := hbackup.resolved k c hk hc
    exact ⟨update, hdone _ hupdate⟩
  next next update stage replaced hwriting =>
    rw [hwriting] at hphase
    obtain ⟨result, -, rfl⟩ := Option.map_eq_some_iff.mp hstep
    exact h.settleWrite hm hphase result hdone

/-- Every step keeps the invariant of the calls. -/
theorem CallInv.step (h : CallInv done p) {store₀ : KeyStore} {seen : List String}
    (hstore : StoreInv store₀ seen done p) {a : Action} (hstep : step a p = some p') :
    CallInv (done ++ (committedBy p a).toList) p' := by
  cases a with
  | settle answer =>
    obtain ⟨m, hm, hsettled⟩ := Option.bind_eq_some_iff.mp hstep
    exact h.settleRunning hstore hm hsettled
  | sign | signKey kid =>
    obtain rfl := Option.some.inj hstep
    rw [show committedBy p _ = none from rfl, Option.toList_none, List.append_nil]
    exact h.startSigning _
  | generateKey algorithm | supersede kid =>
    obtain rfl := Option.some.inj hstep
    rw [show committedBy p _ = none from rfl, Option.toList_none, List.append_nil]
    exact h.mutate (by rintro kid ⟨⟩)
  | activate kid =>
    obtain rfl := Option.some.inj hstep
    rw [show committedBy p _ = none from rfl, Option.toList_none, List.append_nil]
    exact h.startActivate kid
  | settleCall n answer =>
    obtain ⟨call, hat, hsettled⟩ := Option.bind_eq_some_iff.mp hstep
    rw [show committedBy p _ = none from rfl, Option.toList_none, List.append_nil]
    exact h.settleCallOf hat hsettled
  | begin =>
    rw [show committedBy p _ = none from rfl, Option.toList_none, List.append_nil]
    exact h.beginMutation hstep

end Invariant

end Dnsid.Keys.Local

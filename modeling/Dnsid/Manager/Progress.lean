import Dnsid.Manager.SharedSteps

/-! # Progress of the manager

`Advances` is what every step and so every run keeps: time goes on, operations are kept with what identifies
them, and an operation that has been deregistered is never registered again. `Effect.shared_back` reads a
step the other way round: where an operation of the state after it comes from.
-/
namespace Dnsid.Manager
open Dnsid.Foundations
set_option autoImplicit false

variable {Record Peer : Type} {cfg : Config Record Peer}

/-- The `then` handler has run. -/
def Phase.handled : Phase Record → Bool
  | .running | .budgeted _ => false
  | _ => true

/-- What stays of a shared operation. -/
structure Continues (op op' : SharedVerification Record) : Prop where
  operation : op'.operation = op.operation
  domain : op'.domain = op.domain
  deadline : op'.deadline = op.deadline
  aborted : op.aborted = true → op'.aborted = true
  handled : op.phase.handled = true → op'.phase.handled = true
  settled : ∀ r, op.phase = .settled r → op'.phase = .settled r

theorem Continues.refl (op : SharedVerification Record) : Continues op op :=
  ⟨rfl, rfl, rfl, id, id, fun _ => id⟩

theorem Continues.trans {op₁ op₂ op₃ : SharedVerification Record} (h₁ : Continues op₁ op₂)
    (h₂ : Continues op₂ op₃) : Continues op₁ op₃ where
  operation := h₂.operation.trans h₁.operation
  domain := h₂.domain.trans h₁.domain
  deadline := h₂.deadline.trans h₁.deadline
  aborted h := h₂.aborted (h₁.aborted h)
  handled h := h₂.handled (h₁.handled h)
  settled r h := h₂.settled r (h₁.settled r h)

/-- An operation that has not settled moves to a later phase. -/
theorem Continues.move {op : SharedVerification Record} {phase : Phase Record}
    (hsettled : ∀ r, op.phase ≠ .settled r) (hhandled : op.phase.handled = true → phase.handled = true) :
    Continues op { op with phase := phase } :=
  ⟨rfl, rfl, rfl, id, hhandled, fun r h => absurd h (hsettled r)⟩

theorem Works.continues {s : IdentityManager Record Peer} {o : ℕ} {op op' : SharedVerification Record}
    (h : Works s o op op') : Continues op op' := by
  cases h with
  | capElapsed => exact ⟨rfl, rfl, rfl, id, id, fun _ => id⟩
  | settle r hphase => exact .move (by simp [hphase]) (by simp [hphase, Phase.handled])
  | fulfilled r hphase => exact .move (by simp [hphase]) (by simp [Phase.handled])
  | caught r hphase => exact .move (by simp [hphase]) (by simp [Phase.handled])

/-- Time goes on, operations are kept, and none is registered again. -/
structure Advances (s s' : IdentityManager Record Peer) : Prop where
  clock : s.clock ≤ s'.clock
  length : s.shared.length ≤ s'.shared.length
  registered : ∀ k d o, s'.inFlight k d = some o → s.inFlight k d = some o ∨
    s.shared.length ≤ o ∧ o < s'.shared.length
  shared : ∀ (o : ℕ) op, s.shared[o]? = some op → ∃ op', s'.shared[o]? = some op' ∧ Continues op op'

namespace Advances

theorem refl (s : IdentityManager Record Peer) : Advances s s where
  clock := le_refl _
  length := le_refl _
  registered _ _ _ h := Or.inl h
  shared _ op h := ⟨op, h, .refl op⟩

theorem trans {s₁ s₂ s₃ : IdentityManager Record Peer} (h₁ : Advances s₁ s₂) (h₂ : Advances s₂ s₃) :
    Advances s₁ s₃ where
  clock := h₁.clock.trans h₂.clock
  length := h₁.length.trans h₂.length
  registered k d o h := by
    rcases h₂.registered k d o h with h | ⟨hge, hlt⟩
    · rcases h₁.registered k d o h with h | ⟨hge, hlt⟩
      · exact Or.inl h
      · exact Or.inr ⟨hge, hlt.trans_le h₂.length⟩
    · exact Or.inr ⟨h₁.length.trans hge, hlt⟩
  shared o op h := by
    obtain ⟨op₂, h, hop₂⟩ := h₁.shared o op h
    obtain ⟨op₃, h, hop₃⟩ := h₂.shared o op₂ h
    exact ⟨op₃, h, hop₂.trans hop₃⟩

theorem setShared {s : IdentityManager Record Peer} {o : ℕ} {op op' : SharedVerification Record}
    (hop : s.shared[o]? = some op) (h : Continues op op') : Advances s (s.setShared o op') where
  clock := le_refl _
  length := by simp [IdentityManager.setShared]
  registered _ _ _ h := Or.inl h
  shared p q hq := by
    have hlt : o < s.shared.length := (List.getElem?_eq_some_iff.mp hop).1
    by_cases hp : o = p
    · subst hp
      obtain rfl : op = q := Option.some.inj (hop.symm.trans hq)
      exact ⟨op', by simp [IdentityManager.setShared, hlt], h⟩
    · exact ⟨q, by simpa [IdentityManager.setShared, hp] using hq, .refl q⟩

theorem deregister (s : IdentityManager Record Peer) (kind : Kind) (domain : String) :
    Advances s (s.deregister kind domain) where
  clock := le_refl _
  length := le_refl _
  registered k d o h := by
    simp only [IdentityManager.deregister] at h
    split at h
    · cases h
    · exact Or.inl h
  shared _ op h := ⟨op, h, .refl op⟩

theorem supersede (s : IdentityManager Record Peer) (kind : Kind) (domain : String) :
    Advances s (s.supersede kind domain) := by
  unfold IdentityManager.supersede
  split
  · exact (deregister s _ _).trans (deregister _ _ _)
  · exact refl s

theorem startShared (s : IdentityManager Record Peer) (operation : Operation Record)
    (domain : String) : Advances s (s.startShared operation domain) := by
  refine (supersede s operation.kind domain).trans ⟨le_refl _, by simp [IdentityManager.startShared],
    ?_, ?_⟩
  · intro k d o h
    simp only [IdentityManager.startShared] at h
    split at h
    · obtain rfl := Option.some.inj h
      exact Or.inr ⟨le_refl _, by simp [IdentityManager.startShared]⟩
    · exact Or.inl h
  · intro o op h
    have hlt := (List.getElem?_eq_some_iff.mp h).1
    exact ⟨op, by simp [IdentityManager.startShared, List.getElem?_append_left hlt, h], .refl op⟩

theorem joinShared (s : IdentityManager Record Peer) (c : ℕ) (inv : Invocation Record Peer) (o : ℕ)
    (existing : Bool) : Advances s (s.joinShared c inv o existing) := by
  unfold IdentityManager.joinShared
  split
  · exact refl s
  case h_2 op hop =>
    have h : Advances s (s.setShared o { op with callers := op.callers + 1 }) :=
      setShared hop ⟨rfl, rfl, rfl, id, id, fun _ => id⟩
    exact ⟨h.clock, h.length, h.registered, h.shared⟩

theorem leaveShared (s : IdentityManager Record Peer) (o : ℕ) : Advances s (s.leaveShared o) := by
  unfold IdentityManager.leaveShared
  split
  · exact refl s
  case h_2 op hop => exact setShared hop ⟨rfl, rfl, rfl, by simp_all, id, fun _ => id⟩

theorem onFinally (s : IdentityManager Record Peer) (o : ℕ) (op : SharedVerification Record) :
    Advances s (s.onFinally o op) := by
  unfold IdentityManager.onFinally
  split
  · exact deregister s _ _
  · exact refl s

end Advances

/-- The cache and the calls play no part in it. -/
theorem advances_congr {s₁ s₂ s₂' : IdentityManager Record Peer} (h : Advances s₁ s₂)
    (hclock : s₂'.clock = s₂.clock) (hshared : s₂'.shared = s₂.shared)
    (hinFlight : s₂'.inFlight = s₂.inFlight) : Advances s₁ s₂' where
  clock := hclock ▸ h.clock
  length := hshared ▸ h.length
  registered := hinFlight ▸ hshared ▸ h.registered
  shared := hshared ▸ h.shared

theorem setCache_advances (s : IdentityManager Record Peer) (cache : CacheStore Record) :
    Advances s (s.setCache cache) := advances_congr (.refl s) rfl rfl rfl

theorem supersede_shared (s : IdentityManager Record Peer) (kind : Kind) (domain : String) :
    (s.supersede kind domain).shared = s.shared := by
  unfold IdentityManager.supersede
  split <;> rfl

theorem onFinally_shared (s : IdentityManager Record Peer) (o : ℕ) (op : SharedVerification Record) :
    (s.onFinally o op).shared = s.shared := by
  unfold IdentityManager.onFinally
  split <;> rfl

theorem Effect.advances {s s' : IdentityManager Record Peer} (h : Effect s s') : Advances s s' := by
  cases h with
  | tick elapsed now => exact ⟨Nat.le_add_right _ _, le_refl _, fun _ _ _ => Or.inl,
      fun _ op h => ⟨op, h, .refl op⟩⟩
  | shrink cache => exact setCache_advances s cache
  | evictDomain domain =>
    have h₁ := Advances.deregister s .refresh domain
    have h₂ := Advances.deregister (s.deregister .refresh domain) .verification domain
    have h₃ := Advances.deregister ((s.deregister .refresh domain).deregister .verification domain)
      .statusRefresh domain
    exact ((h₁.trans h₂).trans h₃).trans (setCache_advances _ _)
  | began c inv cache r => exact advances_congr (.refl s) rfl rfl rfl
  | joined c inv cache kind o =>
    exact (setCache_advances s cache).trans (.joinShared _ c inv o true)
  | started c inv cache operation =>
    have h := (setCache_advances s cache).trans (.startShared _ operation inv.domain)
    exact h.trans (.joinShared _ c inv _ _)
  | moved c inv inv' cache => exact advances_congr (.refl s) rfl rfl rfl
  | left c inv inv' cache o => exact advances_congr (.leaveShared s o) rfl rfl rfl
  | worked o op op' cache hop hcache hwork =>
    exact advances_congr (.setShared hop hwork.continues) rfl rfl rfl
  | put o domain v op hputs =>
    have hop : (s.supersede op.kind domain).shared[o]? = some op := by
      rw [supersede_shared]
      exact hputs.shared
    have hset : Continues op { op with phase := .fulfilled (.ok v) } :=
      .move (by simp [hputs.phase]) (by simp [Phase.handled])
    exact advances_congr ((Advances.supersede s op.kind domain).trans (.setShared hop hset)) rfl rfl rfl
  | finalized o op r hop hphase =>
    have hop' : (s.onFinally o op).shared[o]? = some op := by
      rw [onFinally_shared]
      exact hop
    refine (Advances.onFinally s o op).trans (.setShared hop' ⟨rfl, rfl, rfl, id, ?_, ?_⟩)
    · simp [Phase.handled]
    · simp [hphase]

theorem run_advances {acts : List (Action Record Peer)} {s s' : IdentityManager Record Peer}
    (h : run (step cfg) acts s = some s') : Advances s s' :=
  run_relation Advances.refl (fun _ _ _ => Advances.trans) (fun _ _ _ h => (step_effect h).advances)
    acts s s' h

theorem started_of_some {s : IdentityManager Record Peer} {o : ℕ} {op : SharedVerification Record}
    (h : s.shared[o]? = some op) : o < s.shared.length := (List.getElem?_eq_some_iff.mp h).1

theorem joinShared_length (s : IdentityManager Record Peer) (c : ℕ) (inv : Invocation Record Peer)
    (o : ℕ) (existing : Bool) : (s.joinShared c inv o existing).shared.length = s.shared.length := by
  unfold IdentityManager.joinShared
  split
  · rfl
  · simp [IdentityManager.setCall, IdentityManager.setShared]

theorem leaveShared_length (s : IdentityManager Record Peer) (o : ℕ) :
    (s.leaveShared o).shared.length = s.shared.length := by
  unfold IdentityManager.leaveShared
  split
  · rfl
  · simp [IdentityManager.setShared]

/-- The operation that `startShared` adds. -/
theorem startShared_shared (s : IdentityManager Record Peer) (operation : Operation Record)
    (d : String) : (s.startShared operation d).shared[s.shared.length]? =
      some ⟨operation, d, 0, false, false, s.clock + defaultTimeoutMs, false, .running⟩ := by
  have hclock : (s.supersede operation.kind d).clock = s.clock := by
    unfold IdentityManager.supersede
    split <;> rfl
  simp [IdentityManager.startShared, supersede_shared, hclock]

/-- What is registered has been started. -/
theorem started_of_registered {acts : List (Action Record Peer)} {s : IdentityManager Record Peer}
    (h : run (step cfg) acts initial = some s) {k : Kind} {d : String} {o : ℕ}
    (ho : s.inFlight k d = some o) : o < s.shared.length := by
  rcases (run_advances h).registered k d o ho with ho | ⟨_, hlt⟩
  · cases ho
  · exact hlt

/-! ## Where the operations of a state come from -/

/-- What an operation has settled with, in whichever phase. -/
def Phase.outcome : Phase Record → Option (Outcome Record)
  | .running => none
  | .budgeted r | .fulfilled r | .caught r | .settled r => some r

/-- `op'` was `op` before the step: it keeps its outcome or has just got one. -/
structure ComesFrom (s : IdentityManager Record Peer) (p : ℕ) (op op' : SharedVerification Record) :
    Prop where
  operation : op'.operation = op.operation
  deadline : op'.deadline = op.deadline
  aborted : op.aborted = true → op'.aborted = true
  timedOut : op'.timedOut = true → op.timedOut = true ∨ op.deadline ≤ s.clock
  finished : ∀ r, op'.phase = .settled r → op'.finished = true ∨
    op.phase = .settled r ∧ op'.finished = op.finished
  outcome : op'.phase.outcome = op.phase.outcome ∨
    ∃ r, op'.phase.outcome = some r ∧ Settles s p op r

/-- The number of callers and an abort leave the rest of an operation alone. -/
theorem comesFrom_callers (s : IdentityManager Record Peer) (p : ℕ) (op : SharedVerification Record)
    (n : ℕ) (b : Bool) : ComesFrom s p op { op with callers := n, aborted := op.aborted || b } :=
  ⟨rfl, rfl, by simp_all, Or.inl, fun _ h => Or.inr ⟨h, rfl⟩, Or.inl rfl⟩

theorem ComesFrom.refl (s : IdentityManager Record Peer) (p : ℕ) (op : SharedVerification Record) :
    ComesFrom s p op op := ⟨rfl, rfl, id, Or.inl, fun _ h => Or.inr ⟨h, rfl⟩, Or.inl rfl⟩

/-- A move to a phase before the last one. -/
theorem ComesFrom.move {s : IdentityManager Record Peer} {p : ℕ} {op : SharedVerification Record}
    {phase : Phase Record} (hopen : ∀ r, phase ≠ .settled r)
    (houtcome : phase.outcome = op.phase.outcome ∨ ∃ r, phase.outcome = some r ∧ Settles s p op r) :
    ComesFrom s p op { op with phase := phase } :=
  ⟨rfl, rfl, id, Or.inl, fun r h => absurd h (hopen r), houtcome⟩

theorem Works.comesFrom {s : IdentityManager Record Peer} {o : ℕ} {op op' : SharedVerification Record}
    (h : Works s o op op') : ComesFrom s o op op' := by
  cases h with
  | capElapsed hphase hlate =>
    exact ⟨rfl, rfl, id, fun _ => Or.inr hlate, fun _ h => Or.inr ⟨h, rfl⟩, Or.inl rfl⟩
  | settle r hphase hsettles => exact .move (by simp) (Or.inr ⟨r, rfl, hsettles⟩)
  | fulfilled r hphase => exact .move (by simp) (Or.inl (by simp [hphase, Phase.outcome]))
  | caught r hphase => exact .move (by simp) (Or.inl (by simp [hphase, Phase.outcome]))

/-- A new operation. -/
structure Fresh (s : IdentityManager Record Peer) (op : SharedVerification Record) : Prop where
  phase : op.phase = .running
  timedOut : op.timedOut = false
  deadline : op.deadline = s.clock + defaultTimeoutMs
  cached : ∀ v, op.operation = .statusRefresh v → ∃ d entry, s.cache d = some entry ∧ entry.result = v

theorem set_back {s : IdentityManager Record Peer} {l : List (SharedVerification Record)} {o p : ℕ}
    {op op' q : SharedVerification Record} (hq : (l.set o op')[p]? = some q) (hl : l = s.shared)
    (hop : s.shared[o]? = some op) (hback : ComesFrom s o op op') :
    ∃ r, s.shared[p]? = some r ∧ ComesFrom s p r q := by
  subst hl
  by_cases hp : o = p
  · subst hp
    rw [List.getElem?_set_self (started_of_some hop)] at hq
    cases hq
    exact ⟨op, hop, hback⟩
  · rw [List.getElem?_set_ne hp] at hq
    exact ⟨q, hq, .refl s p q⟩

/-- Joining changes nothing but the number of callers. -/
theorem joinShared_back {s : IdentityManager Record Peer} {c o p : ℕ} {inv : Invocation Record Peer}
    {existing : Bool} {q : SharedVerification Record}
    (hq : (s.joinShared c inv o existing).shared[p]? = some q) :
    ∃ op, s.shared[p]? = some op ∧ ∃ n, q = { op with callers := n } := by
  unfold IdentityManager.joinShared at hq
  split at hq
  · exact ⟨q, hq, q.callers, rfl⟩
  case h_2 op hop =>
    by_cases hp : o = p
    · subst hp
      simp only [IdentityManager.setCall, IdentityManager.setShared,
        List.getElem?_set_self (started_of_some hop), Option.some.injEq] at hq
      exact ⟨op, hop, _, hq.symm⟩
    · simp only [IdentityManager.setCall, IdentityManager.setShared, List.getElem?_set_ne hp] at hq
      exact ⟨q, hq, q.callers, rfl⟩

theorem Effect.shared_back {s s' : IdentityManager Record Peer} (h : Effect s s') {p : ℕ}
    {q : SharedVerification Record} (hq : s'.shared[p]? = some q) :
    (∃ op, s.shared[p]? = some op ∧ ComesFrom s p op q) ∨ p = s.shared.length ∧ Fresh s q := by
  have hkeep (h : s.shared[p]? = some q) : ∃ op, s.shared[p]? = some op ∧ ComesFrom s p op q :=
    ⟨q, h, .refl s p q⟩
  have hcallers (op : SharedVerification Record) (n : ℕ) : ComesFrom s p op { op with callers := n } := by
    simpa using comesFrom_callers s p op n false
  cases h with
  | tick elapsed now => exact Or.inl (hkeep hq)
  | shrink cache => exact Or.inl (hkeep hq)
  | evictDomain domain => exact Or.inl (hkeep hq)
  | began c inv cache r => exact Or.inl (hkeep hq)
  | joined c inv cache kind o =>
    obtain ⟨op, hop, n, rfl⟩ := joinShared_back hq
    exact Or.inl ⟨op, hop, hcallers op n⟩
  | started c inv cache operation hnew hcache htimer hcached =>
    obtain ⟨op, hop, n, rfl⟩ := joinShared_back hq
    rcases lt_or_ge p s.shared.length with hp | hp
    · have hop' : s.shared[p]? = some op := by
        simpa [IdentityManager.startShared, supersede_shared, IdentityManager.setCache,
          List.getElem?_append_left hp] using hop
      exact Or.inl ⟨op, hop', hcallers op n⟩
    · obtain rfl : p = s.shared.length := by
        have hlt := started_of_some hop
        simp [IdentityManager.startShared, supersede_shared, IdentityManager.setCache] at hlt
        omega
      have hnew := startShared_shared (s.setCache cache) operation inv.domain
      obtain rfl := Option.some.inj (hop.symm.trans hnew)
      exact Or.inr ⟨rfl, rfl, rfl, rfl, hcached⟩
  | moved c inv inv' cache => exact Or.inl (hkeep hq)
  | left c inv inv' cache o existing op hcall hcache hwaiting hjoined hop =>
    simp only [IdentityManager.setCall, IdentityManager.setCache, IdentityManager.leaveShared, hop,
      IdentityManager.setShared] at hq
    exact Or.inl (set_back hq rfl hop (comesFrom_callers s o op _ _))
  | worked o op op' cache hop hcache hwork => exact Or.inl (set_back hq rfl hop hwork.comesFrom)
  | put o domain v op hputs =>
    exact Or.inl (set_back hq (supersede_shared s op.kind domain) hputs.shared
      (.move (by simp) (Or.inl (by simp [hputs.phase, Phase.outcome]))))
  | finalized o op r hop hphase =>
    exact Or.inl (set_back hq (onFinally_shared s o op) hop
      ⟨rfl, rfl, id, Or.inl, fun _ _ => Or.inl rfl, Or.inl (by simp [hphase, Phase.outcome])⟩)

/-! ## Where the calls of a state come from -/

/-- What a call has got, whether it has settled yet or not. -/
def Invocation.outcome (inv : Invocation Record Peer) : Option (Outcome Record) :=
  match inv.phase with
  | .returned r | .settled r => some r
  | _ => none

/-- How call `c` came to stand at `inv'`. -/
inductive CallFrom (s : IdentityManager Record Peer) (c : ℕ) (inv' : Invocation Record Peer) : Prop where
  | kept (hcall : s.calls c = some inv')
  | began (r : Outcome Record) (hnew : s.calls c = none) (htimer : inv'.timedOut = false)
      (hjoined : inv'.joined = none)
      (hphase : inv'.phase = .returned r ∨ inv'.phase = .settled r)
      (hcanceled : Definitive r ∨ inv'.signalAborted = true)
      (hok : ∀ v, r = .ok v → ∃ d entry, s.cache d = some entry ∧ entry.result = v)
  | joined (o : ℕ) (existing : Bool) (hnew : s.calls c = none) (htimer : inv'.timedOut = false)
      (hjoined : inv'.joined = some (o, existing)) (hphase : inv'.phase = .waiting)
  | moved (inv : Invocation Record Peer) (hcall : s.calls c = some inv) (hmove : CallMoves s c inv inv')
  | left (inv : Invocation Record Peer) (o : ℕ) (existing : Bool) (op : SharedVerification Record)
      (hcall : s.calls c = some inv) (hwaiting : inv.phase = .waiting)
      (hjoined : inv.joined = some (o, existing)) (hop : s.shared[o]? = some op)
      (hleave : Leaves s op existing inv inv')

/-- The frame of a call keeps what it joined. -/
theorem CallMoves.joined {s : IdentityManager Record Peer} {c : ℕ} {inv inv' : Invocation Record Peer}
    (h : CallMoves s c inv inv') : inv'.joined = inv.joined := by
  cases h <;> rfl

theorem Leaves.joined {s : IdentityManager Record Peer} {op : SharedVerification Record} {existing : Bool}
    {inv inv' : Invocation Record Peer} (h : Leaves s op existing inv inv') : inv'.joined = inv.joined := by
  cases h <;> rfl

theorem setCall_back {s : IdentityManager Record Peer} {c c' : ℕ} {inv inv' : Invocation Record Peer}
    (h : (s.setCall c inv).calls c' = some inv') : c' = c ∧ inv' = inv ∨ s.calls c' = some inv' := by
  by_cases hc : c' = c
  · subst hc
    simp only [IdentityManager.setCall, Function.update_self, Option.some.injEq] at h
    exact Or.inl ⟨rfl, h.symm⟩
  · simp only [IdentityManager.setCall, Function.update_of_ne hc] at h
    exact Or.inr h

/-- A call that joins an operation waits for it. -/
theorem joinShared_calls {s : IdentityManager Record Peer} {c c' o : ℕ} {inv inv' : Invocation Record Peer}
    {existing : Bool} (h : (s.joinShared c inv o existing).calls c' = some inv') :
    s.calls c' = some inv' ∨
      c' = c ∧ inv'.timedOut = inv.timedOut ∧ inv'.joined = some (o, existing) ∧
        inv'.phase = .waiting := by
  unfold IdentityManager.joinShared at h
  split at h
  · exact Or.inl h
  · rcases setCall_back h with ⟨rfl, rfl⟩ | h
    · exact Or.inr ⟨rfl, rfl, rfl, rfl⟩
    · exact Or.inl h

theorem startShared_calls (s : IdentityManager Record Peer) (operation : Operation Record) (d : String) :
    (s.startShared operation d).calls = s.calls := by
  simp only [IdentityManager.startShared, IdentityManager.supersede]
  split <;> rfl

theorem leaveShared_calls (s : IdentityManager Record Peer) (o : ℕ) :
    (s.leaveShared o).calls = s.calls := by
  unfold IdentityManager.leaveShared
  split <;> rfl

theorem supersede_calls (s : IdentityManager Record Peer) (kind : Kind) (domain : String) :
    (s.supersede kind domain).calls = s.calls := by
  unfold IdentityManager.supersede
  split <;> rfl

theorem onFinally_calls (s : IdentityManager Record Peer) (o : ℕ) (op : SharedVerification Record) :
    (s.onFinally o op).calls = s.calls := by
  unfold IdentityManager.onFinally
  split <;> rfl

theorem Effect.call_back {s s' : IdentityManager Record Peer} (h : Effect s s') {c : ℕ}
    {inv : Invocation Record Peer} (hcall : s'.calls c = some inv) : CallFrom s c inv := by
  cases h with
  | tick elapsed now => exact .kept hcall
  | shrink cache => exact .kept hcall
  | evictDomain domain => exact .kept hcall
  | began c' inv' cache r hnew hcache htimer hjoined hphase hcanceled hok =>
    rcases setCall_back hcall with ⟨rfl, rfl⟩ | hcall
    · exact .began r hnew htimer hjoined hphase hcanceled hok
    · exact .kept hcall
  | joined c' inv' cache kind o hnew hcache htimer =>
    rcases joinShared_calls hcall with hcall | ⟨rfl, hsame, hjoined, hphase⟩
    · exact .kept hcall
    · exact .joined o true hnew (hsame.trans htimer) hjoined hphase
  | started c' inv' cache operation hnew hcache htimer =>
    rcases joinShared_calls hcall with hcall | ⟨rfl, hsame, hjoined, hphase⟩
    · rw [startShared_calls] at hcall
      exact .kept hcall
    · exact .joined s.shared.length false hnew (hsame.trans htimer) hjoined hphase
  | moved c' inv₀ inv' cache hcall₀ hcache hmove =>
    rcases setCall_back hcall with ⟨rfl, rfl⟩ | hcall
    · exact .moved inv₀ hcall₀ hmove
    · exact .kept hcall
  | left c' inv₀ inv' cache o existing op hcall₀ hcache hwaiting hjoined hop hleave =>
    rcases setCall_back hcall with ⟨rfl, rfl⟩ | hcall
    · exact .left inv₀ o existing op hcall₀ hwaiting hjoined hop hleave
    · have hcall : (s.leaveShared o).calls c = some inv := hcall
      rw [leaveShared_calls] at hcall
      exact .kept hcall
  | worked o op op' cache => exact .kept hcall
  | put o domain v op => exact .kept (supersede_calls s op.kind domain ▸ hcall)
  | finalized o op r => exact .kept (onFinally_calls s o op ▸ hcall)

end Dnsid.Manager

import Dnsid.Checkpoint.AdvanceRun

/-! # What a step of concurrent calls can do

`Moves` lists what a step can do to one call without touching the store. The only other step is a commit
(`step_cases`): the call is not aborted and the store still holds what it has verified against.
-/
namespace Dnsid.Checkpoint
open Dnsid.Foundations Dnsid.Merkle
set_option autoImplicit false

section Steps
variable {ι Entry Digest : Type} [DecidableEq ι] [DecidableEq Digest] {H : Sha256 Entry Digest}
  {cfg : ι → AdvanceCall Entry Digest}

/-- The steps of one call that leave the store alone. -/
inductive Moves (H : Sha256 Entry Digest) (call : AdvanceCall Entry Digest)
    (hon : EvidenceResponse Digest → Prop) : CallState Digest → CallState Digest → Prop where
  | abort (c : CallState Digest) : Moves H call hon c { c with aborted := true }
  | fail (c : CallState Digest) (e : Thrown) (hpc : ∀ r, c.pc ≠ .finished r)
      (hcommit : c.pc = .swapped true → c.aborted = true) :
      Moves H call hon c { c with pc := .finished (.error e) }
  | ready (c : CallState Digest) (hpc : c.pc = .start ∨ c.pc = .waiting) :
      Moves H call hon c { c with pc := .load }
  | loaded (c : CallState Digest) (previous : Option (TrustedC2spCheckpoint Digest))
      (hpc : c.pc = .load) : Moves H call hon c { c with pc := .loaded previous }
  | verified (c : CallState Digest) (previous : Option (TrustedC2spCheckpoint Digest))
      (response : EvidenceResponse Digest) (hpc : c.pc = .loaded previous) (hhon : hon response)
      (hok : verifyCheckpointAdvance H previous call.candidate call.evidence response = .ok ()) :
      Moves H call hon c { c with pc := .verified previous }
  | lost (c : CallState Digest) (previous : Option (TrustedC2spCheckpoint Digest))
      (hpc : c.pc = .verified previous) : Moves H call hon c { c with pc := .swapped false }
  | done (c : CallState Digest) (hpc : c.pc = .swapped true) :
      Moves H call hon c { c with pc := .finished (.ok call.candidate) }
  | wait (c : CallState Digest) (hpc : c.pc = .swapped false) :
      Moves H call hon c { c with pc := .waiting }
  | settle (c : CallState Digest) (r : Except Thrown (TrustedC2spCheckpoint Digest))
      (hpc : c.pc = .finished r) : Moves H call hon c { c with outcome := some r }
  | cancel (c : CallState Digest) (haborted : c.aborted = true) :
      Moves H call hon c { c with outcome := some (.error canceled) }
  | late (c : CallState Digest) (e : Thrown) :
      Moves H call hon c { c with aborted := true, outcome := some (.error e) }

/-- A commit of call `i`: it is not aborted, and the store still holds what it verified against. -/
structure Commits (cfg : ι → AdvanceCall Entry Digest) (s : World ι Digest) (i : ι)
    (s' : World ι Digest) : Prop where
  pc : (s.calls i).pc = .verified (s.store (cfg i).candidate.origin)
  live : (s.calls i).aborted = false
  result : s' =
    { s.setPc i (.swapped true) with
      store := Function.update s.store (cfg i).candidate.origin (some (cfg i).candidate)
      log := s.log ++ [(i, (cfg i).candidate)] }

theorem sameCheckpoint_eq {left right : Option (TrustedC2spCheckpoint Digest)}
    (h : sameCheckpoint left right = true) : left = right := by
  cases left with
  | none => cases right with
    | none => rfl
    | some r => simp [sameCheckpoint] at h
  | some l => cases right with
    | none => simp [sameCheckpoint] at h
    | some r =>
      obtain ⟨lo, ls, lr, lw⟩ := l
      obtain ⟨ro, rs, rr, rw⟩ := r
      simp only [sameCheckpoint, Bool.and_eq_true, decide_eq_true_eq] at h
      obtain ⟨⟨⟨rfl, rfl⟩, rfl⟩, rfl⟩ := h
      rfl

theorem validateCheckpoint_origin {value : TrustedC2spCheckpoint Digest} {origin : String}
    (h : validateCheckpoint H value origin = .ok ()) : value.origin = origin := by
  unfold validateCheckpoint at h
  obtain ⟨_, _, h⟩ := bind_eq_ok.mp h
  split at h
  · cases h
  case isFalse hne => simpa using hne

theorem compareAndSwap_some {store store' : Store Digest} {origin : String}
    {expected : Option (TrustedC2spCheckpoint Digest)} {candidate : TrustedC2spCheckpoint Digest}
    (h : compareAndSwap H store origin expected candidate = .ok (some store')) :
    candidate.origin = origin ∧ store origin = expected ∧
      store' = Function.update store origin (some candidate) := by
  unfold compareAndSwap at h
  obtain ⟨_, _, h⟩ := bind_eq_ok.mp h
  obtain ⟨_, _, h⟩ := bind_eq_ok.mp h
  obtain ⟨_, hcand, h⟩ := bind_eq_ok.mp h
  split at h
  · cases h
  case isFalse hsame =>
    refine ⟨validateCheckpoint_origin hcand, sameCheckpoint_eq (by simpa using hsame), ?_⟩
    exact (Option.some.inj (Except.ok.inj h)).symm

/-- The responses that an action may carry. -/
def Action.Responds (hon : ι → EvidenceResponse Digest → Prop) : Action ι Digest → Prop
  | .verify i response => hon i response
  | _ => True

/-- An aborted operation fails the call; any other is carried out. -/
theorem unlessAborted_moves (call : AdvanceCall Entry Digest) (hon : EvidenceResponse Digest → Prop)
    (s s' : World ι Digest) (i : ι) (hpc : ∀ r, (s.calls i).pc ≠ .finished r) :
    (∃ c, Moves H call hon (s.calls i) c ∧ s.unlessAborted i s' = s.setCall i c) ∨
      ((s.calls i).aborted = false ∧ s.unlessAborted i s' = s') := by
  unfold World.unlessAborted
  cases haborted : (s.calls i).aborted with
  | true =>
    left
    exact ⟨_, .fail _ canceled hpc (fun _ => haborted), by simp [World.setPc]⟩
  | false => simp

/-- Every step moves one call or commits one. -/
theorem step_cases {hon : ι → EvidenceResponse Digest → Prop} {a : Action ι Digest}
    {s s' : World ι Digest} (ha : a.Responds hon) (h : step H cfg a s = some s') :
    (∃ i c, Moves H (cfg i) (hon i) (s.calls i) c ∧ s' = s.setCall i c) ∨
      ∃ i, Commits cfg s i s' := by
  cases a with
  | start i =>
    left
    simp only [step] at h
    split at h
    case h_2 => cases h
    case h_1 hpc =>
      split at h
      · obtain rfl := Option.some.inj h
        exact ⟨i, _, .fail _ _ (by simp [hpc]) (by simp [hpc]), rfl⟩
      · obtain rfl := Option.some.inj h
        exact ⟨i, _, .ready _ (Or.inl hpc), rfl⟩
  | load i =>
    left
    simp only [step] at h
    split at h
    case h_2 => cases h
    case h_1 hpc =>
      obtain rfl := Option.some.inj h
      rcases unlessAborted_moves (cfg i) (hon i) s _ i (by simp [hpc]) with ⟨c, hc, heq⟩ | ⟨_, heq⟩
      · exact ⟨i, c, hc, heq⟩
      · rw [heq]
        split
        · exact ⟨i, _, .fail _ _ (by simp [hpc]) (by simp [hpc]), rfl⟩
        · exact ⟨i, _, .loaded _ _ hpc, rfl⟩
  | verify i response =>
    left
    simp only [step] at h
    split at h
    case h_2 => cases h
    case h_1 previous hpc =>
      obtain rfl := Option.some.inj h
      rcases unlessAborted_moves (cfg i) (hon i) s _ i (by simp [hpc]) with ⟨c, hc, heq⟩ | ⟨_, heq⟩
      · exact ⟨i, c, hc, heq⟩
      · rw [heq]
        split
        · exact ⟨i, _, .fail _ _ (by simp [hpc]) (by simp [hpc]), rfl⟩
        case h_2 hok => exact ⟨i, _, .verified _ previous response hpc ha hok, rfl⟩
  | swap i =>
    simp only [step] at h
    split at h
    case h_2 => cases h
    case h_1 previous hpc =>
      obtain rfl := Option.some.inj h
      rcases unlessAborted_moves (cfg i) (hon i) s _ i (by simp [hpc]) with
        ⟨c, hc, heq⟩ | ⟨hlive, heq⟩
      · exact Or.inl ⟨i, c, hc, heq⟩
      · rw [heq]
        split
        · exact Or.inl ⟨i, _, .fail _ _ (by simp [hpc]) (by simp [hpc]), rfl⟩
        · exact Or.inl ⟨i, _, .lost _ previous hpc, rfl⟩
        case h_3 store hswap =>
          right
          obtain ⟨horigin, hexpected, rfl⟩ := compareAndSwap_some hswap
          rw [← horigin] at hexpected ⊢
          exact ⟨i, by rw [hexpected]; exact hpc, hlive, rfl⟩
  | resume i =>
    left
    simp only [step] at h
    split at h
    case h_3 => cases h
    case h_1 hpc =>
      obtain rfl := Option.some.inj h
      rcases unlessAborted_moves (cfg i) (hon i) s _ i (by simp [hpc]) with ⟨c, hc, heq⟩ | ⟨_, heq⟩
      · exact ⟨i, c, hc, heq⟩
      · rw [heq]
        exact ⟨i, _, .done _ hpc, rfl⟩
    case h_2 hpc =>
      obtain rfl := Option.some.inj h
      rcases unlessAborted_moves (cfg i) (hon i) s _ i (by simp [hpc]) with ⟨c, hc, heq⟩ | ⟨_, heq⟩
      · exact ⟨i, c, hc, heq⟩
      · rw [heq]
        exact ⟨i, _, .wait _ hpc, rfl⟩
  | retry i =>
    left
    simp only [step] at h
    split at h
    case h_2 => cases h
    case h_1 hpc =>
      obtain rfl := Option.some.inj h
      rcases unlessAborted_moves (cfg i) (hon i) s _ i (by simp [hpc]) with ⟨c, hc, heq⟩ | ⟨_, heq⟩
      · exact ⟨i, c, hc, heq⟩
      · rw [heq]
        exact ⟨i, _, .ready _ (Or.inr hpc), rfl⟩
  | settle i late =>
    left
    simp only [step] at h
    split at h
    case h_1 e _ hpc =>
      obtain rfl := Option.some.inj h
      exact ⟨i, _, .settle _ _ hpc, rfl⟩
    case h_2 c _ hpc =>
      split at h
      case isTrue haborted =>
        obtain rfl := Option.some.inj h
        exact ⟨i, _, .cancel _ haborted, rfl⟩
      case isFalse =>
        split at h
        · obtain rfl := Option.some.inj h
          exact ⟨i, _, .late _ _, rfl⟩
        · obtain rfl := Option.some.inj h
          exact ⟨i, _, .settle _ _ hpc, rfl⟩
    case h_3 => cases h
  | cancel i =>
    left
    simp only [step] at h
    split at h
    · cases h
    · cases h
    · split at h
      case isTrue haborted =>
        obtain rfl := Option.some.inj h
        exact ⟨i, _, .cancel _ haborted, rfl⟩
      case isFalse => cases h
  | abort i =>
    left
    obtain rfl := Option.some.inj h
    exact ⟨i, _, .abort _, rfl⟩

end Steps

end Dnsid.Checkpoint

import Dnsid.Checkpoint.AdvanceSteps
import Mathlib.Data.List.Chain

/-! # No rollback and no fork under concurrency

The invariants are read off the two forms of a step:

* the store holds the last logged value of each origin, and a commit replaces exactly the value the call
  had verified against, so consecutive stored values satisfy the verified relation (`Commits.worldInv`);
* a stopped call never commits (`frozen_step`), and a result is one the call has committed.
-/
namespace Dnsid.Checkpoint
open Dnsid.Foundations Dnsid.Merkle
set_option autoImplicit false

section Invariant
variable {ι Entry Digest : Type} [DecidableEq ι] [DecidableEq Digest] {H : Sha256 Entry Digest}
  {cfg : ι → AdvanceCall Entry Digest}

/-- What holds of one call, given whether it has committed. -/
structure CallInv (H : Sha256 Entry Digest) (call : AdvanceCall Entry Digest)
    (hon : EvidenceResponse Digest → Prop) (committed : Prop) (c : CallState Digest) : Prop where
  verified : ∀ p, c.pc = .verified p → ∃ response, hon response ∧
    verifyCheckpointAdvance H p call.candidate call.evidence response = .ok ()
  swapped : c.pc = .swapped true → committed
  result : ∀ v, c.pc = .finished (.ok v) → v = call.candidate ∧ committed
  outcome : ∀ v, c.outcome = some (.ok v) → v = call.candidate ∧ committed
  thrown : ∀ e, c.outcome = some (.error e) → c.aborted = true ∨ ∃ r, c.pc = .finished r
  once : committed → c.pc = .swapped true ∨ ∃ r, c.pc = .finished r ∧ (r.isOk = true ∨ c.aborted = true)
  late : committed → ∀ e, c.outcome = some (.error e) → c.aborted = true

theorem Moves.callInv {call : AdvanceCall Entry Digest} {hon : EvidenceResponse Digest → Prop}
    {committed : Prop} {c c' : CallState Digest} (h : Moves H call hon c c')
    (hc : CallInv H call hon committed c) : CallInv H call hon committed c' := by
  obtain ⟨hver, hswap, hres, hout, hthr, honce, hlate⟩ := hc
  cases h with
  | abort =>
    refine ⟨hver, hswap, hres, hout, fun e he => Or.inl rfl, ?_, fun _ _ _ => rfl⟩
    intro hcom
    rcases honce hcom with h | ⟨r, h, _⟩
    · exact Or.inl h
    · exact Or.inr ⟨r, h, Or.inr rfl⟩
  | fail e hpc hcommit =>
    refine ⟨by simp, by simp, by simp, hout, fun _ _ => Or.inr ⟨_, rfl⟩, ?_, hlate⟩
    intro hcom
    rcases honce hcom with h | ⟨r, h, _⟩
    · exact Or.inr ⟨_, rfl, Or.inr (hcommit h)⟩
    · exact absurd h (hpc r)
  | ready hpc =>
    have hno : ¬ committed := by
      intro hcom
      rcases honce hcom with h | ⟨r, h, _⟩ <;> rcases hpc with hpc | hpc <;> simp [hpc] at h
    refine ⟨by simp, by simp, by simp, hout, ?_, fun hcom => absurd hcom hno, hlate⟩
    intro e he
    rcases hthr e he with h | ⟨r, h⟩
    · exact Or.inl h
    · rcases hpc with hpc | hpc <;> simp [hpc] at h
  | loaded previous hpc =>
    refine ⟨by simp, by simp, by simp, hout, ?_, ?_, hlate⟩
    · intro e he
      simpa [hpc] using hthr e he
    · intro hcom
      simpa [hpc] using honce hcom
  | verified previous response hpc hhon hok =>
    refine ⟨?_, by simp, by simp, hout, ?_, ?_, hlate⟩
    · intro p hp
      obtain rfl : previous = p := by simpa using hp
      exact ⟨response, hhon, hok⟩
    · intro e he
      simpa [hpc] using hthr e he
    · intro hcom
      simpa [hpc] using honce hcom
  | lost previous hpc =>
    refine ⟨by simp, by simp, by simp, hout, ?_, ?_, hlate⟩
    · intro e he
      simpa [hpc] using hthr e he
    · intro hcom
      simpa [hpc] using honce hcom
  | done hpc =>
    refine ⟨by simp, by simp, ?_, hout, ?_, ?_, hlate⟩
    · intro v hv
      exact ⟨by simpa using hv.symm, hswap hpc⟩
    · intro e he
      exact Or.inr ⟨_, rfl⟩
    · intro _
      exact Or.inr ⟨_, rfl, Or.inl rfl⟩
  | wait hpc =>
    refine ⟨by simp, by simp, by simp, hout, ?_, ?_, hlate⟩
    · intro e he
      simpa [hpc] using hthr e he
    · intro hcom
      simpa [hpc] using honce hcom
  | settle r hpc =>
    refine ⟨hver, hswap, hres, ?_, fun _ _ => Or.inr ⟨r, hpc⟩, honce, ?_⟩
    · intro v hv
      obtain rfl : r = .ok v := by simpa using hv
      exact hres v hpc
    · intro hcom e he
      obtain rfl : r = .error e := by simpa using he
      rcases honce hcom with h | ⟨r, h, hr⟩
      · simp [hpc] at h
      · rw [hpc] at h
        cases h
        simpa [Except.isOk, Except.toBool] using hr
  | cancel haborted =>
    exact ⟨hver, hswap, hres, by simp, fun _ _ => Or.inl haborted, honce, fun _ _ _ => haborted⟩
  | late e =>
    refine ⟨hver, hswap, hres, by simp, fun _ _ => Or.inl rfl, ?_, fun _ _ _ => rfl⟩
    intro hcom
    rcases honce hcom with h | ⟨r, h, _⟩
    · exact Or.inl h
    · exact Or.inr ⟨r, h, Or.inr rfl⟩

/-- The values stored for an origin, each with the call that stored it, oldest first. -/
def World.stored (s : World ι Digest) (origin : String) : List (ι × TrustedC2spCheckpoint Digest) :=
  s.log.filter fun e => e.2.origin = origin

/-- The later value was verified against the earlier one. -/
def Follows (H : Sha256 Entry Digest) (hon : ι → EvidenceResponse Digest → Prop)
    (a b : ι × TrustedC2spCheckpoint Digest) : Prop :=
  ∃ response, hon b.1 response ∧ Advances H a.2 b.2 response

structure WorldInv (H : Sha256 Entry Digest) (cfg : ι → AdvanceCall Entry Digest)
    (hon : ι → EvidenceResponse Digest → Prop) (s : World ι Digest) : Prop where
  calls : ∀ i, CallInv H (cfg i) (hon i) ((i, (cfg i).candidate) ∈ s.log) (s.calls i)
  logged : ∀ e ∈ s.log, e.2 = (cfg e.1).candidate
  store : ∀ origin, s.store origin = (s.stored origin).getLast?.map Prod.snd
  chain : ∀ origin, (s.stored origin).IsChain (Follows H hon)

omit [DecidableEq ι] in
theorem worldInv_initial (hon : ι → EvidenceResponse Digest → Prop) :
    WorldInv H cfg hon initial where
  calls := by
    intro i
    constructor <;> simp [initial]
  logged := by simp [initial]
  store := by simp [initial, World.stored]
  chain := by simp [initial, World.stored]

omit [DecidableEq Digest] in
theorem Commits.stored {s s' : World ι Digest} {i : ι} (h : Commits cfg s i s') (origin : String) :
    s'.stored origin = s.stored origin ++
      if (cfg i).candidate.origin = origin then [(i, (cfg i).candidate)] else [] := by
  rw [h.result]
  unfold World.stored
  rw [List.filter_append]
  by_cases horigin : (cfg i).candidate.origin = origin <;> simp [horigin]

theorem Commits.worldInv {hon : ι → EvidenceResponse Digest → Prop} {s s' : World ι Digest} {i : ι}
    (h : Commits cfg s i s') (hs : WorldInv H cfg hon s) : WorldInv H cfg hon s' where
  calls := by
    intro j
    rw [h.result]
    by_cases hj : j = i
    · subst hj
      have hc := hs.calls j
      have hthrown : ∀ e, (s.calls j).outcome ≠ some (.error e) := by
        intro e he
        simpa [h.live, h.pc] using hc.thrown e he
      refine ⟨?_, ?_, ?_, ?_, ?_, ?_, ?_⟩ <;> simp only [World.setPc, World.setCall,
        Function.update_self]
      · simp
      · simp
      · simp
      · intro v hv
        exact ⟨(hc.outcome v hv).1, by simp⟩
      · intro e he
        exact absurd he (hthrown e)
      · simp
      · intro _ e he
        exact absurd he (hthrown e)
    · have hmem : ((j, (cfg j).candidate) ∈ s.log ++ [(i, (cfg i).candidate)]) ↔
          (j, (cfg j).candidate) ∈ s.log := by simp [hj]
      simpa [World.setPc, World.setCall, Function.update_of_ne hj, hmem] using hs.calls j
  logged := by
    intro e he
    rw [h.result] at he
    rcases List.mem_append.mp he with he | he
    · exact hs.logged e he
    · rw [List.mem_singleton.mp he]
  store := by
    intro origin
    rw [h.stored, h.result]
    by_cases horigin : (cfg i).candidate.origin = origin
    · subst horigin
      simp
    · simp only [horigin, if_false, List.append_nil]
      rw [Function.update_of_ne (Ne.symm horigin)]
      exact hs.store origin
  chain := by
    intro origin
    rw [h.stored]
    by_cases horigin : (cfg i).candidate.origin = origin
    · subst horigin
      rw [if_pos rfl, List.isChain_append]
      refine ⟨hs.chain _, List.isChain_singleton _, ?_⟩
      -- The last stored value is the one the call has verified its candidate against.
      intro a ha b hb
      obtain rfl : (i, (cfg i).candidate) = b := by simpa using hb
      obtain ⟨response, hresponse, hok⟩ := (hs.calls i).verified _ h.pc
      rw [hs.store, Option.mem_def.mp ha] at hok
      exact ⟨response, hresponse, verifyCheckpointAdvance_cases hok⟩
    · simpa [horigin] using hs.chain origin

theorem worldInv_step {hon : ι → EvidenceResponse Digest → Prop} {a : Action ι Digest}
    {s s' : World ι Digest} (ha : a.Responds hon) (hs : WorldInv H cfg hon s)
    (h : step H cfg a s = some s') : WorldInv H cfg hon s' := by
  rcases step_cases ha h with ⟨i, c, hmove, rfl⟩ | ⟨i, hcommit⟩
  · refine ⟨?_, hs.logged, hs.store, hs.chain⟩
    intro j
    by_cases hj : j = i
    · subst hj
      simpa [World.setCall] using hmove.callInv (hs.calls j)
    · simpa [World.setCall, Function.update_of_ne hj] using hs.calls j
  · exact hcommit.worldInv hs

/-! ## Stopped calls -/

/-- The call has thrown, or its signal is aborted. -/
def Stopped (s : World ι Digest) (i : ι) : Prop :=
  (∃ e, (s.calls i).outcome = some (.error e)) ∨ (s.calls i).aborted = true

def Committed (s : World ι Digest) (i : ι) : Prop := ∃ c, (i, c) ∈ s.log

/-- No operation of the loop can succeed any more. -/
def Frozen (s : World ι Digest) (i : ι) : Prop :=
  (s.calls i).aborted = true ∨ ∃ r, (s.calls i).pc = .finished r

theorem Moves.frozen {call : AdvanceCall Entry Digest} {hon : EvidenceResponse Digest → Prop}
    {c c' : CallState Digest} (h : Moves H call hon c c')
    (hc : c.aborted = true ∨ ∃ r, c.pc = .finished r) :
    c'.aborted = true ∨ ∃ r, c'.pc = .finished r := by
  cases h with
  | abort => exact Or.inl rfl
  | fail e hpc hcommit => exact Or.inr ⟨_, rfl⟩
  | ready hpc => rcases hpc with hpc | hpc <;> simpa [hpc] using hc
  | loaded previous hpc => simpa [hpc] using hc
  | verified previous response hpc hhon hok => simpa [hpc] using hc
  | lost previous hpc => simpa [hpc] using hc
  | done hpc => exact Or.inr ⟨_, rfl⟩
  | wait hpc => simpa [hpc] using hc
  | settle r hpc => exact Or.inr ⟨r, hpc⟩
  | cancel haborted => exact Or.inl haborted
  | late e => exact Or.inl rfl

/-- A frozen call stays frozen and stores nothing more. -/
theorem frozen_step {a : Action ι Digest} {s s' : World ι Digest} {i : ι}
    (hs : Frozen s i ∧ ¬ Committed s i) (h : step H cfg a s = some s') :
    Frozen s' i ∧ ¬ Committed s' i := by
  have ha : a.Responds fun _ _ => True := by cases a <;> trivial
  rcases step_cases ha h with ⟨j, c, hmove, rfl⟩ | ⟨j, hcommit⟩
  · refine ⟨?_, hs.2⟩
    by_cases hj : i = j
    · subst hj
      simpa [Frozen, World.setCall] using hmove.frozen hs.1
    · simpa [Frozen, World.setCall, Function.update_of_ne hj] using hs.1
  · have hj : i ≠ j := by
      rintro rfl
      simpa [Frozen, hcommit.live, hcommit.pc] using hs.1
    rw [hcommit.result]
    refine ⟨?_, ?_⟩
    · simpa [Frozen, World.setPc, World.setCall, Function.update_of_ne hj] using hs.1
    · simpa [Committed, hj] using hs.2

omit [DecidableEq ι] in
theorem WorldInv.frozen {hon : ι → EvidenceResponse Digest → Prop} {s : World ι Digest}
    (hs : WorldInv H cfg hon s) {i : ι} (h : Stopped s i) : Frozen s i := by
  rcases h with ⟨e, he⟩ | h
  · exact (hs.calls i).thrown e he
  · exact Or.inl h

/-! ## Every run -/

theorem worldInv_run {hon : ι → EvidenceResponse Digest → Prop} {acts : List (Action ι Digest)}
    {s : World ι Digest} (hacts : ∀ a ∈ acts, a.Responds hon)
    (hrun : run (step H cfg) acts initial = some s) : WorldInv H cfg hon s := by
  refine run_invariant (I := WorldInv H cfg hon) ?_ acts initial s hacts (worldInv_initial hon) hrun
  intro a s s' ha hs h
  exact worldInv_step ha hs h

theorem pairwise_of_isChain {α : Type} {R : α → α → Prop} (trans : ∀ {a b c}, R a b → R b c → R a c)
    {l : List α} (h : l.IsChain R) : l.Pairwise R := by
  have htrans : Trans R R R := ⟨trans⟩
  exact h.pairwise

omit [DecidableEq ι] in
theorem stored_treeSize {hon : ι → EvidenceResponse Digest → Prop} {s : World ι Digest}
    (hs : WorldInv H cfg hon s) (origin : String) :
    (s.stored origin).Pairwise fun a b => a.2.treeSize ≤ b.2.treeSize := by
  refine pairwise_of_isChain ?_ ((hs.chain origin).imp ?_)
  · intro a b c h₁ h₂
    exact le_trans h₁ h₂
  · rintro a b ⟨response, _, hadv⟩
    exact hadv.treeSize_le

omit [DecidableEq ι] in
/-- Entry lists behind the stored values grow by extension. -/
theorem stored_isPrefix (hH : H.Ideal) {s : World ι Digest}
    (hs : WorldInv H cfg (fun i => HonestTile H (cfg i).candidate) s)
    (htrees : ∀ i, ∃ D, IsTreeOf H (cfg i).candidate D) (origin : String) :
    (s.stored origin).Pairwise fun a b =>
      ∀ A B, IsTreeOf H a.2 A → IsTreeOf H b.2 B → A <+: B := by
  choose tree htree using htrees
  have hlogged : ∀ e ∈ s.stored origin, IsTreeOf H e.2 (tree e.1) := by
    intro e he
    rw [hs.logged e (List.mem_of_mem_filter he)]
    exact htree e.1
  have hpairs : (s.stored origin).Pairwise fun a b => tree a.1 <+: tree b.1 := by
    refine pairwise_of_isChain (fun h₁ h₂ => h₁.trans h₂) ((hs.chain origin).imp_of_mem_imp ?_)
    rintro a b ha hb ⟨response, hhon, hadv⟩
    rw [← hs.logged b (List.mem_of_mem_filter hb)] at hhon
    exact hadv.isPrefix hH hhon (hlogged a ha) (hlogged b hb)
  refine hpairs.imp_of_mem ?_
  intro a b ha hb hab A B hA hB
  rw [hA.unique hH (hlogged a ha) rfl rfl, hB.unique hH (hlogged b hb) rfl rfl]
  exact hab

/-- **No rollback and no fork.** In every state that any number of concurrent calls reach by any
interleaving, with any answers of their sources:

* the store holds the last value stored for each origin;
* the values stored for an origin have nondecreasing tree sizes, and if every candidate root is the root
  of an entry list of its size and the tile sources are honest, earlier lists are prefixes of later ones;
* a call that throws or is aborted before it has committed never stores anything, a call that returns a
  value has stored it, and a call that has stored and throws was aborted. -/
theorem advanceC2spCheckpoint_no_rollback (hH : H.Ideal) (acts : List (Action ι Digest))
    (s : World ι Digest) (hrun : run (step H cfg) acts initial = some s) :
    (∀ origin, s.store origin = (s.stored origin).getLast?.map Prod.snd) ∧
    (∀ origin, (s.stored origin).Pairwise fun a b => a.2.treeSize ≤ b.2.treeSize) ∧
    ((∀ i, ∃ D, IsTreeOf H (cfg i).candidate D) →
      (∀ a ∈ acts, a.Responds fun i => HonestTile H (cfg i).candidate) →
      ∀ origin, (s.stored origin).Pairwise fun a b =>
        ∀ A B, IsTreeOf H a.2 A → IsTreeOf H b.2 B → A <+: B) ∧
    (∀ i, Stopped s i → ¬ Committed s i →
      ∀ acts' s', run (step H cfg) acts' s = some s' → ¬ Committed s' i) ∧
    (∀ i c, (s.calls i).outcome = some (.ok c) → c = (cfg i).candidate ∧ (i, c) ∈ s.log) ∧
    (∀ i e, (s.calls i).outcome = some (.error e) → Committed s i → (s.calls i).aborted = true) := by
  have hs : WorldInv H cfg (fun _ _ => True) s := by
    refine worldInv_run ?_ hrun
    intro a _
    cases a <;> trivial
  refine ⟨hs.store, stored_treeSize hs, ?_, ?_, ?_, ?_⟩
  · intro htrees hhonest origin
    exact stored_isPrefix hH (worldInv_run hhonest hrun) htrees origin
  · intro i hstop hcommit acts' s' hrun'
    have hfrozen : Frozen s' i ∧ ¬ Committed s' i := by
      refine run_invariant (P := fun _ => True) (I := fun s => Frozen s i ∧ ¬ Committed s i) ?_ acts' s
        s' (fun _ _ => trivial) ⟨hs.frozen hstop, hcommit⟩ hrun'
      intro a s₁ s₂ _ hs₁ h
      exact frozen_step hs₁ h
    exact hfrozen.2
  · intro i c hc
    obtain ⟨rfl, hmem⟩ := (hs.calls i).outcome c hc
    exact ⟨rfl, hmem⟩
  · rintro i e he ⟨c, hc⟩
    have hcand := hs.logged _ hc
    simp only at hcand
    subst hcand
    exact (hs.calls i).late hc e he

end Invariant

/-! ## A lost race -/

/-- Two candidates of one log: one entry, and two entries with a consistency proof source. -/
def raceCalls : Bool → AdvanceCall (List UInt8) (IdealDigest (List UInt8))
  | false => ⟨"log", "log", 1, .leaf [0], some 0, ⟨none, false, false⟩, true⟩
  | true => ⟨"log", "log", 2, .node (.leaf [0]) (.leaf [1]), some 0, ⟨none, true, false⟩, true⟩

def raceResponse : EvidenceResponse (IdealDigest (List UInt8)) :=
  ⟨fun _ _ => .ok [.leaf [1]], fun _ => .error canceled⟩

/-- The larger candidate verifies against the empty store, loses the swap, and starts over. -/
def raceActions : List (Action Bool (IdealDigest (List UInt8))) :=
  [.start true, .load true, .verify true raceResponse,
    .start false, .load false, .verify false raceResponse, .swap false, .resume false, .settle false false,
    .swap true, .resume true, .retry true, .load true, .verify true raceResponse, .swap true,
    .resume true, .settle true false]

theorem advanceC2spCheckpoint_race :
    ∃ s, run (step (idealSha256 (List UInt8)) raceCalls) raceActions initial = some s ∧
      ((s.stored "log").map fun e => (e.1, e.2.treeSize)) = [(false, 1), (true, 2)] ∧
      (s.stored "log").Pairwise fun a b => ∀ A B, IsTreeOf (idealSha256 (List UInt8)) a.2 A →
        IsTreeOf (idealSha256 (List UInt8)) b.2 B → A <+: B := by
  have hstored : ((run (step (idealSha256 (List UInt8)) raceCalls) raceActions initial).map
      fun s => (s.stored "log").map fun e => (e.1, e.2.treeSize)) = some [(false, 1), (true, 2)] := by
    decide
  obtain ⟨s, hrun, hs⟩ := Option.map_eq_some_iff.mp hstored
  refine ⟨s, hrun, hs, ?_⟩
  refine (advanceC2spCheckpoint_no_rollback (idealSha256_ideal _) raceActions s hrun).2.2.1 ?_ ?_ _
  · intro i
    cases i with
    | false => exact ⟨[[0]], rfl, rfl⟩
    | true => exact ⟨[[0], [1]], rfl, rfl⟩
  · have hresponse : ∀ c, HonestTile (idealSha256 (List UInt8)) c raceResponse := by
      intro c size root D hroot
      cases hroot
    simp [raceActions, Action.Responds, hresponse]

end Dnsid.Checkpoint

import Dnsid.Merkle.Hashing

/-! # Consistency proofs (`verifyC2spConsistencyProof` of `checkpoint-trust.ts`)

The loop folds one proof over two hashes. Both start at the same value; the new hash takes every proof
node, the old hash only those that stand on the left (`consistencyLoop_climb`). Under a collision-free
hash the start is therefore a common subtree and the old tree is what is left of the new one when the
right siblings are dropped, so its leaves are a prefix. Which nodes the two indexes pick plays no part
in this argument.
-/
namespace Dnsid.Merkle
open Dnsid.Foundations
set_option autoImplicit false

/-! ## The two index loops -/

/-- `while ((oldIndex & 1) === 1)`: halve both indexes. The fuel is the old index. -/
def shiftOdd : ℕ → ℕ → ℕ → ℕ × ℕ
  | 0, oldIndex, newIndex => (oldIndex, newIndex)
  | fuel + 1, oldIndex, newIndex =>
    if oldIndex % 2 = 1 then shiftOdd fuel (oldIndex / 2) (newIndex / 2) else (oldIndex, newIndex)

/-- `while (oldIndex !== 0 && (oldIndex & 1) === 0)`: halve both indexes. -/
def shiftEven : ℕ → ℕ → ℕ → ℕ × ℕ
  | 0, oldIndex, newIndex => (oldIndex, newIndex)
  | fuel + 1, oldIndex, newIndex =>
    if oldIndex ≠ 0 ∧ oldIndex % 2 = 0 then shiftEven fuel (oldIndex / 2) (newIndex / 2)
    else (oldIndex, newIndex)

/-- The fuel is enough: the loop ends because its condition fails. -/
theorem shiftOdd_done (fuel oldIndex newIndex : ℕ) (h : oldIndex ≤ fuel) :
    (shiftOdd fuel oldIndex newIndex).1 % 2 = 0 := by
  induction fuel generalizing oldIndex newIndex with
  | zero =>
    have h0 : oldIndex = 0 := by omega
    simp [shiftOdd, h0]
  | succ fuel ih =>
    rw [shiftOdd]
    by_cases hodd : oldIndex % 2 = 1
    · rw [if_pos hodd]
      exact ih _ _ (by omega)
    · rw [if_neg hodd]
      simpa using hodd

theorem shiftEven_done (fuel oldIndex newIndex : ℕ) (h : oldIndex ≤ fuel) :
    (shiftEven fuel oldIndex newIndex).1 = 0 ∨ (shiftEven fuel oldIndex newIndex).1 % 2 = 1 := by
  induction fuel generalizing oldIndex newIndex with
  | zero =>
    left
    simpa [shiftEven] using h
  | succ fuel ih =>
    rw [shiftEven]
    by_cases heven : oldIndex ≠ 0 ∧ oldIndex % 2 = 0
    · rw [if_pos heven]
      exact ih _ _ (by omega)
    · rw [if_neg heven]
      dsimp only
      omega

/-! ## The verifier -/

namespace Sha256

variable {Entry Digest : Type} (H : Sha256 Entry Digest)

/-- The loop over the proof from `cursor` on. It returns the final `newIndex`, `oldHash` and `newHash`,
or `none` for the `return false` when nodes are left at `newIndex = 0`. -/
def consistencyLoop (oldIndex newIndex : ℕ) (oldHash newHash : Digest) :
    List Digest → Option (ℕ × Digest × Digest)
  | [] => some (newIndex, oldHash, newHash)
  | node :: rest =>
    if newIndex = 0 then none
    else if oldIndex % 2 = 1 ∨ oldIndex = newIndex then
      let (oldIndex, newIndex) := shiftEven oldIndex oldIndex newIndex
      consistencyLoop (oldIndex / 2) (newIndex / 2) (H.nodeHash node oldHash)
        (H.nodeHash node newHash) rest
    else consistencyLoop (oldIndex / 2) (newIndex / 2) oldHash (H.nodeHash newHash node) rest

variable [DecidableEq Digest]

/-- `newIndex === 0 && equalBytes(oldHash, fromRoot) && equalBytes(newHash, toRoot)`. -/
def consistencyResult (fromRoot toRoot : Digest) : Option (ℕ × Digest × Digest) → Bool
  | none => false
  | some (newIndex, oldHash, newHash) => newIndex = 0 && oldHash = fromRoot && newHash = toRoot

def verifyC2spConsistencyProof (fromSize toSize : ℕ) (fromRoot toRoot : Digest)
    (proof : List Digest) : Bool :=
  if !isSafeInteger fromSize || !isSafeInteger toSize then false
  else if H.byteLength fromRoot ≠ 32 || H.byteLength toRoot ≠ 32 ||
      proof.any fun node => H.byteLength node ≠ 32 then false
  else if fromSize = 0 then
    proof.length = 0 && fromRoot = H.merkleRootFromEntries [] && (toSize ≠ 0 || fromRoot = toRoot)
  else if fromSize = toSize then proof.length = 0 && fromRoot = toRoot
  else if toSize < fromSize then false
  else
    let (oldIndex, newIndex) := shiftOdd (fromSize - 1) (fromSize - 1) (toSize - 1)
    if oldIndex = 0 then
      consistencyResult fromRoot toRoot (H.consistencyLoop oldIndex newIndex fromRoot fromRoot proof)
    else
      match proof with
      | [] => false
      | start :: rest =>
        consistencyResult fromRoot toRoot (H.consistencyLoop oldIndex newIndex start start rest)

end Sha256

/-! ## Soundness -/

section Sound
variable {Entry Digest : Type} {H : Sha256 Entry Digest}

/-- The new hash climbs over all nodes, the old hash over those on its left. -/
theorem consistencyLoop_climb (proof : List Digest) (oldIndex newIndex : ℕ) (oldHash newHash : Digest)
    (n : ℕ) (old new : Digest)
    (h : H.consistencyLoop oldIndex newIndex oldHash newHash proof = some (n, old, new)) :
    ∃ steps : List (Side × Digest), steps.map Prod.snd = proof ∧
      old = climb H.nodeHash oldHash (onlyLeft steps) ∧ new = climb H.nodeHash newHash steps := by
  induction proof generalizing oldIndex newIndex oldHash newHash with
  | nil =>
    simp only [Sha256.consistencyLoop, Option.some.injEq, Prod.mk.injEq] at h
    obtain ⟨_, rfl, rfl⟩ := h
    exact ⟨[], rfl, rfl, rfl⟩
  | cons node rest ih =>
    rw [Sha256.consistencyLoop] at h
    split at h
    · cases h
    · split at h
      · obtain ⟨steps, hsteps, rfl, rfl⟩ := ih _ _ _ _ h
        exact ⟨(.left, node) :: steps, by simp [hsteps], by simp [onlyLeft, climbStep],
          by simp [climbStep]⟩
      · obtain ⟨steps, hsteps, rfl, rfl⟩ := ih _ _ _ _ h
        exact ⟨(.right, node) :: steps, by simp [hsteps], by simp [onlyLeft],
          by simp [climbStep]⟩

/-- Two climbs from one start, the first over the left siblings only, end in the roots of a list and
of an extension of it. -/
theorem prefix_of_climb (hH : H.Ideal) (old new : List Entry) (hold : old ≠ []) (hnew : new ≠ [])
    (start : Digest) (steps : List (Side × Digest))
    (ho : climb H.nodeHash start (onlyLeft steps) = H.merkleRootFromEntries old)
    (hn : climb H.nodeHash start steps = H.merkleRootFromEntries new) : old <+: new := by
  obtain ⟨told, _, holdLeaves, holdRoot⟩ := H.exists_tree old hold
  obtain ⟨tnew, _, hnewLeaves, hnewRoot⟩ := H.exists_tree new hnew
  obtain ⟨u, path, htnew, hstart, hsteps⟩ := climb_eq_eval hH _ _ tnew (hn.trans hnewRoot)
  have hleft : onlyLeft steps = mapSteps H.eval (onlyLeft path) := by
    rw [hsteps]
    simp only [onlyLeft, mapSteps, List.filter_map]
    rfl
  have htold : climb .node u (onlyLeft path) = told := by
    refine eval_injective hH (Eq.trans ?_ (ho.trans holdRoot))
    rw [hleft, hstart]
    exact climb_map H.nodeHash .node H.eval (fun _ _ => rfl) u (onlyLeft path)
  rw [← holdLeaves, ← hnewLeaves, ← htold, htnew]
  exact leaves_onlyLeft_prefix u path

variable [DecidableEq Digest]

theorem consistencyResult_prefix (hH : H.Ideal) (old new : List Entry) (hold : old ≠ [])
    (hnew : new ≠ []) (oldIndex newIndex : ℕ) (start : Digest) (proof : List Digest)
    (h : Sha256.consistencyResult (H.merkleRootFromEntries old) (H.merkleRootFromEntries new)
      (H.consistencyLoop oldIndex newIndex start start proof) = true) : old <+: new := by
  cases hloop : H.consistencyLoop oldIndex newIndex start start proof with
  | none =>
    rw [hloop] at h
    cases h
  | some r =>
    obtain ⟨n, oldHash, newHash⟩ := r
    rw [hloop] at h
    simp only [Sha256.consistencyResult, Bool.and_eq_true, decide_eq_true_eq] at h
    obtain ⟨⟨_, ho⟩, hn⟩ := h
    obtain ⟨steps, _, hold', hnew'⟩ := consistencyLoop_climb _ _ _ _ _ _ _ _ hloop
    exact prefix_of_climb hH old new hold hnew start steps (hold'.symm.trans ho) (hnew'.symm.trans hn)

/-- An accepted consistency proof between the roots of two lists makes the first a prefix of the
second. -/
theorem prefix_of_verifyConsistency (hH : H.Ideal) (old new : List Entry) (proof : List Digest)
    (h : H.verifyC2spConsistencyProof old.length new.length (H.merkleRootFromEntries old)
      (H.merkleRootFromEntries new) proof = true) : old <+: new := by
  unfold Sha256.verifyC2spConsistencyProof at h
  split at h
  · cases h
  split at h
  · cases h
  split at h
  case isTrue h0 =>
    rw [List.eq_nil_of_length_eq_zero h0]
    exact List.nil_prefix
  case isFalse h0 =>
    have hold : old ≠ [] := by
      rintro rfl
      exact h0 rfl
    split at h
    case isTrue heq =>
      have hroots : H.merkleRootFromEntries old = H.merkleRootFromEntries new := by
        simp only [Bool.and_eq_true, decide_eq_true_eq] at h
        exact h.2
      obtain rfl := Sha256.merkleRoot_inj_length hH heq hroots
      exact List.prefix_rfl
    case isFalse hne =>
      split at h
      · cases h
      · have hnew : new ≠ [] := by
          rintro rfl
          simp only [List.length_nil] at *
          omega
        -- Whether the climb starts at the old root or at the first node makes no difference.
        dsimp only at h
        split at h
        · exact consistencyResult_prefix hH old new hold hnew _ _ _ _ h
        · split at h
          · cases h
          · exact consistencyResult_prefix hH old new hold hnew _ _ _ _ h

/-- **Consistency proofs are sound**: for lists of any sizes and any proof, the old entries are the
prefix of the new ones of the old length. -/
theorem verifyC2spConsistencyProof_sound (hH : H.Ideal) (old new : List Entry)
    (proof : List Digest)
    (h : H.verifyC2spConsistencyProof old.length new.length (H.merkleRootFromEntries old)
      (H.merkleRootFromEntries new) proof = true) : old = new.take old.length :=
  List.prefix_iff_eq_take.mp (prefix_of_verifyConsistency hH old new proof h)

end Sound

def sampleEntries (n : ℕ) : List (List UInt8) := (List.range n).map fun i => [UInt8.ofNat i]

/-- The RFC 6962 proof from three to seven entries. -/
def sampleProof : List (IdealDigest (List UInt8)) :=
  [.leaf [2], .leaf [3], .node (.leaf [0]) (.leaf [1]),
    .node (.node (.leaf [4]) (.leaf [5])) (.leaf [6])]

theorem verifyC2spConsistencyProof_three_seven :
    (idealSha256 (List UInt8)).verifyC2spConsistencyProof 3 7
        ((idealSha256 (List UInt8)).merkleRootFromEntries (sampleEntries 3))
        ((idealSha256 (List UInt8)).merkleRootFromEntries (sampleEntries 7)) sampleProof = true ∧
      sampleEntries 3 = (sampleEntries 7).take 3 :=
  ⟨by decide, verifyC2spConsistencyProof_sound (idealSha256_ideal _) (sampleEntries 3)
    (sampleEntries 7) sampleProof (by decide)⟩

end Dnsid.Merkle

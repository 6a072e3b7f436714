import Dnsid.Foundations.AuditSplit
import Dnsid.Merkle.Inclusion

/-! # The tree hash and the audit paths of RFC 6962

RFC 6962 splits a list of `n > 1` entries after the largest power of two smaller than `n`. The level-by-level root is
its tree hash, and the verifier of `merkle.ts` accepts its audit paths.
-/
namespace Dnsid.Merkle
open Dnsid.Foundations
set_option autoImplicit false

/-- The largest power of two smaller than `n`, for `n > 1`. -/
def splitSize (n : ℕ) : ℕ := 2 ^ (n - 1).log2

theorem splitSize_spec {n : ℕ} (h : 1 < n) : splitSize n < n ∧ n ≤ 2 * splitSize n := by
  have hle : 2 ^ (n - 1).log2 ≤ n - 1 := Nat.log2_self_le (by omega)
  have hlt : n - 1 < 2 ^ ((n - 1).log2 + 1) := Nat.lt_log2_self
  have hpow : 2 ^ ((n - 1).log2 + 1) = 2 * 2 ^ (n - 1).log2 := by ring
  unfold splitSize
  omega

theorem splitSize_pos (n : ℕ) : 0 < splitSize n := Nat.two_pow_pos _

section Halves
variable {Entry : Type} {entries : List Entry}

theorem length_firstHalf (h : 1 < entries.length) :
    (entries.take (splitSize entries.length)).length = splitSize entries.length := by
  have := (splitSize_spec h).1
  rw [List.length_take]
  omega

theorem length_secondHalf :
    (entries.drop (splitSize entries.length)).length = entries.length - splitSize entries.length := List.length_drop

end Halves

namespace Sha256
variable {Entry Digest : Type} (H : Sha256 Entry Digest)

/-- The Merkle Tree Hash of RFC 6962, section 2.1. -/
def treeHash (entries : List Entry) : Digest :=
  if _h : 1 < entries.length then
    H.nodeHash (treeHash (entries.take (splitSize entries.length)))
      (treeHash (entries.drop (splitSize entries.length)))
  else
    match entries with
    | [] => H.sha256 .none
    | entry :: _ => H.leafHash entry
termination_by entries.length
decreasing_by
  · rw [length_firstHalf _h]
    exact (splitSize_spec _h).1
  · rw [length_secondHalf]
    have := splitSize_pos entries.length
    omega

/-- The root of two halves. -/
theorem merkleRoot_split {entries : List Entry} (h : 1 < entries.length) :
    H.merkleRootFromEntries entries = H.nodeHash
      (H.merkleRootFromEntries (entries.take (splitSize entries.length)))
      (H.merkleRootFromEntries (entries.drop (splitSize entries.length))) := by
  have hsplit := splitSize_spec h
  have hne : entries.drop (splitSize entries.length) ≠ [] := List.ne_nil_of_length_pos (by
    rw [length_secondHalf]
    omega)
  rw [← H.merkleRoot_append _ _ _ (length_firstHalf h) (by rw [length_secondHalf]; unfold splitSize at *; omega) hne,
    List.take_append_drop]

/-- **The level-by-level root is the Merkle Tree Hash.** -/
theorem merkleRootFromEntries_eq_treeHash (entries : List Entry) :
    H.merkleRootFromEntries entries = H.treeHash entries := by
  induction hn : entries.length using Nat.strong_induction_on generalizing entries with
  | _ n ih =>
    rw [treeHash]
    by_cases h : 1 < entries.length
    · have hsplit := splitSize_spec h
      have hpos := splitSize_pos entries.length
      rw [dif_pos h, H.merkleRoot_split h, ih _ ?_ _ rfl, ih _ ?_ _ rfl]
      · rw [length_secondHalf]
        omega
      · rw [length_firstHalf h]
        omega
    · rw [dif_neg h]
      match entries, h with
      | [], _ => rfl
      | [entry], _ => rfl
      | _ :: _ :: _, h => simp at h

/-! ## Audit paths -/

/-- `PATH(m, D[n])` of RFC 6962, section 2.1.1. -/
def auditPath (m : ℕ) (entries : List Entry) : List Digest :=
  if _h : 1 < entries.length then
    if m < splitSize entries.length then
      auditPath m (entries.take (splitSize entries.length)) ++
        [H.treeHash (entries.drop (splitSize entries.length))]
    else
      auditPath (m - splitSize entries.length) (entries.drop (splitSize entries.length)) ++
        [H.treeHash (entries.take (splitSize entries.length))]
  else []
termination_by entries.length
decreasing_by
  · rw [length_firstHalf _h]
    exact (splitSize_spec _h).1
  · rw [length_secondHalf]
    have := splitSize_pos entries.length
    omega

/-- The path is what a position meets when the levels are paired. -/
theorem auditPath_eq_auditSteps (m : ℕ) (entries : List Entry) (hm : m < entries.length) :
    H.auditPath m entries = (auditSteps H.nodeHash (entries.map H.leafHash) m).map Prod.snd := by
  induction hn : entries.length using Nat.strong_induction_on generalizing m entries with
  | _ n ih =>
    subst hn
    rw [auditPath]
    by_cases h : 1 < entries.length
    · have hsplit := splitSize_spec h
      have hpos := splitSize_pos entries.length
      have hfirst := length_firstHalf h
      have hsecond : (entries.drop (splitSize entries.length)).length = entries.length - splitSize entries.length :=
        length_secondHalf
      have hparts : entries.map H.leafHash = (entries.take (splitSize entries.length)).map H.leafHash ++
          (entries.drop (splitSize entries.length)).map H.leafHash := by
        rw [← List.map_append, List.take_append_drop]
      have hroot : ∀ part : List Entry, 0 < part.length →
          levelRoot H.nodeHash (part.map H.leafHash) = some (H.treeHash part) := by
        intro part hpart
        rw [← H.merkleRootFromEntries_eq_treeHash]
        exact H.levelRoot_entries part (List.ne_nil_of_length_pos hpart)
      have hle : ((entries.drop (splitSize entries.length)).map H.leafHash).length ≤
          2 ^ (entries.length - 1).log2 := by
        rw [List.length_map, hsecond]
        unfold splitSize at *
        omega
      rw [dif_pos h, hparts]
      by_cases hleft : m < splitSize entries.length
      · rw [if_pos hleft, ih _ (by omega) m _ (by omega) rfl,
          auditSteps_append_left (entries.length - 1).log2 _ _ _ m (by rw [List.length_map, hfirst]; rfl) hle
            (hroot _ (by omega)) (by rw [List.length_map]; omega)]
        simp
      · have hright : auditSteps H.nodeHash _ _ = _ := auditSteps_append_right (entries.length - 1).log2 _ _ _
          (m - splitSize entries.length) (by rw [List.length_map, hfirst]; rfl) hle (hroot _ (by omega))
          (by rw [List.length_map]; omega)
        have hindex : ((entries.take (splitSize entries.length)).map H.leafHash).length +
            (m - splitSize entries.length) = m := by
          rw [List.length_map]
          omega
        rw [hindex] at hright
        rw [if_neg hleft, ih _ (by omega) (m - splitSize entries.length) _ (by omega) rfl, hright]
        simp
    · rw [dif_neg h, auditSteps]
      simp [h]

variable {H} [DecidableEq Digest]

/-- **Audit paths are accepted**, at every index of a list of any length. -/
theorem verifyInclusion_auditPath (D : List Entry) (hsafe : isSafeInteger D.length = true) (i : ℕ)
    (hi : i < D.length) :
    H.verifyInclusion D[i] i D.length (H.merkleRootFromEntries D) (H.auditPath i D) = .ok true := by
  rw [verifyInclusion_true_iff _ _ _ _ _ hsafe hi, H.auditPath_eq_auditSteps i D hi, List.length_map]
  have hlen : i < (D.map H.leafHash).length := by simpa using hi
  have hsides := sides_auditSteps H.nodeHash (D.map H.leafHash) i hlen
  rw [List.length_map] at hsides
  have hwalk : walkSides D.length i (auditSteps H.nodeHash (D.map H.leafHash) i).length =
      sides (auditSteps H.nodeHash (D.map H.leafHash) i) := by
    have hcount := congrArg List.length hsides
    rw [sides, List.length_map] at hcount
    rw [hcount, walkSides_auditSides D.length i hi, hsides]
  have hzip : (sides (auditSteps H.nodeHash (D.map H.leafHash) i)).zip
      ((auditSteps H.nodeHash (D.map H.leafHash) i).map Prod.snd) = auditSteps H.nodeHash (D.map H.leafHash) i := by
    rw [sides, List.zip_map']
    simp
  rw [hwalk, hzip]
  exact climb_auditSteps H.nodeHash (D.map H.leafHash) i _ _ (by simp [hi])
    (H.levelRoot_entries D (List.ne_nil_of_length_pos (by omega)))

theorem verifyInclusion_auditPath_three :
    2 < threeEntries.length ∧ (idealSha256 (List UInt8)).verifyInclusion threeEntries[2] 2 3
      ((idealSha256 (List UInt8)).merkleRootFromEntries threeEntries)
      ((idealSha256 (List UInt8)).auditPath 2 threeEntries) = .ok true :=
  ⟨by decide, verifyInclusion_auditPath threeEntries (by decide) 2 (by decide)⟩

end Sha256

end Dnsid.Merkle

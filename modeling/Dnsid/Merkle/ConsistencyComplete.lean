import Dnsid.Merkle.Consistency
import Dnsid.Merkle.Rfc6962

/-! # Consistency proofs of RFC 6962 are accepted

The generator recurses from the top and leaves out the old root when the old tree is a complete subtree of the new
one. The verifier first skips the levels below the frontier of the last old entry and then reads one node for every
sibling above it. `subproof_steps` says what the generator lists, `consistencyLoop_sides` what the loop computes
from a list of that shape.
-/
namespace Dnsid.Merkle
open Dnsid.Foundations
set_option autoImplicit false

/-! ## The index loops -/

/-- The first loop stops at the frontier. -/
theorem shiftOdd_frontier (fuel oldIndex newIndex : ℕ) (hfuel : oldIndex ≤ fuel) (hle : oldIndex ≤ newIndex) :
    (shiftOdd fuel oldIndex newIndex).1 = frontierIndex oldIndex ∧
    (shiftOdd fuel oldIndex newIndex).1 ≤ (shiftOdd fuel oldIndex newIndex).2 ∧
    frontierSides (newIndex + 1) oldIndex =
      auditSides ((shiftOdd fuel oldIndex newIndex).2 + 1) (shiftOdd fuel oldIndex newIndex).1 := by
  induction fuel generalizing oldIndex newIndex with
  | zero =>
    have heven : oldIndex % 2 = 0 := by omega
    rw [shiftOdd, frontierIndex_even heven, frontierSides_even _ heven]
    exact ⟨rfl, hle, rfl⟩
  | succ fuel ih =>
    rw [shiftOdd]
    by_cases hodd : oldIndex % 2 = 1
    · have hsize : (newIndex + 1 + 1) / 2 = newIndex / 2 + 1 := by omega
      rw [if_pos hodd, frontierIndex_odd hodd, frontierSides_odd _ hodd, hsize]
      exact ih _ _ (by omega) (by omega)
    · have heven : oldIndex % 2 = 0 := by omega
      rw [if_neg hodd, frontierIndex_even heven, frontierSides_even _ heven]
      exact ⟨rfl, hle, rfl⟩

/-- Any fuel from the old index on gives the same result. -/
theorem shiftEven_fuel (fuel fuel' oldIndex newIndex : ℕ) (h : oldIndex ≤ fuel) (h' : oldIndex ≤ fuel') :
    shiftEven fuel oldIndex newIndex = shiftEven fuel' oldIndex newIndex := by
  induction fuel generalizing fuel' oldIndex newIndex with
  | zero =>
    obtain rfl : oldIndex = 0 := by omega
    cases fuel' <;> simp [shiftEven]
  | succ fuel ih =>
    by_cases heven : oldIndex ≠ 0 ∧ oldIndex % 2 = 0
    · cases fuel' with
      | zero => omega
      | succ fuel' =>
        rw [shiftEven, shiftEven, if_pos heven, if_pos heven]
        exact ih _ _ _ (by omega) (by omega)
    · cases fuel' with
      | zero => rw [shiftEven, shiftEven, if_neg heven]
      | succ fuel' => rw [shiftEven, shiftEven, if_neg heven, if_neg heven]

theorem shiftEven_odd {oldIndex : ℕ} (h : oldIndex % 2 = 1) (fuel newIndex : ℕ) :
    shiftEven fuel oldIndex newIndex = (oldIndex, newIndex) := by
  cases fuel with
  | zero => rfl
  | succ fuel => rw [shiftEven, if_neg (by omega)]

namespace Sha256
variable {Entry Digest : Type} (H : Sha256 Entry Digest)

/-! ## The loop over the proof -/

/-- A promoted last node reads nothing on its level. -/
theorem consistencyLoop_promoted {index : ℕ} (hpos : index ≠ 0) (heven : index % 2 = 0) (oldHash newHash node : Digest)
    (rest : List Digest) :
    H.consistencyLoop index index oldHash newHash (node :: rest) =
      H.consistencyLoop (index / 2) (index / 2) oldHash newHash (node :: rest) := by
  have hshift : shiftEven index index index = shiftEven (index / 2) (index / 2) (index / 2) := by
    rw [shiftEven_fuel index (index - 1 + 1) index index (by omega) (by omega), shiftEven, if_pos ⟨hpos, heven⟩]
    exact shiftEven_fuel _ _ _ _ (by omega) (by omega)
  have hhalf : index / 2 ≠ 0 := by omega
  rw [consistencyLoop, consistencyLoop, if_neg hpos, if_neg hhalf, if_pos (Or.inr rfl), if_pos (Or.inr rfl), hshift]

/-- On one node for every sibling of the old position, the loop climbs to the end. -/
theorem consistencyLoop_sides (newIndex oldIndex : ℕ) (oldHash newHash : Digest) (steps : List (Side × Digest))
    (hle : oldIndex ≤ newIndex) (hsides : sides steps = auditSides (newIndex + 1) oldIndex) :
    H.consistencyLoop oldIndex newIndex oldHash newHash (steps.map Prod.snd) =
      some (0, climb H.nodeHash oldHash (onlyLeft steps), climb H.nodeHash newHash steps) := by
  induction newIndex using Nat.strong_induction_on generalizing oldIndex oldHash newHash steps with
  | _ newIndex ih =>
    rw [auditSides] at hsides
    by_cases hnew : newIndex = 0
    · subst hnew
      rw [if_neg (by omega)] at hsides
      obtain rfl : steps = [] := by simpa [sides] using hsides
      rfl
    · have hsize : (newIndex + 1 + 1) / 2 = newIndex / 2 + 1 := by omega
      rw [if_pos (by omega), hsize] at hsides
      by_cases hodd : oldIndex % 2 = 1
      · -- A left sibling goes into both hashes.
        rw [siblingSide, if_pos hodd] at hsides
        cases steps with
        | nil => simp [sides] at hsides
        | cons step steps =>
          obtain ⟨side, node⟩ := step
          simp only [sides, List.map_cons, Option.toList_some, List.singleton_append, List.cons.injEq] at hsides
          obtain ⟨rfl, hrest⟩ := hsides
          rw [List.map_cons, consistencyLoop, if_neg hnew, if_pos (Or.inl hodd), shiftEven_odd hodd]
          exact ih (newIndex / 2) (by omega) (oldIndex / 2) _ _ steps (by omega) hrest
      · by_cases hlt : oldIndex < newIndex
        · -- A right sibling goes into the new hash.
          rw [siblingSide, if_neg hodd, if_pos (by omega)] at hsides
          cases steps with
          | nil => simp [sides] at hsides
          | cons step steps =>
            obtain ⟨side, node⟩ := step
            simp only [sides, List.map_cons, Option.toList_some, List.singleton_append, List.cons.injEq] at hsides
            obtain ⟨rfl, hrest⟩ := hsides
            rw [List.map_cons, consistencyLoop, if_neg hnew, if_neg (by omega)]
            exact ih (newIndex / 2) (by omega) (oldIndex / 2) _ _ steps (by omega) hrest
        · obtain rfl : oldIndex = newIndex := by omega
          rw [siblingSide, if_neg hodd, if_neg (by omega)] at hsides
          have hhalf := ih (oldIndex / 2) (by omega) (oldIndex / 2) oldHash newHash steps (le_refl _) hsides
          cases steps with
          | nil =>
            simp only [List.map_nil, consistencyLoop, Option.some.injEq, Prod.mk.injEq] at hhalf
            omega
          | cons step steps =>
            rw [List.map_cons] at hhalf ⊢
            rw [H.consistencyLoop_promoted hnew (by omega)]
            exact hhalf

/-! ## The generator -/

/-- `SUBPROOF(m, D[n], b)` of RFC 6962, section 2.1.2. -/
def subproof (m : ℕ) (entries : List Entry) (complete : Bool) : List Digest :=
  if m = entries.length then if complete then [] else [H.treeHash entries]
  else if _h : 1 < entries.length then
    if m ≤ splitSize entries.length then
      subproof m (entries.take (splitSize entries.length)) complete ++
        [H.treeHash (entries.drop (splitSize entries.length))]
    else
      subproof (m - splitSize entries.length) (entries.drop (splitSize entries.length)) false ++
        [H.treeHash (entries.take (splitSize entries.length))]
  else []
termination_by entries.length
decreasing_by
  · rw [length_firstHalf _h]
    exact (splitSize_spec _h).1
  · rw [length_secondHalf]
    have := splitSize_pos entries.length
    omega

/-- `PROOF(m, D[n])` of RFC 6962, section 2.1.2. -/
def consistencyProof (m : ℕ) (entries : List Entry) : List Digest := H.subproof m entries true

theorem onlyLeft_concat_left (steps : List (Side × Digest)) (d : Digest) :
    onlyLeft (steps ++ [(.left, d)]) = onlyLeft steps ++ [(.left, d)] := by
  simp [onlyLeft]

theorem onlyLeft_concat_right (steps : List (Side × Digest)) (d : Digest) :
    onlyLeft (steps ++ [(.right, d)]) = onlyLeft steps := by
  simp [onlyLeft]

/-- The proof as a start and a climb. The start is left out when it is the old root itself. -/
structure SubproofSteps (m : ℕ) (entries : List Entry) (start : Digest) (steps : List (Side × Digest)) : Prop where
  nodes : ∀ complete : Bool, H.subproof m entries complete =
    (if complete = true ∧ frontierIndex (m - 1) = 0 then [] else [start]) ++ steps.map Prod.snd
  siblings : sides steps = frontierSides entries.length (m - 1)
  newRoot : climb H.nodeHash start steps = H.merkleRootFromEntries entries
  oldRoot : climb H.nodeHash start (onlyLeft steps) = H.merkleRootFromEntries (entries.take m)
  whole : frontierIndex (m - 1) = 0 → start = H.merkleRootFromEntries (entries.take m)

/-- A complete tree is its own frontier. -/
theorem subproofSteps_complete {entries : List Entry} {e : ℕ} (h : entries.length = 2 ^ e) :
    H.SubproofSteps entries.length entries (H.merkleRootFromEntries entries) [] where
  nodes := by
    intro complete
    rw [subproof, if_pos rfl, h, (frontier_complete e).1, H.merkleRootFromEntries_eq_treeHash]
    cases complete <;> simp
  siblings := by
    rw [h, (frontier_complete e).2]
    rfl
  newRoot := rfl
  oldRoot := by
    rw [List.take_length]
    rfl
  whole := by
    intro _
    rw [List.take_length]

section Halves
variable {H} {m : ℕ} {entries : List Entry} {start : Digest} {steps : List (Side × Digest)}

/-- The last old entry lies in the first half. -/
theorem SubproofSteps.first (hn : 1 < entries.length) (hpos : 0 < m) (hm : m ≤ splitSize entries.length)
    (h : H.SubproofSteps m (entries.take (splitSize entries.length)) start steps) :
    H.SubproofSteps m entries start
      (steps ++ [(.right, H.merkleRootFromEntries (entries.drop (splitSize entries.length)))]) := by
  have hsplit := splitSize_spec hn
  have hfirst := length_firstHalf hn
  have htake : (entries.take (splitSize entries.length)).take m = entries.take m := by
    rw [List.take_take, Nat.min_eq_left hm]
  refine ⟨?_, ?_, ?_, ?_, ?_⟩
  · intro complete
    rw [subproof, if_neg (by omega), dif_pos hn, if_pos hm, h.nodes, H.merkleRootFromEntries_eq_treeHash]
    simp
  · have hlen : entries.length = 2 ^ (entries.length - 1).log2 + (entries.length - splitSize entries.length) := by
      unfold splitSize at *
      omega
    rw [hlen, frontierSides_append_left _ (by omega) (by unfold splitSize at *; omega)
      (by unfold splitSize at *; omega), ← splitSize, ← hfirst, ← h.siblings]
    simp [sides]
  · rw [climb_concat, h.newRoot, H.merkleRoot_split hn]
    rfl
  · rw [onlyLeft_concat_right, ← htake, ← h.oldRoot]
  · intro hzero
    rw [h.whole hzero, htake]

/-- It lies in the second half, and not at its end. -/
theorem SubproofSteps.second (hn : 1 < entries.length) (hlt : splitSize entries.length < m) (hm : m < entries.length)
    (h : H.SubproofSteps (m - splitSize entries.length) (entries.drop (splitSize entries.length)) start steps) :
    H.SubproofSteps m entries start
      (steps ++ [(.left, H.merkleRootFromEntries (entries.take (splitSize entries.length)))]) := by
  have hsplit := splitSize_spec hn
  have hfirst := length_firstHalf hn
  have hsecond : (entries.drop (splitSize entries.length)).length = entries.length - splitSize entries.length :=
    length_secondHalf
  have hfrontier := frontier_append_right (entries.length - 1).log2
    (n := entries.length - splitSize entries.length) (i := m - splitSize entries.length - 1)
    (by unfold splitSize at *; omega) (by omega)
  have hindex : 2 ^ (entries.length - 1).log2 + (m - splitSize entries.length - 1) = m - 1 := by
    unfold splitSize at *
    omega
  have hlen : 2 ^ (entries.length - 1).log2 + (entries.length - splitSize entries.length) = entries.length := by
    unfold splitSize at *
    omega
  rw [hindex, hlen] at hfrontier
  refine ⟨?_, ?_, ?_, ?_, fun hzero => absurd hzero hfrontier.1⟩
  · intro complete
    rw [subproof, if_neg (by omega), dif_pos hn, if_neg (by omega), h.nodes, H.merkleRootFromEntries_eq_treeHash]
    simp [hfrontier.1]
  · rw [hfrontier.2, ← hsecond, ← h.siblings]
    simp [sides]
  · rw [climb_concat, h.newRoot, H.merkleRoot_split hn]
    rfl
  · have htake : entries.take m = entries.take (splitSize entries.length) ++
        (entries.drop (splitSize entries.length)).take (m - splitSize entries.length) := by
      rw [← List.take_add, Nat.add_sub_cancel' (by omega)]
    rw [htake, H.merkleRoot_append (entries.length - 1).log2 _ _ (by rw [hfirst]; rfl)
      (by rw [List.length_take]; unfold splitSize at *; omega)
      (List.ne_nil_of_length_pos (by rw [List.length_take]; omega)), ← h.oldRoot]
    rw [onlyLeft_concat_left, climb_concat]
    rfl

end Halves

theorem subproof_steps (m : ℕ) (entries : List Entry) (hpos : 0 < m)
    (hm : m < entries.length ∨ m = entries.length ∧ ∃ e, entries.length = 2 ^ e) :
    ∃ start steps, H.SubproofSteps m entries start steps := by
  induction hn : entries.length using Nat.strong_induction_on generalizing m entries with
  | _ n ih =>
    subst hn
    rcases hm with hm | ⟨rfl, e, he⟩
    · have hlen : 1 < entries.length := by omega
      have hsplit := splitSize_spec hlen
      have hfirst := length_firstHalf hlen
      have hsecond : (entries.drop (splitSize entries.length)).length = entries.length - splitSize entries.length :=
        length_secondHalf
      by_cases hleft : m ≤ splitSize entries.length
      · have hbelow : m < (entries.take (splitSize entries.length)).length ∨
            m = (entries.take (splitSize entries.length)).length ∧
              ∃ e, (entries.take (splitSize entries.length)).length = 2 ^ e := by
          by_cases heq : m = splitSize entries.length
          · exact .inr ⟨by omega, _, hfirst⟩
          · exact .inl (by omega)
        obtain ⟨start, steps, h⟩ := ih _ (by omega) m _ hpos hbelow rfl
        exact ⟨start, _, h.first hlen hpos hleft⟩
      · obtain ⟨start, steps, h⟩ := ih _ (by omega) (m - splitSize entries.length)
          (entries.drop (splitSize entries.length)) (by omega) (.inl (by omega)) rfl
        exact ⟨start, _, h.second hlen (by omega) hm⟩
    · exact ⟨_, _, H.subproofSteps_complete he⟩

/-! ## Completeness -/

/-- Every root is an output of `sha256`. -/
theorem byteLength_treeHash (h32 : H.Digest32) (entries : List Entry) : H.byteLength (H.treeHash entries) = 32 := by
  rw [treeHash]
  split
  · exact h32 _
  · split <;> exact h32 _

theorem byteLength_subproof (h32 : H.Digest32) (m : ℕ) (entries : List Entry) (complete : Bool) :
    ∀ node ∈ H.subproof m entries complete, H.byteLength node = 32 := by
  fun_induction subproof H m entries complete with
  | case1 => simp
  | case2 entries complete hfalse =>
    intro node hnode
    rw [List.mem_singleton.mp hnode]
    exact H.byteLength_treeHash h32 _
  | case3 m entries complete hne hn hle ih =>
    intro node hnode
    rcases List.mem_append.mp hnode with hnode | hnode
    · exact ih node hnode
    · rw [List.mem_singleton.mp hnode]
      exact H.byteLength_treeHash h32 _
  | case4 m entries complete hne hn hle ih =>
    intro node hnode
    rcases List.mem_append.mp hnode with hnode | hnode
    · exact ih node hnode
    · rw [List.mem_singleton.mp hnode]
      exact H.byteLength_treeHash h32 _
  | case5 => simp

variable {H} [DecidableEq Digest]

/-- **Consistency proofs are accepted**, between any size and any larger one. -/
theorem verifyC2spConsistencyProof_complete (h32 : H.Digest32) (D : List Entry)
    (hsafe : isSafeInteger D.length = true) (m : ℕ) (hpos : 0 < m) (hm : m ≤ D.length) :
    H.verifyC2spConsistencyProof m D.length (H.merkleRootFromEntries (D.take m)) (H.merkleRootFromEntries D)
      (H.consistencyProof m D) = true := by
  have hsafe' : isSafeInteger m = true := by
    rw [isSafeInteger, decide_eq_true_eq] at hsafe ⊢
    omega
  have hroot : ∀ entries, H.byteLength (H.merkleRootFromEntries entries) = 32 := by
    intro entries
    rw [H.merkleRootFromEntries_eq_treeHash]
    exact H.byteLength_treeHash h32 entries
  have hnodes : (H.consistencyProof m D).any (fun node => H.byteLength node ≠ 32) = false := by
    rw [List.any_eq_false]
    intro node hnode
    simp [H.byteLength_subproof h32 m D true node hnode]
  rw [verifyC2spConsistencyProof, hsafe, hsafe', hroot, hroot, hnodes, if_neg (by decide), if_neg (by decide),
    if_neg (by omega)]
  by_cases heq : m = D.length
  · have hnil : H.consistencyProof m D = [] := by
      rw [consistencyProof, subproof, if_pos heq]
      rfl
    rw [if_pos heq, hnil, heq, List.take_length]
    simp
  · obtain ⟨start, steps, h⟩ := H.subproof_steps m D hpos (.inl (by omega))
    have hshift := shiftOdd_frontier (m - 1) (m - 1) (D.length - 1) (le_refl _) (by omega)
    rw [Nat.sub_add_cancel (by omega)] at hshift
    obtain ⟨hindex, hle, hsides⟩ := hshift
    have hloop := H.consistencyLoop_sides _ _ start start steps hle (h.siblings.trans hsides)
    rw [h.newRoot, h.oldRoot] at hloop
    rw [if_neg heq, if_neg (by omega), consistencyProof, h.nodes true]
    dsimp only
    by_cases hzero : frontierIndex (m - 1) = 0
    · rw [if_pos (hindex.trans hzero), if_pos ⟨rfl, hzero⟩, List.nil_append, ← h.whole hzero, hloop]
      simp [consistencyResult, h.whole hzero]
    · rw [if_neg (by rw [hindex]; exact hzero), if_neg (fun hc => hzero hc.2), List.singleton_append]
      dsimp only
      rw [hloop]
      simp [consistencyResult]

theorem verifyC2spConsistencyProof_five_seven :
    5 ≤ (sampleEntries 7).length ∧ (idealSha256 (List UInt8)).verifyC2spConsistencyProof 5 7
      ((idealSha256 (List UInt8)).merkleRootFromEntries ((sampleEntries 7).take 5))
      ((idealSha256 (List UInt8)).merkleRootFromEntries (sampleEntries 7))
      ((idealSha256 (List UInt8)).consistencyProof 5 (sampleEntries 7)) = true :=
  ⟨by decide, verifyC2spConsistencyProof_complete (idealSha256_digest32 _) (sampleEntries 7) (by decide) 5 (by decide)
    (by decide)⟩

end Sha256

end Dnsid.Merkle

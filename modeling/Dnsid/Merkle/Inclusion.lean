import Dnsid.Merkle.Hashing

/-! # Inclusion proofs (`inclusionRoot` and `verifyInclusion` of `merkle.ts`)

The loop takes one turn per proof node and never looks at the length of the proof. Its turns are
`walkSides n i k`. They agree with the RFC 6962 audit path of `i` when the proof has the length of that
path (`walkSides_auditSides`), but a shorter proof may follow the turns of another leaf of an uneven
tree. `verifyInclusion_binds_iff` says exactly when this happens.
-/
namespace Dnsid.Merkle
open Dnsid.Foundations
set_option autoImplicit false

namespace Sha256

variable {Entry Digest : Type} (H : Sha256 Entry Digest)

/-- The `for (const sibling of proof)` loop with its variables `hash`, `i` and `n`. -/
def inclusionLoop (hash : Digest) (i n : ℕ) : List Digest → Digest
  | [] => hash
  | sibling :: proof =>
    let next :=
      if i % 2 = 1 then H.nodeHash sibling hash
      else if i < n - 1 then H.nodeHash hash sibling
      else H.nodeHash sibling hash
    inclusionLoop next (i / 2) ((n + 1) / 2) proof

def inclusionRoot (leaf : Digest) (index treeSize : ℕ) (proof : List Digest) :
    Except String Digest :=
  if !isSafeInteger index || !isSafeInteger treeSize || treeSize ≤ index then
    .error "invalid inclusion index or tree size"
  else .ok (H.inclusionLoop leaf index treeSize proof)

def verifyInclusion [DecidableEq Digest] (entryBytes : Entry) (index treeSize : ℕ)
    (rootHash : Digest) (proof : List Digest) : Except String Bool :=
  (H.inclusionRoot (H.leafHash entryBytes) index treeSize proof).map fun root => root = rootHash

end Sha256

/-! ## The turns of the loop -/

/-- The side the loop gives the next sibling. -/
def walkSide (n i : ℕ) : Side :=
  if i % 2 = 1 then .left else if i < n - 1 then .right else .left

/-- The sides of the first `k` siblings. -/
def walkSides (n i : ℕ) : ℕ → List Side
  | 0 => []
  | k + 1 => walkSide n i :: walkSides ((n + 1) / 2) (i / 2) k

@[simp] theorem walkSides_length (n i k : ℕ) : (walkSides n i k).length = k := by
  induction k generalizing n i with
  | zero => rfl
  | succ k ih => simp [walkSides, ih]

theorem inclusionLoop_climb {Entry Digest : Type} (H : Sha256 Entry Digest) (hash : Digest)
    (i n : ℕ) (proof : List Digest) :
    H.inclusionLoop hash i n proof =
      climb H.nodeHash hash ((walkSides n i proof.length).zip proof) := by
  induction proof generalizing hash i n with
  | nil => rfl
  | cons sibling proof ih =>
    simp only [Sha256.inclusionLoop, List.length_cons, walkSides, List.zip_cons_cons, climb_cons, ih]
    congr 1
    unfold walkSide
    split
    · rfl
    · split <;> rfl

/-- At the right edge every turn of the loop takes a left sibling. -/
theorem walkSides_last (n i k : ℕ) (h : i + 1 = n) : walkSides n i k = List.replicate k .left := by
  induction k generalizing n i with
  | zero => rfl
  | succ k ih =>
    have hside : walkSide n i = .left := by
      unfold walkSide
      rw [if_neg (by omega : ¬ i < n - 1)]
      simp
    rw [walkSides, hside, ih _ _ (by omega), List.replicate_succ]

theorem auditSides_last (n i : ℕ) (h : i + 1 = n) :
    auditSides n i = List.replicate (auditSides n i).length .left := by
  induction n using Nat.strong_induction_on generalizing i with
  | _ n ih =>
    rw [auditSides]
    by_cases hn : 1 < n
    · have hrec := ih ((n + 1) / 2) (by omega) (i / 2) (by omega)
      rw [if_pos hn]
      by_cases hodd : i % 2 = 1
      · simp only [siblingSide, if_pos hodd, Option.toList_some, List.singleton_append,
          List.length_cons, List.replicate_succ]
        rw [← hrec]
      · simp only [siblingSide, if_neg hodd, if_neg (by omega : ¬ i + 1 < n), Option.toList_none,
          List.nil_append]
        exact hrec
    · simp [hn]

/-- On as many nodes as the audit path has, the loop takes the turns of the audit path. -/
theorem walkSides_auditSides (n i : ℕ) (hi : i < n) :
    walkSides n i (auditSides n i).length = auditSides n i := by
  induction n using Nat.strong_induction_on generalizing i with
  | _ n ih =>
    by_cases hlast : i + 1 = n
    · rw [walkSides_last n i _ hlast, ← auditSides_last n i hlast]
    · have hrec := ih ((n + 1) / 2) (by omega) (i / 2) (by omega)
      have hstep : auditSides n i = walkSide n i :: auditSides ((n + 1) / 2) (i / 2) := by
        rw [auditSides, if_pos (by omega)]
        unfold siblingSide walkSide
        by_cases hodd : i % 2 = 1
        · simp [hodd]
        · rw [if_neg hodd, if_neg hodd, if_pos (by omega : i + 1 < n), if_pos (by omega : i < n - 1)]
          rfl
      rw [hstep, List.length_cons, walkSides, hrec]

/-- The sides of an audit path identify its leaf. -/
theorem auditSides_injective (n i j : ℕ) (hi : i < n) (hj : j < n)
    (h : auditSides n i = auditSides n j) : i = j := by
  -- The tree over `0, 1, …, n - 1` has leaf `i` at position `i`.
  let ts : List (HashTree ℕ) := (List.range n).map .leaf
  have hlen : ts.length = n := by simp [ts]
  have hleaf : ∀ k, k < n → ts[k]? = some (.leaf k) := by
    intro k hk
    simp [ts, hk]
  obtain ⟨t, ht⟩ := levelRoot_isSome HashTree.node ts (List.ne_nil_of_length_pos (by omega))
  have hci := climb_auditSteps .node ts i _ _ (hleaf i hi) ht
  have hcj := climb_auditSteps .node ts j _ _ (hleaf j hj) ht
  have hs : sides (auditSteps .node ts i) = sides (auditSteps .node ts j) := by
    rw [sides_auditSteps _ _ _ (by omega), sides_auditSteps _ _ _ (by omega), hlen, h]
  exact HashTree.leaf.inj (climb_sides_inj _ _ _ _ hs (hci.trans hcj.symm)).1

/-! ## What an accepted proof binds -/

section Binds
variable {Entry Digest : Type} {H : Sha256 Entry Digest}

/-- The leaf hash and the nodes that the loop hashes. -/
def Sha256.inclusionPreimages (H : Sha256 Entry Digest) (entryBytes : Entry) (index treeSize : ℕ) (proof : List Digest) :
    List (Preimage Entry Digest) :=
  .leaf entryBytes :: climbPreimages H.nodeHash (H.leafHash entryBytes) ((walkSides treeSize index proof.length).zip proof)

/-- The leaf hashes and the nodes of the tree over a list. -/
def Sha256.rootPreimages (H : Sha256 Entry Digest) (entries : List Entry) : List (Preimage Entry Digest) :=
  (levelRoot .node (entries.map .leaf)).elim [] (HashTree.preimages H.leafHash H.nodeHash)

/-- Verifying the proof hashes something else to a digest that the tree over the list has. -/
def Sha256.ProofCollides (H : Sha256 Entry Digest) (entryBytes : Entry) (index : ℕ) (proof : List Digest)
    (entries : List Entry) : Prop :=
  Collide H.leafHash H.nodeHash (H.inclusionPreimages entryBytes index entries.length proof) (H.rootPreimages entries)

/-- An accepted proof is the audit path of a leaf with the turns the loop took, or collides; that leaf,
and not position `i`, is what the proof binds. -/
theorem accepted_leaf_or_collides (D : List Entry) (i : ℕ) (hne : D ≠ []) (entry : Entry) (proof : List Digest)
    (h : climb H.nodeHash (H.leafHash entry) ((walkSides D.length i proof.length).zip proof) =
      H.merkleRootFromEntries D) :
    (∃ j, D[j]? = some entry ∧ auditSides D.length j = walkSides D.length i proof.length) ∨
      H.ProofCollides entry i proof D := by
  obtain ⟨t, ht, _, hroot⟩ := H.exists_tree D hne
  unfold Sha256.ProofCollides Sha256.inclusionPreimages Sha256.rootPreimages
  rw [ht, Option.elim_some]
  refine (climb_leaf_or_collide entry _ t (h.trans hroot)).imp_left ?_
  rintro ⟨path, htu, hsteps⟩
  rw [htu] at ht
  obtain ⟨j, below, hj, hpath⟩ := leaf_path _ entry path ht
  obtain ⟨e, he, hbelow⟩ : ∃ e, D[j]? = some e ∧ .leaf e = climb .node (.leaf entry) below := by
    simpa [List.getElem?_map] using hj
  rcases List.eq_nil_or_concat below with rfl | ⟨below', p, rfl⟩
  · have hee : e = entry := HashTree.leaf.inj hbelow
    subst hee
    have hjlt : j < D.length := (List.getElem?_eq_some_iff.mp he).1
    refine ⟨j, he, ?_⟩
    have hsides := congrArg sides hsteps
    rw [sides_mapSteps, hpath, List.nil_append, sides_auditSteps _ _ _ (by simpa using hjlt),
      List.length_map] at hsides
    rw [← hsides, sides, List.map_fst_zip (by simp)]
  · obtain ⟨side, s⟩ := p
    rw [List.concat_eq_append, climb_concat] at hbelow
    cases side <;> simp [climbStep] at hbelow

theorem accepted_leaf (hH : H.Ideal) (D : List Entry) (i : ℕ) (hne : D ≠ []) (entry : Entry)
    (proof : List Digest)
    (h : climb H.nodeHash (H.leafHash entry) ((walkSides D.length i proof.length).zip proof) =
      H.merkleRootFromEntries D) :
    ∃ j, D[j]? = some entry ∧ auditSides D.length j = walkSides D.length i proof.length :=
  (accepted_leaf_or_collides D i hne entry proof h).resolve_right (hH.not_collide _ _)

/-- The honest proof of leaf `j`, presented for a position `i` whose turns are the same. -/
theorem honest_path (D : List Entry) (j : ℕ) (e : Entry) (he : D[j]? = some e) :
    ∃ proof : List Digest, proof.length = (auditSides D.length j).length ∧
      (∀ d ∈ proof, ∃ c, d = H.sha256 c) ∧
      climb H.nodeHash (H.leafHash e) ((auditSides D.length j).zip proof) =
        H.merkleRootFromEntries D := by
  have hjlt : j < D.length := (List.getElem?_eq_some_iff.mp he).1
  obtain ⟨t, ht, _, hroot⟩ := H.exists_tree D (List.ne_nil_of_length_pos (by omega))
  let path : List (Side × HashTree Entry) := auditSteps HashTree.node (D.map .leaf) j
  have hsides : sides path = auditSides D.length j := by
    simpa using sides_auditSteps HashTree.node (D.map .leaf) j (by simpa using hjlt)
  have hclimb := climb_auditSteps .node (D.map .leaf) j (.leaf e) t (by simp [he]) ht
  refine ⟨path.map fun p => H.eval p.2, ?_, ?_, ?_⟩
  · rw [← hsides]; simp [sides]
  · intro d hd
    obtain ⟨p, _, rfl⟩ := List.mem_map.mp hd
    cases p.2 with
    | leaf a => exact ⟨.entry a, rfl⟩
    | node l r => exact ⟨.pair (H.eval l) (H.eval r), rfl⟩
  · have hzip : (auditSides D.length j).zip (path.map fun p => H.eval p.2) = mapSteps H.eval path := by
      rw [← hsides]
      simp only [sides, List.zip_map', mapSteps]
    rw [hzip, hroot, ← hclimb]
    exact (climb_map H.nodeHash .node H.eval (fun _ _ => rfl) (.leaf e) path).symm

variable [DecidableEq Digest]

theorem verifyInclusion_true_iff (entry : Entry) (i n : ℕ) (root : Digest) (proof : List Digest)
    (hsafe : isSafeInteger n = true) (hi : i < n) :
    H.verifyInclusion entry i n root proof = .ok true ↔
      climb H.nodeHash (H.leafHash entry) ((walkSides n i proof.length).zip proof) = root := by
  have hsafei : isSafeInteger i = true := by
    simp only [isSafeInteger, decide_eq_true_eq] at hsafe ⊢
    omega
  have hni : ¬ n ≤ i := by omega
  simp [Sha256.verifyInclusion, Sha256.inclusionRoot, hsafe, hsafei, hni, Except.map,
    inclusionLoop_climb]

/-- **What inclusion proofs bind.** For a position `i` and a number `k` of 32-byte proof nodes, every
accepted proof binds the entry at `i` exactly when no leaf whose audit path has the `k` turns of the
loop holds another entry. -/
theorem verifyInclusion_binds_iff (hH : H.Ideal) (h32 : H.Digest32) (D : List Entry)
    (hsafe : isSafeInteger D.length = true) (i : ℕ) (hi : i < D.length) (k : ℕ) :
    (∀ (e : Entry) (p : List Digest), p.length = k → (∀ d ∈ p, H.byteLength d = 32) →
        H.verifyInclusion e i D.length (H.merkleRootFromEntries D) p = .ok true → D[i]? = some e) ↔
      ∀ j, j < D.length → auditSides D.length j = walkSides D.length i k → D[j]? = D[i]? := by
  constructor
  · intro h j hj hsides
    obtain ⟨e, he⟩ : ∃ e, D[j]? = some e := ⟨D[j], by simp⟩
    obtain ⟨proof, hlen, hdig, hclimb⟩ := honest_path (H := H) D j e he
    have hk : proof.length = k := by rw [hlen, hsides, walkSides_length]
    rw [he, h e proof hk ?_ ?_]
    · intro d hd
      obtain ⟨c, rfl⟩ := hdig d hd
      exact h32 c
    · rw [verifyInclusion_true_iff _ _ _ _ _ hsafe hi, hk, ← hsides]
      exact hclimb
  · intro h e p hp _ hv
    rw [verifyInclusion_true_iff _ _ _ _ _ hsafe hi] at hv
    obtain ⟨j, hj, hsides⟩ := accepted_leaf hH D i (List.ne_nil_of_length_pos (by omega)) e p hv
    rw [← h j (List.getElem?_eq_some_iff.mp hj).1 (by rw [hsides, hp]), hj]

end Binds

def threeEntries : List (List UInt8) := [[10], [11], [12]]

/-- From position `1` of a three-leaf tree no other leaf has two turns. -/
theorem verifyInclusion_binds_two_nodes :
    (threeEntries ≠ [] ∧ 1 < threeEntries.length) ∧
    ∀ (e : List UInt8) (p : List (IdealDigest (List UInt8))), p.length = 2 →
      (∀ d ∈ p, (idealSha256 (List UInt8)).byteLength d = 32) →
      (idealSha256 (List UInt8)).verifyInclusion e 1 3
        ((idealSha256 (List UInt8)).merkleRootFromEntries threeEntries) p = .ok true →
      threeEntries[1]? = some e := by
  refine ⟨by decide, (verifyInclusion_binds_iff (idealSha256_ideal _) (idealSha256_digest32 _)
    threeEntries (by decide) 1 (by decide) 2).mpr ?_⟩
  intro j hj hsides
  have hlen : threeEntries.length = 3 := rfl
  rw [hlen] at hsides
  match j, hj with
  | 0, _ => simp [auditSides, siblingSide, walkSides, walkSide] at hsides
  | 1, _ => rfl
  | 2, _ => simp [auditSides, siblingSide, walkSides, walkSide] at hsides

/-- With one proof node the entry at position `2` of a three-leaf tree is accepted at position `1`. -/
theorem verifyInclusion_accepts_other_leaf :
    ¬ ∀ (D : List (List UInt8)) (i : ℕ) (e : List UInt8) (p : List (IdealDigest (List UInt8))),
      D ≠ [] → i < D.length → (∀ d ∈ p, (idealSha256 (List UInt8)).byteLength d = 32) →
      (idealSha256 (List UInt8)).verifyInclusion e i D.length
        ((idealSha256 (List UInt8)).merkleRootFromEntries D) p = .ok true →
      D[i]? = some e := by
  intro h
  have hne : ¬ threeEntries[1]? = some [12] := by decide
  exact hne (h threeEntries 1 [12] [.node (.leaf [10]) (.leaf [11])] (by decide) (by decide)
    (fun _ _ => rfl) (by decide))

section Length
variable {Entry Digest : Type} {H : Sha256 Entry Digest} [DecidableEq Digest]

/-- An accepted proof is of an entry of the list, and of the one at its index if it has the length of
the RFC 6962 audit path, or collides. -/
theorem verifyInclusion_mem_or_collides (D : List Entry) (hsafe : isSafeInteger D.length = true) (i : ℕ)
    (hi : i < D.length) (e : Entry) (p : List Digest)
    (hv : H.verifyInclusion e i D.length (H.merkleRootFromEntries D) p = .ok true) :
    (e ∈ D ∧ (p.length = (auditSides D.length i).length → D[i]? = some e)) ∨ H.ProofCollides e i p D := by
  rw [verifyInclusion_true_iff _ _ _ _ _ hsafe hi] at hv
  have hne : D ≠ [] := List.ne_nil_of_length_pos (by omega)
  refine (accepted_leaf_or_collides D i hne e p hv).imp_left ?_
  rintro ⟨j, hj, hsides⟩
  refine ⟨List.mem_of_getElem? hj, fun hp => ?_⟩
  rw [hp, walkSides_auditSides D.length i hi] at hsides
  rwa [auditSides_injective D.length j i (List.getElem?_eq_some_iff.mp hj).1 hi hsides] at hj

end Length

end Dnsid.Merkle

import Dnsid.Foundations.LevelPairing

/-! # RFC 6962 hashing (`log-c2sp-tlog/src/merkle.ts`)

`sha256` of `node:crypto` is a parameter. The code calls it on three kinds of chunk lists only, and
`Chunks` names them. `leafHash`, `nodeHash` and `merkleRootFromEntries` are the functions of the source
over that parameter.

No function from byte strings to 32-byte digests is injective, so the type of digests is a parameter
too and the collision-freeness assumption `Sha256.Ideal` speaks of `leafHash` and `nodeHash`.
`idealSha256` satisfies it.
-/
namespace Dnsid.Merkle
open Dnsid.Foundations
set_option autoImplicit false

/-- The chunk lists that are hashed: `()`, `(0x00, entry)` and `(0x01, left, right)`. -/
inductive Chunks (Entry Digest : Type) where
  | none
  | entry (e : Entry)
  | pair (left right : Digest)

/-- `sha256` and the byte length of a digest. -/
structure Sha256 (Entry Digest : Type) where
  sha256 : Chunks Entry Digest → Digest
  byteLength : Digest → ℕ

/-- `Number.isSafeInteger` on the nonnegative integers. -/
def isSafeInteger (n : ℕ) : Bool := n ≤ 2 ^ 53 - 1

namespace Sha256

variable {Entry Digest : Type} (H : Sha256 Entry Digest)

def leafHash (entryBytes : Entry) : Digest := H.sha256 (.entry entryBytes)

def nodeHash (left right : Digest) : Digest := H.sha256 (.pair left right)

/-- The empty-tree root, or the only node left after pairing the leaf hashes level by level. The
fuel is the number of entries, which bounds the number of levels. -/
def merkleRootFromEntries (entries : List Entry) : Digest :=
  if entries.length = 0 then H.sha256 .none
  else (reduceLevels H.nodeHash entries.length (entries.map H.leafHash)).headD (H.sha256 .none)

/-- Hashes are collision-free: `leafHash` and `nodeHash` are injective with disjoint images. -/
def Ideal : Prop := CollisionFree H.leafHash H.nodeHash

/-- A digest has 32 bytes. -/
def Digest32 : Prop := ∀ c, H.byteLength (H.sha256 c) = 32

/-! ## Roots as trees -/

/-- The digest of a tree over entries. -/
def eval : HashTree Entry → Digest := HashTree.eval H.leafHash H.nodeHash

@[simp] theorem merkleRoot_nil : H.merkleRootFromEntries [] = H.sha256 .none := rfl

theorem merkleRoot_of_levelRoot (entries : List Entry) (r : Digest)
    (h : levelRoot H.nodeHash (entries.map H.leafHash) = some r) :
    H.merkleRootFromEntries entries = r := by
  have hne : entries.length ≠ 0 := by
    intro h0
    rw [List.eq_nil_of_length_eq_zero h0] at h
    simp at h
  rw [levelRoot, List.length_map] at h
  rw [merkleRootFromEntries, if_neg hne, List.headD_eq_head?_getD, h]
  rfl

theorem levelRoot_leafHash (entries : List Entry) (t : HashTree Entry)
    (h : levelRoot .node (entries.map .leaf) = some t) :
    levelRoot H.nodeHash (entries.map H.leafHash) = some (H.eval t) := by
  have hmap := levelRoot_map H.nodeHash .node H.eval (fun _ _ => rfl) (entries.map .leaf)
  rw [h, List.map_map] at hmap
  exact hmap

/-- The tree that the level-by-level construction builds over a nonempty list of entries. -/
theorem exists_tree (entries : List Entry) (hne : entries ≠ []) :
    ∃ t : HashTree Entry, levelRoot .node (entries.map .leaf) = some t ∧ t.leaves = entries ∧
      H.merkleRootFromEntries entries = H.eval t := by
  obtain ⟨t, ht⟩ := levelRoot_isSome HashTree.node (entries.map .leaf) (by simpa using hne)
  refine ⟨t, ht, ?_, H.merkleRoot_of_levelRoot entries _ (H.levelRoot_leafHash entries t ht)⟩
  rw [leaves_levelRoot _ _ ht, List.flatMap_map]
  simp [HashTree.leaves]

theorem levelRoot_entries (entries : List Entry) (hne : entries ≠ []) :
    levelRoot H.nodeHash (entries.map H.leafHash) = some (H.merkleRootFromEntries entries) := by
  obtain ⟨t, ht, _, hroot⟩ := H.exists_tree entries hne
  rw [hroot]
  exact H.levelRoot_leafHash entries t ht

/-- A full block of `2 ^ k` entries followed by at most as many splits the root at the block. -/
theorem merkleRoot_append (k : ℕ) (xs ys : List Entry) (hx : xs.length = 2 ^ k)
    (hy : ys.length ≤ 2 ^ k) (hne : ys ≠ []) :
    H.merkleRootFromEntries (xs ++ ys) =
      H.nodeHash (H.merkleRootFromEntries xs) (H.merkleRootFromEntries ys) := by
  have hxne : xs ≠ [] := List.ne_nil_of_length_pos (by rw [hx]; exact Nat.two_pow_pos k)
  apply H.merkleRoot_of_levelRoot
  rw [List.map_append]
  exact levelRoot_append H.nodeHash k _ _ _ _ (by simpa using hx) (by simpa using hy)
    (H.levelRoot_entries xs hxne) (H.levelRoot_entries ys hne)

@[simp] theorem merkleRoot_singleton (e : Entry) : H.merkleRootFromEntries [e] = H.leafHash e := rfl

variable {H}

/-- Collision-free roots of nonempty lists identify the entries. -/
theorem merkleRoot_inj (hH : H.Ideal) {xs ys : List Entry} (hx : xs ≠ []) (hy : ys ≠ [])
    (h : H.merkleRootFromEntries xs = H.merkleRootFromEntries ys) : xs = ys := by
  obtain ⟨t, _, hxs, hroot⟩ := H.exists_tree xs hx
  obtain ⟨u, _, hys, hroot'⟩ := H.exists_tree ys hy
  rw [hroot, hroot'] at h
  rw [← hxs, ← hys, eval_injective hH h]

/-- Lists of one length with one root are equal, the empty list included. -/
theorem merkleRoot_inj_length (hH : H.Ideal) {xs ys : List Entry} (hlen : xs.length = ys.length)
    (h : H.merkleRootFromEntries xs = H.merkleRootFromEntries ys) : xs = ys := by
  by_cases hx : xs = []
  · subst hx
    exact (List.eq_nil_of_length_eq_zero (by simpa using hlen.symm)).symm
  · refine merkleRoot_inj hH hx ?_ h
    intro hy
    subst hy
    exact hx (List.eq_nil_of_length_eq_zero (by simpa using hlen))

end Sha256

/-! ## An ideal hash -/

/-- Digests that remember what was hashed. -/
inductive IdealDigest (Entry : Type) where
  | empty
  | leaf (e : Entry)
  | node (l r : IdealDigest Entry)
  deriving DecidableEq

def idealSha256 (Entry : Type) : Sha256 Entry (IdealDigest Entry) where
  sha256
    | .none => .empty
    | .entry e => .leaf e
    | .pair l r => .node l r
  byteLength _ := 32

theorem idealSha256_ideal (Entry : Type) : (idealSha256 Entry).Ideal where
  leaf_injective := fun _ _ h => IdealDigest.leaf.inj h
  node_injective := fun _ _ _ _ h => IdealDigest.node.inj h
  disjoint := by
    intro e l r h
    cases h

theorem idealSha256_digest32 (Entry : Type) : (idealSha256 Entry).Digest32 := fun _ => rfl

end Dnsid.Merkle

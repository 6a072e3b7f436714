import Dnsid.Merkle.HashTiles

/-! # Folding tiles

`segmentRoot D i k` is the root of the `k` entries of `D` from position `i` on. `fold` over the roots of
neighbouring blocks of `2 ^ h` entries, with the root of a shorter rest, is the root of the whole
segment (`foldLoop_segments`), and it is injective in everything it folds (`foldLoop_inj`). The first
gives completeness of the tile protocol, the second its soundness.
-/
namespace Dnsid.Merkle
open Dnsid.Foundations
set_option autoImplicit false

/-! ## The shape of `fold` -/

theorem splitLoop_spec (fuel j length : ℕ) (hj : 2 ^ j < length) (hfuel : length ≤ 2 ^ j + fuel) :
    ∃ k, splitLoop fuel (2 ^ j) length = 2 ^ k ∧ 2 ^ k < length ∧ length ≤ 2 ^ k * 2 := by
  induction fuel generalizing j with
  | zero => omega
  | succ fuel ih =>
    rw [splitLoop]
    have hpos : 0 < 2 ^ j := Nat.two_pow_pos j
    by_cases h : 2 ^ j * 2 < length
    · rw [if_pos h]
      have e : 2 ^ j * 2 = 2 ^ (j + 1) := (pow_succ 2 j).symm
      rw [e] at h ⊢
      apply ih (j + 1) h
      rw [pow_succ]
      omega
    · rw [if_neg h]
      exact ⟨j, rfl, hj, by omega⟩

theorem split_spec (length : ℕ) (h : 2 ≤ length) :
    ∃ k, splitLoop length 1 length = 2 ^ k ∧ 2 ^ k < length ∧ length ≤ 2 ^ k * 2 :=
  splitLoop_spec length 0 length (by omega) (by omega)

section Fold
variable {Entry Digest : Type} (H : Sha256 Entry Digest)

theorem foldLoop_two_le (fuel : ℕ) (hashes : List Digest) (suffix : Option Digest)
    (h : 2 ≤ hashes.length) :
    H.foldLoop (fuel + 1) hashes suffix =
      match suffix with
      | some s =>
        if splitLoop hashes.length 1 hashes.length * 2 = hashes.length then
          (H.foldLoop fuel hashes none).bind fun left => some (H.nodeHash left s)
        else
          (H.foldLoop fuel (hashes.take (splitLoop hashes.length 1 hashes.length)) none).bind
            fun left =>
              (H.foldLoop fuel (hashes.drop (splitLoop hashes.length 1 hashes.length)) (some s)).bind
                fun right => some (H.nodeHash left right)
      | none =>
        (H.foldLoop fuel (hashes.take (splitLoop hashes.length 1 hashes.length)) none).bind
          fun left =>
            (H.foldLoop fuel (hashes.drop (splitLoop hashes.length 1 hashes.length)) none).bind
              fun right => some (H.nodeHash left right) := by
  match hashes, h with
  | _ :: _ :: _, _ => cases suffix <;> rfl

variable {H} in
theorem foldLoop_inj (hH : H.Ideal) (fuel : ℕ) (xs ys : List Digest) (s t : Option Digest)
    (v : Digest) (hlen : xs.length = ys.length) (hs : s.isSome = t.isSome)
    (hx : H.foldLoop fuel xs s = some v) (hy : H.foldLoop fuel ys t = some v) : xs = ys ∧ s = t := by
  induction fuel generalizing xs ys s t v with
  | zero => simp [Sha256.foldLoop] at hx
  | succ fuel ih =>
    -- A join of two folds determines both halves.
    have hjoin : ∀ (k : ℕ) (s t : Option Digest), s.isSome = t.isSome →
        ((H.foldLoop fuel (xs.take k) none).bind fun left => (H.foldLoop fuel (xs.drop k) s).bind
          fun right => some (H.nodeHash left right)) = some v →
        ((H.foldLoop fuel (ys.take k) none).bind fun left => (H.foldLoop fuel (ys.drop k) t).bind
          fun right => some (H.nodeHash left right)) = some v → xs = ys ∧ s = t := by
      intro k s t hst hx hy
      obtain ⟨l, hl, r, hr, hv⟩ := by simpa [Option.bind_eq_some_iff] using hx
      obtain ⟨l', hl', r', hr', hv'⟩ := by simpa [Option.bind_eq_some_iff] using hy
      obtain ⟨rfl, rfl⟩ := hH.node_injective _ _ _ _ (hv.trans hv'.symm)
      obtain ⟨htake, -⟩ := ih _ _ _ _ _ (by simp [hlen]) rfl hl hl'
      obtain ⟨hdrop, rfl⟩ := ih _ _ _ _ _ (by simp [hlen]) hst hr hr'
      refine ⟨?_, rfl⟩
      rw [← List.take_append_drop k xs, ← List.take_append_drop k ys, htake, hdrop]
    match xs, ys, hlen with
    | [], _, _ => simp [Sha256.foldLoop] at hx
    | [x], [y], _ =>
      cases s with
      | none =>
        have ht : t = none := by simpa using hs.symm
        subst ht
        simp only [Sha256.foldLoop, Option.some.injEq] at hx hy
        exact ⟨by rw [hx, hy], rfl⟩
      | some s =>
        obtain ⟨t, rfl⟩ := Option.isSome_iff_exists.mp hs.symm
        simp only [Sha256.foldLoop, Option.some.injEq] at hx hy
        obtain ⟨rfl, rfl⟩ := hH.node_injective _ _ _ _ (hx.trans hy.symm)
        exact ⟨rfl, rfl⟩
    | x :: x' :: xs, y :: y' :: ys, hlen =>
      rw [foldLoop_two_le H fuel _ _ (by simp)] at hx hy
      cases s with
      | none =>
        have ht : t = none := by simpa using hs.symm
        subst ht
        rw [← hlen] at hy
        exact hjoin _ _ _ rfl hx hy
      | some s =>
        obtain ⟨t, rfl⟩ := Option.isSome_iff_exists.mp hs.symm
        dsimp only at hx hy
        rw [← hlen] at hy
        split at hx
        · rename_i hsplit
          rw [if_pos hsplit] at hy
          obtain ⟨l, hl, hv⟩ := Option.bind_eq_some_iff.mp hx
          obtain ⟨l', hl', hv'⟩ := Option.bind_eq_some_iff.mp hy
          obtain ⟨rfl, rfl⟩ := hH.node_injective _ _ _ _ (Option.some.inj (hv.trans hv'.symm))
          exact ⟨(ih _ _ _ _ _ hlen rfl hl hl').1, rfl⟩
        · rename_i hsplit
          rw [if_neg hsplit] at hy
          exact hjoin _ _ _ rfl hx hy

variable {H} in
theorem fold_inj (hH : H.Ideal) (xs ys : List Digest) (s t : Option Digest) (v : Digest)
    (hlen : xs.length = ys.length) (hs : s.isSome = t.isSome) (hx : H.fold xs s = some v)
    (hy : H.fold ys t = some v) : xs = ys ∧ s = t := by
  unfold Sha256.fold at hx hy
  rw [← hlen] at hy
  exact foldLoop_inj hH _ xs ys s t v hlen hs hx hy

end Fold

/-! ## Segments -/

namespace Sha256

variable {Entry Digest : Type} (H : Sha256 Entry Digest) (D : List Entry)

/-- The root of the `k` entries of `D` from position `i` on. -/
def segmentRoot (i k : ℕ) : Digest := H.merkleRootFromEntries ((D.drop i).take k)

/-- The root of a rest, which may be empty. -/
def restRoot (i r : ℕ) : Option Digest := if r = 0 then none else some (H.segmentRoot D i r)

theorem segmentRoot_append (i k l e : ℕ) (hk : k = 2 ^ e) (hl : l ≤ 2 ^ e) (hpos : 0 < l)
    (hlen : i + k + l ≤ D.length) :
    H.segmentRoot D i (k + l) = H.nodeHash (H.segmentRoot D i k) (H.segmentRoot D (i + k) l) := by
  unfold segmentRoot
  have hsplit : (D.drop i).take (k + l) = (D.drop i).take k ++ (D.drop (i + k)).take l := by
    rw [List.take_add, List.drop_drop]
  rw [hsplit]
  apply H.merkleRoot_append e
  · rw [List.length_take, List.length_drop]
    omega
  · rw [List.length_take, List.length_drop]
    omega
  · apply List.ne_nil_of_length_pos
    rw [List.length_take, List.length_drop]
    omega

/-- The roots of `len` neighbouring blocks of `2 ^ h` entries, from block `a` on. -/
def blockRoots (h a len : ℕ) : List Digest :=
  (List.range len).map fun i => H.segmentRoot D ((a + i) * 2 ^ h) (2 ^ h)

@[simp] theorem blockRoots_length (h a len : ℕ) : (H.blockRoots D h a len).length = len := by
  simp [blockRoots]

theorem blockRoots_take (h a len k : ℕ) (hk : k ≤ len) :
    (H.blockRoots D h a len).take k = H.blockRoots D h a k := by
  unfold blockRoots
  rw [← List.map_take, List.take_range, Nat.min_eq_left hk]

theorem blockRoots_drop (h a len k : ℕ) :
    (H.blockRoots D h a len).drop k = H.blockRoots D h (a + k) (len - k) := by
  apply List.ext_getElem
  · simp
  · intro i h1 h2
    simp [blockRoots, Nat.add_assoc]

theorem blockRoots_one (h a : ℕ) : H.blockRoots D h a 1 = [H.segmentRoot D (a * 2 ^ h) (2 ^ h)] := by
  simp [blockRoots]

/-- Folding the roots of blocks and of a shorter rest gives the root of the whole segment. -/
theorem foldLoop_segments (h fuel a len r : ℕ) (hlen : 0 < len)
    (hfuel : len + (if r = 0 then 0 else 1) ≤ fuel) (hr : r ≤ 2 ^ h)
    (hD : (a + len) * 2 ^ h + r ≤ D.length) :
    H.foldLoop fuel (H.blockRoots D h a len) (H.restRoot D ((a + len) * 2 ^ h) r) =
      some (H.segmentRoot D (a * 2 ^ h) (len * 2 ^ h + r)) := by
  have hpow : 0 < 2 ^ h := Nat.two_pow_pos h
  induction fuel generalizing a len r with
  | zero => omega
  | succ fuel ih =>
    by_cases hone : len = 1
    · subst hone
      rw [blockRoots_one]
      by_cases hr0 : r = 0
      · simp [restRoot, hr0, foldLoop]
      · have happ := H.segmentRoot_append D (a * 2 ^ h) (2 ^ h) r h rfl hr (by omega)
          (by rw [← Nat.succ_mul]; exact hD)
        rw [one_mul, happ, ← Nat.succ_mul]
        simp [restRoot, hr0, foldLoop]
    · have htwo : 2 ≤ (H.blockRoots D h a len).length := by
        rw [blockRoots_length]
        omega
      obtain ⟨k, hk, hklt, hkle⟩ := split_spec len (by omega)
      have hkpos : 0 < 2 ^ k := Nat.two_pow_pos k
      have hleft : ∀ l, 0 < l → l ≤ len → l ≤ fuel → H.foldLoop fuel (H.blockRoots D h a l) none =
          some (H.segmentRoot D (a * 2 ^ h) (l * 2 ^ h)) := by
        intro l hl hle hf
        have hb : (a + l) * 2 ^ h ≤ (a + len) * 2 ^ h := Nat.mul_le_mul_right _ (by omega)
        simpa [restRoot] using ih a l 0 hl (by simpa using hf) (by omega) (by omega)
      -- The two halves of the join, when the rest fits beside the right half.
      have hjoin : (len - 2 ^ k) * 2 ^ h + r ≤ 2 ^ (k + h) →
          ((H.foldLoop fuel ((H.blockRoots D h a len).take (2 ^ k)) none).bind fun left =>
            (H.foldLoop fuel ((H.blockRoots D h a len).drop (2 ^ k))
              (H.restRoot D ((a + len) * 2 ^ h) r)).bind fun right => some (H.nodeHash left right)) =
            some (H.segmentRoot D (a * 2 ^ h) (len * 2 ^ h + r)) := by
        intro hfit
        have e1 : a + 2 ^ k + (len - 2 ^ k) = a + len := by omega
        have e2 : len * 2 ^ h = 2 ^ k * 2 ^ h + (len - 2 ^ k) * 2 ^ h := by
          rw [← Nat.add_mul]
          congr 1
          omega
        have hright := ih (a + 2 ^ k) (len - 2 ^ k) r (by omega) (by omega) hr (by rw [e1]; exact hD)
        rw [e1] at hright
        have happ := H.segmentRoot_append D (a * 2 ^ h) (2 ^ k * 2 ^ h) ((len - 2 ^ k) * 2 ^ h + r)
          (k + h) (pow_add 2 k h).symm hfit
          (by have : 0 < (len - 2 ^ k) * 2 ^ h := Nat.mul_pos (by omega) hpow
              omega)
          (by rw [← Nat.add_mul]
              have : (a + len) * 2 ^ h = (a + 2 ^ k) * 2 ^ h + (len - 2 ^ k) * 2 ^ h := by
                rw [← Nat.add_mul, e1]
              omega)
        rw [blockRoots_take _ _ _ _ _ _ (by omega), blockRoots_drop,
          hleft (2 ^ k) hkpos (by omega) (by split at hfuel <;> omega), hright, e2, Nat.add_assoc,
          happ, ← Nat.add_mul]
        rfl
      rw [foldLoop_two_le H fuel _ _ htwo, blockRoots_length, hk]
      by_cases hr0 : r = 0
      · subst hr0
        apply hjoin
        rw [pow_add]
        have : (len - 2 ^ k) * 2 ^ h ≤ 2 ^ k * 2 ^ h := Nat.mul_le_mul_right _ (by omega)
        omega
      · by_cases hsplit : 2 ^ k * 2 = len
        · have hrest : H.restRoot D ((a + len) * 2 ^ h) r =
              some (H.segmentRoot D ((a + len) * 2 ^ h) r) := by simp [restRoot, hr0]
          have hle : 2 ^ h ≤ 2 ^ (k + 1 + h) := Nat.pow_le_pow_right (by omega) (by omega)
          have happ := H.segmentRoot_append D (a * 2 ^ h) (len * 2 ^ h) r (k + 1 + h)
            (by rw [pow_add, pow_succ, hsplit]) (by omega) (by omega)
            (by rw [← Nat.add_mul]; exact hD)
          rw [if_neg hr0] at hfuel
          rw [hrest]
          dsimp only
          rw [if_pos hsplit, hleft len hlen le_rfl (by omega), happ, ← Nat.add_mul]
          rfl
        · have hjoin' := hjoin (by
            rw [pow_add]
            have : (len - 2 ^ k + 1) * 2 ^ h ≤ 2 ^ k * 2 ^ h := Nat.mul_le_mul_right _ (by omega)
            rw [Nat.add_mul] at this
            omega)
          simp only [restRoot, if_neg hr0] at hjoin' ⊢
          rw [if_neg hsplit]
          exact hjoin'

end Sha256

end Dnsid.Merkle

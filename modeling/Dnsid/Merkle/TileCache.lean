import Dnsid.Foundations.ExceptRun
import Dnsid.Merkle.TileFold
import Mathlib.Data.List.Nodup

/-! # The tile cache and the frontier loop

For the tree over `D`, `tileHashes D level index` are the hashes of its true tile. Two facts about the
frontier loop carry the protocol: over true tiles it computes the root of the first `size` entries
(`rootLoop_true`), and when it reproduces the root of the whole tree the tiles it read are true
(`rootLoop_binds`).
-/
namespace Dnsid.Merkle
open Dnsid.Foundations
set_option autoImplicit false

/-! ## Positions -/

theorem pow256 (level : ℕ) : 256 ^ level = 2 ^ (8 * level) := by
  rw [pow_mul]
  rfl

theorem tileWidth_pos_level (n level index : ℕ) (h : 0 < tileWidth n level index) :
    256 ^ level ≤ n := by
  unfold tileWidth at h
  by_contra hlt
  rw [Nat.div_eq_of_lt (by omega)] at h
  simp at h

theorem tileWidth_pos_index (n level index : ℕ) (h : 0 < tileWidth n level index) : index < n := by
  unfold tileWidth at h
  have hdiv : n / 256 ^ level ≤ n := Nat.div_le_self n _
  omega

/-- A tile that is not full is the frontier tile of its level. -/
theorem tileWidth_frontier (n level index : ℕ) (hpos : 0 < tileWidth n level index)
    (hlt : tileWidth n level index < 256) :
    index = n / 256 ^ (level + 1) ∧ n / 256 ^ level % 256 ≠ 0 := by
  rw [pow_succ, ← Nat.div_div_eq_div_mul]
  unfold tileWidth at hpos hlt
  omega

theorem tileWidth_parent (n level index : ℕ) (h : tileWidth n level index = 256) :
    index % 256 < tileWidth n (level + 1) (index / 256) := by
  have hdiv : n / 256 ^ (level + 1) = n / 256 ^ level / 256 := by
    rw [pow_succ, Nat.div_div_eq_div_mul]
  unfold tileWidth at h ⊢
  rw [hdiv]
  omega

/-- The frontier tile of a smaller size holds at least the hashes that the size needs. -/
theorem tileWidth_digit (n size level : ℕ) (h : size ≤ n) :
    size / 256 ^ level % 256 ≤ tileWidth n level (size / 256 ^ level / 256) := by
  have hle : size / 256 ^ level ≤ n / 256 ^ level := Nat.div_le_div_right h
  unfold tileWidth
  omega

theorem tileWidth_own (n level : ℕ) :
    tileWidth n level (n / 256 ^ level / 256) = n / 256 ^ level % 256 := by
  unfold tileWidth
  omega

theorem mod_pow_succ_ne_zero (size level : ℕ) (h : size / 256 ^ level % 256 ≠ 0) :
    size % 256 ^ (level + 1) ≠ 0 := by
  have hpos : 0 < 256 ^ level * (size / 256 ^ level % 256) :=
    Nat.mul_pos (Nat.pow_pos (by omega)) (by omega)
  rw [pow_succ, Nat.mod_mul]
  omega

/-! ## True tiles -/

namespace Sha256

variable {Entry Digest : Type} (H : Sha256 Entry Digest) (D : List Entry)

def tileHashes (level index : ℕ) : List Digest :=
  H.blockRoots D (8 * level) (index * 256) (tileWidth D.length level index)

/-- The root of the entries of the first `size` that lie below the digits from `level` on. -/
def suffixRoot (size level : ℕ) : Option Digest :=
  H.restRoot D (size - size % 256 ^ level) (size % 256 ^ level)

theorem suffixRoot_zero (size : ℕ) : H.suffixRoot D size 0 = none := by
  simp [suffixRoot, restRoot, Nat.mod_one]

theorem suffixRoot_skip (size level : ℕ) (h : size / 256 ^ level % 256 = 0) :
    H.suffixRoot D size (level + 1) = H.suffixRoot D size level := by
  unfold suffixRoot
  have hmod : size % 256 ^ (level + 1) = size % 256 ^ level := by
    rw [pow_succ, Nat.mod_mul, h]
    simp
  rw [hmod]

theorem suffixRoot_top (size level : ℕ) (hpos : 0 < size) (h : size / 256 ^ level = 0) :
    H.suffixRoot D size level = some (H.merkleRootFromEntries (D.take size)) := by
  have hlt : size < 256 ^ level :=
    (Nat.div_eq_zero_iff_lt (Nat.pow_pos (by omega))).mp h
  have hne : size ≠ 0 := by omega
  simp [suffixRoot, restRoot, segmentRoot, Nat.mod_eq_of_lt hlt, hne]

theorem suffixRoot_isSome (size level : ℕ) :
    (H.suffixRoot D size level).isSome = decide (size % 256 ^ level ≠ 0) := by
  unfold suffixRoot restRoot
  split <;> simp_all

/-- One step of the frontier loop over true hashes. -/
theorem fold_frontier (size level : ℕ) (hsize : size ≤ D.length)
    (hdigit : size / 256 ^ level % 256 ≠ 0) :
    H.fold ((H.tileHashes D level (size / 256 ^ level / 256)).take (size / 256 ^ level % 256))
      (H.suffixRoot D size level) = H.suffixRoot D size (level + 1) := by
  have hP : 0 < 256 ^ level := Nat.pow_pos (by omega)
  have hsplit := Nat.div_add_mod size (256 ^ level)
  have hr := Nat.mod_lt size hP
  have hmod : size % 256 ^ (level + 1) =
      size / 256 ^ level % 256 * 256 ^ level + size % 256 ^ level := by
    rw [pow_succ, Nat.mod_mul]
    ring
  have hdigits := Nat.div_add_mod (size / 256 ^ level) 256
  -- `count` blocks of `256 ^ level` entries, of which the last `count % 256` are in the tile.
  have hblocks : (size / 256 ^ level / 256 * 256 + size / 256 ^ level % 256) * 256 ^ level =
      size - size % 256 ^ level := by
    rw [Nat.mul_comm (size / 256 ^ level / 256) 256, hdigits, Nat.mul_comm]
    omega
  have hstart : size / 256 ^ level / 256 * 256 * 256 ^ level = size - size % 256 ^ (level + 1) := by
    rw [Nat.add_mul] at hblocks
    omega
  have hne := mod_pow_succ_ne_zero size level hdigit
  have hfold := H.foldLoop_segments D (8 * level) (size / 256 ^ level % 256 + 1)
    (size / 256 ^ level / 256 * 256) (size / 256 ^ level % 256) (size % 256 ^ level) (by omega)
    (by split <;> omega) (by rw [← pow256]; omega)
    (by rw [← pow256, hblocks]; omega)
  rw [← pow256, hblocks, hstart, ← hmod] at hfold
  unfold fold tileHashes
  rw [blockRoots_take _ _ _ _ _ _ (tileWidth_digit _ _ _ hsize), blockRoots_length]
  rw [suffixRoot, hfold, suffixRoot, restRoot, if_neg hne]

/-- A full tile folds to the entry of its parent tile. -/
theorem fold_full (level index : ℕ) (h : tileWidth D.length level index = 256) :
    ∃ v, H.fold (H.tileHashes D level index) none = some v ∧
      (H.tileHashes D (level + 1) (index / 256))[index % 256]? = some v := by
  have hP : 0 < 256 ^ level := Nat.pow_pos (by omega)
  have hblock : (index * 256 + 256) * 256 ^ level ≤ D.length := by
    have hle : index * 256 + 256 ≤ D.length / 256 ^ level := by
      unfold tileWidth at h
      omega
    exact le_trans (Nat.mul_le_mul_right _ hle) (Nat.div_mul_le_self _ _)
  refine ⟨H.segmentRoot D (index * 256 ^ (level + 1)) (256 ^ (level + 1)), ?_, ?_⟩
  · have hfold := H.foldLoop_segments D (8 * level) 257 (index * 256) 256 0 (by omega) (by simp)
      (Nat.zero_le _) (by rw [← pow256]; simpa using hblock)
    have e1 : index * 256 * 256 ^ level = index * 256 ^ (level + 1) := by ring
    have e2 : 256 * 256 ^ level + 0 = 256 ^ (level + 1) := by ring
    rw [← pow256, e1, e2] at hfold
    unfold fold tileHashes
    rw [h, blockRoots_length]
    simpa [restRoot] using hfold
  · have hlt := tileWidth_parent D.length level index h
    have hidx : index / 256 * 256 + index % 256 = index := by omega
    simp [tileHashes, blockRoots, hlt, hidx, ← pow256]

end Sha256

/-! ## What the steps do to the cache -/

section State
variable {Entry Digest : Type} {H : Sha256 Entry Digest} {logPrefix : String} {n : ℕ}
  {read : Reader Digest}

/-- The cache holds one tile per key, each inside the tree and of its full width; only cached tiles are
authenticated. -/
structure TileInv (n : ℕ) (st : TileState Digest) : Prop where
  width : ∀ t ∈ st.tiles, t.hashes.length = tileWidth n t.level t.index
  pos : ∀ t ∈ st.tiles, 0 < tileWidth n t.level t.index
  nodup : (st.tiles.map Tile.key).Nodup
  auth : ∀ k ∈ st.authenticated, k ∈ st.tiles.map Tile.key

theorem TileInv.eq_of_key {st : TileState Digest} (hst : TileInv n st) {t u : Tile Digest}
    (ht : t ∈ st.tiles) (hu : u ∈ st.tiles) (h : t.key = u.key) : t = u :=
  List.inj_on_of_nodup_map hst.nodup ht hu h

theorem TileInv.append {st : TileState Digest} (hst : TileInv n st) (t : Tile Digest)
    (requests : List Request) (hwidth : t.hashes.length = tileWidth n t.level t.index)
    (hpos : 0 < tileWidth n t.level t.index) (hnew : ∀ u ∈ st.tiles, u.key ≠ t.key) :
    TileInv n ⟨st.tiles ++ [t], st.authenticated, requests⟩ where
  width := by
    intro u hu
    rcases List.mem_append.mp hu with hu | hu
    · exact hst.width u hu
    · rw [List.mem_singleton.mp hu]
      exact hwidth
  pos := by
    intro u hu
    rcases List.mem_append.mp hu with hu | hu
    · exact hst.pos u hu
    · rw [List.mem_singleton.mp hu]
      exact hpos
  nodup := by
    rw [List.map_append, List.nodup_append]
    refine ⟨hst.nodup, by simp, ?_⟩
    intro a ha b hb
    obtain ⟨u, hu, rfl⟩ := List.mem_map.mp ha
    rw [List.map_singleton, List.mem_singleton] at hb
    rw [hb]
    exact hnew u hu
  auth := by
    intro k hk
    rw [List.map_append]
    exact List.mem_append_left _ (hst.auth k hk)

/-- What `get` does: it answers with the tile of the key and adds at most that tile. -/
structure GetSpec (st : TileState Digest) (level index : ℕ) (t : Tile Digest)
    (st' : TileState Digest) : Prop where
  key : t.key = (level, index)
  mem : t ∈ st'.tiles
  authenticated : st'.authenticated = st.authenticated
  grows : st.tiles <+: st'.tiles
  only : ∀ u ∈ st'.tiles, u ∈ st.tiles ∨ u = t

theorem getSpec_append (st : TileState Digest) (t : Tile Digest) (requests : List Request) :
    GetSpec st t.level t.index t ⟨st.tiles ++ [t], st.authenticated, requests⟩ where
  key := rfl
  mem := by simp
  authenticated := rfl
  grows := List.prefix_append _ _
  only := by
    intro u hu
    simpa using hu

theorem storeTile_ok {st st' : TileState Digest} {level index width responseWidth length : ℕ}
    {window : ℕ → Digest} {requests : List Request} {t : Tile Digest}
    (h : storeTile st level index width responseWidth length window requests = .ok (t, st')) :
    t = ⟨level, index, (List.range width).map window⟩ ∧
      st' = ⟨st.tiles ++ [t], st.authenticated, requests⟩ := by
  unfold storeTile at h
  split at h
  · cases h
  · obtain ⟨rfl, rfl⟩ := by simpa using h
    exact ⟨rfl, rfl⟩

/-- The cases of a successful `get`. -/
theorem getTile_cases {st st' : TileState Digest} {level index : ℕ} {t : Tile Digest}
    (h : getTile logPrefix n read st level index = .ok (t, st')) :
    (st' = st ∧ t ∈ st.tiles ∧ t.key = (level, index)) ∨
      ((∀ u ∈ st.tiles, u.key ≠ (level, index)) ∧ ∃ window requests,
        t = ⟨level, index, (List.range (tileWidth n level index)).map window⟩ ∧
        st' = ⟨st.tiles ++ [t], st.authenticated, requests⟩) := by
  unfold getTile at h
  split at h
  case h_1 cached hfind =>
    left
    obtain ⟨rfl, rfl⟩ := by simpa using h
    exact ⟨rfl, List.mem_of_find?_eq_some hfind, by simpa using List.find?_some hfind⟩
  case h_2 hfind =>
    right
    refine ⟨by simpa using hfind, ?_⟩
    obtain ⟨url, _, h⟩ := bind_eq_ok.mp h
    dsimp only at h
    split at h
    · exact ⟨_, _, storeTile_ok h⟩
    · split at h
      · cases h
      · obtain ⟨full, _, h⟩ := bind_eq_ok.mp h
        split at h
        · exact ⟨_, _, storeTile_ok h⟩
        · cases h

theorem getTile_spec {st st' : TileState Digest} {level index : ℕ} {t : Tile Digest}
    (hst : TileInv n st) (hpos : 0 < tileWidth n level index)
    (h : getTile logPrefix n read st level index = .ok (t, st')) :
    TileInv n st' ∧ GetSpec st level index t st' := by
  rcases getTile_cases h with ⟨rfl, hmem, hkey⟩ | ⟨hnew, window, requests, rfl, rfl⟩
  · refine ⟨hst, hkey, hmem, rfl, List.prefix_rfl, ?_⟩
    intro u hu
    exact Or.inl hu
  · exact ⟨hst.append _ _ (by simp) hpos hnew, getSpec_append st ⟨level, index, _⟩ requests⟩

/-- What the frontier loop does to the cache, whatever it reads: it adds the frontier tiles from its
level on. -/
structure RootSpec (n size level : ℕ) (st st' : TileState Digest) : Prop where
  inv : TileInv n st'
  authenticated : st'.authenticated = st.authenticated
  grows : st.tiles <+: st'.tiles
  frontier : ∀ l, level ≤ l → size / 256 ^ l % 256 ≠ 0 →
    (l, size / 256 ^ (l + 1)) ∈ st'.tiles.map Tile.key

theorem div_pow_succ (size level : ℕ) : size / 256 ^ (level + 1) = size / 256 ^ level / 256 := by
  rw [pow_succ, Nat.div_div_eq_div_mul]

theorem digit_above (size level l : ℕ) (h0 : size / 256 ^ level = 0) (hl : level ≤ l) :
    size / 256 ^ l % 256 = 0 := by
  have hle : size / 256 ^ l ≤ size / 256 ^ level :=
    Nat.div_le_div_left (Nat.pow_le_pow_right (by omega) hl) (Nat.pow_pos (by omega))
  rw [h0] at hle
  rw [Nat.le_zero.mp hle]

theorem RootSpec.done {size level : ℕ} {st : TileState Digest} (hst : TileInv n st)
    (h0 : size / 256 ^ level = 0) : RootSpec n size level st st where
  inv := hst
  authenticated := rfl
  grows := List.prefix_rfl
  frontier := by
    intro l hl hdigit
    exact absurd (digit_above size level l h0 hl) hdigit

/-- The frontier loop, one iteration at a time: nothing left, a zero digit, or a digit with its tile. -/
theorem rootLoop_cases {fuel size level : ℕ} {suffix res : Option Digest} {st st' : TileState Digest}
    (hfuel : size / 256 ^ level ≤ fuel)
    (h : rootLoop H logPrefix n read fuel level (size / 256 ^ level) suffix st = .ok (res, st')) :
    (size / 256 ^ level = 0 ∧ res = suffix ∧ st' = st) ∨
      ∃ fuel', size / 256 ^ (level + 1) ≤ fuel' ∧ fuel = fuel' + 1 ∧
        ((size / 256 ^ level % 256 = 0 ∧ rootLoop H logPrefix n read fuel' (level + 1)
            (size / 256 ^ (level + 1)) suffix st = .ok (res, st')) ∨
          (size / 256 ^ level % 256 ≠ 0 ∧ ∃ t st₁ s,
            getTile logPrefix n read st level (size / 256 ^ (level + 1)) = .ok (t, st₁) ∧
            H.fold (t.hashes.take (size / 256 ^ level % 256)) suffix = some s ∧
            rootLoop H logPrefix n read fuel' (level + 1) (size / 256 ^ (level + 1)) (some s) st₁ =
              .ok (res, st'))) := by
  rw [div_pow_succ]
  cases fuel with
  | zero =>
    left
    obtain ⟨rfl, rfl⟩ := by simpa [rootLoop] using h
    exact ⟨Nat.le_zero.mp hfuel, rfl, rfl⟩
  | succ fuel =>
    rw [rootLoop] at h
    split at h
    case isTrue h0 =>
      left
      obtain ⟨rfl, rfl⟩ := by simpa using h
      exact ⟨h0, rfl, rfl⟩
    case isFalse h0 =>
      right
      refine ⟨fuel, by omega, rfl, ?_⟩
      split at h
      case isTrue hdigit => exact Or.inl ⟨hdigit, h⟩
      case isFalse hdigit =>
        right
        obtain ⟨⟨t, st₁⟩, hget, h⟩ := bind_eq_ok.mp h
        dsimp only at h
        split at h
        · cases h
        case h_2 s hfold => exact ⟨hdigit, t, st₁, s, hget, hfold, h⟩

theorem rootLoop_spec {fuel size level : ℕ} {suffix res : Option Digest} {st st' : TileState Digest}
    (hsize : size ≤ n) (hfuel : size / 256 ^ level ≤ fuel) (hst : TileInv n st)
    (h : rootLoop H logPrefix n read fuel level (size / 256 ^ level) suffix st = .ok (res, st')) :
    RootSpec n size level st st' := by
  induction fuel generalizing level suffix st with
  | zero =>
    rcases rootLoop_cases hfuel h with ⟨h0, -, rfl⟩ | ⟨fuel', _, hf, _⟩
    · exact RootSpec.done hst h0
    · omega
  | succ fuel ih =>
    rcases rootLoop_cases hfuel h with ⟨h0, -, rfl⟩ | ⟨fuel', hfuel', hf, hcase⟩
    · exact RootSpec.done hst h0
    · obtain rfl : fuel = fuel' := by omega
      rcases hcase with ⟨hdigit, h⟩ | ⟨hdigit, t, st₁, s, hget, _, h⟩
      · obtain ⟨hinv, hauth, hgrows, hfront⟩ := ih hfuel' hst h
        refine ⟨hinv, hauth, hgrows, ?_⟩
        intro l hl hne
        rcases Nat.eq_or_lt_of_le hl with rfl | hlt
        · exact absurd hdigit hne
        · exact hfront l hlt hne
      · have hpos : 0 < tileWidth n level (size / 256 ^ (level + 1)) := by
          have := tileWidth_digit n size level hsize
          rw [div_pow_succ]
          omega
        obtain ⟨hinv₁, hspec⟩ := getTile_spec hst hpos hget
        obtain ⟨hinv, hauth, hgrows, hfront⟩ := ih hfuel' hinv₁ h
        refine ⟨hinv, hauth.trans hspec.authenticated, hspec.grows.trans hgrows, ?_⟩
        intro l hl hne
        rcases Nat.eq_or_lt_of_le hl with rfl | hlt
        · rw [← hspec.key]
          exact List.mem_map_of_mem (hgrows.subset hspec.mem)
        · exact hfront l hlt hne

/-! ## What the frontier loop computes -/

variable (H) in
/-- The hashes of a tile are those of the tree over `D`. -/
def TrueTile (D : List Entry) (t : Tile Digest) : Prop := t.hashes = H.tileHashes D t.level t.index

theorem TrueTile.hashes_eq {D : List Entry} {t : Tile Digest} {level index : ℕ} (h : TrueTile H D t)
    (hkey : t.key = (level, index)) : t.hashes = H.tileHashes D level index := by
  obtain ⟨rfl, rfl⟩ := Prod.mk.injEq _ _ _ _ ▸ hkey
  exact h

/-- Over true tiles the frontier loop computes the root of the first `size` entries. -/
theorem rootLoop_true {D : List Entry} {fuel size level : ℕ} {suffix res : Option Digest}
    {st st' : TileState Digest} (hsize : size ≤ D.length) (hsz : 0 < size)
    (hfuel : size / 256 ^ level ≤ fuel) (hst : TileInv D.length st)
    (hsuffix : suffix = H.suffixRoot D size level)
    (h : rootLoop H logPrefix D.length read fuel level (size / 256 ^ level) suffix st = .ok (res, st'))
    (htrue : ∀ t ∈ st'.tiles, TrueTile H D t) :
    res = some (H.merkleRootFromEntries (D.take size)) := by
  induction fuel generalizing level suffix st with
  | zero =>
    rcases rootLoop_cases hfuel h with ⟨h0, rfl, rfl⟩ | ⟨fuel', _, hf, _⟩
    · rw [hsuffix, H.suffixRoot_top D size level hsz h0]
    · omega
  | succ fuel ih =>
    rcases rootLoop_cases hfuel h with ⟨h0, rfl, rfl⟩ | ⟨fuel', hfuel', hf, hcase⟩
    · rw [hsuffix, H.suffixRoot_top D size level hsz h0]
    · obtain rfl : fuel = fuel' := by omega
      rcases hcase with ⟨hdigit, h⟩ | ⟨hdigit, t, st₁, s, hget, hfold, h⟩
      · exact ih hfuel' hst (by rw [hsuffix, H.suffixRoot_skip D size level hdigit]) h
      · have hpos : 0 < tileWidth D.length level (size / 256 ^ (level + 1)) := by
          have := tileWidth_digit D.length size level hsize
          rw [div_pow_succ]
          omega
        obtain ⟨hinv₁, hspec⟩ := getTile_spec hst hpos hget
        have hroot := rootLoop_spec hsize hfuel' hinv₁ h
        have ht := (htrue t (hroot.grows.subset hspec.mem)).hashes_eq hspec.key
        refine ih hfuel' hinv₁ ?_ h
        rw [← hfold, ht, hsuffix, div_pow_succ]
        exact H.fold_frontier D size level hsize hdigit

/-- A frontier loop over the whole tree that reproduces its root has read true tiles. -/
theorem rootLoop_binds (hH : H.Ideal) {D : List Entry} {fuel level : ℕ} {suffix : Option Digest}
    {st st' : TileState Digest} (hsz : 0 < D.length) (hfuel : D.length / 256 ^ level ≤ fuel)
    (hst : TileInv D.length st)
    (hsome : suffix.isSome = decide (D.length % 256 ^ level ≠ 0))
    (h : rootLoop H logPrefix D.length read fuel level (D.length / 256 ^ level) suffix st =
      .ok (some (H.merkleRootFromEntries D), st')) :
    suffix = H.suffixRoot D D.length level ∧ ∀ t ∈ st'.tiles, t ∈ st.tiles ∨ TrueTile H D t := by
  induction fuel generalizing level suffix st with
  | zero =>
    rcases rootLoop_cases hfuel h with ⟨h0, rfl, rfl⟩ | ⟨fuel', _, hf, _⟩
    · refine ⟨?_, fun t ht => Or.inl ht⟩
      rw [H.suffixRoot_top D _ level hsz h0, List.take_length]
    · omega
  | succ fuel ih =>
    rcases rootLoop_cases hfuel h with ⟨h0, rfl, rfl⟩ | ⟨fuel', hfuel', hf, hcase⟩
    · refine ⟨?_, fun t ht => Or.inl ht⟩
      rw [H.suffixRoot_top D _ level hsz h0, List.take_length]
    · obtain rfl : fuel = fuel' := by omega
      rcases hcase with ⟨hdigit, h⟩ | ⟨hdigit, t, st₁, s, hget, hfold, h⟩
      · have hskip := H.suffixRoot_skip D D.length level hdigit
        have hsome' := H.suffixRoot_isSome D D.length (level + 1)
        rw [hskip, H.suffixRoot_isSome, ← hsome] at hsome'
        obtain ⟨hs, htiles⟩ := ih hfuel' hst hsome' h
        exact ⟨by rw [hs, hskip], htiles⟩
      · have hwidth := tileWidth_own D.length level
        rw [← div_pow_succ] at hwidth
        obtain ⟨hinv₁, hspec⟩ := getTile_spec hst (by omega) hget
        have hfront := H.fold_frontier D D.length level le_rfl hdigit
        rw [← div_pow_succ] at hfront
        have hne := mod_pow_succ_ne_zero D.length level hdigit
        obtain ⟨hs, htiles⟩ := ih hfuel' hinv₁ (by simp [hne]) h
        rw [← hs] at hfront
        have hkey : t.level = level ∧ t.index = D.length / 256 ^ (level + 1) :=
          Prod.mk.inj hspec.key
        have hlen : t.hashes.length = D.length / 256 ^ level % 256 := by
          rw [hinv₁.width t hspec.mem, hkey.1, hkey.2, hwidth]
        have htlen : (H.tileHashes D level (D.length / 256 ^ (level + 1))).length =
            D.length / 256 ^ level % 256 := by
          rw [Sha256.tileHashes, Sha256.blockRoots_length, hwidth]
        obtain ⟨hhashes, hsuffix⟩ := fold_inj hH _ _ _ _ s (by simp [hlen, htlen])
          (by rw [hsome, H.suffixRoot_isSome]) hfold hfront
        rw [List.take_of_length_le hlen.le, List.take_of_length_le htlen.le] at hhashes
        refine ⟨hsuffix, ?_⟩
        intro u hu
        rcases htiles u hu with hu | hu
        · rcases hspec.only u hu with hu | rfl
          · exact Or.inl hu
          · right
            rw [TrueTile, hkey.1, hkey.2]
            exact hhashes
        · exact Or.inr hu

end State

end Dnsid.Merkle

import Dnsid.Merkle.TileCache
import Mathlib.Data.List.Perm.Subperm
import Mathlib.Data.List.ProdSigma

/-! # Hash-tile consistency is exact

A tile outside the frontier is full and hangs below a parent tile. Authentication walks up to a tile
that the candidate root has bound, so every tile it accepts is true (`authenticate_sound`) and the
trusted root is folded from true hashes. Conversely a reader that serves the true tiles makes every step
succeed (`authenticate_serves`), and the fuel of the loops is never used up.
-/
namespace Dnsid.Merkle
open Dnsid.Foundations
set_option autoImplicit false

section Authenticate
variable {Entry Digest : Type} {H : Sha256 Entry Digest} {logPrefix : String}
  {read : Reader Digest} {D : List Entry}

/-- The invariant of authentication: the frontier is authenticated, and what is authenticated is true. -/
structure AuthInv (H : Sha256 Entry Digest) (D : List Entry) (st : TileState Digest) : Prop where
  inv : TileInv D.length st
  frontier : ∀ l i, 0 < tileWidth D.length l i → tileWidth D.length l i < 256 →
    (l, i) ∈ st.authenticated
  sound : ∀ t ∈ st.tiles, t.key ∈ st.authenticated → TrueTile H D t

structure AuthGrows (st st' : TileState Digest) : Prop where
  tiles : st.tiles <+: st'.tiles
  authenticated : st.authenticated ⊆ st'.authenticated

theorem AuthGrows.refl (st : TileState Digest) : AuthGrows st st where
  tiles := List.prefix_rfl
  authenticated := List.Subset.refl _

theorem AuthGrows.trans {st₁ st₂ st₃ : TileState Digest} (h₁ : AuthGrows st₁ st₂)
    (h₂ : AuthGrows st₂ st₃) : AuthGrows st₁ st₃ where
  tiles := h₁.tiles.trans h₂.tiles
  authenticated := List.Subset.trans h₁.authenticated h₂.authenticated

/-- New tiles are not authenticated: the key of an authenticated tile is cached already. -/
theorem AuthInv.grow {st st' : TileState Digest} (hst : AuthInv H D st) (hinv : TileInv D.length st')
    (hauth : st'.authenticated = st.authenticated) (hgrows : st.tiles <+: st'.tiles) :
    AuthInv H D st' where
  inv := hinv
  frontier := by
    rw [hauth]
    exact hst.frontier
  sound := by
    intro u hu hkey
    rw [hauth] at hkey
    obtain ⟨v, hv, hvkey⟩ := List.mem_map.mp (hst.inv.auth _ hkey)
    rw [← hinv.eq_of_key (hgrows.subset hv) hu hvkey]
    apply hst.sound v hv
    rw [hvkey]
    exact hkey

theorem getTile_auth {st st' : TileState Digest} {level index : ℕ} {t : Tile Digest}
    (hst : AuthInv H D st) (hpos : 0 < tileWidth D.length level index)
    (h : getTile logPrefix D.length read st level index = .ok (t, st')) :
    AuthInv H D st' ∧ AuthGrows st st' ∧ t ∈ st'.tiles ∧ t.key = (level, index) := by
  obtain ⟨hinv, hspec⟩ := getTile_spec hst.inv hpos h
  refine ⟨hst.grow hinv hspec.authenticated hspec.grows, ⟨hspec.grows, ?_⟩, hspec.mem, hspec.key⟩
  rw [hspec.authenticated]
  exact List.Subset.refl _

/-- A tile that is not authenticated yet is full. -/
theorem AuthInv.full {st : TileState Digest} (hst : AuthInv H D st) {t : Tile Digest}
    (ht : t ∈ st.tiles) (hkey : t.key ∉ st.authenticated) :
    tileWidth D.length t.level t.index = 256 := by
  have hle : tileWidth D.length t.level t.index ≤ 256 := Nat.min_le_left _ _
  by_contra hne
  exact hkey (hst.frontier _ _ (hst.inv.pos t ht) (by omega))

theorem AuthInv.add {st : TileState Digest} (hst : AuthInv H D st) {t : Tile Digest}
    (ht : t ∈ st.tiles) (htrue : TrueTile H D t) :
    AuthInv H D { st with authenticated := st.authenticated ++ [t.key] } where
  inv :=
    { width := hst.inv.width
      pos := hst.inv.pos
      nodup := hst.inv.nodup
      auth := by
        intro k hk
        rcases List.mem_append.mp hk with hk | hk
        · exact hst.inv.auth k hk
        · rw [List.mem_singleton.mp hk]
          exact List.mem_map_of_mem ht }
  frontier := fun l i hpos hlt => List.mem_append_left _ (hst.frontier l i hpos hlt)
  sound := by
    intro u hu hkey
    rcases List.mem_append.mp hkey with hkey | hkey
    · exact hst.sound u hu hkey
    · rw [hst.inv.eq_of_key hu ht (List.mem_singleton.mp hkey)]
      exact htrue

theorem root_eq (size : ℕ) (st : TileState Digest) :
    root H logPrefix D.length read size st =
      rootLoop H logPrefix D.length read size 0 (size / 256 ^ 0) none st := by
  simp [root]

/-- The state in which the frontier of the candidate has just been marked as authenticated. -/
theorem authInv_of_candidate (hH : H.Ideal) (hD : 0 < D.length) {st : TileState Digest}
    (h : root H logPrefix D.length read D.length ⟨[], [], []⟩ =
      .ok (some (H.merkleRootFromEntries D), st)) :
    AuthInv H D { st with authenticated := st.tiles.map Tile.key } := by
  have hempty : TileInv D.length (⟨[], [], []⟩ : TileState Digest) := by
    constructor <;> simp
  rw [root_eq] at h
  have hspec := rootLoop_spec le_rfl (by simp) hempty h
  obtain ⟨-, htiles⟩ := rootLoop_binds hH hD (by simp) hempty (by simp [Nat.mod_one]) h
  refine ⟨⟨hspec.inv.width, hspec.inv.pos, hspec.inv.nodup, fun k hk => hk⟩, ?_, ?_⟩
  · intro l i hpos hlt
    obtain ⟨rfl, hdigit⟩ := tileWidth_frontier D.length l i hpos hlt
    exact hspec.frontier l (Nat.zero_le l) hdigit
  · intro t ht _
    rcases htiles t ht with hmem | htrue
    · simp at hmem
    · exact htrue

variable [DecidableEq Digest]

/-- What a successful `authenticate` did. -/
theorem authenticate_cases {fuel : ℕ} {t : Tile Digest} {st st' : TileState Digest}
    (h : authenticate H logPrefix D.length read fuel t st = .ok st') :
    (t.key ∈ st.authenticated ∧ st' = st) ∨
      ∃ fuel' parent st₁ st₂ v, fuel = fuel' + 1 ∧ t.key ∉ st.authenticated ∧
        getTile logPrefix D.length read st (t.level + 1) (t.index / 256) = .ok (parent, st₁) ∧
        authenticate H logPrefix D.length read fuel' parent st₁ = .ok st₂ ∧
        H.fold t.hashes none = some v ∧ parent.hashes[t.index % 256]? = some v ∧
        st' = { st₂ with authenticated := st₂.authenticated ++ [t.key] } := by
  cases fuel with
  | zero => simp [authenticate] at h
  | succ fuel =>
    rw [authenticate] at h
    split at h
    case isTrue hmem =>
      left
      exact ⟨hmem, by simpa using h.symm⟩
    case isFalse hmem =>
      right
      obtain ⟨⟨parent, st₁⟩, hget, h⟩ := bind_eq_ok.mp h
      obtain ⟨st₂, hauth, h⟩ := bind_eq_ok.mp h
      split at h
      · cases h
      · split at h
        case h_1 v w hfold hentry =>
          split at h
          case isTrue heq =>
            subst heq
            exact ⟨fuel, parent, st₁, st₂, v, rfl, hmem, hget, hauth, hfold, hentry,
              by simpa using h.symm⟩
          case isFalse => cases h
        · cases h

theorem authenticate_sound (hH : H.Ideal) {fuel : ℕ} {t : Tile Digest} {st st' : TileState Digest}
    (hst : AuthInv H D st) (ht : t ∈ st.tiles)
    (h : authenticate H logPrefix D.length read fuel t st = .ok st') :
    AuthInv H D st' ∧ AuthGrows st st' ∧ t.key ∈ st'.authenticated := by
  induction fuel generalizing t st st' with
  | zero => simp [authenticate] at h
  | succ fuel ih =>
    rcases authenticate_cases h with
      ⟨hmem, rfl⟩ | ⟨fuel', parent, st₁, st₂, v, hfuel, hnew, hget, hauth, hfold, hentry, rfl⟩
    · exact ⟨hst, AuthGrows.refl st', hmem⟩
    · obtain rfl : fuel = fuel' := by omega
      have hfull := hst.full ht hnew
      have hparent := tileWidth_parent D.length t.level t.index hfull
      obtain ⟨hst₁, hgrow₁, hpmem, hpkey⟩ := getTile_auth hst (by omega) hget
      obtain ⟨hst₂, hgrow₂, hpauth⟩ := ih hst₁ hpmem hauth
      have hptrue := hst₂.sound parent (hgrow₂.tiles.subset hpmem) hpauth
      -- The true parent entry is the fold of the true tile, so the tile is the true one.
      obtain ⟨w, hw, hwentry⟩ := H.fold_full D t.level t.index hfull
      rw [hptrue.hashes_eq hpkey, hwentry] at hentry
      obtain rfl : w = v := Option.some.inj hentry
      have hlen : t.hashes.length = (H.tileHashes D t.level t.index).length := by
        rw [hst.inv.width t ht, Sha256.tileHashes, Sha256.blockRoots_length]
      have htrue : TrueTile H D t := (fold_inj hH _ _ none none w hlen rfl hfold hw).1
      refine ⟨hst₂.add ((hgrow₁.trans hgrow₂).tiles.subset ht) htrue, ?_, by simp⟩
      exact (hgrow₁.trans hgrow₂).trans ⟨List.prefix_rfl, List.subset_append_left _ _⟩

/-- The loop over the growing cache ends with every cached tile true. -/
theorem authenticateAll_sound (hH : H.Ideal) {fuel cursor : ℕ} {st st' : TileState Digest}
    (hst : AuthInv H D st) (hdone : ∀ t ∈ st.tiles.take cursor, t.key ∈ st.authenticated)
    (h : authenticateAll H logPrefix D.length read fuel cursor st = .ok st') :
    AuthGrows st st' ∧ ∀ t ∈ st'.tiles, TrueTile H D t := by
  induction fuel generalizing cursor st with
  | zero => simp [authenticateAll] at h
  | succ fuel ih =>
    rw [authenticateAll] at h
    split at h
    case h_1 hnone =>
      obtain rfl : st = st' := by simpa using h
      refine ⟨AuthGrows.refl st, ?_⟩
      intro t ht
      rw [List.take_of_length_le (List.getElem?_eq_none_iff.mp hnone)] at hdone
      exact hst.sound t ht (hdone t ht)
    case h_2 t hcur =>
      obtain ⟨st₁, hauth, h⟩ := bind_eq_ok.mp h
      obtain ⟨hst₁, hgrow, hkey⟩ := authenticate_sound hH hst (List.mem_of_getElem? hcur) hauth
      have hdone₁ : ∀ u ∈ st₁.tiles.take (cursor + 1), u.key ∈ st₁.authenticated := by
        obtain ⟨more, hmore⟩ := hgrow.tiles
        have hlt := (List.getElem?_eq_some_iff.mp hcur).1
        have htake : st₁.tiles.take (cursor + 1) = st.tiles.take cursor ++ [t] := by
          rw [← hmore, List.take_append_of_le_length (by omega), List.take_add_one, hcur]
          rfl
        intro u hu
        rw [htake] at hu
        rcases List.mem_append.mp hu with hu | hu
        · exact hgrow.authenticated (hdone u hu)
        · rw [List.mem_singleton.mp hu]
          exact hkey
      obtain ⟨hgrow', htrue⟩ := ih hst₁ hdone₁ h
      exact ⟨hgrow.trans hgrow', htrue⟩

/-- A returned root is the root of the first `m` entries, whatever `read` does. -/
theorem tilePrefixRoot_sound (hH : H.Ideal) {m : ℕ} (hm : 1 ≤ m) (hmn : m < D.length)
    {r : Option Digest}
    (h : authenticatedTilePrefixRoot H logPrefix D.length read (H.merkleRootFromEntries D) m =
      .ok r) : r = some (H.merkleRootFromEntries (D.take m)) := by
  unfold authenticatedTilePrefixRoot at h
  obtain ⟨⟨candidateRoot, st⟩, hcand, h⟩ := bind_eq_ok.mp h
  dsimp only at h
  split at h
  · cases h
  case isFalse hroot =>
    obtain rfl : candidateRoot = some (H.merkleRootFromEntries D) := by simpa using hroot
    have hst := authInv_of_candidate hH (by omega) hcand
    obtain ⟨⟨trustedRoot, st₁⟩, htrust, h⟩ := bind_eq_ok.mp h
    obtain ⟨st₂, hall, h⟩ := bind_eq_ok.mp h
    obtain rfl : trustedRoot = r := Except.ok.inj h
    rw [root_eq] at htrust
    have hspec := rootLoop_spec hmn.le (by simp) hst.inv htrust
    have hst₁ := hst.grow hspec.inv hspec.authenticated hspec.grows
    obtain ⟨hgrow, htrue⟩ := authenticateAll_sound hH hst₁ (by simp) hall
    refine rootLoop_true hmn.le (by omega) (by simp) hst.inv (H.suffixRoot_zero D m).symm htrust ?_
    intro t ht
    exact htrue t (hgrow.tiles.subset ht)

end Authenticate

/-! ## Completeness -/

section Complete
variable {Entry Digest : Type} {H : Sha256 Entry Digest} {logPrefix : String} {read : Reader Digest}
  {D : List Entry}

/-- `read` answers the path of every tile of the tree over `D` with its hashes, or answers a partial
path with a 404 and then the full path with a full tile that starts with them. -/
def ServesTiles (H : Sha256 Entry Digest) (D : List Entry) (logPrefix : String)
    (read : Reader Digest) : Prop :=
  ∀ (requests : List Request) (level index : ℕ),
    let width := tileWidth D.length level index
    0 < width → ∀ url, tilePath logPrefix level index (if width = 256 then none else some width) =
      .ok url →
      (∃ window, read requests (url, width * 32) = .bytes (width * 32) window ∧
        (List.range width).map window = H.tileHashes D level index) ∨
      (width ≠ 256 ∧ ∃ cause, read requests (url, width * 32) = .thrown cause ∧
        cause.kind.isC2spTlogError = true ∧ cause.status = some 404 ∧
        ∀ full, tilePath logPrefix level index none = .ok full →
          ∃ window, read (requests ++ [(url, width * 32)]) (full, 8192) = .bytes 8192 window ∧
            (List.range width).map window = H.tileHashes D level index)

theorem storeTile_fits (st : TileState Digest) (level index width responseWidth : ℕ)
    (window : ℕ → Digest) (requests : List Request) :
    storeTile st level index width responseWidth (responseWidth * 32) window requests =
      .ok (⟨level, index, (List.range width).map window⟩,
        ⟨st.tiles ++ [⟨level, index, (List.range width).map window⟩], st.authenticated, requests⟩) := by
  simp [storeTile]

theorem getTile_serves (hread : ServesTiles H D logPrefix read)
    (hsafe : isSafeInteger D.length = true) {st : TileState Digest} {level index : ℕ}
    (htrue : ∀ t ∈ st.tiles, TrueTile H D t) (hpos : 0 < tileWidth D.length level index) :
    ∃ t st', getTile logPrefix D.length read st level index = .ok (t, st') ∧
      ∀ u ∈ st'.tiles, TrueTile H D u := by
  have hindex : isSafeInteger index = true := by
    have := tileWidth_pos_index D.length level index hpos
    simp only [isSafeInteger, decide_eq_true_eq] at hsafe ⊢
    omega
  have happend : ∀ (window : ℕ → Digest),
      (List.range (tileWidth D.length level index)).map window = H.tileHashes D level index →
      ∀ u ∈ st.tiles ++ [⟨level, index, (List.range (tileWidth D.length level index)).map window⟩],
        TrueTile H D u := by
    intro window hw u hu
    rcases List.mem_append.mp hu with hu | hu
    · exact htrue u hu
    · rw [List.mem_singleton.mp hu]
      exact hw
  unfold getTile
  cases hfind : st.tiles.find? fun tile => tile.key = (level, index) with
  | some cached => exact ⟨cached, st, rfl, htrue⟩
  | none =>
    obtain ⟨url, hurl⟩ := tilePath_ok logPrefix level index
      (if tileWidth D.length level index = 256 then none else some (tileWidth D.length level index))
      hindex
    rcases hread st.requests level index hpos url hurl with
      ⟨window, hbytes, hw⟩ | ⟨hne, cause, hthrown, hclass, hstatus, hfull⟩
    · refine ⟨⟨level, index, (List.range (tileWidth D.length level index)).map window⟩,
        ⟨_, st.authenticated, st.requests ++ [(url, tileWidth D.length level index * 32)]⟩, ?_,
        happend window hw⟩
      simp only [hurl, hbytes, bind, Except.bind]
      exact storeTile_fits st level index _ _ window _
    · obtain ⟨full, hfullUrl⟩ := tilePath_ok logPrefix level index none hindex
      obtain ⟨window, hbytes, hw⟩ := hfull full hfullUrl
      refine ⟨⟨level, index, (List.range (tileWidth D.length level index)).map window⟩,
        ⟨_, st.authenticated, st.requests ++ [(url, tileWidth D.length level index * 32)] ++
          [(full, 8192)]⟩, ?_, happend window hw⟩
      simp only [hurl, hthrown, bind, Except.bind]
      rw [if_neg (by simp [hne, hclass, hstatus])]
      simp only [hfullUrl, hbytes]
      exact storeTile_fits st level index _ 256 window _

theorem rootLoop_serves (hread : ServesTiles H D logPrefix read)
    (hsafe : isSafeInteger D.length = true) (fuel size level : ℕ) {st : TileState Digest}
    (hsize : size ≤ D.length) (hst : TileInv D.length st) (htrue : ∀ t ∈ st.tiles, TrueTile H D t) :
    ∃ res st', rootLoop H logPrefix D.length read fuel level (size / 256 ^ level)
        (H.suffixRoot D size level) st = .ok (res, st') ∧ ∀ u ∈ st'.tiles, TrueTile H D u := by
  induction fuel generalizing level st with
  | zero => exact ⟨_, st, rfl, htrue⟩
  | succ fuel ih =>
    rw [rootLoop]
    by_cases h0 : size / 256 ^ level = 0
    · exact ⟨_, st, if_pos h0, htrue⟩
    · rw [if_neg h0]
      by_cases hdigit : size / 256 ^ level % 256 = 0
      · rw [if_pos hdigit, ← div_pow_succ, ← H.suffixRoot_skip D size level hdigit]
        exact ih (level + 1) hst htrue
      · rw [if_neg hdigit]
        have hpos : 0 < tileWidth D.length level (size / 256 ^ level / 256) := by
          have := tileWidth_digit D.length size level hsize
          omega
        obtain ⟨t, st₁, hget, htrue₁⟩ := getTile_serves hread hsafe htrue hpos
        obtain ⟨hst₁, hspec⟩ := getTile_spec hst hpos hget
        have ht := (htrue₁ t hspec.mem).hashes_eq hspec.key
        have hfront := H.fold_frontier D size level hsize hdigit
        have hsome := H.suffixRoot_isSome D size (level + 1)
        rw [decide_eq_true (mod_pow_succ_ne_zero size level hdigit)] at hsome
        obtain ⟨s, hs⟩ := Option.isSome_iff_exists.mp hsome
        obtain ⟨res, st', hloop, htrue'⟩ := ih (level + 1) hst₁ htrue₁
        refine ⟨res, st', ?_, htrue'⟩
        rw [← hloop, hs, div_pow_succ]
        simp only [hget, bind, Except.bind, ht, hfront, hs]

/-- The cache never holds more tiles than there are positions in the tree. -/
theorem TileInv.length_le {n : ℕ} {st : TileState Digest} (hst : TileInv n st) :
    st.tiles.length ≤ n * n := by
  have hsub : st.tiles.map Tile.key ⊆ List.range n ×ˢ List.range n := by
    intro k hk
    obtain ⟨t, ht, rfl⟩ := List.mem_map.mp hk
    have hpos := hst.pos t ht
    have hlevel := tileWidth_pos_level n t.level t.index hpos
    have hindex := tileWidth_pos_index n t.level t.index hpos
    have hlt : t.level < 256 ^ t.level := Nat.lt_pow_self (by omega)
    simp only [Tile.key, List.mem_product, List.mem_range]
    omega
  have hle := (List.subperm_of_subset hst.nodup hsub).length_le
  simpa [List.length_product] using hle

variable [DecidableEq Digest]

/-- `authenticate` succeeds on true tiles; its fuel covers the levels above the tile. -/
theorem authenticate_serves (hread : ServesTiles H D logPrefix read)
    (hsafe : isSafeInteger D.length = true) {fuel : ℕ} {t : Tile Digest} {st : TileState Digest}
    (hst : AuthInv H D st) (ht : t ∈ st.tiles) (hfuel : D.length < 256 ^ (t.level + fuel))
    (htrue : ∀ u ∈ st.tiles, TrueTile H D u) :
    ∃ st', authenticate H logPrefix D.length read fuel t st = .ok st' ∧
      ∀ u ∈ st'.tiles, TrueTile H D u := by
  induction fuel generalizing t st with
  | zero =>
    have := tileWidth_pos_level D.length t.level t.index (hst.inv.pos t ht)
    simp only [Nat.add_zero] at hfuel
    omega
  | succ fuel ih =>
    rw [authenticate]
    by_cases hmem : t.key ∈ st.authenticated
    · exact ⟨st, if_pos hmem, htrue⟩
    · rw [if_neg hmem]
      have hfull := hst.full ht hmem
      have hparent := tileWidth_parent D.length t.level t.index hfull
      obtain ⟨parent, st₁, hget, htrue₁⟩ := getTile_serves hread hsafe htrue
        (Nat.lt_of_le_of_lt (Nat.zero_le _) hparent)
      obtain ⟨hst₁, hgrow₁, hpmem, hpkey⟩ := getTile_auth hst (by omega) hget
      have hplevel : parent.level = t.level + 1 := (Prod.mk.inj hpkey).1
      obtain ⟨st₂, hauth, htrue₂⟩ := ih hst₁ hpmem
        (by rw [hplevel, Nat.add_right_comm]; exact hfuel) htrue₁
      obtain ⟨v, hv, hentry⟩ := H.fold_full D t.level t.index hfull
      have hlen : t.hashes.length = 256 := by rw [hst.inv.width t ht, hfull]
      refine ⟨{ st₂ with authenticated := st₂.authenticated ++ [t.key] }, ?_, htrue₂⟩
      have hhashes : t.hashes = H.tileHashes D t.level t.index := htrue t ht
      have hphashes := (htrue₁ parent hpmem).hashes_eq hpkey
      simp only [hget, hauth, bind, Except.bind, hlen]
      rw [hhashes, hphashes, hv, hentry]
      simp

theorem authenticateAll_serves (hH : H.Ideal) (hread : ServesTiles H D logPrefix read)
    (hsafe : isSafeInteger D.length = true) {fuel cursor : ℕ} {st : TileState Digest}
    (hst : AuthInv H D st) (htrue : ∀ u ∈ st.tiles, TrueTile H D u)
    (hcursor : cursor ≤ st.tiles.length) (hfuel : cursor + fuel = D.length * D.length + 1) :
    ∃ st', authenticateAll H logPrefix D.length read fuel cursor st = .ok st' := by
  induction fuel generalizing cursor st with
  | zero =>
    have := hst.inv.length_le
    omega
  | succ fuel ih =>
    rw [authenticateAll]
    cases hcur : st.tiles[cursor]? with
    | none => exact ⟨st, rfl⟩
    | some t =>
      have ht := List.mem_of_getElem? hcur
      have hlevels : D.length < 256 ^ (t.level + (D.length + 1)) := by
        have h1 : D.length < 256 ^ D.length := Nat.lt_pow_self (by omega)
        have h2 : 256 ^ D.length ≤ 256 ^ (t.level + (D.length + 1)) :=
          Nat.pow_le_pow_right (by omega) (by omega)
        omega
      obtain ⟨st₁, hauth, htrue₁⟩ := authenticate_serves hread hsafe hst ht hlevels htrue
      obtain ⟨hst₁, hgrow, -⟩ := authenticate_sound hH hst ht hauth
      have hlt := (List.getElem?_eq_some_iff.mp hcur).1
      have hle := hgrow.tiles.length_le
      have hrest : ∃ st', authenticateAll H logPrefix D.length read fuel (cursor + 1) st₁ = .ok st' :=
        ih hst₁ htrue₁ (by omega) (by omega)
      obtain ⟨st', hst'⟩ := hrest
      exact ⟨st', by simp only [hauth, bind, Except.bind, hst']⟩

/-- A reader that serves the true tiles makes the call return. -/
theorem tilePrefixRoot_complete (hH : H.Ideal) (hread : ServesTiles H D logPrefix read)
    (hsafe : isSafeInteger D.length = true) {m : ℕ} (hm : 1 ≤ m) (hmn : m < D.length) :
    ∃ r, authenticatedTilePrefixRoot H logPrefix D.length read (H.merkleRootFromEntries D) m =
      .ok r := by
  have hempty : TileInv D.length (⟨[], [], []⟩ : TileState Digest) := by
    constructor <;> simp
  have hcandidate := rootLoop_serves hread hsafe D.length D.length 0 le_rfl hempty (by simp)
  rw [H.suffixRoot_zero, ← root_eq] at hcandidate
  obtain ⟨res, st, hcand, htrue⟩ := hcandidate
  have hres : res = some (H.merkleRootFromEntries D) := by
    rw [root_eq] at hcand
    rw [rootLoop_true le_rfl (by omega) (by simp) hempty (H.suffixRoot_zero D _).symm hcand htrue,
      List.take_length]
  subst hres
  have hst := authInv_of_candidate hH (by omega) hcand
  have htrusted := rootLoop_serves hread hsafe m m 0 hmn.le hst.inv htrue
  rw [H.suffixRoot_zero, ← root_eq] at htrusted
  obtain ⟨trusted, st₁, htrust, htrue₁⟩ := htrusted
  have hspec := htrust
  rw [root_eq] at hspec
  have hspec := rootLoop_spec hmn.le (by simp) hst.inv hspec
  have hst₁ := hst.grow hspec.inv hspec.authenticated hspec.grows
  obtain ⟨st₂, hall⟩ := authenticateAll_serves hH hread hsafe hst₁ htrue₁ (Nat.zero_le _)
    (Nat.zero_add _)
  refine ⟨trusted, ?_⟩
  unfold authenticatedTilePrefixRoot
  simp [hcand, htrust, hall, bind, Except.bind, pure, Except.pure]

/-- **Hash-tile consistency is exact.** Against the root of `D`, a returned prefix root is the root of
the first `m` entries for every reader, and a reader that serves the tiles of `D` makes the call
return. -/
theorem authenticatedTilePrefixRoot_exact (hH : H.Ideal) (D : List Entry) (logPrefix : String) (m : ℕ)
    (hm : 1 ≤ m) (hmn : m < D.length) :
    (∀ (read : Reader Digest) (r : Option Digest),
      authenticatedTilePrefixRoot H logPrefix D.length read (H.merkleRootFromEntries D) m = .ok r →
        r = some (H.merkleRootFromEntries (D.take m))) ∧
    (isSafeInteger D.length = true → ∀ read : Reader Digest, ServesTiles H D logPrefix read →
      ∃ r, authenticatedTilePrefixRoot H logPrefix D.length read (H.merkleRootFromEntries D) m =
        .ok r) := by
  constructor
  · intro read r h
    exact tilePrefixRoot_sound hH hm hmn h
  · intro hsafe read hread
    exact tilePrefixRoot_complete hH hread hsafe hm hmn

end Complete

/-- A log of three entries that has grown since: the partial tile is gone, the full one is served. -/
def grownLog : Reader (IdealDigest (List UInt8)) := fun _ request =>
  if request.2 = 8192 then .bytes 8192 fun i => .leaf [UInt8.ofNat i]
  else .thrown ⟨.c2spTlogError, "Not Found", none, some 404⟩

theorem grownLog_serves : ServesTiles (idealSha256 (List UInt8)) [[0], [1], [2]] "log" grownLog := by
  intro requests level index width hpos url _
  have hlevel : level = 0 := by
    have hle := tileWidth_pos_level 3 level index hpos
    by_contra hne
    have hpow : 256 ^ 1 ≤ 256 ^ level := Nat.pow_le_pow_right (by omega) (by omega)
    omega
  subst hlevel
  have hindex : index = 0 := by
    simp only [width, tileWidth] at hpos
    simp at hpos
    omega
  subst hindex
  right
  refine ⟨by decide, _, rfl, rfl, rfl, ?_⟩
  intro full _
  exact ⟨_, rfl, by decide⟩

theorem authenticatedTilePrefixRoot_grownLog :
    ∃ r, authenticatedTilePrefixRoot (idealSha256 (List UInt8)) "log" 3 grownLog
        ((idealSha256 (List UInt8)).merkleRootFromEntries [[0], [1], [2]]) 2 = .ok r ∧
      r = some ((idealSha256 (List UInt8)).merkleRootFromEntries [[0], [1]]) := by
  have h := authenticatedTilePrefixRoot_exact (idealSha256_ideal (List UInt8)) [[0], [1], [2]] "log" 2
    (by decide) (by decide)
  obtain ⟨r, hr⟩ := h.2 (by decide) grownLog grownLog_serves
  exact ⟨r, hr, h.1 grownLog r hr⟩

end Dnsid.Merkle

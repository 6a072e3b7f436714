import Mathlib.Data.List.Basic
import Dnsid.Foundations.ExceptRun
import Dnsid.Merkle.TilePath
import Dnsid.Protocol.Encoding

/-! # Entry bundles (`log-c2sp-tlog/src/tiles.ts`)

The bundle codec and the paths bundles are served at. Each side of the codec undoes the other, and two bundles of one
log never share a path: the digits of a path are those of the bundle number, with zeros before them.
-/
namespace Dnsid.Scan
open Dnsid.Foundations Dnsid.Merkle Dnsid.Protocol
set_option autoImplicit false

/-! ## The codec -/

/-- `(bytes[off] << 8) | bytes[off + 1]`. -/
def entryLength (hi lo : UInt8) : ℕ := hi.toNat * 256 + lo.toNat

def parseEntryBundle : Bytes → Except Thrown (List Bytes)
  | [] => .ok []
  | [_] => .error (.parseError "truncated entry bundle length")
  | hi :: lo :: rest => do
    throwIf (rest.length < entryLength hi lo) (.parseError "truncated entry bundle entry")
    let out ← parseEntryBundle (rest.drop (entryLength hi lo))
    return rest.take (entryLength hi lo) :: out
  termination_by bytes => bytes.length

def encodeEntryBundle : List Bytes → Except Thrown Bytes
  | [] => .ok []
  | e :: entries => do
    throwIf (0xffff < e.length) (.parseError "entry too large for bundle")
    let out ← encodeEntryBundle entries
    return UInt8.ofNat (e.length / 256) :: UInt8.ofNat (e.length % 256) :: (e ++ out)

/-- The number of bytes of the bundle of `entries`. -/
def bundleSize (entries : List Bytes) : ℕ := entries.foldr (fun e n => 2 + e.length + n) 0

theorem bundleSize_append (es fs : List Bytes) : bundleSize (es ++ fs) = bundleSize es + bundleSize fs := by
  induction es with
  | nil => simp [bundleSize]
  | cons e es ih =>
    have hcons : ∀ l, bundleSize (e :: l) = 2 + e.length + bundleSize l := fun _ => rfl
    rw [List.cons_append, hcons, hcons, ih, ← Nat.add_assoc]

theorem encodeEntryBundle_ok {entries : List Bytes} (h : ∀ e ∈ entries, e.length ≤ 0xffff) :
    ∃ bundle, encodeEntryBundle entries = .ok bundle ∧ bundle.length = bundleSize entries := by
  induction entries with
  | nil => exact ⟨[], rfl, rfl⟩
  | cons e entries ih =>
    obtain ⟨out, hout, hlen⟩ := ih fun f hf => h f (List.mem_cons_of_mem _ hf)
    have he := h e List.mem_cons_self
    refine ⟨.ofNat (e.length / 256) :: .ofNat (e.length % 256) :: (e ++ out), ?_, ?_⟩
    · rw [encodeEntryBundle, throwIf_bind (by omega), hout, ok_bind]
      rfl
    · simp only [List.length_cons, List.length_append, hlen, bundleSize, List.foldr_cons]
      omega

/-- The two bytes of a length give it back. -/
theorem entryLength_bytes {n : ℕ} (h : n ≤ 0xffff) : entryLength (UInt8.ofNat (n / 256)) (UInt8.ofNat (n % 256)) = n := by
  rw [entryLength, UInt8.toNat_ofNat', UInt8.toNat_ofNat']
  omega

theorem parseEntryBundle_encodeEntryBundle {entries : List Bytes} {bundle : Bytes}
    (h : encodeEntryBundle entries = .ok bundle) : parseEntryBundle bundle = .ok entries := by
  induction entries generalizing bundle with
  | nil =>
    cases h
    rw [parseEntryBundle]
  | cons e entries ih =>
    simp only [encodeEntryBundle, bind_eq_ok, throwIf_eq_ok, pure_eq_ok] at h
    obtain ⟨-, he, out, hout, rfl⟩ := h
    rw [parseEntryBundle, entryLength_bytes (by omega), throwIf_bind (by simp), List.drop_left, ih hout, ok_bind, List.take_left]
    rfl

theorem encodeEntryBundle_parseEntryBundle {bytes : Bytes} {entries : List Bytes}
    (h : parseEntryBundle bytes = .ok entries) : encodeEntryBundle entries = .ok bytes := by
  induction bytes using parseEntryBundle.induct generalizing entries with
  | case1 =>
    rw [parseEntryBundle] at h
    cases h
    rfl
  | case2 b =>
    rw [parseEntryBundle] at h
    cases h
  | case3 hi lo rest ih =>
    rw [parseEntryBundle] at h
    simp only [bind_eq_ok, throwIf_eq_ok, pure_eq_ok] at h
    obtain ⟨-, hlen, out, hout, rfl⟩ := h
    have htaken : (rest.take (entryLength hi lo)).length = entryLength hi lo := List.length_take_of_le (by omega)
    have hsmall : entryLength hi lo = hi.toNat * 256 + lo.toNat := rfl
    have hhi := hi.toNat_lt
    have hlo := lo.toNat_lt
    rw [encodeEntryBundle, htaken, throwIf_bind (by omega), ih hout, ok_bind]
    have hdiv : UInt8.ofNat (entryLength hi lo / 256) = hi := by
      rw [show entryLength hi lo / 256 = hi.toNat by omega, UInt8.ofNat_toNat]
    have hmod : UInt8.ofNat (entryLength hi lo % 256) = lo := by
      rw [show entryLength hi lo % 256 = lo.toNat by omega, UInt8.ofNat_toNat]
    rw [hdiv, hmod, List.take_append_drop]
    rfl

/-! ## Paths -/

/-- URL of a log's current checkpoint. -/
def checkpointPath (logPrefix : String) : String := logPrefix ++ "/checkpoint"

/-- URL of entry bundle `n`; `width` selects a partial bundle. -/
def entryBundlePath (logPrefix : String) (n : ℕ) (width : Option ℕ) : Except Thrown String := do
  let tile ← tileN n
  return logPrefix ++ "/tile/entries/" ++ tile ++ partialSuffix width

theorem toChunks_go {α : Type} (n : ℕ) (xs : List α) (acc₁ : Array α) (acc₂ : Array (List α)) :
    List.toChunks.go n xs acc₁ acc₂ = acc₂.toList ++ List.toChunks.go n xs acc₁ #[] := by
  induction xs generalizing acc₁ acc₂ with
  | nil => simp [List.toChunks.go]
  | cons x xs ih =>
    rw [List.toChunks.go, List.toChunks.go]
    split
    · rw [ih, ih _ (#[].push _)]
      simp
    · rw [ih]

theorem toChunks_three {α : Type} (a b c : α) (rest : List α) :
    (a :: b :: c :: rest).toChunks 3 = [a, b, c] :: rest.toChunks 3 := by
  cases rest with
  | nil => rfl
  | cons d rest =>
    have hgo : (a :: b :: c :: d :: rest).toChunks 3 = List.toChunks.go 3 rest #[d] #[[a, b, c]] := rfl
    rw [hgo, toChunks_go]
    rfl

/-- Padding the groups puts zeros before the first only. -/
theorem padded_groups (digits : List Char) :
    ∃ k, ((groupsOfThree digits).map padStart3).flatten = List.replicate k '0' ++ digits := by
  have hrev : ∀ n, ∀ l : List Char, l.length = n → ∃ k, ((groupsOfThree l.reverse).map padStart3).flatten =
      List.replicate k '0' ++ l.reverse := by
    intro n
    induction n using Nat.strong_induction_on with
    | h n ih =>
      intro l hl
      rcases l with _ | ⟨a, _ | ⟨b, _ | ⟨c, l⟩⟩⟩
      · exact ⟨0, rfl⟩
      · exact ⟨2, rfl⟩
      · exact ⟨1, rfl⟩
      · -- the three digits on the right are a group of their own
        have hgroups : groupsOfThree (a :: b :: c :: l).reverse = groupsOfThree l.reverse ++ [[c, b, a]] := by
          rw [groupsOfThree, groupsOfThree, List.reverse_reverse, List.reverse_reverse, toChunks_three, List.map_cons,
            List.reverse_cons]
          rfl
        obtain ⟨k, hk⟩ := ih l.length (by simp only [List.length_cons] at hl; omega) l rfl
        refine ⟨k, ?_⟩
        rw [hgroups, List.map_append, List.flatten_append, hk]
        simp [padStart3]
  simpa using hrev _ digits.reverse rfl

theorem filter_intercalate {p : Char → Bool} {sep : List Char} (hsep : sep.filter p = []) (ls : List (List Char)) :
    (sep.intercalate ls).filter p = (ls.map (List.filter p)).flatten := by
  induction ls with
  | nil => rfl
  | cons l ls ih =>
    cases ls with
    | nil => simp
    | cons m ls =>
      rw [List.intercalate_cons_cons, List.filter_append, List.filter_append, hsep, ih, List.append_nil]
      rfl

/-- The characters of a path that are digits or the dot of a partial tile. -/
def isTileChar (c : Char) : Bool := c.isDigit || c = '.'

theorem filter_segments {groups : List (List Char)}
    (h : ∀ g ∈ groups, (padStart3 g).filter isTileChar = padStart3 g) :
    ("/".intercalate (groups.mapIdx fun i g =>
      (if i = groups.length - 1 then "" else "x") ++ String.ofList (padStart3 g))).toList.filter isTileChar =
      (groups.map padStart3).flatten := by
  rw [String.toList_intercalate, filter_intercalate (by decide), List.map_map]
  congr 1
  apply List.ext_getElem?
  intro i
  rw [List.getElem?_map, List.getElem?_map, List.getElem?_mapIdx]
  cases hg : groups[i]? with
  | none => rfl
  | some g =>
    have hx : ∀ b : Prop, [Decidable b] → (if b then "" else "x").toList.filter isTileChar = [] := by
      intro b _
      split <;> decide
    simp [hx, h g (List.mem_of_getElem? hg)]

/-- What the groups leave of a number: its digits after some zeros. -/
theorem filter_tileN {n : ℕ} {tile : String} (h : tileN n = .ok tile) :
    ∃ k, tile.toList.filter isTileChar = List.replicate k '0' ++ Nat.toDigits 10 n := by
  rw [tileN] at h
  split at h
  · cases h
  · cases h
    obtain ⟨k, hk⟩ := padded_groups (padStart3 (Nat.toDigits 10 n))
    refine ⟨k + (3 - (Nat.toDigits 10 n).length), ?_⟩
    rw [filter_segments, hk, padStart3, List.replicate_add, List.append_assoc]
    intro g hg
    rw [List.filter_eq_self]
    intro c hc
    have hmem := List.mem_flatten.mpr ⟨_, List.mem_map_of_mem hg, hc⟩
    rw [hk, padStart3, ← List.append_assoc] at hmem
    rcases List.mem_append.mp hmem with hzero | hdigit
    · have hc0 : c = '0' := by
        rcases List.mem_append.mp hzero with hzero | hzero
        · exact List.eq_of_mem_replicate hzero
        · exact List.eq_of_mem_replicate hzero
      rw [hc0]
      decide
    · rw [isTileChar, Nat.isDigit_of_mem_toDigits (by decide) (by decide) hdigit, Bool.true_or]

/-- The number whose digits stand in a path before its dot. -/
def tileNumber (path : List Char) : ℕ := Nat.ofDigitChars 10 ((path.filter isTileChar).takeWhile Char.isDigit) 0

theorem tileNumber_tileN {n : ℕ} {tile : String} (h : tileN n = .ok tile) (width : Option ℕ) :
    tileNumber (tile.toList ++ (partialSuffix width).toList) = n := by
  obtain ⟨k, hk⟩ := filter_tileN h
  have hdigits : ∀ c ∈ List.replicate k '0' ++ Nat.toDigits 10 n, c.isDigit = true := by
    intro c hc
    rcases List.mem_append.mp hc with hc | hc
    · rw [List.eq_of_mem_replicate hc]
      decide
    · exact Nat.isDigit_of_mem_toDigits (by decide) (by decide) hc
  have hsuffix : ((partialSuffix width).toList.filter isTileChar).takeWhile Char.isDigit = [] := by
    cases width with
    | none => rfl
    | some w =>
      have hdot : (partialSuffix (some w)).toList = '.' :: 'p' :: '/' :: (toString w).toList := by
        rw [partialSuffix, String.toList_append]
        rfl
      rw [hdot, List.filter_cons_of_pos (by decide), List.takeWhile_cons_of_neg (by decide)]
  rw [tileNumber, List.filter_append, hk, List.takeWhile_append_of_pos hdigits, hsuffix, List.append_nil,
    Nat.ofDigitChars_append, Nat.ofDigitChars_replicate_zero, Nat.mul_zero, Nat.ofDigitChars_ten_toDigits]

theorem entryBundlePath_eq {logPrefix url : String} {n : ℕ} {width : Option ℕ}
    (h : entryBundlePath logPrefix n width = .ok url) :
    ∃ tile, tileN n = .ok tile ∧ url = logPrefix ++ "/tile/entries/" ++ tile ++ partialSuffix width := by
  simp only [entryBundlePath, bind_eq_ok, pure_eq_ok] at h
  obtain ⟨tile, htile, rfl⟩ := h
  exact ⟨tile, htile, rfl⟩

theorem entryBundlePath_ok (logPrefix : String) {n : ℕ} (width : Option ℕ) (h : isSafeInteger n = true) :
    ∃ url, entryBundlePath logPrefix n width = .ok url := by
  obtain ⟨tile, htile⟩ := tileN_ok n h
  exact ⟨_, by rw [entryBundlePath, htile, ok_bind]; rfl⟩

/-- Two bundles have two paths, full or partial. -/
theorem entryBundlePath_injective {logPrefix url : String} {n m : ℕ} {width width' : Option ℕ}
    (hn : entryBundlePath logPrefix n width = .ok url) (hm : entryBundlePath logPrefix m width' = .ok url) : n = m := by
  obtain ⟨tile, htile, hurl⟩ := entryBundlePath_eq hn
  obtain ⟨tile', htile', hurl'⟩ := entryBundlePath_eq hm
  have hsame : tile.toList ++ (partialSuffix width).toList = tile'.toList ++ (partialSuffix width').toList := by
    have hlists := congrArg String.toList (hurl.symm.trans hurl')
    simp only [String.toList_append, List.append_assoc] at hlists
    exact List.append_cancel_left (List.append_cancel_left hlists)
  calc n = tileNumber (tile.toList ++ (partialSuffix width).toList) := (tileNumber_tileN htile width).symm
    _ = tileNumber (tile'.toList ++ (partialSuffix width').toList) := by rw [hsame]
    _ = m := tileNumber_tileN htile' width'

theorem entryBundlePath_ne_checkpointPath {logPrefix url : String} {n : ℕ} {width : Option ℕ}
    (h : entryBundlePath logPrefix n width = .ok url) : url ≠ checkpointPath logPrefix := by
  obtain ⟨tile, -, rfl⟩ := entryBundlePath_eq h
  intro heq
  have hlists := congrArg String.toList heq
  simp only [checkpointPath, String.toList_append, List.append_assoc] at hlists
  have hrest := List.append_cancel_left hlists
  exact absurd (congrArg (fun l => l.take 2) hrest) (by simp)

end Dnsid.Scan

import Dnsid.Merkle.TilePath

/-! # Candidate-authenticated hash tiles (`log-c2sp-tlog/src/hash-tiles.ts`)

`read` is injected. It may be stateful, so it sees the list of earlier requests; what it returns is the
length of the bytes and their 32-byte windows, or the value it throws.

The `Map` of tiles is a list in insertion order. Tiles are never replaced, so the `Set` of authenticated
tile objects is a list of their keys. Three loops carry fuel: `fold` (the number of hashes bounds the
depth), the recursion of `authenticate` (bounded by the tree size, hence by its height) and the loop
over the tiles, which grows while it is iterated (at most `treeSize` levels of `treeSize` tiles).

`width` is a truncated subtraction; no run asks for a tile that starts beyond the tree.
-/
namespace Dnsid.Merkle
open Dnsid.Foundations
set_option autoImplicit false

/-- What a call of `read` gives back. -/
inductive ReadResult (Digest : Type) where
  | bytes (length : ℕ) (window : ℕ → Digest)
  | thrown (cause : Thrown)

abbrev Request := String × ℕ

abbrev Reader (Digest : Type) := List Request → Request → ReadResult Digest

structure Tile (Digest : Type) where
  level : ℕ
  index : ℕ
  hashes : List Digest

def Tile.key {Digest : Type} (tile : Tile Digest) : ℕ × ℕ := (tile.level, tile.index)

/-- The local variables of a call that its closures share. -/
structure TileState (Digest : Type) where
  tiles : List (Tile Digest)
  authenticated : List (ℕ × ℕ)
  requests : List Request

/-- The number of hashes that tile `index` of `level` holds in a tree of `treeSize` entries. -/
def tileWidth (treeSize level index : ℕ) : ℕ := min 256 (treeSize / 256 ^ level - index * 256)

/-- `while (split * 2 < hashes.length) split *= 2`. -/
def splitLoop : ℕ → ℕ → ℕ → ℕ
  | 0, split, _ => split
  | fuel + 1, split, length => if split * 2 < length then splitLoop fuel (split * 2) length else split

namespace Sha256

variable {Entry Digest : Type} (H : Sha256 Entry Digest)

/-- Folds equal-height hashes with an optional smaller right-hand subtree; `none` for the empty list,
on which the source does not return. -/
def foldLoop : ℕ → List Digest → Option Digest → Option Digest
  | 0, _, _ => none
  | fuel + 1, hashes, suffix =>
    match hashes with
    | [] => none
    | [hash] =>
      match suffix with
      | some s => some (H.nodeHash hash s)
      | none => some hash
    | hashes@(_ :: _ :: _) =>
      let split := splitLoop hashes.length 1 hashes.length
      match suffix with
      | some s =>
        if split * 2 = hashes.length then do
          let left ← foldLoop fuel hashes none
          return H.nodeHash left s
        else do
          let left ← foldLoop fuel (hashes.take split) none
          let right ← foldLoop fuel (hashes.drop split) (some s)
          return H.nodeHash left right
      | none => do
        let left ← foldLoop fuel (hashes.take split) none
        let right ← foldLoop fuel (hashes.drop split) none
        return H.nodeHash left right

def fold (hashes : List Digest) (suffix : Option Digest) : Option Digest :=
  H.foldLoop (hashes.length + 1) hashes suffix

end Sha256

section Model
variable {Entry Digest : Type} (H : Sha256 Entry Digest) (logPrefix : String) (treeSize : ℕ)
  (read : Reader Digest)

/-- The end of `get`: check the length of the response and keep its first `width` hashes. -/
def storeTile (st : TileState Digest) (level index width responseWidth length : ℕ)
    (window : ℕ → Digest) (requests : List Request) :
    Except Thrown (Tile Digest × TileState Digest) :=
  if length ≠ responseWidth * 32 then .error (.verificationError "C2SP hash tile width mismatch")
  else
    let tile : Tile Digest := ⟨level, index, (List.range width).map window⟩
    .ok (tile, ⟨st.tiles ++ [tile], st.authenticated, requests⟩)

/-- `get`: the cached tile, or the tile read from its partial path and, after a 404 there, from its
full path. -/
def getTile (st : TileState Digest) (level index : ℕ) :
    Except Thrown (Tile Digest × TileState Digest) :=
  match st.tiles.find? fun tile => tile.key = (level, index) with
  | some cached => .ok (cached, st)
  | none => do
    let width := tileWidth treeSize level index
    let url ← tilePath logPrefix level index (if width = 256 then none else some width)
    let requests := st.requests ++ [(url, width * 32)]
    match read st.requests (url, width * 32) with
    | .bytes length window => storeTile st level index width width length window requests
    | .thrown cause =>
      if width = 256 || !cause.kind.isC2spTlogError || cause.status ≠ some 404 then .error cause
      else do
        let full ← tilePath logPrefix level index none
        match read requests (full, 8192) with
        | .bytes length window =>
          storeTile st level index width 256 length window (requests ++ [(full, 8192)])
        | .thrown cause => .error cause

/-- The frontier loop of `root`; `count` is `size` divided by `256 ^ level`. -/
def rootLoop : ℕ → ℕ → ℕ → Option Digest → TileState Digest →
    Except Thrown (Option Digest × TileState Digest)
  | 0, _, _, suffix, st => .ok (suffix, st)
  | fuel + 1, level, count, suffix, st =>
    if count = 0 then .ok (suffix, st)
    else if count % 256 = 0 then rootLoop fuel (level + 1) (count / 256) suffix st
    else do
      let (tile, st) ← getTile logPrefix treeSize read st level (count / 256)
      match H.fold (tile.hashes.take (count % 256)) suffix with
      | none => .error (.other "Maximum call stack size exceeded")
      | some s => rootLoop fuel (level + 1) (count / 256) (some s) st

def root (size : ℕ) (st : TileState Digest) : Except Thrown (Option Digest × TileState Digest) :=
  rootLoop H logPrefix treeSize read size 0 size none st

variable [DecidableEq Digest]

def unauthenticatedTile : Thrown :=
  .verificationError "C2SP hash tile does not authenticate against the candidate root"

def authenticate : ℕ → Tile Digest → TileState Digest → Except Thrown (TileState Digest)
  | 0, _, _ => .error (.other "Maximum call stack size exceeded")
  | fuel + 1, tile, st =>
    if tile.key ∈ st.authenticated then .ok st
    else do
      let (parent, st) ← getTile logPrefix treeSize read st (tile.level + 1) (tile.index / 256)
      let st ← authenticate fuel parent st
      if tile.hashes.length ≠ 256 then .error unauthenticatedTile
      else
        match H.fold tile.hashes none, parent.hashes[tile.index % 256]? with
        | some hash, some entry =>
          if hash = entry then .ok { st with authenticated := st.authenticated ++ [tile.key] }
          else .error unauthenticatedTile
        | _, _ => .error (.other "The first argument must be of type string or an instance of Buffer")

/-- `for (const tile of tiles.values()) await authenticate(tile)`, from position `cursor` on. -/
def authenticateAll : ℕ → ℕ → TileState Digest → Except Thrown (TileState Digest)
  | 0, _, _ => .error (.other "unreachable")
  | fuel + 1, cursor, st =>
    match st.tiles[cursor]? with
    | none => .ok st
    | some tile => do
      let st ← authenticate H logPrefix treeSize read (treeSize + 1) tile st
      authenticateAll fuel (cursor + 1) st

/-- Computes a trusted prefix root using only candidate-authenticated tiles. The result is `none` only
for the size `0`, where the source returns `undefined`. -/
def authenticatedTilePrefixRoot (rootHash : Digest) (trustedSize : ℕ) :
    Except Thrown (Option Digest) := do
  let (candidateRoot, st) ← root H logPrefix treeSize read treeSize ⟨[], [], []⟩
  if candidateRoot ≠ some rootHash then
    .error (.verificationError "C2SP hash tiles do not reproduce the candidate root")
  else
    let st := { st with authenticated := st.tiles.map Tile.key }
    let (trustedRoot, st) ← root H logPrefix treeSize read trustedSize st
    let _ ← authenticateAll H logPrefix treeSize read (treeSize * treeSize + 1) 0 st
    return trustedRoot

end Model

end Dnsid.Merkle

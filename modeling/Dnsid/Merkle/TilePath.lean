import Dnsid.Errors
import Dnsid.Merkle.Hashing

/-! # Tile paths (`log-c2sp-tlog/src/tiles.ts`) -/
namespace Dnsid.Merkle
set_option autoImplicit false

/-- `padStart(3, '0')`. -/
def padStart3 (digits : List Char) : List Char := List.replicate (3 - digits.length) '0' ++ digits

/-- Split off groups of three characters from the right, as the `replace` with the lookahead for
`(\d{3})+$` and the `split('/')` do together. -/
def groupsOfThree (digits : List Char) : List (List Char) :=
  ((digits.reverse.toChunks 3).map List.reverse).reverse

/-- The `x`-prefixed base-1000 path segments of a tile number. -/
def tileN (n : ℕ) : Except Thrown String :=
  if !isSafeInteger n then .error (.parseError "invalid C2SP tile number")
  else
    let groups := groupsOfThree (padStart3 (Nat.toDigits 10 n))
    .ok ("/".intercalate (groups.mapIdx fun i g =>
      (if i = groups.length - 1 then "" else "x") ++ String.ofList (padStart3 g)))

/-- `.p/<width>` for a partial tile. -/
def partialSuffix : Option ℕ → String
  | none => ""
  | some width => ".p/" ++ toString width

/-- URL of hash tile `n` at `level`; `width` selects a partial tile. -/
def tilePath (logPrefix : String) (level n : ℕ) (width : Option ℕ) : Except Thrown String := do
  let tile ← tileN n
  return logPrefix ++ "/tile/" ++ toString level ++ "/" ++ tile ++ partialSuffix width

theorem tileN_ok (n : ℕ) (h : isSafeInteger n = true) : ∃ s, tileN n = .ok s := by
  simp [tileN, h]

theorem tilePath_ok (logPrefix : String) (level n : ℕ) (width : Option ℕ)
    (h : isSafeInteger n = true) : ∃ url, tilePath logPrefix level n width = .ok url := by
  obtain ⟨s, hs⟩ := tileN_ok n h
  simp [tilePath, hs, bind, Except.bind, pure, Except.pure]

end Dnsid.Merkle

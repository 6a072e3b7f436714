import Dnsid.Foundations.HashTree
import Mathlib.Tactic.Ring
import Mathlib.Tactic.Linarith

/-! # Reducing a list by pairing neighbours

`pairUp node` joins neighbours and promotes an odd last element; `levelRoot node` repeats it until one
element is left. This is the bottom-up construction of a Merkle root, over an arbitrary `node`.

* `levelRoot_append`: a block of `2 ^ k` elements followed by at most as many is one `node`.
* `levelRoot_map`: the reduction commutes with homomorphisms, so it can be run in `HashTree`.
* `auditSteps node l i`: the siblings met from position `i` to the root. `climb_auditSteps` says the
  climb ends in the root; `leaf_path` is the converse in the free algebra.
-/
namespace Dnsid.Foundations
set_option autoImplicit false

variable {D E : Type*}

/-! ## One level -/

def pairUp (node : D → D → D) : List D → List D
  | a :: b :: rest => node a b :: pairUp node rest
  | [a] => [a]
  | [] => []

@[simp] theorem pairUp_length (node : D → D → D) :
    ∀ l : List D, (pairUp node l).length = (l.length + 1) / 2
  | a :: b :: rest => by
    simp only [pairUp, List.length_cons, pairUp_length node rest]
    omega
  | [a] => by simp [pairUp]
  | [] => by simp [pairUp]

theorem pairUp_map (node : D → D → D) (node' : E → E → E) (f : E → D)
    (hf : ∀ a b, f (node' a b) = node (f a) (f b)) :
    ∀ l : List E, pairUp node (l.map f) = (pairUp node' l).map f
  | a :: b :: rest => by simp [pairUp, hf, pairUp_map node node' f hf rest]
  | [a] => rfl
  | [] => rfl

theorem pairUp_append (node : D → D → D) :
    ∀ xs ys : List D, xs.length % 2 = 0 → pairUp node (xs ++ ys) = pairUp node xs ++ pairUp node ys
  | a :: b :: rest, ys, h => by
    have hrest : rest.length % 2 = 0 := by
      simp only [List.length_cons] at h
      omega
    simp [pairUp, pairUp_append node rest ys hrest]
  | [a], ys, h => by simp at h
  | [], ys, _ => rfl

/-- An element of the next level joins two neighbours, or is a promoted last element. -/
theorem pairUp_getElem_cases (node : D → D → D) :
    ∀ (l : List D) (j : ℕ) (v : D), (pairUp node l)[j]? = some v →
      (∃ a b, l[2 * j]? = some a ∧ l[2 * j + 1]? = some b ∧ v = node a b) ∨
        (l[2 * j]? = some v ∧ l[2 * j + 1]? = none)
  | a :: b :: rest, 0, v, h => by
    left
    exact ⟨a, b, rfl, rfl, by simpa [pairUp] using h.symm⟩
  | a :: b :: rest, j + 1, v, h => by
    have h' : (pairUp node rest)[j]? = some v := by simpa [pairUp] using h
    have e : 2 * (j + 1) = 2 * j + 1 + 1 := by omega
    simpa [e] using pairUp_getElem_cases node rest j v h'
  | [a], 0, v, h => by
    right
    exact ⟨by simpa [pairUp] using h, rfl⟩
  | [a], j + 1, v, h => by simp [pairUp] at h
  | [], j, v, h => by simp [pairUp] at h

/-! ## All levels -/

/-- Repeat `pairUp` until at most one element is left; `fuel` bounds the number of levels. -/
def reduceLevels (node : D → D → D) : ℕ → List D → List D
  | 0, l => l
  | fuel + 1, l => if 1 < l.length then reduceLevels node fuel (pairUp node l) else l

/-- A level of `n` elements is reduced after `n` rounds, so more fuel changes nothing. -/
theorem reduceLevels_fuel (node : D → D → D) (fuel : ℕ) :
    ∀ (l : List D) (extra : ℕ), l.length ≤ fuel →
      reduceLevels node (fuel + extra) l = reduceLevels node fuel l := by
  induction fuel with
  | zero =>
    intro l extra hl
    have hnil : l = [] := List.eq_nil_of_length_eq_zero (by omega)
    subst hnil
    cases extra <;> simp [reduceLevels]
  | succ fuel ih =>
    intro l extra hl
    have e : fuel + 1 + extra = fuel + extra + 1 := by omega
    rw [e, reduceLevels, reduceLevels]
    split
    · exact ih _ extra (by rw [pairUp_length]; omega)
    · rfl

/-- The last element left, or `none` for the empty level. -/
def levelRoot (node : D → D → D) (l : List D) : Option D :=
  (reduceLevels node l.length l).head?

@[simp] theorem levelRoot_nil (node : D → D → D) : levelRoot node [] = none := rfl

@[simp] theorem levelRoot_singleton (node : D → D → D) (a : D) : levelRoot node [a] = some a := rfl

theorem levelRoot_step (node : D → D → D) (l : List D) (h : 1 < l.length) :
    levelRoot node l = levelRoot node (pairUp node l) := by
  obtain ⟨n, hn⟩ : ∃ n, l.length = n + 1 := ⟨l.length - 1, by omega⟩
  have hlen : (pairUp node l).length ≤ n := by rw [pairUp_length]; omega
  have e : n = (pairUp node l).length + (n - (pairUp node l).length) := by omega
  unfold levelRoot
  rw [hn, reduceLevels, if_pos h, e, reduceLevels_fuel _ _ _ _ le_rfl]

/-- One more level never changes the root. -/
theorem levelRoot_pairUp (node : D → D → D) (l : List D) :
    levelRoot node (pairUp node l) = levelRoot node l := by
  by_cases h : 1 < l.length
  · exact (levelRoot_step node l h).symm
  · match l, h with
    | [], _ => rfl
    | [a], _ => rfl
    | a :: b :: rest, h => simp at h

/-- Induction from the root level down to the leaves. -/
theorem level_induction (node : D → D → D) {P : List D → Prop} (one : ∀ a, P [a])
    (up : ∀ l, 1 < l.length → P (pairUp node l) → P l) : ∀ l, l ≠ [] → P l := by
  intro l
  induction hn : l.length using Nat.strong_induction_on generalizing l with
  | _ n ih =>
    intro hne
    have hpos : 0 < l.length := List.length_pos_iff.mpr hne
    by_cases h : 1 < l.length
    · refine up l h (ih (pairUp node l).length ?_ _ rfl ?_)
      · rw [pairUp_length]; omega
      · intro he
        have hz := congrArg List.length he
        rw [pairUp_length, List.length_nil] at hz
        omega
    · obtain ⟨a, rfl⟩ := List.length_eq_one_iff.mp (by omega : l.length = 1)
      exact one a

theorem levelRoot_isSome (node : D → D → D) (l : List D) (hl : l ≠ []) :
    ∃ r, levelRoot node l = some r := by
  refine level_induction node (P := fun l => ∃ r, levelRoot node l = some r) ?_ ?_ l hl
  · exact fun a => ⟨a, rfl⟩
  · intro l h ih
    rwa [levelRoot_step node l h]

theorem levelRoot_map (node : D → D → D) (node' : E → E → E) (f : E → D)
    (hf : ∀ a b, f (node' a b) = node (f a) (f b)) (l : List E) :
    levelRoot node (l.map f) = (levelRoot node' l).map f := by
  by_cases hl : l = []
  · subst hl; rfl
  · refine level_induction node' (P := fun l => levelRoot node (l.map f) = (levelRoot node' l).map f)
      (fun a => rfl) ?_ l hl
    intro l h ih
    rw [levelRoot_step node' l h, ← ih, ← pairUp_map node node' f hf l, levelRoot_pairUp]

/-- A full block of `2 ^ k` elements followed by at most `2 ^ k` more splits at the block. -/
theorem levelRoot_append (node : D → D → D) (k : ℕ) :
    ∀ (xs ys : List D) (x y : D), xs.length = 2 ^ k → ys.length ≤ 2 ^ k →
      levelRoot node xs = some x → levelRoot node ys = some y →
      levelRoot node (xs ++ ys) = some (node x y) := by
  induction k with
  | zero =>
    intro xs ys x y hx hy hrx hry
    obtain ⟨a, rfl⟩ := List.length_eq_one_iff.mp (by simpa using hx : xs.length = 1)
    match ys, hy, hry with
    | [b], _, hry =>
      simp only [levelRoot_singleton, Option.some.injEq] at hrx hry
      subst hrx hry
      rfl
    | [], _, hry => simp at hry
    | b :: c :: rest, hy, _ => simp at hy
  | succ k ih =>
    intro xs ys x y hx hy hrx hry
    have hpow : 2 ^ (k + 1) = 2 * 2 ^ k := by ring
    have hpos : 0 < 2 ^ k := Nat.two_pow_pos k
    rw [← levelRoot_pairUp, pairUp_append node xs ys (by omega)]
    refine ih _ _ x y ?_ ?_ ?_ ?_
    · rw [pairUp_length]; omega
    · rw [pairUp_length]; omega
    · rwa [levelRoot_pairUp]
    · rwa [levelRoot_pairUp]

/-! ## The tree of a list -/

theorem leaves_pairUp {α : Type*} : ∀ ts : List (HashTree α),
    (pairUp .node ts).flatMap HashTree.leaves = ts.flatMap HashTree.leaves
  | a :: b :: rest => by simp [pairUp, HashTree.leaves, leaves_pairUp rest]
  | [a] => rfl
  | [] => rfl

theorem leaves_levelRoot {α : Type*} (ts : List (HashTree α)) (t : HashTree α)
    (h : levelRoot .node ts = some t) : t.leaves = ts.flatMap HashTree.leaves := by
  have hne : ts ≠ [] := by rintro rfl; simp at h
  revert h
  refine level_induction .node (P := fun ts => levelRoot .node ts = some t →
    t.leaves = ts.flatMap HashTree.leaves) ?_ ?_ ts hne
  · intro a h
    simp only [levelRoot_singleton, Option.some.injEq] at h
    simp [h]
  · intro ts hlen ih h
    rw [← leaves_pairUp]
    exact ih (by rwa [levelRoot_pairUp])

/-! ## Audit paths -/

/-- The sibling of position `i` inside its own level, if it has one there. -/
def siblingStep (l : List D) (i : ℕ) : Option (Side × D) :=
  if i % 2 = 1 then l[i - 1]?.map fun s => (.left, s) else l[i + 1]?.map fun s => (.right, s)

/-- The side of that sibling, which only depends on the size of the level. -/
def siblingSide (n i : ℕ) : Option Side :=
  if i % 2 = 1 then some .left else if i + 1 < n then some .right else none

/-- All siblings from position `i` up to the root, lowest first. A promoted element has none on its
level, so the path can be shorter than the tree is high. -/
def auditSteps (node : D → D → D) (l : List D) (i : ℕ) : List (Side × D) :=
  if 1 < l.length then (siblingStep l i).toList ++ auditSteps node (pairUp node l) (i / 2) else []
termination_by l.length
decreasing_by rw [pairUp_length]; omega

/-- The sides of the audit path of position `i` in a tree of `n` leaves. -/
def auditSides (n i : ℕ) : List Side :=
  if 1 < n then (siblingSide n i).toList ++ auditSides ((n + 1) / 2) (i / 2) else []
termination_by n
decreasing_by omega

theorem siblingStep_side (l : List D) (i : ℕ) (hi : i < l.length) :
    (siblingStep l i).map Prod.fst = siblingSide l.length i := by
  unfold siblingStep siblingSide
  by_cases hodd : i % 2 = 1
  · have hlt : i - 1 < l.length := by omega
    simp [hodd, List.getElem?_eq_getElem hlt]
  · by_cases hlast : i + 1 < l.length
    · simp [hodd, hlast]
    · simp [hodd, hlast]

theorem sides_auditSteps (node : D → D → D) (l : List D) (i : ℕ) (hi : i < l.length) :
    sides (auditSteps node l i) = auditSides l.length i := by
  have hne : l ≠ [] := List.ne_nil_of_length_pos (by omega)
  revert i
  refine level_induction node (P := fun l => ∀ i, i < l.length →
    sides (auditSteps node l i) = auditSides l.length i) ?_ ?_ l hne
  · intro a i _
    rw [auditSteps, auditSides]
    rfl
  · intro l hlen ih i hi
    have hhalf : i / 2 < (pairUp node l).length := by rw [pairUp_length]; omega
    have hside := siblingStep_side l i hi
    rw [auditSteps, auditSides, if_pos hlen, if_pos hlen, ← hside, ← pairUp_length node l, ← ih _ hhalf]
    cases siblingStep l i <;> simp [sides]

/-- Position `i / 2` of the next level is position `i` joined with its sibling. -/
theorem pairUp_getElem_half (node : D → D → D) :
    ∀ (l : List D) (i : ℕ) (h : D), l[i]? = some h →
      (pairUp node l)[i / 2]? = some (climb node h (siblingStep l i).toList)
  | a :: b :: rest, 0, h, hi => by
    simp only [List.getElem?_cons_zero, Option.some.injEq] at hi
    subst hi
    rfl
  | a :: b :: rest, 1, h, hi => by
    simp only [List.getElem?_cons_succ, List.getElem?_cons_zero, Option.some.injEq] at hi
    subst hi
    rfl
  | a :: b :: rest, i + 2, h, hi => by
    have hrest := pairUp_getElem_half node rest i h (by simpa using hi)
    have ehalf : (i + 2) / 2 = i / 2 + 1 := by omega
    have estep : siblingStep (a :: b :: rest) (i + 2) = siblingStep rest i := by
      unfold siblingStep
      by_cases hodd : i % 2 = 1
      · obtain ⟨j, rfl⟩ : ∃ j, i = j + 1 := ⟨i - 1, by omega⟩
        simp [hodd]
      · simp [hodd]
    rw [ehalf, estep]
    simpa [pairUp] using hrest
  | [a], 0, h, hi => by
    simp only [List.getElem?_cons_zero, Option.some.injEq] at hi
    subst hi
    rfl
  | [a], i + 1, h, hi => by simp at hi
  | [], i, h, hi => by simp at hi

/-- Climbing the audit path of a position from its element ends in the root. -/
theorem climb_auditSteps (node : D → D → D) (l : List D) (i : ℕ) (h r : D)
    (hi : l[i]? = some h) (hr : levelRoot node l = some r) :
    climb node h (auditSteps node l i) = r := by
  have hne : l ≠ [] := by rintro rfl; simp at hi
  revert i h
  refine level_induction node (P := fun l => levelRoot node l = some r → ∀ i h, l[i]? = some h →
    climb node h (auditSteps node l i) = r) ?_ ?_ l hne hr
  · intro a hr i h hi
    have hi0 : i = 0 := by
      have := (List.getElem?_eq_some_iff.mp hi).1
      simpa using this
    subst hi0
    simp only [levelRoot_singleton, Option.some.injEq, List.getElem?_cons_zero] at hr hi
    rw [auditSteps, ← hr, ← hi]
    rfl
  · intro l hlen ih hr i h hi
    have hnext := pairUp_getElem_half node l i h hi
    have hclimb := ih (by rwa [levelRoot_pairUp]) _ _ hnext
    rw [auditSteps, if_pos hlen]
    unfold climb at hclimb ⊢
    rw [List.foldl_append]
    exact hclimb

/-- In the free algebra every path from a leaf to the root is the audit path of some position,
below which only a part inside that position's own tree is left. -/
theorem leaf_path {α : Type*} (ts : List (HashTree α)) (a : α) (path : List (Side × HashTree α))
    (h : levelRoot .node ts = some (climb .node (.leaf a) path)) :
    ∃ (j : ℕ) (below : List (Side × HashTree α)), ts[j]? = some (climb .node (.leaf a) below) ∧
      path = below ++ auditSteps .node ts j := by
  have hne : ts ≠ [] := by rintro rfl; simp at h
  revert h
  refine level_induction .node (P := fun ts => levelRoot .node ts = some (climb .node (.leaf a) path) →
    ∃ (j : ℕ) (below : List (Side × HashTree α)), ts[j]? = some (climb .node (.leaf a) below) ∧
      path = below ++ auditSteps .node ts j) ?_ ?_ ts hne
  · intro t h
    refine ⟨0, path, by simpa using h, ?_⟩
    rw [auditSteps]
    simp
  · intro ts hlen ih h
    obtain ⟨j, below, hj, hpath⟩ := ih (by rwa [levelRoot_pairUp])
    rcases pairUp_getElem_cases _ ts j _ hj with ⟨l, r, hl, hr, hnode⟩ | ⟨hj2, hnone⟩
    · -- The joined element is a node, so the path inside it ends in a step with one of the two halves.
      rcases List.eq_nil_or_concat below with rfl | ⟨below', p, rfl⟩
      · simp at hnode
      · obtain ⟨side, s⟩ := p
        rw [List.concat_eq_append, climb_concat] at hnode
        cases side with
        | left =>
          simp only [climbStep, HashTree.node.injEq] at hnode
          obtain ⟨rfl, rfl⟩ := hnode
          refine ⟨2 * j + 1, below', hr, ?_⟩
          have ehalf : (2 * j + 1) / 2 = j := by omega
          rw [auditSteps, if_pos hlen, ehalf, hpath]
          simp [siblingStep, hl]
        | right =>
          simp only [climbStep, HashTree.node.injEq] at hnode
          obtain ⟨rfl, rfl⟩ := hnode
          refine ⟨2 * j, below', hl, ?_⟩
          have ehalf : 2 * j / 2 = j := by omega
          rw [auditSteps, if_pos hlen, ehalf, hpath]
          simp [siblingStep, hr]
    · refine ⟨2 * j, below, hj2, ?_⟩
      have ehalf : 2 * j / 2 = j := by omega
      rw [auditSteps, if_pos hlen, ehalf, hpath]
      simp [siblingStep, hnone]

end Dnsid.Foundations

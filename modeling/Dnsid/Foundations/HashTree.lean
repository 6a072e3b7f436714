import Mathlib.Data.List.Induction
import Mathlib.Logic.Function.Basic

/-! # Binary trees under a hash

Everything here is about an arbitrary pair `leaf : α → D`, `node : D → D → D` and names no log:

* `HashTree α` is the free algebra of such a pair, `eval` its interpretation, `leaves` its entries.
* `climb node h steps` folds siblings over a start value, from the bottom up. A step carries the side
  on which its sibling stands. Climbing in the free algebra builds a tree around a subtree.
* A climb that reaches `eval t` is a path of `t`, or what it hashes collides with what `t` hashes:
  `climb_eq_eval_or_collide`. The siblings of such a climb are chosen by an adversary, so nothing is
  assumed about them.
* `CollisionFree leaf node` is the idealised hash assumption. Under it nothing collides, and `eval` is
  injective.
-/
namespace Dnsid.Foundations
set_option autoImplicit false

/-- The free algebra over one binary constructor. -/
inductive HashTree (α : Type*) where
  | leaf (a : α)
  | node (l r : HashTree α)
  deriving DecidableEq

/-- The side on which the sibling of a climbing value stands. -/
inductive Side where
  | left
  | right
  deriving DecidableEq, Repr

namespace HashTree

variable {α D : Type*}

def eval (leaf : α → D) (node : D → D → D) : HashTree α → D
  | .leaf a => leaf a
  | .node l r => node (eval leaf node l) (eval leaf node r)

def leaves : HashTree α → List α
  | .leaf a => [a]
  | .node l r => leaves l ++ leaves r

end HashTree

open HashTree

/-! ## Climbing -/

section Climb
variable {D E : Type*}

def climbStep (node : D → D → D) (h : D) : Side × D → D
  | (.left, s) => node s h
  | (.right, s) => node h s

/-- The value reached from `h` by hashing with one sibling after another, lowest sibling first. -/
def climb (node : D → D → D) (h : D) (steps : List (Side × D)) : D :=
  steps.foldl (climbStep node) h

/-- Apply a function to the sibling of every step and keep the sides. -/
def mapSteps (f : E → D) (steps : List (Side × E)) : List (Side × D) :=
  steps.map fun p => (p.1, f p.2)

/-- The sides of a climb, lowest first. -/
def sides (steps : List (Side × D)) : List Side := steps.map Prod.fst

@[simp] theorem climb_nil (node : D → D → D) (h : D) : climb node h [] = h := rfl

@[simp] theorem climb_cons (node : D → D → D) (h : D) (p : Side × D) (steps : List (Side × D)) :
    climb node h (p :: steps) = climb node (climbStep node h p) steps := rfl

@[simp] theorem climb_concat (node : D → D → D) (h : D) (steps : List (Side × D)) (p : Side × D) :
    climb node h (steps ++ [p]) = climbStep node (climb node h steps) p := by
  simp [climb, List.foldl_append]

@[simp] theorem sides_mapSteps (f : E → D) (steps : List (Side × E)) :
    sides (mapSteps f steps) = sides steps := by
  simp [sides, mapSteps]

/-- A homomorphism carries a climb to a climb. -/
theorem climb_map (node : D → D → D) (node' : E → E → E) (f : E → D)
    (hf : ∀ a b, f (node' a b) = node (f a) (f b)) (h : E) (steps : List (Side × E)) :
    f (climb node' h steps) = climb node (f h) (mapSteps f steps) := by
  induction steps generalizing h with
  | nil => rfl
  | cons p steps ih =>
    obtain ⟨side, s⟩ := p
    rw [climb_cons, ih]
    cases side <;> simp [mapSteps, climbStep, hf]

end Climb

section Free
variable {α : Type*}

/-- Two climbs in the free algebra with the same sides and the same top agree in everything. -/
theorem climb_sides_inj (t u : HashTree α) (xs ys : List (Side × HashTree α))
    (hs : sides xs = sides ys) (h : climb .node t xs = climb .node u ys) : t = u ∧ xs = ys := by
  induction xs generalizing t u ys with
  | nil =>
    have hy : ys = [] := by simpa [sides] using hs.symm
    subst hy
    exact ⟨h, rfl⟩
  | cons p xs ih =>
    cases ys with
    | nil => simp [sides] at hs
    | cons q ys =>
      obtain ⟨a, s⟩ := p
      obtain ⟨b, s'⟩ := q
      simp only [sides, List.map_cons, List.cons.injEq] at hs
      obtain ⟨rfl, htail⟩ := hs
      obtain ⟨hstep, rfl⟩ := ih _ _ ys htail h
      cases a <;> simp_all [climbStep]

/-- The leaves of the left siblings, topmost sibling first. -/
def leftLeaves : List (Side × HashTree α) → List α
  | [] => []
  | (.left, s) :: rest => leftLeaves rest ++ s.leaves
  | (.right, _) :: rest => leftLeaves rest

/-- The leaves of the right siblings, lowest sibling first. -/
def rightLeaves : List (Side × HashTree α) → List α
  | [] => []
  | (.left, _) :: rest => rightLeaves rest
  | (.right, s) :: rest => s.leaves ++ rightLeaves rest

theorem leaves_climb (t : HashTree α) (steps : List (Side × HashTree α)) :
    (climb .node t steps).leaves = leftLeaves steps ++ t.leaves ++ rightLeaves steps := by
  induction steps generalizing t with
  | nil => simp [leftLeaves, rightLeaves]
  | cons p steps ih =>
    obtain ⟨side, s⟩ := p
    cases side <;> simp [ih, climbStep, HashTree.leaves, leftLeaves, rightLeaves]

/-- Keep the steps whose sibling stands on the left. -/
def onlyLeft {D : Type*} (steps : List (Side × D)) : List (Side × D) :=
  steps.filter fun p => p.1 = .left

theorem leftLeaves_onlyLeft (steps : List (Side × HashTree α)) :
    leftLeaves (onlyLeft steps) = leftLeaves steps ∧ rightLeaves (onlyLeft steps) = [] := by
  induction steps with
  | nil => simp [onlyLeft, leftLeaves, rightLeaves]
  | cons p steps ih =>
    obtain ⟨side, s⟩ := p
    cases side
    · simpa [onlyLeft, leftLeaves, rightLeaves] using ih
    · simpa [onlyLeft, leftLeaves, rightLeaves] using ih

/-- Dropping the right siblings of a climb keeps a prefix of its leaves. -/
theorem leaves_onlyLeft_prefix (t : HashTree α) (steps : List (Side × HashTree α)) :
    (climb .node t (onlyLeft steps)).leaves <+: (climb .node t steps).leaves := by
  obtain ⟨hl, hr⟩ := leftLeaves_onlyLeft steps
  rw [leaves_climb, leaves_climb, hl, hr, List.append_nil]
  exact List.prefix_append _ _

end Free

/-! ## Collisions -/

/-- What is hashed: an entry, or two values. -/
inductive Preimage (α D : Type*) where
  | leaf (a : α)
  | node (l r : D)
  deriving DecidableEq

section Collide
variable {α D : Type*} (leaf : α → D) (node : D → D → D)

def Preimage.digest : Preimage α D → D
  | .leaf a => leaf a
  | .node l r => node l r

/-- Two different preimages of the lists have one value. -/
def Collide (xs ys : List (Preimage α D)) : Prop := ∃ x ∈ xs, ∃ y ∈ ys, x ≠ y ∧ x.digest leaf node = y.digest leaf node

def HashTree.preimages : HashTree α → List (Preimage α D)
  | .leaf a => [.leaf a]
  | .node l r => .node (l.eval leaf node) (r.eval leaf node) :: (preimages l ++ preimages r)

def stepPreimage (h : D) : Side × D → Preimage α D
  | (.left, s) => .node s h
  | (.right, s) => .node h s

def climbPreimages (h : D) : List (Side × D) → List (Preimage α D)
  | [] => []
  | p :: steps => stepPreimage h p :: climbPreimages (climbStep node h p) steps

variable {leaf node}

theorem Collide.mono {xs xs' ys ys' : List (Preimage α D)} (hx : xs ⊆ xs') (hy : ys ⊆ ys') (h : Collide leaf node xs ys) :
    Collide leaf node xs' ys' := by
  obtain ⟨x, hxmem, y, hymem, hxy⟩ := h
  exact ⟨x, hx hxmem, y, hy hymem, hxy⟩

theorem digest_stepPreimage (h : D) (p : Side × D) : (stepPreimage h p).digest leaf node = climbStep node h p := by
  obtain ⟨side, s⟩ := p
  cases side <;> rfl

theorem climbPreimages_append (h : D) (steps : List (Side × D)) (p : Side × D) :
    (climbPreimages node h (steps ++ [p]) : List (Preimage α D)) =
      climbPreimages node h steps ++ [stepPreimage (climb node h steps) p] := by
  induction steps generalizing h with
  | nil => rfl
  | cons q steps ih => rw [List.cons_append, climbPreimages, ih, climb_cons, climbPreimages, List.cons_append]

theorem preimages_subset_climb (u : HashTree α) (path : List (Side × HashTree α)) :
    u.preimages leaf node ⊆ (climb .node u path).preimages leaf node := by
  induction path generalizing u with
  | nil => exact List.Subset.refl _
  | cons p path ih =>
    obtain ⟨side, s⟩ := p
    refine List.Subset.trans ?_ (ih _)
    intro x hx
    cases side <;> simp [climbStep, HashTree.preimages, hx]

/-- What has the value of a tree is hashed at its top, or collides with what is. -/
theorem eq_top_or_collide {x : Preimage α D} {t : HashTree α} (h : x.digest leaf node = t.eval leaf node) :
    (t.preimages leaf node).head? = some x ∨ Collide leaf node [x] (t.preimages leaf node) := by
  obtain ⟨y, ys, hy, hdigest⟩ : ∃ y ys, t.preimages leaf node = y :: ys ∧ y.digest leaf node = t.eval leaf node := by
    cases t with
    | leaf a => exact ⟨_, _, rfl, rfl⟩
    | node l r => exact ⟨_, _, rfl, rfl⟩
  rw [hy, List.head?_cons, Option.some.injEq]
  refine (eq_or_ne y x).imp_right fun hne => ?_
  exact ⟨x, List.mem_singleton_self x, y, List.mem_cons_self, hne.symm, h.trans hdigest.symm⟩

/-- A climb over arbitrary siblings that ends in the value of a tree is a path of that tree, or meets a collision: its
start is the value of a subtree and its siblings are the values of the sibling subtrees. -/
theorem climb_eq_eval_or_collide (steps : List (Side × D)) (h : D) (t : HashTree α)
    (ht : climb node h steps = t.eval leaf node) :
    (∃ (u : HashTree α) (path : List (Side × HashTree α)), t = climb .node u path ∧
      h = u.eval leaf node ∧ steps = mapSteps (HashTree.eval leaf node) path) ∨
      Collide leaf node (climbPreimages node h steps) (t.preimages leaf node) := by
  -- Peel from the top: the last step of the climb is the root of `t`.
  induction steps using List.reverseRecOn generalizing t with
  | nil => exact .inl ⟨t, [], rfl, ht, rfl⟩
  | append_singleton steps p ih =>
    have hdigest : (stepPreimage (climb node h steps) p).digest leaf node = t.eval leaf node := by
      rw [digest_stepPreimage, ← climb_concat, ht]
    rw [climbPreimages_append]
    obtain htop | hcollide := eq_top_or_collide hdigest
    · obtain ⟨side, s⟩ := p
      cases t with
      | leaf a => cases side <;> cases htop
      | node l r =>
        cases side with
        | left =>
          obtain ⟨hs, hc⟩ := Preimage.node.inj (Option.some.inj htop)
          obtain ⟨u, path, rfl, hu, hp⟩ | hcollide := ih r hc.symm
          · exact .inl ⟨u, path ++ [(.left, l)], by simp [climbStep], hu, by simp [hp, hs, mapSteps]⟩
          · refine .inr (hcollide.mono (List.subset_append_left _ _) ?_)
            exact preimages_subset_climb r [(.left, l)]
        | right =>
          obtain ⟨hc, hs⟩ := Preimage.node.inj (Option.some.inj htop)
          obtain ⟨u, path, rfl, hu, hp⟩ | hcollide := ih l hc.symm
          · exact .inl ⟨u, path ++ [(.right, r)], by simp [climbStep], hu, by simp [hp, hs, mapSteps]⟩
          · refine .inr (hcollide.mono (List.subset_append_left _ _) ?_)
            exact preimages_subset_climb l [(.right, r)]
    · exact .inr (hcollide.mono (List.subset_append_right _ _) (List.Subset.refl _))

/-- A climb from an entry to the value of a tree is a path from that entry's leaf, or meets a collision. -/
theorem climb_leaf_or_collide (a : α) (steps : List (Side × D)) (t : HashTree α)
    (ht : climb node (leaf a) steps = t.eval leaf node) :
    (∃ path : List (Side × HashTree α), t = climb .node (.leaf a) path ∧
      steps = mapSteps (HashTree.eval leaf node) path) ∨
      Collide leaf node (.leaf a :: climbPreimages node (leaf a) steps) (t.preimages leaf node) := by
  obtain ⟨u, path, rfl, hu, hp⟩ | hcollide := climb_eq_eval_or_collide steps (leaf a) t ht
  · have hstart : (Preimage.leaf a : Preimage α D).digest leaf node = u.eval leaf node := hu
    obtain htop | hcollide := eq_top_or_collide hstart
    · cases u with
      | leaf b =>
        obtain rfl := Preimage.leaf.inj (Option.some.inj htop)
        exact .inl ⟨path, rfl, hp⟩
      | node l r => cases htop
    · refine .inr (hcollide.mono (List.cons_subset_cons _ (List.nil_subset _)) ?_)
      exact preimages_subset_climb u path
  · exact .inr (hcollide.mono (List.subset_cons_self _ _) (List.Subset.refl _))

end Collide

/-! ## Collision-free hashing -/

/-- The idealised hash: both functions are injective and their images are disjoint. -/
structure CollisionFree {α D : Type*} (leaf : α → D) (node : D → D → D) : Prop where
  leaf_injective : Function.Injective leaf
  node_injective : ∀ a b c d, node a b = node c d → a = c ∧ b = d
  disjoint : ∀ a l r, leaf a ≠ node l r

section Sound
variable {α D : Type*} {leaf : α → D} {node : D → D → D}

theorem eval_injective (H : CollisionFree leaf node) :
    Function.Injective (HashTree.eval leaf node) := by
  intro t
  induction t with
  | leaf a =>
    intro u h
    cases u with
    | leaf b => rw [H.leaf_injective h]
    | node l r => exact absurd h (H.disjoint a _ _)
  | node l r ihl ihr =>
    intro u h
    cases u with
    | leaf b => exact absurd h.symm (H.disjoint b _ _)
    | node l' r' =>
      obtain ⟨hl, hr⟩ := H.node_injective _ _ _ _ h
      rw [ihl hl, ihr hr]

/-- No two preimages have one value. -/
theorem CollisionFree.not_collide (H : CollisionFree leaf node) (xs ys : List (Preimage α D)) :
    ¬ Collide leaf node xs ys := by
  rintro ⟨x, -, y, -, hne, h⟩
  cases x with
  | leaf a =>
    cases y with
    | leaf b => exact hne (congrArg _ (H.leaf_injective h))
    | node l r => exact H.disjoint a l r h
  | node l r =>
    cases y with
    | leaf b => exact H.disjoint b l r h.symm
    | node l' r' =>
      obtain ⟨rfl, rfl⟩ := H.node_injective _ _ _ _ h
      exact hne rfl

/-- A climb over arbitrary siblings that ends in the value of a tree is a path of that tree. -/
theorem climb_eq_eval (H : CollisionFree leaf node) (steps : List (Side × D)) (h : D)
    (t : HashTree α) (ht : climb node h steps = t.eval leaf node) :
    ∃ (u : HashTree α) (path : List (Side × HashTree α)), t = climb .node u path ∧
      h = u.eval leaf node ∧ steps = mapSteps (HashTree.eval leaf node) path :=
  (climb_eq_eval_or_collide steps h t ht).resolve_right (H.not_collide _ _)

end Sound

end Dnsid.Foundations

import Mathlib.Data.Int.Basic
import Mathlib.Tactic.Linarith

/-! # Nesting depth

`NestedAt children a x n` says that `x` stands `n` levels below `a` in a tree given by the children of its nodes.
`Within children limit depth a` says that no node of the tree of `a` is deeper than `limit` when `a` itself is at `depth`.
-/
namespace Dnsid.Foundations
set_option autoImplicit false

variable {α β : Type}

inductive NestedAt (children : α → List α) : α → α → ℕ → Prop where
  | root (a : α) : NestedAt children a a 0
  | child {a c x : α} {n : ℕ} (hc : c ∈ children a) (hx : NestedAt children c x n) : NestedAt children a x (n + 1)

def Within (children : α → List α) (limit depth : ℤ) (a : α) : Prop :=
  ∀ x n, NestedAt children a x n → depth + n ≤ limit

variable {children : α → List α} {children' : β → List β} {limit depth : ℤ}

theorem within_iff {a : α} :
    Within children limit depth a ↔ depth ≤ limit ∧ ∀ c ∈ children a, Within children limit (depth + 1) c := by
  constructor
  · intro h
    refine ⟨by simpa using h a 0 (.root a), fun c hc x n hx => ?_⟩
    have hdeep := h x (n + 1) (.child hc hx)
    push_cast at hdeep
    linarith
  · rintro ⟨hroot, hchildren⟩ x n hx
    cases hx with
    | root => simpa using hroot
    | child hc hx =>
      have hdeep := hchildren _ hc _ _ hx
      push_cast
      linarith

/-- Some node is too deep. -/
theorem not_within_iff {a : α} : ¬ Within children limit depth a ↔ ∃ x n, NestedAt children a x n ∧ limit < depth + n := by
  simp only [Within, not_forall, not_le, exists_prop]

section Image
variable {f : α → β} {P : α → Prop} (hP : ∀ a, P a → ∀ c ∈ children a, P c)
include hP

/-- A map that loses no child loses no depth. -/
theorem NestedAt.map (h : ∀ a, P a → ∀ c ∈ children a, f c ∈ children' (f a)) {a x : α} {n : ℕ} (ha : P a)
    (hx : NestedAt children a x n) : NestedAt children' (f a) (f x) n := by
  induction hx with
  | root a => exact .root _
  | child hc _ ih => exact .child (h _ ha _ hc) (ih (hP _ ha _ hc))

theorem Within.of_map (h : ∀ a, P a → ∀ c ∈ children a, f c ∈ children' (f a)) {a : α} (ha : P a)
    (hf : Within children' limit depth (f a)) : Within children limit depth a :=
  fun x n hx => hf (f x) n (hx.map hP h ha)

end Image

/-- A map whose image has no other children adds no depth. -/
theorem Within.map {f : α → β} (h : ∀ a, ∀ c' ∈ children' (f a), ∃ c ∈ children a, f c = c') {a : α}
    (ha : Within children limit depth a) : Within children' limit depth (f a) := by
  have himage : ∀ {b y : β} {n : ℕ}, NestedAt children' b y n → ∀ a, f a = b → ∃ x, NestedAt children a x n := by
    intro b y n hy
    induction hy with
    | root b =>
      intro a ha
      exact ⟨a, .root a⟩
    | child hc _ ih =>
      rintro a rfl
      obtain ⟨c, hchild, hfc⟩ := h a _ hc
      obtain ⟨x, hx⟩ := ih c hfc
      exact ⟨x, .child hchild hx⟩
  intro y n hy
  obtain ⟨x, hx⟩ := himage hy a rfl
  exact ha x n hx

end Dnsid.Foundations

import Mathlib.Data.List.Basic
import Mathlib.Order.Nat

/-! # Sorting by a key

`List.mergeSort` by a key is stable: it inserts the head of a list in front of what follows it in the order.
So elements can be left out before sorting or after.
-/
namespace Dnsid.Foundations
set_option autoImplicit false

variable {A : Type}

def sortByKey (key : A → ℕ) (l : List A) : List A := l.mergeSort fun a b => key a ≤ key b

theorem keyOrder_trans (key : A → ℕ) (a b c : A) (hab : decide (key a ≤ key b) = true)
    (hbc : decide (key b ≤ key c) = true) : decide (key a ≤ key c) = true := by
  simp only [decide_eq_true_eq] at *
  omega

theorem keyOrder_total (key : A → ℕ) (a b : A) :
    (decide (key a ≤ key b) || decide (key b ≤ key a)) = true := by
  simp only [Bool.or_eq_true, decide_eq_true_eq]
  omega

theorem sortByKey_pairwise (key : A → ℕ) (l : List A) :
    (sortByKey key l).Pairwise fun a b => key a ≤ key b := by
  have h := List.pairwise_mergeSort (keyOrder_trans key) (keyOrder_total key) l
  exact h.imp fun hab => of_decide_eq_true hab

/-- Sorting inserts the head of a list. -/
theorem sortByKey_cons (key : A → ℕ) (a : A) (l : List A) :
    sortByKey key (a :: l) = (sortByKey key l).filter (fun b => key b < key a) ++
      a :: (sortByKey key l).filter (fun b => key a ≤ key b) := by
  obtain ⟨l₁, l₂, hcons, htail, hlow⟩ :=
    List.mergeSort_cons (keyOrder_trans key) (keyOrder_total key) a l
  have hsorted := sortByKey_pairwise key (a :: l)
  unfold sortByKey at hsorted ⊢
  rw [hcons, List.pairwise_append, List.pairwise_cons] at hsorted
  have hhigh : ∀ b ∈ l₂, key a ≤ key b := hsorted.2.1.1
  have hlow' : ∀ b ∈ l₁, key b < key a := fun b hb => by simpa using hlow b hb
  rw [hcons, htail, List.filter_append, List.filter_append,
    List.filter_eq_self.mpr fun b hb => decide_eq_true (hlow' b hb),
    List.filter_eq_nil_iff.mpr fun b hb => by simpa using hhigh b hb,
    List.filter_eq_nil_iff.mpr fun b hb => by simpa using hlow' b hb,
    List.filter_eq_self.mpr fun b hb => decide_eq_true (hhigh b hb), List.append_nil, List.nil_append]

/-- An ordered list is cut in two by a test that what precedes passes whenever what follows does. -/
theorem ordered_cut {r : A → A → Prop} {l : List A} (h : l.Pairwise r) (p : A → Bool)
    (hp : ∀ a b, r a b → p b = true → p a = true) :
    l = l.filter p ++ l.filter fun a => !p a := by
  induction l with
  | nil => rfl
  | cons a l ih =>
    rw [List.pairwise_cons] at h
    by_cases ha : p a = true
    · rw [List.filter_cons_of_pos ha, List.filter_cons_of_neg (by simpa using ha), List.cons_append,
        ← ih h.2]
    · have hall : ∀ b ∈ l, ¬ p b = true := fun b hb hb' => ha (hp a b (h.1 b hb) hb')
      rw [List.filter_cons_of_neg ha, List.filter_cons_of_pos (by simpa using ha),
        List.filter_eq_nil_iff.mpr hall, List.filter_eq_self.mpr fun b hb => by simpa using hall b hb,
        List.nil_append]

theorem sortByKey_cut (key : A → ℕ) (l : List A) (k : ℕ) :
    sortByKey key l = (sortByKey key l).filter (fun a => key a < k) ++
      (sortByKey key l).filter (fun a => k ≤ key a) := by
  have hcut := ordered_cut (sortByKey_pairwise key l) (fun a => key a < k)
    (fun a b hab hb => by simp only [decide_eq_true_eq] at *; omega)
  simpa only [← decide_not, not_lt] using hcut

/-- An element with a key of its own stands between what sorts before and after it, and leaving it out
leaves these. -/
theorem sortByKey_insert (key : A → ℕ) (before after : List A) (x : A)
    (h : ∀ a ∈ before ++ after, key a ≠ key x) :
    ∃ l₁ l₂, sortByKey key (before ++ x :: after) = l₁ ++ x :: l₂ ∧
      sortByKey key (before ++ after) = l₁ ++ l₂ ∧ (∀ a ∈ l₁, key a < key x) ∧
      ∀ a ∈ l₂, key x < key a := by
  induction before with
  | nil =>
    refine ⟨_, _, sortByKey_cons key x after, sortByKey_cut key after (key x), ?_, ?_⟩
    · intro a ha
      exact of_decide_eq_true (List.mem_filter.mp ha).2
    · intro a ha
      obtain ⟨hmem, hle⟩ := List.mem_filter.mp ha
      exact lt_of_le_of_ne (of_decide_eq_true hle) (h a (List.mem_mergeSort.mp hmem)).symm
  | cons a before ih =>
    obtain ⟨l₁, l₂, hwith, hwithout, hlow, hhigh⟩ := ih fun b hb => h b (List.mem_cons_of_mem a hb)
    rw [List.cons_append, List.cons_append, sortByKey_cons, sortByKey_cons, hwith, hwithout]
    obtain hax | hax := lt_or_gt_of_ne (h a List.mem_cons_self)
    · -- `a` goes among the elements before `x`.
      have hnone : l₂.filter (fun b => key b < key a) = [] :=
        List.filter_eq_nil_iff.mpr fun b hb => by simpa using (hax.trans (hhigh b hb)).le
      have hall : l₂.filter (fun b => key a ≤ key b) = l₂ :=
        List.filter_eq_self.mpr fun b hb => decide_eq_true (hax.trans (hhigh b hb)).le
      refine ⟨l₁.filter (fun b => key b < key a) ++ a :: l₁.filter (fun b => key a ≤ key b), l₂,
        ?_, ?_, ?_, hhigh⟩
      · simp [List.filter_append, hnone, hall, hax.le]
      · simp [List.filter_append, hnone, hall]
      · intro b hb
        simp only [List.mem_append, List.mem_cons, List.mem_filter] at hb
        obtain ⟨hb, -⟩ | rfl | ⟨hb, -⟩ := hb
        · exact hlow b hb
        · exact hax
        · exact hlow b hb
    · have hnone : l₁.filter (fun b => key a ≤ key b) = [] :=
        List.filter_eq_nil_iff.mpr fun b hb => by simpa using (hlow b hb).trans hax
      have hall : l₁.filter (fun b => key b < key a) = l₁ :=
        List.filter_eq_self.mpr fun b hb => decide_eq_true ((hlow b hb).trans hax)
      refine ⟨l₁, l₂.filter (fun b => key b < key a) ++ a :: l₂.filter (fun b => key a ≤ key b),
        ?_, ?_, hlow, ?_⟩
      · simp [List.filter_append, hnone, hall, hax]
      · simp [List.filter_append, hnone, hall]
      · intro b hb
        simp only [List.mem_append, List.mem_cons, List.mem_filter] at hb
        obtain ⟨hb, -⟩ | rfl | ⟨hb, -⟩ := hb
        · exact hhigh b hb
        · exact hax
        · exact hhigh b hb

end Dnsid.Foundations

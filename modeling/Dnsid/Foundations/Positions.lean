import Mathlib.Data.List.Perm.Basic

/-! # Positions in a list

An element that was looked up by position, and the list without it.
-/
namespace Dnsid.Foundations
set_option autoImplicit false

variable {α : Type} {l : List α} {x : α} {i : ℕ}

theorem getElem?_of_idxOf? [BEq α] [LawfulBEq α] (h : l.idxOf? x = some i) : l[i]? = some x := by
  obtain ⟨hlt, hat, -⟩ := List.idxOf?_eq_some_iff.mp h
  rw [List.getElem?_eq_getElem hlt]
  exact congrArg some hat

theorem perm_of_getElem? (h : l[i]? = some x) : (x :: l.eraseIdx i).Perm l := by
  obtain ⟨hlt, rfl⟩ := List.getElem?_eq_some_iff.mp h
  exact List.getElem_cons_eraseIdx_perm hlt

/-- What stands in a list with one entry replaced. -/
theorem getElem?_set_iff {k : ℕ} {y z : α} (h : l[i]? = some x) :
    (l.set i y)[k]? = some z ↔ (k = i ∧ z = y) ∨ (k ≠ i ∧ l[k]? = some z) := by
  obtain ⟨hlt, -⟩ := List.getElem?_eq_some_iff.mp h
  rw [List.getElem?_set]
  by_cases hk : i = k
  · subst hk
    simp [hlt, eq_comm]
  · have hki : k ≠ i := fun hki => hk hki.symm
    simp [hk, hki]

/-- What stands in a list with one entry more. -/
theorem getElem?_concat_iff {k : ℕ} {y z : α} :
    (l ++ [y])[k]? = some z ↔ l[k]? = some z ∨ (k = l.length ∧ z = y) := by
  rw [List.getElem?_append]
  split
  next hlt =>
    have hne : k ≠ l.length := Nat.ne_of_lt hlt
    simp [hne]
  next hge =>
    have hnone : l[k]? = none := List.getElem?_eq_none (Nat.le_of_not_lt hge)
    rw [List.getElem?_singleton, hnone]
    split
    next hzero =>
      have hk : k = l.length := by omega
      simp [hk, eq_comm]
    next hzero =>
      have hk : k ≠ l.length := by omega
      simp [hk]

end Dnsid.Foundations

import Dnsid.Foundations.StableSort
import Mathlib.Data.List.Perm.Subperm
import Mathlib.Order.ConditionallyCompleteLattice.Basic
import Mathlib.Order.Lattice.Nat

/-! # Nested threshold rules

A rule asks for nothing, for one key, or for a number of its members. What satisfies it is monotone in the keys. To
choose members by a value, sort them by it: the first ones are then as good as any other choice of that many
(`take_sortDescending`).
-/
namespace Dnsid.Foundations
open List
set_option autoImplicit false

inductive ThresholdRule (Key Count : Type) where
  | none
  | witness (key : Key)
  | threshold (threshold : Count) (members : List (ThresholdRule Key Count))

namespace ThresholdRule
variable {Key Count : Type}

mutual

/-- Induction with a hypothesis for every member. -/
theorem memberInduction {motive : ThresholdRule Key Count → Prop} (none : motive .none)
    (witness : ∀ key, motive (.witness key))
    (threshold : ∀ threshold members, (∀ member ∈ members, motive member) → motive (.threshold threshold members)) :
    ∀ rule, motive rule
  | .none => none
  | .witness key => witness key
  | .threshold count members => threshold count members (membersInduction none witness threshold members)

theorem membersInduction {motive : ThresholdRule Key Count → Prop} (none : motive .none)
    (witness : ∀ key, motive (.witness key))
    (threshold : ∀ threshold members, (∀ member ∈ members, motive member) → motive (.threshold threshold members)) :
    ∀ members : List (ThresholdRule Key Count), ∀ member ∈ members, motive member
  | [], _, h => absurd h List.not_mem_nil
  | first :: rest, _, h => (List.mem_cons.mp h).elim
      (fun heq => heq ▸ memberInduction none witness threshold first)
      (membersInduction none witness threshold rest _)

end

variable (holds : Key → Prop) (value : Count → ℕ)

/-- A threshold is met by that many members. -/
inductive Satisfied : ThresholdRule Key Count → Prop
  | none : Satisfied none
  | witness {key : Key} : holds key → Satisfied (witness key)
  | threshold {count : Count} {members : List (ThresholdRule Key Count)} (chosen : List (ThresholdRule Key Count)) :
      chosen <+~ members → value count ≤ chosen.length → (∀ member ∈ chosen, Satisfied member) →
      Satisfied (threshold count members)

variable {holds value}

theorem Satisfied.mono {holds' : Key → Prop} {rule : ThresholdRule Key Count} (h : rule.Satisfied holds value)
    (himp : ∀ key, holds key → holds' key) : rule.Satisfied holds' value := by
  induction h with
  | none => exact .none
  | witness hkey => exact .witness (himp _ hkey)
  | threshold chosen hsub hcount _ ih => exact .threshold chosen hsub hcount ih

end ThresholdRule

/-! ## The least element of a list -/

/-- Infinity for the empty list. -/
def listMin : List ℕ → WithTop ℕ
  | [] => ⊤
  | n :: l => min (WithTop.some n) (listMin l)

theorem le_listMin {m : WithTop ℕ} {l : List ℕ} : m ≤ listMin l ↔ ∀ n ∈ l, m ≤ WithTop.some n := by
  induction l with
  | nil => simp [listMin]
  | cons n l ih => simp [listMin, ih]

/-! ## The best members -/

section Selection
variable {A B R : Type} [LinearOrder R]

/-- Highest rank first, in a stable order. -/
def sortDescending (rank : A → R) (l : List A) : List A := l.mergeSort fun a b => rank b ≤ rank a

theorem sortDescending_perm (rank : A → R) (l : List A) : sortDescending rank l ~ l := List.mergeSort_perm _ _

theorem sortDescending_pairwise (rank : A → R) (l : List A) :
    (sortDescending rank l).Pairwise fun a b => rank b ≤ rank a := by
  let above : A → A → Bool := fun a b => decide (rank b ≤ rank a)
  have htrans : ∀ a b c, above a b = true → above b c = true → above a c = true := by
    intro a b c hab hbc
    exact decide_eq_true ((of_decide_eq_true hbc).trans (of_decide_eq_true hab))
  have htotal : ∀ a b, (above a b || above b a) = true := by
    intro a b
    simp only [above, Bool.or_eq_true, decide_eq_true_eq]
    exact le_total _ _
  exact (List.pairwise_mergeSort htrans htotal l).imp fun hab => of_decide_eq_true hab

/-- The first elements rank at least as high as any others of that number. -/
theorem take_sortDescending {rank : A → R} {l : List A} {count : ℕ} {m : R}
    (h : count ≤ l.countP fun a => m ≤ rank a) : ∀ a ∈ (sortDescending rank l).take count, m ≤ rank a := by
  have hcut := ordered_cut (sortDescending_pairwise rank l) (fun a => m ≤ rank a) (by
    intro a b hab hb
    rw [decide_eq_true_eq] at *
    exact hb.trans hab)
  have hlen : count ≤ ((sortDescending rank l).filter fun a => m ≤ rank a).length := by
    rw [← List.countP_eq_length_filter, (sortDescending_perm rank l).countP_eq]
    exact h
  intro a ha
  rw [hcut, List.take_append_of_le_length hlen] at ha
  simpa using (List.mem_filter.mp (List.mem_of_mem_take ha)).2

/-- The chosen results, each with the element it came from. -/
theorem exists_chosen (f : A → Option B) (rank : B → R) (l : List A) (count : ℕ) :
    ∃ chosen : List (A × B), chosen.map Prod.snd = (sortDescending rank (l.filterMap f)).take count ∧
      chosen.map Prod.fst <+~ l ∧ ∀ p ∈ chosen, f p.1 = some p.2 := by
  have hsnd : (l.filterMap fun a => (f a).map fun b => (a, b)).map Prod.snd = l.filterMap f := by
    rw [List.map_filterMap]
    congr 1
    funext a
    cases f a <;> rfl
  have hfst : (l.filterMap fun a => (f a).map fun b => (a, b)).map Prod.fst <+ l := by
    have hguard : (fun a => ((f a).map fun b => (a, b)).map Prod.fst) = Option.guard fun a => (f a).isSome := by
      funext a
      cases h : f a <;> simp [Option.guard, h]
    rw [List.map_filterMap, hguard, List.filterMap_eq_filter]
    exact List.filter_sublist
  refine ⟨(sortDescending (fun p => rank p.2) (l.filterMap fun a => (f a).map fun b => (a, b))).take count, ?_, ?_, ?_⟩
  · rw [List.map_take, sortDescending, sortDescending, ← hsnd]
    congr 1
    exact List.map_mergeSort fun _ _ _ _ => rfl
  · have htake := (List.take_sublist count (sortDescending (fun p : A × B => rank p.2)
      (l.filterMap fun a => (f a).map fun b => (a, b)))).map Prod.fst
    exact htake.subperm.trans (((sortDescending_perm _ _).map Prod.fst).subperm.trans hfst.subperm)
  · intro p hp
    have hmem := (sortDescending_perm _ _).mem_iff.mp (List.mem_of_mem_take hp)
    obtain ⟨a, _, ha⟩ := List.mem_filterMap.mp hmem
    obtain ⟨b, hb, rfl⟩ := Option.map_eq_some_iff.mp ha
    exact hb

end Selection

end Dnsid.Foundations

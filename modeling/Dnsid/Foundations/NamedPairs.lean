import Mathlib.Data.List.Sort
import Mathlib.Order.Lattice

/-! # Named pairs in the order of their names

Sorting pairs by name gives one list for each set of pairs with distinct names (`sortByName_eq_iff`); such a
set is known by its lookups.
-/
namespace Dnsid.Foundations
set_option autoImplicit false

variable {κ V : Type}

/-- The names are distinct. -/
def DistinctNames (pairs : List (κ × V)) : Prop := (pairs.map Prod.fst).Nodup

instance [DecidableEq κ] (pairs : List (κ × V)) : Decidable (DistinctNames pairs) :=
  inferInstanceAs (Decidable (pairs.map Prod.fst).Nodup)

theorem DistinctNames.tail {m : κ × V} {pairs : List (κ × V)} (h : DistinctNames (m :: pairs)) :
    m.1 ∉ pairs.map Prod.fst ∧ DistinctNames pairs := by
  rwa [DistinctNames, List.map_cons, List.nodup_cons] at h

theorem DistinctNames.nodup {pairs : List (κ × V)} (h : DistinctNames pairs) : pairs.Nodup := List.Nodup.of_map _ h

theorem DistinctNames.perm {pairs pairs' : List (κ × V)} (h : DistinctNames pairs) (hperm : pairs.Perm pairs') :
    DistinctNames pairs' := (hperm.map Prod.fst).nodup_iff.mp h

theorem DistinctNames.filter {pairs : List (κ × V)} (h : DistinctNames pairs) (p : κ × V → Bool) :
    DistinctNames (pairs.filter p) := h.sublist (List.filter_sublist.map Prod.fst)

/-- Lists without a common name keep their names distinct together. -/
theorem DistinctNames.append {pairs pairs' : List (κ × V)} (h : DistinctNames pairs) (h' : DistinctNames pairs')
    (hdisjoint : ∀ m ∈ pairs, ∀ m' ∈ pairs', m.1 ≠ m'.1) : DistinctNames (pairs ++ pairs') := by
  rw [DistinctNames, List.map_append, List.nodup_append]
  refine ⟨h, h', fun a ha b hb => ?_⟩
  obtain ⟨m, hm, rfl⟩ := List.mem_map.mp ha
  obtain ⟨m', hm', rfl⟩ := List.mem_map.mp hb
  exact hdisjoint m hm m' hm'

section Lookup
variable [BEq κ]

/-- The pairs with the names of `order`, in that order. -/
def pick (order : List κ) (pairs : List (κ × V)) : List (κ × V) :=
  order.filterMap fun name => (pairs.lookup name).map (Prod.mk name)

theorem mem_pick {order : List κ} {pairs : List (κ × V)} {m : κ × V} :
    m ∈ pick order pairs ↔ m.1 ∈ order ∧ pairs.lookup m.1 = some m.2 := by
  rw [pick, List.mem_filterMap]
  constructor
  · rintro ⟨name, hname, hm⟩
    obtain ⟨value, hvalue, rfl⟩ := Option.map_eq_some_iff.mp hm
    exact ⟨hname, hvalue⟩
  · rintro ⟨hname, hvalue⟩
    exact ⟨m.1, hname, by rw [hvalue]; rfl⟩

theorem pick_cons (name : κ) (order : List κ) (pairs : List (κ × V)) :
    pick (name :: order) pairs = ((pairs.lookup name).map (Prod.mk name)).toList ++ pick order pairs := by
  rw [pick, List.filterMap_cons]
  cases (pairs.lookup name).map (Prod.mk name) <;> rfl

theorem pick_distinct {order : List κ} (h : order.Nodup) (pairs : List (κ × V)) : DistinctNames (pick order pairs) := by
  refine h.sublist ?_
  induction order with
  | nil => exact List.Sublist.refl _
  | cons name order ih =>
    rw [pick_cons]
    have htail := ih (List.nodup_cons.mp h).2
    cases pairs.lookup name with
    | none => exact htail.cons name
    | some value => exact htail.cons_cons name

variable [LawfulBEq κ]

theorem lookup_eq_none_of_not_mem {pairs : List (κ × V)} {name : κ} (h : name ∉ pairs.map Prod.fst) :
    pairs.lookup name = none := by
  rw [List.lookup_eq_none_iff]
  intro m hm
  rw [bne_iff_ne]
  rintro rfl
  exact h (List.mem_map_of_mem hm)

/-- A member in the middle is found at its own name, and the others are found as before. -/
theorem lookup_middle {front back : List (κ × V)} {name : κ} {value : V} (h : name ∉ front.map Prod.fst) :
    (front ++ (name, value) :: back).lookup name = some value := by
  rw [List.lookup_append, lookup_eq_none_of_not_mem h, List.lookup_cons_self]
  rfl

theorem lookup_middle_ne {front back : List (κ × V)} {name other : κ} {value : V} (h : other ≠ name) :
    (front ++ (name, value) :: back).lookup other = (front ++ back).lookup other := by
  have hother : (other == name) = false := by simpa using h
  rw [List.lookup_append, List.lookup_append, List.lookup_cons, hother]

theorem mem_of_lookup {pairs : List (κ × V)} {name : κ} {value : V} (h : pairs.lookup name = some value) :
    (name, value) ∈ pairs := by
  obtain ⟨before, after, rfl, -⟩ := List.lookup_eq_some_iff.mp h
  simp

theorem mem_names_of_lookup {pairs : List (κ × V)} {name : κ} {value : V} (h : pairs.lookup name = some value) :
    name ∈ pairs.map Prod.fst := by
  by_contra hnot
  rw [lookup_eq_none_of_not_mem hnot] at h
  cases h

theorem DistinctNames.mem_iff {pairs : List (κ × V)} (h : DistinctNames pairs) (name : κ) (value : V) :
    (name, value) ∈ pairs ↔ pairs.lookup name = some value := by
  induction pairs with
  | nil => simp
  | cons m pairs ih =>
    obtain ⟨hnew, htail⟩ := h.tail
    obtain ⟨first, firstValue⟩ := m
    rw [List.mem_cons, List.lookup_cons]
    by_cases hname : name = first
    · subst hname
      have hmem : (name, value) ∉ pairs := fun hmem => hnew (List.mem_map.mpr ⟨_, hmem, rfl⟩)
      simp only [hmem, or_false, beq_self_eq_true, Prod.mk.injEq, true_and, Option.some.injEq]
      exact eq_comm
    · rw [beq_false_of_ne hname, ← ih htail]
      simp [hname]

/-- Lookups of the two lists agree exactly when they have the same pairs. -/
theorem DistinctNames.lookup_eq_iff {pairs pairs' : List (κ × V)} (h : DistinctNames pairs)
    (h' : DistinctNames pairs') :
    (∀ name, pairs.lookup name = pairs'.lookup name) ↔ ∀ m, m ∈ pairs ↔ m ∈ pairs' := by
  constructor
  · intro hlookup m
    rw [show m = (m.1, m.2) from rfl, h.mem_iff, h'.mem_iff, hlookup]
  · intro hmem name
    ext value
    rw [← h.mem_iff, ← h'.mem_iff, hmem]

end Lookup

/-! ## Sorting -/

variable [LinearOrder κ]

def sortByName (pairs : List (κ × V)) : List (κ × V) := pairs.insertionSort fun a b => a.1 ≤ b.1

theorem sortByName_perm (pairs : List (κ × V)) : (sortByName pairs).Perm pairs :=
  List.perm_insertionSort _ pairs

theorem mem_sortByName {pairs : List (κ × V)} {m : κ × V} : m ∈ sortByName pairs ↔ m ∈ pairs :=
  (sortByName_perm pairs).mem_iff

theorem sortByName_distinct {pairs : List (κ × V)} (h : DistinctNames pairs) : DistinctNames (sortByName pairs) :=
  h.perm (sortByName_perm pairs).symm

/-- Sorted pairs with distinct names increase. -/
theorem sortByName_increasing {pairs : List (κ × V)} (h : DistinctNames pairs) :
    (sortByName pairs).Pairwise fun a b => a.1 < b.1 := by
  have hsorted : (sortByName pairs).Pairwise fun a b => a.1 ≤ b.1 := by
    have := @List.pairwise_insertionSort (κ × V) (fun a b => a.1 ≤ b.1) _ ⟨fun a b => le_total a.1 b.1⟩
      ⟨fun a b c => le_trans⟩ pairs
    exact this
  have hdistinct : (sortByName pairs).Pairwise fun a b => a.1 ≠ b.1 := List.pairwise_map.mp (sortByName_distinct h)
  exact (hsorted.and hdistinct).imp fun hab => lt_of_le_of_ne hab.1 hab.2

theorem sortByName_eq_iff {pairs pairs' : List (κ × V)} (h : DistinctNames pairs) (h' : DistinctNames pairs') :
    sortByName pairs = sortByName pairs' ↔ ∀ m, m ∈ pairs ↔ m ∈ pairs' := by
  constructor
  · intro hsort m
    rw [← mem_sortByName, hsort, mem_sortByName]
  · intro hmem
    have hperm : (sortByName pairs).Perm (sortByName pairs') :=
      (sortByName_perm pairs).trans (((List.perm_ext_iff_of_nodup h.nodup h'.nodup).mpr hmem).trans
        (sortByName_perm pairs').symm)
    refine hperm.eq_of_pairwise (fun a b _ _ hab hba => ?_) (sortByName_increasing h) (sortByName_increasing h')
    exact absurd hba (not_lt_of_gt hab)

end Dnsid.Foundations

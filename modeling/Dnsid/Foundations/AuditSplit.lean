import Dnsid.Foundations.LevelPairing

/-! # Audit paths from the top

A level of `2 ^ k` elements followed by at most as many is two halves below one node. The audit path of a position
is its path in its own half, and then the root of the other half (`auditSteps_append_left`,
`auditSteps_append_right`). `frontierSides` leaves out the path below the largest complete tree that ends at the
position.
-/
namespace Dnsid.Foundations
set_option autoImplicit false

variable {D : Type*} (node : D → D → D)

theorem auditSteps_single (a : D) (i : ℕ) : auditSteps node [a] i = [] := by
  rw [auditSteps]
  simp

theorem auditSteps_step {l : List D} (h : 1 < l.length) (i : ℕ) :
    auditSteps node l i = (siblingStep l i).toList ++ auditSteps node (pairUp node l) (i / 2) := by
  rw [auditSteps, if_pos h]

/-- One more level changes nothing at a position without a sibling. -/
theorem auditSteps_pairUp {l : List D} (hl : l ≠ []) {i : ℕ} (hi : i < l.length) :
    (siblingStep l i).toList ++ auditSteps node (pairUp node l) (i / 2) = auditSteps node l i := by
  by_cases h : 1 < l.length
  · exact (auditSteps_step node h i).symm
  · obtain ⟨a, rfl⟩ := List.length_eq_one_iff.mp (by have := List.length_pos_iff.mpr hl; omega : l.length = 1)
    obtain rfl : i = 0 := by simpa using hi
    simp [siblingStep, pairUp, auditSteps_single]

theorem siblingStep_append_left (xs ys : List D) {i : ℕ} (heven : xs.length % 2 = 0) (hi : i < xs.length) :
    siblingStep (xs ++ ys) i = siblingStep xs i := by
  unfold siblingStep
  by_cases hodd : i % 2 = 1
  · rw [if_pos hodd, if_pos hodd, List.getElem?_append_left (by omega)]
  · rw [if_neg hodd, if_neg hodd, List.getElem?_append_left (by omega)]

theorem siblingStep_append_right (xs ys : List D) (i : ℕ) (heven : xs.length % 2 = 0) :
    siblingStep (xs ++ ys) (xs.length + i) = siblingStep ys i := by
  unfold siblingStep
  by_cases hodd : i % 2 = 1
  · rw [if_pos (by omega), if_pos hodd, List.getElem?_append_right (by omega)]
    congr 2
    omega
  · rw [if_neg (by omega), if_neg hodd, List.getElem?_append_right (by omega)]
    congr 2
    omega

variable {node}

/-- In the left half the path ends with the root of the right half. -/
theorem auditSteps_append_left (k : ℕ) :
    ∀ (xs ys : List D) (y : D) (i : ℕ), xs.length = 2 ^ k → ys.length ≤ 2 ^ k → levelRoot node ys = some y →
      i < xs.length → auditSteps node (xs ++ ys) i = auditSteps node xs i ++ [(.right, y)] := by
  induction k with
  | zero =>
    intro xs ys y i hx hy hry hi
    obtain ⟨a, rfl⟩ := List.length_eq_one_iff.mp (by simpa using hx : xs.length = 1)
    obtain rfl : i = 0 := by simpa using hi
    match ys, hy, hry with
    | [b], _, hry =>
      obtain rfl : b = y := by simpa using hry
      rw [List.singleton_append, auditSteps_step node (by simp)]
      simp [siblingStep, pairUp, auditSteps_single]
    | [], _, hry => simp at hry
    | b :: c :: rest, hy, _ => simp at hy
  | succ k ih =>
    intro xs ys y i hx hy hry hi
    have hpow : 2 ^ (k + 1) = 2 * 2 ^ k := by ring
    have hpos : 0 < 2 ^ k := Nat.two_pow_pos k
    have hne : ys ≠ [] := by
      rintro rfl
      simp at hry
    have hlen : 1 < (xs ++ ys).length := by
      rw [List.length_append]
      omega
    rw [auditSteps_step node hlen, siblingStep_append_left xs ys (by omega) hi, pairUp_append node xs ys (by omega),
      ih (pairUp node xs) (pairUp node ys) y (i / 2) (by rw [pairUp_length]; omega) (by rw [pairUp_length]; omega)
        (by rwa [levelRoot_pairUp]) (by rw [pairUp_length]; omega),
      ← List.append_assoc, ← auditSteps_step node (by omega)]

/-- In the right half it ends with the root of the left half. -/
theorem auditSteps_append_right (k : ℕ) :
    ∀ (xs ys : List D) (x : D) (i : ℕ), xs.length = 2 ^ k → ys.length ≤ 2 ^ k → levelRoot node xs = some x →
      i < ys.length → auditSteps node (xs ++ ys) (xs.length + i) = auditSteps node ys i ++ [(.left, x)] := by
  induction k with
  | zero =>
    intro xs ys x i hx hy hrx hi
    obtain ⟨a, rfl⟩ := List.length_eq_one_iff.mp (by simpa using hx : xs.length = 1)
    obtain rfl : a = x := by simpa using hrx
    match ys, hy, hi with
    | [b], _, hi =>
      obtain rfl : i = 0 := by simpa using hi
      rw [List.singleton_append, auditSteps_step node (by simp)]
      simp [siblingStep, pairUp, auditSteps_single]
    | b :: c :: rest, hy, _ => simp at hy
  | succ k ih =>
    intro xs ys x i hx hy hrx hi
    have hpow : 2 ^ (k + 1) = 2 * 2 ^ k := by ring
    have hpos : 0 < 2 ^ k := Nat.two_pow_pos k
    have hne : ys ≠ [] := List.ne_nil_of_length_pos (by omega)
    have hlen : 1 < (xs ++ ys).length := by
      rw [List.length_append]
      omega
    have hhalf : (xs.length + i) / 2 = (pairUp node xs).length + i / 2 := by
      rw [pairUp_length]
      omega
    rw [auditSteps_step node hlen, siblingStep_append_right xs ys i (by omega), pairUp_append node xs ys (by omega),
      hhalf, ih (pairUp node xs) (pairUp node ys) x (i / 2) (by rw [pairUp_length]; omega)
        (by rw [pairUp_length]; omega) (by rwa [levelRoot_pairUp]) (by rw [pairUp_length]; omega),
      ← List.append_assoc, auditSteps_pairUp node hne hi]

/-! ## Sides -/

/-- A list of `n` elements whose joins do not matter. -/
def units (n : ℕ) : List Unit := List.replicate n ()

def joinUnits (_ _ : Unit) : Unit := ()

theorem auditSides_eq_units {n i : ℕ} (hi : i < n) : auditSides n i = sides (auditSteps joinUnits (units n) i) := by
  rw [sides_auditSteps joinUnits (units n) i (by simpa [units] using hi)]
  simp [units]

theorem levelRoot_units {n : ℕ} (hn : 0 < n) : levelRoot joinUnits (units n) = some () := by
  obtain ⟨r, hr⟩ := levelRoot_isSome joinUnits (units n) (by simpa [units] using Nat.ne_of_gt hn)
  exact hr

theorem units_add (m n : ℕ) : units (m + n) = units m ++ units n :=
  List.replicate_append_replicate.symm

theorem auditSides_append_left (k : ℕ) {n i : ℕ} (hn : 0 < n) (hle : n ≤ 2 ^ k) (hi : i < 2 ^ k) :
    auditSides (2 ^ k + n) i = auditSides (2 ^ k) i ++ [.right] := by
  rw [auditSides_eq_units (by omega), auditSides_eq_units hi, units_add,
    auditSteps_append_left k (units (2 ^ k)) (units n) () i (by simp [units]) (by simpa [units] using hle)
      (levelRoot_units hn) (by simpa [units] using hi)]
  simp [sides]

theorem auditSides_append_right (k : ℕ) {n i : ℕ} (hle : n ≤ 2 ^ k) (hi : i < n) :
    auditSides (2 ^ k + n) (2 ^ k + i) = auditSides n i ++ [.left] := by
  have hsteps := auditSteps_append_right k (units (2 ^ k)) (units n) () i (by simp [units])
    (by simpa [units] using hle) (levelRoot_units (Nat.two_pow_pos k)) (by simpa [units] using hi)
  rw [show (units (2 ^ k)).length = 2 ^ k by simp [units]] at hsteps
  rw [auditSides_eq_units (by omega), auditSides_eq_units hi, units_add, hsteps]
  simp [sides]

/-! ## The frontier of a position -/

/-- Above the complete trees that end at position `i`: the position of the first that is a left half. -/
def frontierIndex (i : ℕ) : ℕ := if i % 2 = 1 then frontierIndex (i / 2) else i
termination_by i
decreasing_by omega

/-- The sides of the audit path above the largest complete tree that ends at position `i`. -/
def frontierSides (n i : ℕ) : List Side :=
  if i % 2 = 1 then frontierSides ((n + 1) / 2) (i / 2) else auditSides n i
termination_by i
decreasing_by omega

theorem frontierIndex_odd {i : ℕ} (h : i % 2 = 1) : frontierIndex i = frontierIndex (i / 2) := by
  rw [frontierIndex, if_pos h]

theorem frontierIndex_even {i : ℕ} (h : i % 2 = 0) : frontierIndex i = i := by
  rw [frontierIndex, if_neg (by omega)]

theorem frontierSides_odd (n : ℕ) {i : ℕ} (h : i % 2 = 1) :
    frontierSides n i = frontierSides ((n + 1) / 2) (i / 2) := by
  rw [frontierSides, if_pos h]

theorem frontierSides_even (n : ℕ) {i : ℕ} (h : i % 2 = 0) : frontierSides n i = auditSides n i := by
  rw [frontierSides, if_neg (by omega)]

/-- The last position of a complete tree has nothing above it. -/
theorem frontier_complete (k : ℕ) : frontierIndex (2 ^ k - 1) = 0 ∧ frontierSides (2 ^ k) (2 ^ k - 1) = [] := by
  induction k with
  | zero =>
    refine ⟨frontierIndex_even rfl, ?_⟩
    rw [frontierSides_even _ rfl, auditSides]
    rfl
  | succ k ih =>
    have hpow : 2 ^ (k + 1) = 2 * 2 ^ k := by ring
    have hpos : 0 < 2 ^ k := Nat.two_pow_pos k
    have hodd : (2 ^ (k + 1) - 1) % 2 = 1 := by omega
    have hhalf : (2 ^ (k + 1) - 1) / 2 = 2 ^ k - 1 := by omega
    have hsize : (2 ^ (k + 1) + 1) / 2 = 2 ^ k := by omega
    rw [frontierIndex_odd hodd, frontierSides_odd _ hodd, hhalf, hsize]
    exact ih

theorem frontierSides_append_left (k : ℕ) :
    ∀ {n i : ℕ}, 0 < n → n ≤ 2 ^ k → i < 2 ^ k →
      frontierSides (2 ^ k + n) i = frontierSides (2 ^ k) i ++ [.right] := by
  induction k with
  | zero =>
    intro n i hn hle hi
    have heven : i % 2 = 0 := by omega
    rw [frontierSides_even _ heven, frontierSides_even _ heven, auditSides_append_left 0 hn hle hi]
  | succ k ih =>
    intro n i hn hle hi
    have hpow : 2 ^ (k + 1) = 2 * 2 ^ k := by ring
    by_cases hodd : i % 2 = 1
    · have hsize : (2 ^ (k + 1) + n + 1) / 2 = 2 ^ k + (n + 1) / 2 := by omega
      have hsize' : (2 ^ (k + 1) + 1) / 2 = 2 ^ k := by omega
      rw [frontierSides_odd _ hodd, frontierSides_odd _ hodd, hsize, hsize', ih (by omega) (by omega) (by omega)]
    · have heven : i % 2 = 0 := by omega
      rw [frontierSides_even _ heven, frontierSides_even _ heven, auditSides_append_left (k + 1) hn hle hi]

/-- The last position of the right half is left out: the tree that ends there may be the whole. -/
theorem frontier_append_right (k : ℕ) :
    ∀ {n i : ℕ}, n ≤ 2 ^ k → i + 1 < n →
      frontierIndex (2 ^ k + i) ≠ 0 ∧ frontierSides (2 ^ k + n) (2 ^ k + i) = frontierSides n i ++ [.left] := by
  induction k with
  | zero =>
    intro n i hle hi
    omega
  | succ k ih =>
    intro n i hle hi
    have hpow : 2 ^ (k + 1) = 2 * 2 ^ k := by ring
    have hpos : 0 < 2 ^ k := Nat.two_pow_pos k
    by_cases hodd : i % 2 = 1
    · have hodd' : (2 ^ (k + 1) + i) % 2 = 1 := by omega
      have hhalf : (2 ^ (k + 1) + i) / 2 = 2 ^ k + i / 2 := by omega
      have hsize : (2 ^ (k + 1) + n + 1) / 2 = 2 ^ k + (n + 1) / 2 := by omega
      rw [frontierIndex_odd hodd', frontierSides_odd _ hodd', frontierSides_odd _ hodd, hhalf, hsize]
      exact ih (by omega) (by omega)
    · have heven : i % 2 = 0 := by omega
      have heven' : (2 ^ (k + 1) + i) % 2 = 0 := by omega
      rw [frontierIndex_even heven', frontierSides_even _ heven', frontierSides_even _ heven,
        auditSides_append_right (k + 1) hle (by omega)]
      exact ⟨by omega, rfl⟩

end Dnsid.Foundations

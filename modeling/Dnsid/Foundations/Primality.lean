import Mathlib.Data.List.Prime
import Mathlib.NumberTheory.LucasPrimality
import Mathlib.Tactic.NormNum.Prime
import Mathlib.Tactic.ReduceModChar

/-! # Primes by the factors of their predecessor

A number is prime if some residue has its predecessor as order. The factors of the predecessor, with such a residue, are what
shows that `2 ^ 255 - 19` is prime; the large ones among them are shown prime in the same way.
-/
namespace Dnsid.Foundations
set_option autoImplicit false

theorem prime_of_factors {p : ℕ} (a : ZMod p) (factors : List ℕ) (hprime : ∀ q ∈ factors, q.Prime)
    (hprod : factors.prod = p - 1) (hfull : a ^ (p - 1) = 1) (hpart : ∀ q ∈ factors, a ^ ((p - 1) / q) ≠ 1) : p.Prime := by
  refine lucas_primality p a hfull fun q hq hdvd => ?_
  rw [← hprod] at hdvd
  obtain ⟨r, hr, hqr⟩ := (Prime.dvd_prod_iff hq.prime).mp hdvd
  rw [(Nat.prime_dvd_prime_iff_eq hq (hprime r hr)).mp hqr]
  exact hpart r hr

theorem prime_855353 : Nat.Prime 31757755568855353 := by
  refine prime_of_factors 10 [2, 2, 2, 3, 31, 107, 223, 4153, 430751] ?_ (by norm_num) ?_ ?_
  · simp only [List.forall_mem_cons]
    exact ⟨by norm_num, by norm_num, by norm_num, by norm_num, by norm_num, by norm_num, by norm_num, by norm_num, by norm_num, List.forall_mem_nil _⟩
  · reduce_mod_char
  · simp only [List.forall_mem_cons]
    norm_num
    reduce_mod_char
    decide

theorem prime_2773320623 : Nat.Prime 2773320623 := by
  refine prime_of_factors 5 [2, 2437, 569003] ?_ (by norm_num) ?_ ?_
  · simp only [List.forall_mem_cons]
    exact ⟨by norm_num, by norm_num, by norm_num, List.forall_mem_nil _⟩
  · reduce_mod_char
  · simp only [List.forall_mem_cons]
    norm_num
    reduce_mod_char
    decide

theorem prime_72106336199 : Nat.Prime 72106336199 := by
  refine prime_of_factors 7 [2, 13, 2773320623] ?_ (by norm_num) ?_ ?_
  · simp only [List.forall_mem_cons]
    exact ⟨by norm_num, by norm_num, prime_2773320623, List.forall_mem_nil _⟩
  · reduce_mod_char
  · simp only [List.forall_mem_cons]
    norm_num
    reduce_mod_char
    decide

theorem prime_386763 : Nat.Prime 1919519569386763 := by
  refine prime_of_factors 2 [2, 3, 7, 19, 47, 47, 127, 8574133] ?_ (by norm_num) ?_ ?_
  · simp only [List.forall_mem_cons]
    exact ⟨by norm_num, by norm_num, by norm_num, by norm_num, by norm_num, by norm_num, by norm_num, by norm_num, List.forall_mem_nil _⟩
  · reduce_mod_char
  · simp only [List.forall_mem_cons]
    norm_num
    reduce_mod_char
    decide

theorem prime_864801 : Nat.Prime 75445702479781427272750846543864801 := by
  refine prime_of_factors 7 [2, 2, 2, 2, 2, 3, 3, 5, 5, 75707, 72106336199, 1919519569386763] ?_ (by norm_num) ?_ ?_
  · simp only [List.forall_mem_cons]
    exact ⟨by norm_num, by norm_num, by norm_num, by norm_num, by norm_num, by norm_num, by norm_num, by norm_num, by norm_num, by norm_num, prime_72106336199, prime_386763, List.forall_mem_nil _⟩
  · reduce_mod_char
  · simp only [List.forall_mem_cons]
    norm_num
    reduce_mod_char
    decide

theorem prime_340907 : Nat.Prime 74058212732561358302231226437062788676166966415465897661863160754340907 := by
  refine prime_of_factors 2 [2, 3, 353, 57467, 132049, 1923133, 31757755568855353, 75445702479781427272750846543864801] ?_ (by norm_num) ?_ ?_
  · simp only [List.forall_mem_cons]
    exact ⟨by norm_num, by norm_num, by norm_num, by norm_num, by norm_num, by norm_num, prime_855353, prime_864801, List.forall_mem_nil _⟩
  · reduce_mod_char
  · simp only [List.forall_mem_cons]
    norm_num
    reduce_mod_char
    decide

theorem prime_255_19 : Nat.Prime (2 ^ 255 - 19) := by
  rw [show 2 ^ 255 - 19 = 57896044618658097711785492504343953926634992332820282019728792003956564819949 by norm_num]
  refine prime_of_factors 2 [2, 2, 3, 65147, 74058212732561358302231226437062788676166966415465897661863160754340907] ?_ (by norm_num) ?_ ?_
  · simp only [List.forall_mem_cons]
    exact ⟨by norm_num, by norm_num, by norm_num, by norm_num, prime_340907, List.forall_mem_nil _⟩
  · reduce_mod_char
  · simp only [List.forall_mem_cons]
    norm_num
    reduce_mod_char
    decide

end Dnsid.Foundations

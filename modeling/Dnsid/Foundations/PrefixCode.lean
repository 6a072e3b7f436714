import Mathlib.Data.List.Basic

/-! # Texts that can be taken apart

A text put together from code words has one reading when a code word ends where it must: `Follow` says what may
come after one, and what comes after the last starts no further word.
-/
namespace Dnsid.Foundations
set_option autoImplicit false

variable {α β : Type}

theorem flatMap_append_inj (code : α → List β) (Follow : List β → Prop) {as bs : List α} {r s : List β}
    (hcode : ∀ a ∈ as, ∀ b x y, Follow x → Follow y → code a ++ x = code b ++ y → a = b ∧ x = y)
    (hfollow : ∀ a x, Follow (code a ++ x)) (hr : Follow r) (hs : Follow s)
    (hend : ∀ a x, r ≠ code a ++ x) (hend' : ∀ a x, s ≠ code a ++ x)
    (h : as.flatMap code ++ r = bs.flatMap code ++ s) : as = bs ∧ r = s := by
  have hwords : ∀ (cs : List α) {t : List β}, Follow t → Follow (cs.flatMap code ++ t) := by
    intro cs t ht
    cases cs with
    | nil => exact ht
    | cons c cs =>
      rw [List.flatMap_cons, List.append_assoc]
      exact hfollow c _
  induction as generalizing bs with
  | nil =>
    cases bs with
    | nil => exact ⟨rfl, h⟩
    | cons b bs =>
      rw [List.flatMap_cons, List.append_assoc] at h
      exact absurd h (hend b _)
  | cons a as ih =>
    cases bs with
    | nil =>
      rw [List.flatMap_cons, List.append_assoc] at h
      exact absurd h.symm (hend' a _)
    | cons b bs =>
      rw [List.flatMap_cons, List.flatMap_cons, List.append_assoc, List.append_assoc] at h
      obtain ⟨rfl, hrest⟩ := hcode a List.mem_cons_self b _ _ (hwords as hr) (hwords bs hs) h
      obtain ⟨rfl, heq⟩ := ih (fun c hc => hcode c (List.mem_cons_of_mem a hc)) hrest
      exact ⟨rfl, heq⟩

/-- Words over a class of symbols are cut where the class ends. -/
theorem append_inj_of_stops {p : β → Bool} {x y r s : List β} (hx : ∀ c ∈ x, p c = true)
    (hy : ∀ c ∈ y, p c = true) (hr : ∀ c ∈ r.head?, p c = false) (hs : ∀ c ∈ s.head?, p c = false)
    (h : x ++ r = y ++ s) : x = y ∧ r = s := by
  have hcut : ∀ {w t : List β}, (∀ c ∈ w, p c = true) → (∀ c ∈ t.head?, p c = false) →
      (w ++ t).takeWhile p = w := by
    intro w t hw ht
    rw [List.takeWhile_append_of_pos hw]
    cases t with
    | nil => simp
    | cons c t => simp [ht c rfl]
  have hxy : x = y := by rw [← hcut hx hr, h, hcut hy hs]
  subst hxy
  exact ⟨rfl, List.append_cancel_left h⟩

theorem not_mem_intercalate {x sep : β} (hsep : x ≠ sep) {words : List (List β)} (h : ∀ w ∈ words, x ∉ w) :
    x ∉ [sep].intercalate words := by
  induction words with
  | nil => simp
  | cons w words ih =>
    obtain ⟨hw, hwords⟩ := List.forall_mem_cons.mp h
    cases words with
    | nil => simpa using hw
    | cons w' words => simp [hw, hsep, ih hwords]

end Dnsid.Foundations

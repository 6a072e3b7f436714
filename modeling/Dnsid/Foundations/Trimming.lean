import Mathlib.Data.List.TakeWhile

/-! # Trimming

White space is a class of letters. Trimming takes it from the ends of a text; what has none at its ends is found again
whatever white space was put around it.
-/
namespace Dnsid.Foundations
set_option autoImplicit false

variable {α : Type} {space : α → Bool}

section Trim
variable (space)

def trimEnd (text : List α) : List α := (text.reverse.dropWhile space).reverse

def trimBoth (text : List α) : List α := trimEnd space (text.dropWhile space)

/-- The text starts and ends with letters that are no white space. -/
structure Solid (text : List α) : Prop where
  starts : ∃ a rest, text = a :: rest ∧ space a = false
  ends : ∃ front a, text = front ++ [a] ∧ space a = false

end Trim

/-! ## The end -/

/-- What is left does not end with white space. -/
theorem trimEnd_cases (space : α → Bool) (text : List α) :
    trimEnd space text = [] ∨ ∃ front a, trimEnd space text = front ++ [a] ∧ space a = false := by
  rw [trimEnd]
  cases h : text.reverse.dropWhile space with
  | nil => exact .inl rfl
  | cons a rest =>
    have hvisible : space a = false := by
      have hhead := List.head?_dropWhile_not space text.reverse
      simpa [h] using hhead
    exact .inr ⟨rest.reverse, a, List.reverse_cons, hvisible⟩

theorem exists_trimEnd (space : α → Bool) (text : List α) :
    ∃ back, text = trimEnd space text ++ back ∧ back.all space = true := by
  have hback : text.reverse.takeWhile space ++ text.reverse.dropWhile space = text.reverse := List.takeWhile_append_dropWhile
  refine ⟨(text.reverse.takeWhile space).reverse, ?_, ?_⟩
  · rw [trimEnd, ← List.reverse_append, hback, List.reverse_reverse]
  · rw [List.all_reverse, List.all_eq_true]
    exact fun a ha => List.mem_takeWhile_imp ha

theorem trimEnd_isPrefix (space : α → Bool) (text : List α) : trimEnd space text <+: text := by
  obtain ⟨back, hback, -⟩ := exists_trimEnd space text
  exact ⟨back, hback.symm⟩

theorem all_of_trimEnd_nil {text : List α} (h : trimEnd space text = []) : text.all space = true := by
  rw [trimEnd, List.reverse_eq_nil_iff, List.dropWhile_eq_nil_iff] at h
  rw [List.all_eq_true]
  intro a ha
  apply h
  rwa [List.mem_reverse]

/-! ## Both ends -/

theorem dropWhile_front {front : List α} {a : α} (hfront : front.all space = true) (ha : space a = false) (rest : List α) :
    (front ++ a :: rest).dropWhile space = a :: rest := by
  rw [List.all_eq_true] at hfront
  rw [List.dropWhile_append_of_pos hfront]
  simp [ha]

/-- White space, and then a text that starts with none. -/
theorem front_unique {front front' text text' : List α} (hfront : front.all space = true) (hfront' : front'.all space = true)
    (htext : ∃ a rest, text = a :: rest ∧ space a = false) (htext' : ∃ a rest, text' = a :: rest ∧ space a = false)
    (h : front ++ text = front' ++ text') : front = front' ∧ text = text' := by
  obtain ⟨a, rest, rfl, ha⟩ := htext
  obtain ⟨a', rest', rfl, ha'⟩ := htext'
  have hdrop := dropWhile_front hfront ha rest
  rw [h, dropWhile_front hfront' ha'] at hdrop
  rw [← hdrop] at h ⊢
  exact ⟨List.append_cancel_right h, rfl⟩

theorem trimBoth_length_le (space : α → Bool) (text : List α) : (trimBoth space text).length ≤ text.length := by
  have hend := (trimEnd_isPrefix space (text.dropWhile space)).length_le
  have hstart := (text.dropWhile_sublist space).length_le
  rw [trimBoth]
  omega

/-- The white space may be of a smaller class than the one that the ends are no white space of. -/
theorem trimBoth_solid {visible : α → Bool} (hspace : ∀ a, visible a = false → space a = false) {front text back : List α}
    (hfront : front.all space = true) (hback : back.all space = true) (h : Solid visible text) :
    trimBoth space (front ++ text ++ back) = text := by
  obtain ⟨a, rest, htext, ha⟩ := h.starts
  obtain ⟨init, b, htext', hb⟩ := h.ends
  have hstart : (front ++ text ++ back).dropWhile space = text ++ back := by
    rw [htext, List.append_assoc, List.cons_append]
    exact dropWhile_front hfront (hspace a ha) _
  have hend : (text ++ back).reverse.dropWhile space = text.reverse := by
    rw [htext', List.reverse_append, List.reverse_append, List.reverse_singleton, List.singleton_append]
    exact dropWhile_front (by rwa [List.all_reverse]) (hspace b hb) _
  rw [trimBoth, trimEnd, hstart, hend, List.reverse_reverse]

theorem exists_trimBoth (space : α → Bool) (text : List α) :
    ∃ front back, text = front ++ trimBoth space text ++ back ∧ front.all space = true ∧ back.all space = true := by
  have hfront : text.takeWhile space ++ text.dropWhile space = text := List.takeWhile_append_dropWhile
  obtain ⟨back, hback, hall⟩ := exists_trimEnd space (text.dropWhile space)
  refine ⟨text.takeWhile space, back, ?_, ?_, hall⟩
  · rw [List.append_assoc, trimBoth, ← hback, hfront]
  · rw [List.all_eq_true]
    exact fun a ha => List.mem_takeWhile_imp ha

theorem trimBoth_eq_nil {text : List α} : trimBoth space text = [] ↔ text.all space = true := by
  constructor
  · intro h
    have hrest := all_of_trimEnd_nil h
    rw [List.all_eq_true] at hrest ⊢
    intro a ha
    rw [← List.takeWhile_append_dropWhile (p := space) (l := text), List.mem_append] at ha
    cases ha with
    | inl hfront => exact List.mem_takeWhile_imp hfront
    | inr hback => exact hrest a hback
  · intro h
    rw [List.all_eq_true] at h
    rw [trimBoth, List.dropWhile_eq_nil_iff.mpr h]
    rfl

end Dnsid.Foundations

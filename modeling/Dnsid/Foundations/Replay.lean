import Dnsid.Foundations.ExceptRun
import Mathlib.Data.List.Basic

/-! # Folds that may throw

`List.foldlM` in `Except` runs a step over a list of inputs. The rules here are the ones a replay needs: an
invariant of the steps holds at the end of a run and before every input, an input that leaves the state
alone can be inserted or removed, and two runs whose steps correspond end in corresponding states.
-/
namespace Dnsid.Foundations
set_option autoImplicit false

variable {ε A B S T : Type} {step : S → A → Except ε S}

theorem foldlM_cons_ok {a : A} {l : List A} {s s' : S}
    (h : (a :: l).foldlM step s = .ok s') :
    ∃ s₁, step s a = .ok s₁ ∧ l.foldlM step s₁ = .ok s' := by
  rw [List.foldlM_cons] at h
  exact bind_eq_ok.mp h

theorem foldlM_append_ok {l₁ l₂ : List A} {s s' : S} :
    (l₁ ++ l₂).foldlM step s = .ok s' ↔
      ∃ s₁, l₁.foldlM step s = .ok s₁ ∧ l₂.foldlM step s₁ = .ok s' := by
  rw [List.foldlM_append]
  exact bind_eq_ok

/-- Steps that agree on every input of the list make the same run. -/
theorem foldlM_congr {step' : S → A → Except ε S} {l : List A}
    (h : ∀ a ∈ l, ∀ s, step s a = step' s a) (s : S) : l.foldlM step s = l.foldlM step' s := by
  induction l generalizing s with
  | nil => rfl
  | cons a l ih =>
    rw [List.foldlM_cons, List.foldlM_cons, h a List.mem_cons_self]
    congr 1
    funext s₁
    exact ih (fun b hb => h b (List.mem_cons_of_mem a hb)) s₁

/-- An invariant that every input of the list preserves holds at the end of the run. -/
theorem foldlM_invariant {I : S → Prop} :
    ∀ (l : List A) (s s' : S), (∀ a ∈ l, ∀ s s', I s → step s a = .ok s' → I s') → I s →
      l.foldlM step s = .ok s' → I s' := by
  intro l
  induction l with
  | nil =>
    intro s s' _ hs h
    cases h
    exact hs
  | cons a l ih =>
    intro s s' hstep hs h
    obtain ⟨s₁, h₁, h⟩ := foldlM_cons_ok h
    apply ih s₁ s' (fun b hb => hstep b (List.mem_cons_of_mem a hb)) ?_ h
    exact hstep a List.mem_cons_self s s₁ hs h₁

/-- The same with the inputs met so far in the invariant. -/
theorem foldlM_run_invariant {I : List A → S → Prop}
    (hstep : ∀ done a s s', I done s → step s a = .ok s' → I (done ++ [a]) s') :
    ∀ (l done : List A) (s s' : S), I done s → l.foldlM step s = .ok s' → I (done ++ l) s' := by
  intro l
  induction l with
  | nil =>
    intro done s s' hs h
    cases h
    rw [List.append_nil]
    exact hs
  | cons a l ih =>
    intro done s s' hs h
    obtain ⟨s₁, h₁, h⟩ := foldlM_cons_ok h
    have hl := ih (done ++ [a]) s₁ s' (hstep done a s s₁ hs h₁) h
    rw [List.append_assoc] at hl
    exact hl

/-- An input that leaves every state it can meet alone does not change the run. -/
theorem foldlM_insert {l₁ l₂ : List A} {x : A} {s : S}
    (hx : ∀ s₁, l₁.foldlM step s = .ok s₁ → step s₁ x = .ok s₁) :
    (l₁ ++ x :: l₂).foldlM step s = (l₁ ++ l₂).foldlM step s := by
  rw [List.foldlM_append, List.foldlM_append]
  cases h : l₁.foldlM step s with
  | error e => rfl
  | ok s₁ =>
    show (x :: l₂).foldlM step s₁ = l₂.foldlM step s₁
    rw [List.foldlM_cons, hx s₁ h]
    rfl

section Part
variable {key : A → ℕ}

/-- The copies of the smallest input stand at the front of an ordered list. -/
theorem ordered_head {a : A} {l m : List A} (hl : ∀ b ∈ l, key a < key b)
    (hm : m.Pairwise fun b c => key b ≤ key c) (hsub : ∀ b ∈ m, b ∈ a :: l) :
    ∃ n m', m = List.replicate n a ++ m' ∧ ∀ b ∈ m', b ∈ l := by
  induction m with
  | nil => exact ⟨0, [], rfl, nofun⟩
  | cons b m ih =>
    rw [List.pairwise_cons] at hm
    obtain ⟨n, m', rfl, hm'⟩ := ih hm.2 fun c hc => hsub c (List.mem_cons_of_mem b hc)
    obtain rfl | hb := List.mem_cons.mp (hsub b List.mem_cons_self)
    · exact ⟨n + 1, m', rfl, hm'⟩
    · -- `b` is a later input, so no copy of `a` can follow it.
      cases n with
      | zero =>
        refine ⟨0, b :: m', rfl, fun c hc => ?_⟩
        obtain rfl | hc := List.mem_cons.mp hc
        · exact hb
        · exact hm' c hc
      | succ n =>
        have hle := hm.1 a (List.mem_append_left _ List.mem_cons_self)
        exact absurd (hl b hb) (by omega)

theorem foldlM_replicate {a : A} {s s' : S} (h : step s a = .ok s') (hidem : step s' a = .ok s') (n : ℕ) :
    (List.replicate (n + 1) a).foldlM step s = .ok s' := by
  induction n generalizing s with
  | zero =>
    rw [List.replicate_one, List.foldlM_cons, h]
    rfl
  | succ n ih =>
    rw [List.replicate_succ, List.foldlM_cons, h]
    exact ih hidem

/-- A run can be repeated on any part of its input, in order and with repetitions, that contains every input
it chose. -/
theorem foldlM_part (key : A → ℕ) (chosen : S → List A)
    (hchoose : ∀ s a s', step s a = .ok s' → s' = s ∨ a ∈ chosen s')
    (hgrow : ∀ s a s', step s a = .ok s' → ∀ b ∈ chosen s, b ∈ chosen s')
    (hidem : ∀ s a s', step s a = .ok s' → step s' a = .ok s') :
    ∀ (l m : List A) (s s' : S), l.Pairwise (fun a b => key a < key b) →
      m.Pairwise (fun a b => key a ≤ key b) → (∀ a ∈ m, a ∈ l) → l.foldlM step s = .ok s' →
      (∀ a ∈ l, a ∈ chosen s' → a ∈ m) → m.foldlM step s = .ok s' := by
  intro l
  induction l with
  | nil =>
    intro m s s' _ _ hsub h _
    obtain rfl := List.eq_nil_iff_forall_not_mem.mpr fun a ha => nomatch hsub a ha
    exact h
  | cons a l ih =>
    intro m s s' hl hm hsub h hchosen
    rw [List.pairwise_cons] at hl
    obtain ⟨s₁, h₁, h⟩ := foldlM_cons_ok h
    obtain ⟨n, m', rfl, hm'⟩ := ordered_head hl.1 hm hsub
    have hordered := (List.pairwise_append.mp hm).2.1
    have hnot : ∀ b ∈ l, b ∉ List.replicate n a := by
      intro b hb hmem
      obtain rfl := List.eq_of_mem_replicate hmem
      exact absurd (hl.1 b hb) (Nat.lt_irrefl _)
    have hrest : ∀ b ∈ l, b ∈ chosen s' → b ∈ m' := by
      intro b hb hbs
      exact (List.mem_append.mp (hchosen b (List.mem_cons_of_mem a hb) hbs)).resolve_left (hnot b hb)
    have htail := ih m' s₁ s' hl.2 hordered hm' h hrest
    cases n with
    | zero =>
      obtain rfl | hmem := hchoose s a s₁ h₁
      · exact htail
      · have hfinal : a ∈ chosen s' :=
          foldlM_invariant (I := fun s => a ∈ chosen s) l s₁ s' (fun b _ s s' hs hstep =>
            hgrow s b s' hstep a hs) hmem h
        have ha := hm' a (hchosen a List.mem_cons_self hfinal)
        exact absurd (hl.1 a ha) (Nat.lt_irrefl _)
    | succ n =>
      exact foldlM_append_ok.mpr ⟨s₁, foldlM_replicate h₁ (hidem s a s₁ h₁) n, htail⟩

end Part

end Dnsid.Foundations

/-! # Runs of a partial step function

`step a s = none` says that action `a` is not enabled in `s`. An invariant of the steps is an invariant of
the runs (`run_invariant`); so is a reflexive and transitive relation between the states before and
after (`run_relation`).
-/
namespace Dnsid.Foundations
set_option autoImplicit false

variable {A S : Type}

def run (step : A → S → Option S) : List A → S → Option S
  | [], s => some s
  | a :: acts, s => (step a s).bind (run step acts)

variable {step : A → S → Option S}

theorem run_cons {a : A} {acts : List A} {s s' : S} (h : run step (a :: acts) s = some s') :
    ∃ s₁, step a s = some s₁ ∧ run step acts s₁ = some s' :=
  Option.bind_eq_some_iff.mp h

theorem run_append (acts more : List A) (s : S) :
    run step (acts ++ more) s = (run step acts s).bind (run step more) := by
  induction acts generalizing s with
  | nil => rfl
  | cons a acts ih =>
    simp only [List.cons_append, run]
    cases step a s with
    | none => rfl
    | some s₁ => exact ih s₁

theorem run_singleton (a : A) (s : S) : run step [a] s = step a s := by
  simp [run]

/-- An invariant that every action satisfying `P` preserves holds after every run of such actions. -/
theorem run_invariant {P : A → Prop} {I : S → Prop}
    (hstep : ∀ a s s', P a → I s → step a s = some s' → I s') :
    ∀ (acts : List A) (s s' : S), (∀ a ∈ acts, P a) → I s → run step acts s = some s' → I s' := by
  intro acts
  induction acts with
  | nil =>
    intro s s' _ hs h
    cases h
    exact hs
  | cons a acts ih =>
    intro s s' hP hs h
    obtain ⟨s₁, h₁, h⟩ := run_cons h
    apply ih s₁ s' (fun b hb => hP b (List.mem_cons_of_mem a hb)) ?_ h
    exact hstep a s s₁ (hP a List.mem_cons_self) hs h₁

/-- Every action of the run meets `P` in the state where it is taken. -/
def RunMeets (step : A → S → Option S) (P : A → S → Prop) : List A → S → Prop
  | [], _ => True
  | a :: acts, s => P a s ∧ ∀ s', step a s = some s' → RunMeets step P acts s'

/-- It is enough that the actions meet `P` after every part of the run that comes before them. -/
theorem runMeets_of_before {P : A → S → Prop} :
    ∀ (acts : List A) (s : S), (∀ before a after s', acts = before ++ a :: after → run step before s = some s' → P a s') →
      RunMeets step P acts s := by
  intro acts
  induction acts with
  | nil => exact fun _ _ => trivial
  | cons a acts ih =>
    intro s h
    refine ⟨h [] a acts s rfl rfl, fun s₁ hs₁ => ih s₁ fun before b after s' hsplit hrun => ?_⟩
    refine h (a :: before) b after s' (by rw [hsplit, List.cons_append]) ?_
    rw [run, hs₁]
    exact hrun

/-- `RunMeets`, computed. -/
def runCheck (step : A → S → Option S) (check : A → S → Bool) : List A → S → Bool
  | [], _ => true
  | a :: acts, s => check a s && (step a s).all (runCheck step check acts)

theorem runMeets_of_check {P : A → S → Prop} {check : A → S → Bool} (hcheck : ∀ a s, check a s = true → P a s) :
    ∀ (acts : List A) (s : S), runCheck step check acts s = true → RunMeets step P acts s := by
  intro acts
  induction acts with
  | nil => exact fun _ _ => trivial
  | cons a acts ih =>
    intro s h
    obtain ⟨ha, hacts⟩ := Bool.and_eq_true_iff.mp h
    refine ⟨hcheck a s ha, fun s' hs' => ih s' ?_⟩
    simpa [hs'] using hacts

theorem run_invariant_of_meets {P : A → S → Prop} {I : S → Prop}
    (hstep : ∀ a s s', P a s → I s → step a s = some s' → I s') :
    ∀ (acts : List A) (s s' : S), RunMeets step P acts s → I s → run step acts s = some s' → I s' := by
  intro acts
  induction acts with
  | nil =>
    intro s s' _ hs h
    cases h
    exact hs
  | cons a acts ih =>
    intro s s' hP hs h
    obtain ⟨s₁, h₁, h⟩ := run_cons h
    exact ih s₁ s' (hP.2 s₁ h₁) (hstep a s s₁ hP.1 hs h₁) h

/-- An invariant that also speaks of the actions taken so far. -/
theorem run_history {P : A → S → Prop} {I : List A → S → Prop}
    (hstep : ∀ before a s s', P a s → I before s → step a s = some s' → I (before ++ [a]) s') :
    ∀ (acts before : List A) (s s' : S), RunMeets step P acts s → I before s → run step acts s = some s' →
      I (before ++ acts) s' := by
  intro acts
  induction acts with
  | nil =>
    intro before s s' _ hs h
    cases h
    rw [List.append_nil]
    exact hs
  | cons a acts ih =>
    intro before s s' hP hs h
    obtain ⟨s₁, h₁, h⟩ := run_cons h
    have hrest := ih (before ++ [a]) s₁ s' (hP.2 s₁ h₁) (hstep before a s s₁ hP.1 hs h₁) h
    rwa [List.append_assoc] at hrest

/-- A reflexive and transitive relation that holds across every step holds across runs. -/
theorem run_relation {R : S → S → Prop} (refl : ∀ s, R s s)
    (trans : ∀ s₁ s₂ s₃, R s₁ s₂ → R s₂ s₃ → R s₁ s₃)
    (hstep : ∀ a s s', step a s = some s' → R s s') :
    ∀ (acts : List A) (s s' : S), run step acts s = some s' → R s s' := by
  intro acts
  induction acts with
  | nil =>
    intro s s' h
    cases h
    exact refl s
  | cons a acts ih =>
    intro s s' h
    obtain ⟨s₁, h₁, h⟩ := run_cons h
    exact trans s s₁ s' (hstep a s s₁ h₁) (ih s₁ s' h)

/-! ## Records of a run -/

section Record
variable {X : Type} {allowed : List X → X → Prop} {trace : List X}

/-- Every entry of the record is allowed after the ones before it. -/
def EachAfter (allowed : List X → X → Prop) (trace : List X) : Prop :=
  ∀ before x after, trace = before ++ x :: after → allowed before x

theorem eachAfter_nil : EachAfter allowed [] := by
  intro before x after h
  cases before <;> cases h

theorem EachAfter.concat (h : EachAfter allowed trace) {x : X} (hx : allowed trace x) :
    EachAfter allowed (trace ++ [x]) := by
  intro before y after hsplit
  obtain ⟨rest, rfl, hrest⟩ | ⟨rest, rfl, hrest⟩ := List.append_eq_append_iff.mp hsplit
  · cases rest with
    | nil =>
      obtain ⟨rfl, -⟩ := List.cons.inj (hrest : [x] = y :: after)
      rw [List.append_nil]
      exact hx
    | cons z rest => cases rest <;> cases hrest
  · cases rest with
    | nil =>
      obtain ⟨rfl, -⟩ := List.cons.inj hrest
      rw [List.append_nil] at hx
      exact hx
    | cons z rest =>
      obtain ⟨rfl, -⟩ := List.cons.inj hrest
      exact h before y rest rfl

end Record

end Dnsid.Foundations

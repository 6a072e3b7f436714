import Dnsid.Foundations.Effects

/-! # Histories of interleaved programs

The history of a pool has every settled effect, with the world after it. What a call performed is its part of the
history (`traceOf`), and a fact about histories that every settled effect keeps holds of every run (`pool_history`).
-/
namespace Dnsid.Foundations
set_option autoImplicit false

namespace Prog.Performs
variable {ε E : Type} {A : E → Type} {α β : Type} {trace trace' : List (Σ e : E, Except ε (A e))}

theorem append {p q r : Prog ε A α} (h : Performs p trace q) (h' : Performs q trace' r) :
    Performs p (trace ++ trace') r := by
  induction h with
  | refl p => exact h'
  | step r _ ih => exact step r (ih h')

/-- A program in two parts returns exactly when both parts do, one after the other. -/
theorem returns_bind {p : Prog ε A β} {f : β → Prog ε A α} {a : α} :
    Performs (p >>= f) trace (ret a) ↔
      ∃ b first rest, trace = first ++ rest ∧ Performs p first (ret b) ∧ Performs (f b) rest (ret a) := by
  constructor
  · intro h
    induction p generalizing trace with
    | ret b => exact ⟨b, [], trace, rfl, refl _, h⟩
    | throw x => cases h
    | call e k ih =>
      cases h with
      | step r h =>
        obtain ⟨b, first, rest, rfl, hfirst, hrest⟩ := ih r h
        exact ⟨b, ⟨e, r⟩ :: first, rest, rfl, step r hfirst, hrest⟩
  · rintro ⟨b, first, rest, rfl, hfirst, hrest⟩
    have hbind : Performs (p >>= f) first (f b) := by
      clear hrest
      induction p generalizing first with
      | ret b' =>
        obtain ⟨rfl, hb⟩ := of_ret hfirst
        obtain rfl := Prog.ret.inj hb
        exact refl _
      | throw x =>
        obtain ⟨-, hb⟩ := of_throw hfirst
        cases hb
      | call e k ih =>
        cases hfirst with
        | step r hfirst => exact step r (ih r _ hfirst)
    exact hbind.append hrest

end Prog.Performs

section History
variable {ε E : Type} {A : E → Type} {α W C I : Type}

structure Settled (ε : Type) {E : Type} (A : E → Type) (W : Type) where
  call : ℕ
  effect : E
  answer : Except ε (A effect)
  world : W

def Settled.event (settled : Settled ε A W) : Σ e : E, Except ε (A e) := ⟨settled.effect, settled.answer⟩

/-- What the call `n` performed. -/
def traceOf (n : ℕ) (history : List (Settled ε A W)) : List (Σ e : E, Except ε (A e)) :=
  history.filterMap fun settled => if settled.call = n then some settled.event else none

theorem traceOf_append (n : ℕ) (history more : List (Settled ε A W)) :
    traceOf n (history ++ more) = traceOf n history ++ traceOf n more := List.filterMap_append

/-- An event of a call, and what follows it, stand in the history. -/
theorem traceOf_eq_append_cons {n : ℕ} {history : List (Settled ε A W)} {first rest : List (Σ e : E, Except ε (A e))}
    {event : Σ e : E, Except ε (A e)} (h : traceOf n history = first ++ event :: rest) :
    ∃ before settled after, history = before ++ settled :: after ∧ settled.call = n ∧ settled.event = event ∧
      traceOf n after = rest := by
  obtain ⟨before₁, after₁, rfl, -, hafter⟩ := List.filterMap_eq_append_iff.mp h
  obtain ⟨before₂, settled, after, rfl, -, hsettled, hrest⟩ := List.filterMap_eq_cons_iff.mp hafter
  split at hsettled
  next hcall =>
    exact ⟨before₁ ++ before₂, settled, after, by simp, hcall, Option.some.inj hsettled, hrest⟩
  next => cases hsettled

/-- Two events of a call stand in the history in the order in which the call performed them. -/
theorem exists_positions {n : ℕ} {history : List (Settled ε A W)} {first middle last : List (Σ e : E, Except ε (A e))}
    {event event' : Σ e : E, Except ε (A e)} (h : traceOf n history = first ++ event :: (middle ++ event' :: last)) :
    ∃ (i j : ℕ) (s t : Settled ε A W), i < j ∧ history[i]? = some s ∧ history[j]? = some t ∧
      s.call = n ∧ s.event = event ∧ t.event = event' := by
  obtain ⟨before, s, after, rfl, hcall, hs, hafter⟩ := traceOf_eq_append_cons h
  obtain ⟨between, t, rest, rfl, -, ht, -⟩ := traceOf_eq_append_cons hafter
  refine ⟨before.length, before.length + (between.length + 1), s, t, by omega, by simp, ?_, hcall, hs, ht⟩
  rw [List.getElem?_append_right (by omega)]
  simp

def PoolAction.input : PoolAction I C → Option I
  | .start i => some i
  | .settle _ _ => none

/-- The inputs of the calls, in the order of their numbers. -/
def startedInputs (acts : List (PoolAction I C)) : List I := acts.filterMap PoolAction.input

/-- The history has what each call performed since it started. -/
structure Recorded (program : I → Prog ε A α) (p : Pool ε A α W) (started : List I)
    (history : List (Settled ε A W)) : Prop where
  length_eq : started.length = p.calls.length
  call_lt : ∀ settled ∈ history, settled.call < p.calls.length
  performs : ∀ n i q, started[n]? = some i → p.calls[n]? = some q →
    Prog.Performs (program i) (traceOf n history) q

variable {program : I → Prog ε A α} {handle : C → (e : E) → W → Option (Except ε (A e) × W)}

theorem Recorded.empty (program : I → Prog ε A α) (w : W) : Recorded program ⟨w, []⟩ [] [] where
  length_eq := rfl
  call_lt settled hsettled := by cases hsettled
  performs n i q hi := by cases hi

theorem Recorded.start {p : Pool ε A α W} {started : List I} {history : List (Settled ε A W)}
    (h : Recorded program p started history) (i : I) :
    Recorded program ⟨p.world, p.calls ++ [program i]⟩ (started ++ [i]) history where
  length_eq := by simp [h.length_eq]
  call_lt settled hsettled := by
    have := h.call_lt settled hsettled
    simp only [List.length_append, List.length_singleton]
    omega
  performs n j q hj hq := by
    by_cases hn : n < started.length
    · rw [List.getElem?_append_left hn] at hj
      rw [List.getElem?_append_left (h.length_eq ▸ hn)] at hq
      exact h.performs n j q hj hq
    · -- The new call has performed nothing yet.
      have hlast : n = started.length := by
        have := (List.getElem?_eq_some_iff.mp hj).1
        simp only [List.length_append, List.length_singleton] at this
        omega
      subst hlast
      rw [List.getElem?_concat_length] at hj
      rw [h.length_eq, List.getElem?_concat_length] at hq
      obtain rfl := Option.some.inj hj
      obtain rfl := Option.some.inj hq
      have hempty : traceOf started.length history = [] := by
        refine List.filterMap_eq_nil_iff.mpr fun settled hsettled => if_neg ?_
        have := h.call_lt settled hsettled
        rw [h.length_eq]
        omega
      rw [hempty]
      exact .refl _

theorem Recorded.settle {p : Pool ε A α W} {started : List I} {history : List (Settled ε A W)}
    (h : Recorded program p started history) {n : ℕ} {e : E} {k : Except ε (A e) → Prog ε A α}
    (hcall : p.calls[n]? = some (.call e k)) (r : Except ε (A e)) (w : W) :
    Recorded program ⟨w, p.calls.set n (k r)⟩ started (history ++ [⟨n, e, r, w⟩]) where
  length_eq := by simp [h.length_eq]
  call_lt settled hsettled := by
    rw [List.length_set]
    rcases List.mem_append.mp hsettled with hsettled | hsettled
    · exact h.call_lt settled hsettled
    · obtain rfl := List.mem_singleton.mp hsettled
      exact (List.getElem?_eq_some_iff.mp hcall).1
  performs m i q hi hq := by
    rw [traceOf_append]
    by_cases hm : n = m
    · subst hm
      rw [List.getElem?_set_self (List.getElem?_eq_some_iff.mp hcall).1] at hq
      obtain rfl := Option.some.inj hq
      have htail : traceOf n [(⟨n, e, r, w⟩ : Settled ε A W)] = [⟨e, r⟩] := by simp [traceOf, Settled.event]
      rw [htail]
      exact (h.performs n i _ hi hcall).append (.step r (.refl _))
    · rw [List.getElem?_set_ne hm] at hq
      have htail : traceOf m [(⟨n, e, r, w⟩ : Settled ε A W)] = [] := by simp [traceOf, hm]
      rw [htail, List.append_nil]
      exact h.performs m i q hi hq

/-- A fact about histories that every settled effect keeps holds of a history of the run. -/
theorem pool_history {P : W → List (Settled ε A W) → Prop}
    (hstep : ∀ w history n c e r w', P w history → handle c e w = some (r, w') →
      P w' (history ++ [⟨n, e, r, w'⟩]))
    (acts : List (PoolAction I C)) {p p' : Pool ε A α W} {started : List I} {history : List (Settled ε A W)}
    (hrecorded : Recorded program p started history) (hP : P p.world history)
    (h : run (poolStep program handle) acts p = some p') :
    ∃ history', Recorded program p' (started ++ startedInputs acts) history' ∧ P p'.world history' := by
  induction acts generalizing p started history with
  | nil =>
    obtain rfl := Option.some.inj h
    exact ⟨history, by simpa [startedInputs] using hrecorded, hP⟩
  | cons a acts ih =>
    obtain ⟨p₁, h₁, h⟩ := run_cons h
    obtain ⟨i, rfl, rfl⟩ | ⟨n, c, e, k, r, w, rfl, hcall, hhandle, rfl⟩ := poolStep_cases h₁
    · obtain ⟨history', hrecorded', hP'⟩ := ih (hrecorded.start i) hP h
      exact ⟨history', by simpa [startedInputs, PoolAction.input] using hrecorded', hP'⟩
    · exact ih (hrecorded.settle hcall r w) (hstep _ _ n c e r w hP hhandle) h

end History

end Dnsid.Foundations

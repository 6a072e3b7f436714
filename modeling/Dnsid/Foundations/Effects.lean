import Mathlib.Data.Nat.Notation
import Dnsid.Foundations.Runs

/-! # Programs with effects

A program performs effects and goes on with their answers; an effect can fail, and a failure can be caught.
The effects of several programs interleave over one world (`poolStep`), or one program runs after another, each
from where the one before stopped (`sessionStep`). `Keeps` is the proof rule for one program: between two of its
effects the world moves along `rely`; each of its effects keeps the invariant and moves the world along `guar`.
-/
namespace Dnsid.Foundations
set_option autoImplicit false

/-- `call e k` performs `e` and goes on with `k` at its answer, or at what it threw. -/
inductive Prog (ε : Type) {E : Type} (A : E → Type) (α : Type) : Type
  | ret (a : α)
  | throw (x : ε)
  | call (e : E) (k : Except ε (A e) → Prog ε A α)

namespace Prog
variable {ε E : Type} {A : E → Type} {α β : Type}

def bind : Prog ε A α → (α → Prog ε A β) → Prog ε A β
  | ret a, f => f a
  | throw x, _ => throw x
  | call e k, f => call e fun r => (k r).bind f

instance : Monad (Prog ε A) where
  pure := ret
  bind := bind

/-- `try { p } catch (x) { h(x) }`. -/
def tryCatch : Prog ε A α → (ε → Prog ε A α) → Prog ε A α
  | ret a, _ => ret a
  | throw x, h => h x
  | call e k, h => call e fun r => (k r).tryCatch h

def ofExcept : Except ε α → Prog ε A α
  | .ok a => ret a
  | .error x => throw x

/-- `await e`. -/
def perform (e : E) : Prog ε A (A e) := call e ofExcept

/-- `await e` inside a `try` of its own. -/
def attempt (e : E) : Prog ε A (Except ε (A e)) := call e ret

theorem bind_assoc {γ : Type} (p : Prog ε A α) (f : α → Prog ε A β) (g : β → Prog ε A γ) :
    (p >>= f) >>= g = p >>= fun a => f a >>= g := by
  induction p with
  | ret a => rfl
  | throw x => rfl
  | call e k ih => exact congrArg (call e) (funext ih)

theorem ofExcept_bind {x : Except ε α} {a : α} (h : x = .ok a) (f : α → Prog ε A β) :
    ((ofExcept x : Prog ε A α) >>= f) = f a := by
  rw [h]
  rfl

/-- What the program comes to when every effect is answered by `answer`. -/
def eval (answer : (e : E) → Except ε (A e)) : Prog ε A α → Except ε α
  | ret a => .ok a
  | throw x => .error x
  | call e k => (k (answer e)).eval answer

section Eval
variable {answer : (e : E) → Except ε (A e)}

@[simp] theorem eval_ofExcept (x : Except ε α) : (ofExcept x : Prog ε A α).eval answer = x := by
  cases x <;> rfl

@[simp] theorem eval_perform (e : E) : (perform e : Prog ε A (A e)).eval answer = answer e := eval_ofExcept _

@[simp] theorem eval_pure (a : α) : (pure a : Prog ε A α).eval answer = .ok a := rfl

theorem eval_bind (p : Prog ε A α) (f : α → Prog ε A β) :
    (p >>= f).eval answer = p.eval answer >>= fun a => (f a).eval answer := by
  induction p with
  | ret a => rfl
  | throw x => rfl
  | call e k ih => exact ih (answer e)

theorem eval_bind_ok {p : Prog ε A α} {f : α → Prog ε A β} {a : α} (h : p.eval answer = .ok a) :
    (p >>= f).eval answer = (f a).eval answer := by
  rw [eval_bind, h]
  rfl

end Eval

/-- Every effect that the program can perform meets `P`. -/
def Only (P : E → Prop) : Prog ε A α → Prop
  | ret _ => True
  | throw _ => True
  | call e k => P e ∧ ∀ r, (k r).Only P

namespace Only
variable {P : E → Prop}

theorem ofExcept (x : Except ε α) : (Prog.ofExcept x : Prog ε A α).Only P := by
  cases x <;> trivial

theorem perform {e : E} (h : P e) : (Prog.perform e : Prog ε A (A e)).Only P := ⟨h, fun r => ofExcept r⟩

theorem bind {p : Prog ε A α} {f : α → Prog ε A β} (hp : p.Only P) (hf : ∀ a, (f a).Only P) :
    (p >>= f).Only P := by
  induction p with
  | ret a => exact hf a
  | throw x => trivial
  | call e k ih => exact ⟨hp.1, fun r => ih r (hp.2 r)⟩

theorem ofExcept_bind {x : Except ε α} {f : α → Prog ε A β} (h : ∀ a, x = .ok a → (f a).Only P) :
    (Prog.ofExcept x >>= f).Only P := by
  cases x with
  | ok a => exact h a rfl
  | error error => trivial

theorem imp {Q : E → Prop} {p : Prog ε A α} (hp : p.Only P) (h : ∀ e, P e → Q e) : p.Only Q := by
  induction p with
  | ret a => trivial
  | throw x => trivial
  | call e k ih => exact ⟨h e hp.1, fun r => ih r (hp.2 r)⟩

end Only

/-- With the answers that `answers` allows, the program comes to `q`. -/
inductive Reaches (answers : (e : E) → Except ε (A e) → Prop) : Prog ε A α → Prog ε A α → Prop
  | refl (p : Prog ε A α) : Reaches answers p p
  | step {e : E} {k : Except ε (A e) → Prog ε A α} {q : Prog ε A α} (r : Except ε (A e)) (hr : answers e r)
      (hq : Reaches answers (k r) q) : Reaches answers (call e k) q

/-- The program performs the effects of the trace, with these answers, and comes to `q`. -/
inductive Performs : Prog ε A α → List (Σ e : E, Except ε (A e)) → Prog ε A α → Prop
  | refl (p : Prog ε A α) : Performs p [] p
  | step {e : E} {k : Except ε (A e) → Prog ε A α} {q : Prog ε A α} {trace : List (Σ e : E, Except ε (A e))}
      (r : Except ε (A e)) (h : Performs (k r) trace q) : Performs (call e k) (⟨e, r⟩ :: trace) q

theorem Only.performs {P : E → Prop} {p q : Prog ε A α} {trace : List (Σ e : E, Except ε (A e))} (hp : p.Only P)
    (h : Performs p trace q) : ∀ step ∈ trace, P step.1 := by
  induction h with
  | refl p => simp
  | step r h ih =>
    rw [List.forall_mem_cons]
    exact ⟨hp.1, ih (hp.2 r)⟩

namespace Performs
variable {trace : List (Σ e : E, Except ε (A e))} {q : Prog ε A α}

theorem of_ret {a : α} (h : Performs (ret a) trace q) : trace = [] ∧ q = ret a := by
  cases h
  exact ⟨rfl, rfl⟩

theorem of_throw {x : ε} (h : Performs (throw x) trace q) : trace = [] ∧ q = throw x := by
  cases h
  exact ⟨rfl, rfl⟩

theorem of_ofExcept {x : Except ε α} (h : Performs (ofExcept x) trace q) : trace = [] ∧ q = ofExcept x := by
  cases x with
  | ok a => exact of_ret h
  | error x => exact of_throw h

/-- After pure steps a program goes on with what they came to, or ends. -/
theorem of_ofExcept_bind {x : Except ε β} {f : β → Prog ε A α} (h : Performs (ofExcept x >>= f) trace q) :
    (∃ b, x = .ok b ∧ Performs (f b) trace q) ∨ ∃ error, x = .error error ∧ trace = [] ∧ q = throw error := by
  cases x with
  | ok b => exact .inl ⟨b, rfl, h⟩
  | error error => exact .inr ⟨error, rfl, of_throw h⟩

/-- An awaited effect is performed first, if any is. -/
theorem of_perform_bind {e : E} {f : A e → Prog ε A α} (h : Performs (perform e >>= f) trace q) :
    (trace = [] ∧ q = perform e >>= f) ∨ ∃ r rest, trace = ⟨e, r⟩ :: rest ∧ Performs (ofExcept r >>= f) rest q := by
  cases h with
  | refl => exact .inl ⟨rfl, rfl⟩
  | step r h => exact .inr ⟨r, _, rfl, h⟩

theorem perform_bind {e : E} {f : A e → Prog ε A α} (r : Except ε (A e)) (h : Performs (ofExcept r >>= f) trace q) :
    Performs (perform e >>= f) (⟨e, r⟩ :: trace) q := step r h

theorem ofExcept_bind {x : Except ε β} {f : β → Prog ε A α} {b : β} (hx : x = .ok b) (h : Performs (f b) trace q) :
    Performs (ofExcept x >>= f) trace q := by
  rw [Prog.ofExcept_bind hx]
  exact h

/-! What a program performs that returns. -/

theorem returns_pure {a b : α} : Performs (pure b : Prog ε A α) trace (ret a) ↔ trace = [] ∧ b = a := by
  constructor
  · intro h
    obtain ⟨htrace, hret⟩ := of_ret h
    exact ⟨htrace, (Prog.ret.inj hret).symm⟩
  · rintro ⟨rfl, rfl⟩
    exact refl _

theorem returns_ofExcept_bind {x : Except ε β} {f : β → Prog ε A α} {a : α} :
    Performs (ofExcept x >>= f) trace (ret a) ↔ ∃ b, x = .ok b ∧ Performs (f b) trace (ret a) := by
  constructor
  · intro h
    obtain ⟨b, hb, h⟩ | ⟨_, _, _, h⟩ := of_ofExcept_bind h
    · exact ⟨b, hb, h⟩
    · cases h
  · rintro ⟨b, rfl, h⟩
    exact h

theorem returns_perform_bind {e : E} {f : A e → Prog ε A α} {a : α} :
    Performs (perform e >>= f) trace (ret a) ↔
      ∃ b rest, trace = ⟨e, .ok b⟩ :: rest ∧ Performs (f b) rest (ret a) := by
  constructor
  · intro h
    obtain ⟨_, h⟩ | ⟨r, rest, htrace, h⟩ := of_perform_bind h
    · cases h
    · obtain ⟨b, rfl, h⟩ := returns_ofExcept_bind.mp h
      exact ⟨b, rest, htrace, h⟩
  · rintro ⟨b, rest, rfl, h⟩
    exact step _ h

end Performs

end Prog

/-! ## Programs over one world -/

section Pool
variable {ε E : Type} {A : E → Type} {α W C I : Type}

structure Pool (ε : Type) {E : Type} (A : E → Type) (α W : Type) where
  world : W
  calls : List (Prog ε A α)

/-- A call starts, or the environment settles the effect that a call waits for. A call that crashes is one
whose effect is never settled. -/
inductive PoolAction (I C : Type) where
  | start (i : I)
  | settle (n : ℕ) (c : C)

variable (program : I → Prog ε A α) (handle : C → (e : E) → W → Option (Except ε (A e) × W))

def poolStep : PoolAction I C → Pool ε A α W → Option (Pool ε A α W)
  | .start i, p => some ⟨p.world, p.calls ++ [program i]⟩
  | .settle n c, p =>
    match p.calls[n]? with
    | some (.call e k) => (handle c e p.world).map fun answer => ⟨answer.2, p.calls.set n (k answer.1)⟩
    | _ => none

/-- Every effect settled by the action meets `P`. -/
def SettlesWith (P : C → E → W → Prop) (a : PoolAction I C) (p : Pool ε A α W) : Prop :=
  ∀ n c e k, a = .settle n c → p.calls[n]? = some (.call e k) → P c e p.world

variable {program handle}

theorem poolStep_cases {a : PoolAction I C} {p p' : Pool ε A α W} (h : poolStep program handle a p = some p') :
    (∃ i, a = .start i ∧ p' = ⟨p.world, p.calls ++ [program i]⟩) ∨
      ∃ n c e k r w, a = .settle n c ∧ p.calls[n]? = some (.call e k) ∧ handle c e p.world = some (r, w) ∧
        p' = ⟨w, p.calls.set n (k r)⟩ := by
  cases a with
  | start i =>
    refine .inl ⟨i, rfl, ?_⟩
    simpa [poolStep] using h.symm
  | settle n c =>
    simp only [poolStep] at h
    split at h
    next e k hcall =>
      obtain ⟨⟨r, w⟩, hanswer, rfl⟩ := Option.map_eq_some_iff.mp h
      exact .inr ⟨n, c, e, k, r, w, rfl, hcall, hanswer, rfl⟩
    next => cases h

end Pool

/-! ## One program at a time -/

section Session
variable {ε E : Type} {A : E → Type} {α W C I : Type}

/-- The program that runs, if one was started. -/
structure Session (ε : Type) {E : Type} (A : E → Type) (α W : Type) where
  world : W
  current : Option (Prog ε A α)

/-- A program starts, whatever became of the one before, or the environment settles an effect. -/
inductive SessionAction (I C : Type) where
  | start (i : I)
  | settle (c : C)

variable (admits : I → Session ε A α W → Bool) (program : I → Prog ε A α)
variable (handle : C → (e : E) → W → Option (Except ε (A e) × W))

def sessionStep : SessionAction I C → Session ε A α W → Option (Session ε A α W)
  | .start i, s => if admits i s then some ⟨s.world, some (program i)⟩ else none
  | .settle c, s =>
    match s.current with
    | some (.call e k) => (handle c e s.world).map fun answer => ⟨answer.2, some (k answer.1)⟩
    | _ => none

variable {admits program handle}

theorem sessionStep_cases {a : SessionAction I C} {s s' : Session ε A α W}
    (h : sessionStep admits program handle a s = some s') :
    (∃ i, admits i s = true ∧ s' = ⟨s.world, some (program i)⟩) ∨
      ∃ c e k r w, s.current = some (.call e k) ∧ handle c e s.world = some (r, w) ∧ s' = ⟨w, some (k r)⟩ := by
  cases a with
  | start i =>
    simp only [sessionStep] at h
    split at h
    next hadmits => exact .inl ⟨i, hadmits, (Option.some.inj h).symm⟩
    next => cases h
  | settle c =>
    simp only [sessionStep] at h
    split at h
    next e k hcurrent =>
      obtain ⟨⟨r, w⟩, hanswer, rfl⟩ := Option.map_eq_some_iff.mp h
      exact .inr ⟨c, e, k, r, w, hcurrent, hanswer, rfl⟩
    next => cases h

end Session

/-! ## The effects of a program -/

section Keeps
variable {ε E : Type} {A : E → Type} {α β W C I : Type}
variable (handle : C → (e : E) → W → Option (Except ε (A e) × W)) (P : C → E → W → Prop)
variable (inv : W → Prop) (rely guar : W → W → Prop)

/-- From `w` on, every effect of the program keeps `inv` and moves along `guar`, and it returns only with `Q`. -/
def Keeps : Prog ε A α → (α → W → Prop) → W → Prop
  | .ret a, Q, w => Q a w
  | .throw _, _, _ => True
  | .call e k, Q, w => ∀ w₁, rely w w₁ → inv w₁ → ∀ c r w₂, P c e w₁ → handle c e w₁ = some (r, w₂) →
      inv w₂ ∧ guar w₁ w₂ ∧ Keeps (k r) Q w₂

variable {handle P inv rely guar}

namespace Keeps
variable {p : Prog ε A α} {Q : α → W → Prop} {w : W}

theorem bind {f : α → Prog ε A β} {R : β → W → Prop} (hp : Keeps handle P inv rely guar p Q w)
    (hf : ∀ a w', Q a w' → Keeps handle P inv rely guar (f a) R w') :
    Keeps handle P inv rely guar (p >>= f) R w := by
  show Keeps handle P inv rely guar (p.bind f) R w
  induction p generalizing w with
  | ret a => exact hf a w hp
  | throw x => trivial
  | call e k ih =>
    intro w₁ hrely hinv c r w₂ hP hhandle
    obtain ⟨hinv₂, hguar, hk⟩ := hp w₁ hrely hinv c r w₂ hP hhandle
    exact ⟨hinv₂, hguar, ih r hk⟩

theorem mono {R : α → W → Prop} (hp : Keeps handle P inv rely guar p Q w) (h : ∀ a w', Q a w' → R a w') :
    Keeps handle P inv rely guar p R w := by
  induction p generalizing w with
  | ret a => exact h a w hp
  | throw x => trivial
  | call e k ih =>
    intro w₁ hrely hinv c r w₂ hP hhandle
    obtain ⟨hinv₂, hguar, hk⟩ := hp w₁ hrely hinv c r w₂ hP hhandle
    exact ⟨hinv₂, hguar, ih r hk⟩

/-- A handler may start in any world. -/
theorem tryCatch {h : ε → Prog ε A α} (hp : Keeps handle P inv rely guar p Q w)
    (hh : ∀ x w', Keeps handle P inv rely guar (h x) Q w') : Keeps handle P inv rely guar (p.tryCatch h) Q w := by
  induction p generalizing w with
  | ret a => exact hp
  | throw x => exact hh x w
  | call e k ih =>
    intro w₁ hrely hinv c r w₂ hP hhandle
    obtain ⟨hinv₂, hguar, hk⟩ := hp w₁ hrely hinv c r w₂ hP hhandle
    exact ⟨hinv₂, hguar, ih r hk⟩

theorem ofExcept {x : Except ε α} (h : ∀ a, x = .ok a → Q a w) :
    Keeps handle P inv rely guar (Prog.ofExcept x) Q w := by
  cases x with
  | ok a => exact h a rfl
  | error e => trivial

theorem perform {e : E} {Q : A e → W → Prop}
    (h : ∀ w₁, rely w w₁ → inv w₁ → ∀ c r w₂, P c e w₁ → handle c e w₁ = some (r, w₂) →
      inv w₂ ∧ guar w₁ w₂ ∧ ∀ a, r = .ok a → Q a w₂) :
    Keeps handle P inv rely guar (Prog.perform e) Q w := by
  intro w₁ hrely hinv c r w₂ hP hhandle
  obtain ⟨hinv₂, hguar, hQ⟩ := h w₁ hrely hinv c r w₂ hP hhandle
  exact ⟨hinv₂, hguar, ofExcept hQ⟩

theorem attempt {e : E} {Q : Except ε (A e) → W → Prop}
    (h : ∀ w₁, rely w w₁ → inv w₁ → ∀ c r w₂, P c e w₁ → handle c e w₁ = some (r, w₂) →
      inv w₂ ∧ guar w₁ w₂ ∧ Q r w₂) :
    Keeps handle P inv rely guar (Prog.attempt e) Q w := h

/-- What the others do in the meantime does not matter. -/
theorem rely_mono (trans : ∀ w₁ w₂ w₃, rely w₁ w₂ → rely w₂ w₃ → rely w₁ w₃) {w' : W}
    (h : Keeps handle P inv rely guar p (fun _ _ => True) w) (hw : rely w w') :
    Keeps handle P inv rely guar p (fun _ _ => True) w' := by
  cases p with
  | ret a => trivial
  | throw x => trivial
  | call e k =>
    intro w₁ hrely
    exact h w₁ (trans w w' w₁ hw hrely)

/-- A program with effects that leave the world alone leaves it alone. -/
theorem of_only {S : E → Prop} (hS : ∀ c e r w w', S e → handle c e w = some (r, w') → w' = w)
    (hrefl : ∀ w, guar w w) (hp : p.Only S) :
    Keeps handle P inv Eq guar p (fun _ w' => w' = w) w := by
  induction p with
  | ret a => rfl
  | throw x => trivial
  | call e k ih =>
    rintro _ rfl hinv c r w₂ _ hhandle
    obtain rfl := hS c e r w w₂ hp.1 hhandle
    exact ⟨hinv, hrefl w₂, ih r (hp.2 r)⟩

/-- A program keeps what each effect that it can perform keeps. -/
theorem of_only_keeps {S : E → Prop}
    (hS : ∀ c e r w w', S e → inv w → handle c e w = some (r, w') → inv w' ∧ guar w w') (hp : p.Only S) :
    Keeps handle P inv rely guar p (fun _ _ => True) w := by
  induction p generalizing w with
  | ret a => trivial
  | throw x => trivial
  | call e k ih =>
    intro w₁ _ hinv c r w₂ _ hhandle
    obtain ⟨hinv₂, hguar⟩ := hS c e r w₁ w₂ hp.1 hinv hhandle
    exact ⟨hinv₂, hguar, ih r (hp.2 r)⟩

end Keeps

/-! ## Interleaved programs -/

/-- The invariant holds of the world, and every program keeps it, whatever the others do. -/
def PoolKeeps (handle : C → (e : E) → W → Option (Except ε (A e) × W)) (P : C → E → W → Prop)
    (inv : W → Prop) (rely : W → W → Prop) (p : Pool ε A α W) : Prop :=
  inv p.world ∧ ∀ q ∈ p.calls, Keeps handle P inv rely rely q (fun _ _ => True) p.world

theorem poolStep_keeps {program : I → Prog ε A α} (trans : ∀ w₁ w₂ w₃, rely w₁ w₂ → rely w₂ w₃ → rely w₁ w₃)
    (refl : ∀ w, rely w w)
    (hprogram : ∀ i w, inv w → Keeps handle P inv rely rely (program i) (fun _ _ => True) w)
    {a : PoolAction I C} {p p' : Pool ε A α W} (hP : SettlesWith P a p)
    (hp : PoolKeeps handle P inv rely p) (h : poolStep program handle a p = some p') :
    PoolKeeps handle P inv rely p' := by
  obtain ⟨hinv, hcalls⟩ := hp
  obtain ⟨i, -, rfl⟩ | ⟨n, c, e, k, r, w, rfl, hcall, hhandle, rfl⟩ := poolStep_cases h
  · refine ⟨hinv, fun q hq => ?_⟩
    rcases List.mem_append.mp hq with hq | hq
    · exact hcalls q hq
    · obtain rfl := List.mem_singleton.mp hq
      exact hprogram i p.world hinv
  · have hkeeps := hcalls _ (List.mem_of_getElem? hcall)
    obtain ⟨hinv₂, hrely, hk⟩ :=
      hkeeps p.world (refl p.world) hinv c r w (hP n c e k rfl hcall) hhandle
    refine ⟨hinv₂, fun q hq => ?_⟩
    rcases List.mem_or_eq_of_mem_set hq with hq | rfl
    · exact (hcalls q hq).rely_mono trans hrely
    · exact hk

/-- Over a run whose steps all meet `P`, the invariant of the world is kept. -/
theorem pool_keeps {program : I → Prog ε A α} (trans : ∀ w₁ w₂ w₃, rely w₁ w₂ → rely w₂ w₃ → rely w₁ w₃)
    (refl : ∀ w, rely w w)
    (hprogram : ∀ i w, inv w → Keeps handle P inv rely rely (program i) (fun _ _ => True) w)
    {acts : List (PoolAction I C)} {p p' : Pool ε A α W}
    (hP : RunMeets (poolStep program handle) (SettlesWith P) acts p)
    (hp : PoolKeeps handle P inv rely p) (h : run (poolStep program handle) acts p = some p') :
    PoolKeeps handle P inv rely p' :=
  run_invariant_of_meets (fun _ _ _ hP hp h => poolStep_keeps trans refl hprogram hP hp h) acts p p' hP hp h

/-! ## One program after another -/

/-- Alone, a program finds the world as it left it. -/
abbrev KeepsAlone (handle : C → (e : E) → W → Option (Except ε (A e) × W)) (inv : W → Prop) (p : Prog ε A α)
    (Q : α → W → Prop) (w : W) : Prop :=
  Keeps handle (fun _ _ _ => True) inv Eq (fun _ _ => True) p Q w

/-- The invariant holds of the world, and the program that runs keeps it. -/
def SessionKeeps (handle : C → (e : E) → W → Option (Except ε (A e) × W)) (inv : W → Prop)
    (s : Session ε A α W) : Prop :=
  inv s.world ∧ ∀ p ∈ s.current, KeepsAlone handle inv p (fun _ _ => True) s.world

/-- Over a session the invariant is kept, if every admitted program keeps it. -/
theorem session_keeps {admits : I → Session ε A α W → Bool} {program : I → Prog ε A α}
    (hprogram : ∀ i s, admits i s = true → inv s.world →
      KeepsAlone handle inv (program i) (fun _ _ => True) s.world)
    {acts : List (SessionAction I C)} {s s' : Session ε A α W} (hs : SessionKeeps handle inv s)
    (h : run (sessionStep admits program handle) acts s = some s') : SessionKeeps handle inv s' := by
  refine run_invariant (P := fun _ => True) (fun a s s' _ hs hstep => ?_) acts s s' (fun _ _ => trivial) hs h
  obtain ⟨hinv, hcurrent⟩ := hs
  obtain ⟨i, hadmits, rfl⟩ | ⟨c, e, k, r, w, hcall, hhandle, rfl⟩ := sessionStep_cases hstep
  · refine ⟨hinv, fun p hp => ?_⟩
    obtain rfl := Option.some.inj hp
    exact hprogram i s hadmits hinv
  · obtain ⟨hinv', -, hk⟩ := hcurrent _ hcall s.world rfl hinv c r w trivial hhandle
    refine ⟨hinv', fun p hp => ?_⟩
    obtain rfl := Option.some.inj hp
    exact hk

end Keeps

end Dnsid.Foundations

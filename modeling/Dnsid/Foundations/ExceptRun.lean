import Mathlib.Data.List.Forall2

/-! # Computations in `Except`

Inversion of a computation that returned (`bind_eq_ok`, `throwIf_eq_ok`), and a bound on what a
computation can throw (`ErrorsIn`), both rule by rule along the binds.
-/
namespace Dnsid.Foundations
set_option autoImplicit false

variable {ε α β : Type}

theorem ok_bind (a : α) (f : α → Except ε β) : (Except.ok a >>= f) = f a := rfl

/-- A bind returns exactly when both parts return. -/
theorem bind_eq_ok {x : Except ε α} {f : α → Except ε β} {b : β} :
    (x >>= f) = .ok b ↔ ∃ a, x = .ok a ∧ f a = .ok b := by
  constructor
  · intro h
    cases x with
    | error e => cases h
    | ok a => exact ⟨a, rfl, h⟩
  · rintro ⟨a, rfl, h⟩
    exact h

/-- A bind returns something exactly when both parts do. -/
theorem exists_bind_eq_ok {x : Except ε α} {f : α → Except ε β} :
    (∃ b, (x >>= f) = .ok b) ↔ ∃ a, x = .ok a ∧ ∃ b, f a = .ok b := by
  simp only [bind_eq_ok]
  exact ⟨fun ⟨b, a, ha, hb⟩ => ⟨a, ha, b, hb⟩, fun ⟨a, ha, b, hb⟩ => ⟨b, a, ha, hb⟩⟩

theorem pure_eq_ok {a b : α} : (pure a : Except ε α) = .ok b ↔ a = b := by
  constructor
  · intro h
    cases h
    rfl
  · rintro rfl
    rfl

/-- `if (c) throw e`. -/
def throwIf (c : Prop) [Decidable c] (e : ε) : Except ε Unit :=
  if c then .error e else .ok ()

theorem throwIf_eq_ok {c : Prop} [Decidable c] {e : ε} {u : Unit} :
    throwIf c e = .ok u ↔ ¬ c := by
  unfold throwIf
  split <;> simp_all

theorem throwIf_bind {c : Prop} [Decidable c] {e : ε} (h : ¬ c) (f : Unit → Except ε β) : (throwIf c e >>= f) = f () := by
  rw [throwIf, if_neg h]
  rfl

/-- `undefined` becomes the error `e`. -/
def orThrow (e : ε) : Option α → Except ε α
  | some a => .ok a
  | none => .error e

theorem orThrow_some (e : ε) (a : α) : orThrow e (some a) = .ok a := rfl

theorem orThrow_eq_ok {e : ε} {x : Option α} {a : α} : orThrow e x = .ok a ↔ x = some a := by
  cases x <;> simp [orThrow]

theorem mapError_eq_ok {ε' : Type} {f : ε → ε'} {x : Except ε α} {a : α} : x.mapError f = .ok a ↔ x = .ok a := by
  cases x <;> simp [Except.mapError]

theorem toOption_eq_some {x : Except ε α} {a : α} : x.toOption = some a ↔ x = .ok a := by
  cases x <;> simp [Except.toOption]

/-- A loop returns exactly when every turn does. -/
theorem mapM_eq_ok {f : α → Except ε β} {as : List α} {bs : List β} :
    as.mapM f = .ok bs ↔ List.Forall₂ (fun a b => f a = .ok b) as bs := by
  induction as generalizing bs with
  | nil =>
    rw [List.mapM_nil, pure_eq_ok, List.forall₂_nil_left_iff]
    exact eq_comm
  | cons a as ih =>
    simp only [List.mapM_cons, bind_eq_ok, pure_eq_ok, ih, List.forall₂_cons_left_iff]
    constructor
    · rintro ⟨b, hb, bs, hbs, rfl⟩
      exact ⟨b, bs, hb, hbs, rfl⟩
    · rintro ⟨b, bs, hb, hbs, rfl⟩
      exact ⟨b, hb, bs, hbs, rfl⟩

theorem mem_of_mapM {f : α → Except ε β} {as : List α} {bs : List β} (h : as.mapM f = .ok bs) {b : β} (hb : b ∈ bs) :
    ∃ a ∈ as, f a = .ok b := by
  have hturns := mapM_eq_ok.mp h
  clear h
  induction hturns with
  | nil => cases hb
  | cons ha _ ih =>
    rcases List.mem_cons.mp hb with rfl | hb
    · exact ⟨_, List.mem_cons_self, ha⟩
    · obtain ⟨a, hmem, hfa⟩ := ih hb
      exact ⟨a, List.mem_cons_of_mem _ hmem, hfa⟩

theorem map_eq_of_mapM {f : α → Except ε β} {as : List α} {bs : List β} (h : as.mapM f = .ok bs) :
    as.map f = bs.map .ok := by
  have hturns := mapM_eq_ok.mp h
  clear h
  induction hturns with
  | nil => rfl
  | cons ha _ ih => simp [ha, ih]

theorem exists_of_mapM {f : α → Except ε β} {as : List α} {bs : List β} (h : as.mapM f = .ok bs) :
    ∀ a ∈ as, ∃ b, f a = .ok b := by
  intro a ha
  have hmem : f a ∈ bs.map Except.ok := map_eq_of_mapM h ▸ List.mem_map_of_mem ha
  obtain ⟨b, -, hb⟩ := List.mem_map.mp hmem
  exact ⟨b, hb.symm⟩

theorem mapM_of_forall {f : α → Except ε β} {g : α → β} {as : List α} (h : ∀ a ∈ as, f a = .ok (g a)) :
    as.mapM f = .ok (as.map g) :=
  mapM_eq_ok.mpr (List.forall₂_map_right_iff.mpr (List.forall₂_same.mpr h))

theorem mapM_append_eq_ok {f : α → Except ε β} {as as' : List α} {bs : List β} :
    (as ++ as').mapM f = .ok bs ↔ ∃ front back, as.mapM f = .ok front ∧ as'.mapM f = .ok back ∧ bs = front ++ back := by
  simp only [List.mapM_append, bind_eq_ok, pure_eq_ok]
  constructor
  · rintro ⟨front, hfront, back, hback, rfl⟩
    exact ⟨front, back, hfront, hback, rfl⟩
  · rintro ⟨front, back, hfront, hback, rfl⟩
    exact ⟨front, hfront, back, hback, rfl⟩

/-- One turn more. -/
theorem mapM_middle_eq_ok {f : α → Except ε β} {as as' : List α} {front back : List β} {a : α} {bs : List β}
    (hfront : as.mapM f = .ok front) (hback : as'.mapM f = .ok back) :
    (as ++ a :: as').mapM f = .ok bs ↔ ∃ b, f a = .ok b ∧ bs = front ++ b :: back := by
  simp only [mapM_append_eq_ok, List.mapM_cons, bind_eq_ok, pure_eq_ok, hfront, hback, Except.ok.injEq]
  constructor
  · rintro ⟨_, _, rfl, ⟨b, hb, _, rfl, rfl⟩, rfl⟩
    exact ⟨b, hb, rfl⟩
  · rintro ⟨b, hb, rfl⟩
    exact ⟨_, _, rfl, ⟨b, hb, _, rfl, rfl⟩, rfl⟩

theorem mapM_congr {f g : α → Except ε β} {as : List α} (h : ∀ a ∈ as, f a = g a) : as.mapM f = as.mapM g := by
  induction as with
  | nil => rfl
  | cons a as ih =>
    rw [List.mapM_cons, List.mapM_cons, h a List.mem_cons_self, ih fun a' ha' => h a' (List.mem_cons_of_mem _ ha')]

theorem forM_eq_ok {f : α → Except ε Unit} {as : List α} {u : Unit} :
    as.forM f = .ok u ↔ ∀ a ∈ as, f a = .ok () := by
  induction as with
  | nil => simp [pure_eq_ok]
  | cons a as ih =>
    rw [show (a :: as).forM f = f a >>= fun _ => as.forM f from rfl, bind_eq_ok]
    simp only [ih, List.forall_mem_cons, exists_and_right]
    exact ⟨fun ⟨⟨_, ha⟩, has⟩ => ⟨ha, has⟩, fun ⟨ha, has⟩ => ⟨⟨(), ha⟩, has⟩⟩

/-! ## What a computation can throw -/

/-- Every error of `x` satisfies `P`. -/
def ErrorsIn (P : ε → Prop) (x : Except ε α) : Prop := ∀ e, x = .error e → P e

namespace ErrorsIn
variable {P : ε → Prop}

theorem of_ok (a : α) : ErrorsIn P (.ok a : Except ε α) := by
  intro e h
  cases h

theorem of_pure (a : α) : ErrorsIn P (pure a : Except ε α) := of_ok a

theorem of_error {e : ε} (he : P e) : ErrorsIn P (.error e : Except ε α) := by
  intro e' h
  cases h
  exact he

theorem throwIf {c : Prop} [Decidable c] {e : ε} (he : P e) : ErrorsIn P (throwIf c e) := by
  unfold Foundations.throwIf
  split
  · exact of_error he
  · exact of_ok ()

theorem orThrow {e : ε} (he : P e) (x : Option α) : ErrorsIn P (orThrow e x) := by
  cases x with
  | none => exact of_error he
  | some a => exact of_ok a

theorem bind {x : Except ε α} {f : α → Except ε β} (hx : ErrorsIn P x)
    (hf : ∀ a, x = .ok a → ErrorsIn P (f a)) : ErrorsIn P (x >>= f) := by
  intro e h
  cases x with
  | error e' =>
    cases h
    exact hx e rfl
  | ok a => exact hf a rfl e h

theorem mapError {ε' : Type} {Q : ε' → Prop} {f : ε → ε'} {x : Except ε α} (hx : ErrorsIn P x) (hf : ∀ e, P e → Q (f e)) :
    ErrorsIn Q (x.mapError f) := by
  intro e' h
  cases x with
  | error e =>
    cases h
    exact hf e (hx e rfl)
  | ok a => cases h

theorem mapM {f : α → Except ε β} {as : List α} (h : ∀ a ∈ as, ErrorsIn P (f a)) : ErrorsIn P (as.mapM f) := by
  induction as with
  | nil => exact of_pure []
  | cons a as ih =>
    rw [List.mapM_cons]
    refine bind (h a List.mem_cons_self) fun b _ => bind (ih fun a' ha' => h a' (List.mem_cons_of_mem _ ha')) fun bs _ => ?_
    exact of_pure _

theorem forM {f : α → Except ε Unit} {as : List α} (h : ∀ a ∈ as, ErrorsIn P (f a)) : ErrorsIn P (as.forM f) := by
  induction as with
  | nil => exact of_pure ()
  | cons a as ih =>
    exact bind (h a List.mem_cons_self) fun _ _ => ih fun a' ha' => h a' (List.mem_cons_of_mem _ ha')

theorem foldlM {f : β → α → Except ε β} {as : List α} (h : ∀ b a, ErrorsIn P (f b a)) (b : β) :
    ErrorsIn P (as.foldlM f b) := by
  induction as generalizing b with
  | nil => exact of_pure b
  | cons a as ih => exact bind (h b a) fun b' _ => ih b'

end ErrorsIn

end Dnsid.Foundations

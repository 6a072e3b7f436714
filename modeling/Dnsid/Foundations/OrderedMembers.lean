import Mathlib.Data.List.Basic
import Mathlib.Order.Lattice

/-! # Named members in order

A list of named values whose names increase, by a rank that orders the names. `upsert` puts a member in its
place and replaces the one of the same name; such a list is known by its lookups (`Ordered.ext`).
-/
namespace Dnsid.Foundations
set_option autoImplicit false

variable {κ ρ V W : Type} [DecidableEq κ] [LinearOrder ρ] (rank : κ → ρ)

def upsert (name : κ) (value : V) : List (κ × V) → List (κ × V)
  | [] => [(name, value)]
  | m :: rest =>
    if name = m.1 then (name, value) :: rest
    else if rank name < rank m.1 then (name, value) :: m :: rest
    else m :: upsert name value rest

def Ordered (members : List (κ × V)) : Prop := members.Pairwise fun a b => rank a.1 < rank b.1

variable {rank}

omit [LinearOrder ρ] in
theorem lookup_cons_ite (name other : κ) (value : V) (members : List (κ × V)) :
    ((name, value) :: members).lookup other = if other = name then some value else members.lookup other := by
  rw [List.lookup_cons]
  by_cases h : other = name
  · rw [beq_iff_eq.mpr h, if_pos h]
  · rw [beq_false_of_ne h, if_neg h]

omit [LinearOrder ρ] in
theorem lookup_filter (members : List (κ × V)) (keep : κ → Bool) (name : κ) :
    (members.filter fun m => keep m.1).lookup name = if keep name then members.lookup name else none := by
  induction members with
  | nil => simp
  | cons m members ih =>
    obtain ⟨other, value⟩ := m
    rw [List.filter_cons, lookup_cons_ite]
    by_cases hname : name = other
    · subst hname
      cases hkeep : keep name <;> simp [hkeep, ih]
    · cases hkeep : keep other <;> simp [ih, lookup_cons_ite, hname]

theorem lookup_upsert (name other : κ) (value : V) (members : List (κ × V)) :
    (upsert rank name value members).lookup other =
      if other = name then some value else members.lookup other := by
  induction members with
  | nil => exact lookup_cons_ite name other value []
  | cons m rest ih =>
    obtain ⟨key, first⟩ := m
    unfold upsert
    split
    case isTrue heq =>
      rw [lookup_cons_ite, lookup_cons_ite, show name = key from heq]
      split <;> rfl
    case isFalse hne =>
      split
      · exact lookup_cons_ite name other value _
      · rw [lookup_cons_ite, lookup_cons_ite, ih]
        by_cases hother : other = key
        · rw [if_pos hother, if_pos hother, if_neg]
          rintro rfl
          exact hne hother
        · rw [if_neg hother, if_neg hother]

theorem mem_upsert {name : κ} {value : V} {members : List (κ × V)} {m : κ × V}
    (h : m ∈ upsert rank name value members) : m = (name, value) ∨ m ∈ members := by
  induction members with
  | nil => simpa [upsert] using h
  | cons first rest ih =>
    unfold upsert at h
    split at h
    · rcases List.mem_cons.mp h with rfl | h
      · exact .inl rfl
      · exact .inr (List.mem_cons_of_mem first h)
    · split at h
      · simpa using h
      · rcases List.mem_cons.mp h with rfl | h
        · exact .inr List.mem_cons_self
        · exact (ih h).imp_right (List.mem_cons_of_mem first)

/-- A new name is put between the others. -/
theorem upsert_perm {name : κ} (value : V) {members : List (κ × V)} (h : name ∉ members.map Prod.fst) :
    (upsert rank name value members).Perm ((name, value) :: members) := by
  induction members with
  | nil => exact .refl _
  | cons first rest ih =>
    rw [List.map_cons, List.mem_cons, not_or] at h
    unfold upsert
    rw [if_neg h.1]
    split
    · exact .refl _
    · exact ((ih h.2).cons first).trans (.swap _ _ _)

/-- A name below the others is put in front. -/
theorem upsert_of_lt {name : κ} {value : V} {members : List (κ × V)} (h : ∀ m ∈ members, rank name < rank m.1) :
    upsert rank name value members = (name, value) :: members := by
  cases members with
  | nil => rfl
  | cons first rest =>
    have hlt := h first List.mem_cons_self
    rw [upsert, if_neg (fun heq => hlt.ne (congrArg rank heq)), if_pos hlt]

theorem Ordered.upsert (hrank : Function.Injective rank) {members : List (κ × V)}
    (h : Ordered rank members) (name : κ) (value : V) :
    Ordered rank (upsert rank name value members) := by
  induction members with
  | nil => exact List.pairwise_singleton _ _
  | cons first rest ih =>
    obtain ⟨hfirst, hrest⟩ := List.pairwise_cons.mp h
    unfold Foundations.upsert
    split
    case isTrue heq =>
      refine List.pairwise_cons.mpr ⟨fun m hm => ?_, hrest⟩
      rw [heq]
      exact hfirst m hm
    case isFalse hne =>
      split
      case isTrue hlt =>
        refine List.pairwise_cons.mpr ⟨fun m hm => ?_, h⟩
        rcases List.mem_cons.mp hm with rfl | hm
        · exact hlt
        · exact hlt.trans (hfirst m hm)
      case isFalse hnlt =>
        refine List.pairwise_cons.mpr ⟨fun m hm => ?_, ih hrest⟩
        rcases mem_upsert hm with rfl | hm
        · exact lt_of_le_of_ne (not_lt.mp hnlt) fun heq => hne (hrank heq).symm
        · exact hfirst m hm

/-- A name that ranks before every member is not among them. -/
theorem lookup_eq_none_of_lt (rank : κ → ρ) {name : κ} {members : List (κ × V)}
    (h : ∀ m ∈ members, rank name < rank m.1) : members.lookup name = none := by
  rw [List.lookup_eq_none_iff]
  intro m hm
  have hne : name ≠ m.1 := fun heq => (h m hm).ne (congrArg rank heq)
  simpa using hne

/-- The first names of two ordered lists agree when the lookups do. -/
theorem Ordered.head_not_lt {k l : κ} {v w : V} {rest rest' : List (κ × V)}
    (h : Ordered rank ((l, w) :: rest'))
    (hlookup : ((k, v) :: rest).lookup k = ((l, w) :: rest').lookup k) : ¬ rank k < rank l := by
  intro hlt
  have hnone : ((l, w) :: rest').lookup k = none := by
    refine lookup_eq_none_of_lt rank fun m hm => ?_
    rcases List.mem_cons.mp hm with rfl | hm
    · exact hlt
    · exact hlt.trans ((List.pairwise_cons.mp h).1 m hm)
  rw [hnone, List.lookup_cons_self] at hlookup
  cases hlookup

theorem Ordered.ext (hrank : Function.Injective rank) {members members' : List (κ × V)}
    (h : Ordered rank members) (h' : Ordered rank members')
    (hlookup : ∀ name, members.lookup name = members'.lookup name) : members = members' := by
  induction members generalizing members' with
  | nil =>
    cases members' with
    | nil => rfl
    | cons m rest =>
      have := hlookup m.1
      rw [lookup_cons_ite, if_pos rfl] at this
      cases this
  | cons m rest ih =>
    obtain ⟨k, v⟩ := m
    cases members' with
    | nil =>
      have := hlookup k
      rw [lookup_cons_ite, if_pos rfl] at this
      cases this
    | cons m' rest' =>
      obtain ⟨l, w⟩ := m'
      have hkl : k = l := hrank (le_antisymm (not_lt.mp (h.head_not_lt (hlookup l).symm))
        (not_lt.mp (h'.head_not_lt (hlookup k))))
      subst hkl
      have hvw : v = w := by simpa [lookup_cons_ite] using hlookup k
      subst hvw
      obtain ⟨hfirst, hrest⟩ := List.pairwise_cons.mp h
      obtain ⟨hfirst', hrest'⟩ := List.pairwise_cons.mp h'
      rw [ih hrest hrest' fun name => ?_]
      by_cases hname : name = k
      · rw [hname, lookup_eq_none_of_lt rank hfirst, lookup_eq_none_of_lt rank hfirst']
      · simpa only [lookup_cons_ite, hname, ↓reduceIte] using hlookup name

omit [DecidableEq κ] in
theorem Ordered.filter {members : List (κ × V)} (h : Ordered rank members) (p : κ × V → Bool) :
    Ordered rank (members.filter p) := List.Pairwise.filter p h

end Dnsid.Foundations

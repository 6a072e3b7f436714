import Mathlib.Data.List.Nodup
import Mathlib.Data.Nat.Notation

/-! # Keys in custody

A provider keeps keys by name. At most one key is active, earlier ones are retained and new ones are pending; no two
keys have the same name. A pending key is activated, which retains the active one, and a retained key is superseded.
A provider that can be without an active key supersedes that one too.
-/
namespace Dnsid.Foundations
set_option autoImplicit false

section Named
variable {K : Type} (name : K → String)

/-- The key with this name. -/
def named (keys : List K) (n : String) : Option K := keys.find? fun k => name k = n

def unnamed (keys : List K) (n : String) : List K := keys.filter fun k => name k ≠ n

variable {name} {keys keys' : List K} {n : String} {k : K}

theorem named_iff (h : (keys.map name).Nodup) : named name keys n = some k ↔ k ∈ keys ∧ name k = n := by
  constructor
  · intro hfind
    exact ⟨List.mem_of_find?_eq_some hfind, by simpa using List.find?_some hfind⟩
  · rintro ⟨hmem, rfl⟩
    cases hfind : named name keys (name k) with
    | none => simpa using List.find?_eq_none.mp hfind k hmem
    | some k' =>
      have hname : name k' = name k := by simpa using List.find?_some hfind
      exact congrArg some (List.inj_on_of_nodup_map h (List.mem_of_find?_eq_some hfind) hmem hname)

/-- Which key has a name does not depend on the order of the keys. -/
theorem named_perm (h : (keys.map name).Nodup) (hperm : keys.Perm keys') (n : String) :
    named name keys' n = named name keys n := by
  have h' : (keys'.map name).Nodup := (hperm.map name).nodup_iff.mp h
  ext k
  rw [named_iff h, named_iff h', hperm.mem_iff]

theorem unnamed_of_notMem (h : n ∉ keys.map name) : unnamed name keys n = keys := by
  apply List.filter_eq_self.mpr
  intro k hk
  have hne : name k ≠ n := by
    rintro rfl
    exact h (List.mem_map_of_mem hk)
  simpa using hne

/-- One key has the name, the others stay. -/
theorem perm_unnamed (h : (keys.map name).Nodup) (hk : named name keys n = some k) :
    keys.Perm (k :: unnamed name keys n) := by
  induction keys with
  | nil => cases hk
  | cons a keys ih =>
    obtain ⟨hnotMem, hnodup⟩ := List.nodup_cons.mp h
    by_cases ha : name a = n
    · obtain rfl : a = k := by simpa [named, ha] using hk
      subst ha
      have hrest : unnamed name (a :: keys) (name a) = keys := by
        simpa [unnamed] using unnamed_of_notMem hnotMem
      rw [hrest]
    · have hrest : unnamed name (a :: keys) n = a :: unnamed name keys n := by simp [unnamed, ha]
      have hk' : named name keys n = some k := by simpa [named, ha] using hk
      rw [hrest]
      exact ((ih hnodup hk').cons a).trans (.swap k a _)

/-- The other keys are those at other positions. -/
theorem unnamed_getElem? (h : (keys.map name).Nodup) {i : ℕ} (hk : keys[i]? = some k) :
    unnamed name keys (name k) = keys.eraseIdx i := by
  induction keys generalizing i with
  | nil => cases hk
  | cons a keys ih =>
    obtain ⟨hnotMem, hnodup⟩ := List.nodup_cons.mp h
    cases i with
    | zero =>
      obtain rfl := Option.some.inj hk
      have hrest : unnamed name (a :: keys) (name a) = unnamed name keys (name a) := by simp [unnamed]
      rw [hrest, unnamed_of_notMem hnotMem]
      rfl
    | succ i =>
      have hk' : keys[i]? = some k := hk
      have hne : name a ≠ name k := by
        intro heq
        exact hnotMem (heq ▸ List.mem_map_of_mem (List.mem_of_getElem? hk'))
      rw [List.eraseIdx_cons_succ, ← ih hnodup hk']
      simp [unnamed, hne]

end Named

structure Custody (K : Type) (name : K → String) where
  active : Option K
  retained : List K
  pending : List K
  distinct : ((active.toList ++ retained ++ pending).map name).Nodup

namespace Custody
variable {K : Type} {name : K → String} {c c' : Custody K name} {n m : String} {k : K}

def keys (c : Custody K name) : List K := c.active.toList ++ c.retained ++ c.pending

/-- The key with this name, whatever its state. -/
def find? (c : Custody K name) (n : String) : Option K := named name c.keys n

/-- The names of the active and the retained keys. -/
def listed (c : Custody K name) : List String := (c.active.toList ++ c.retained).map name

theorem find?_iff : c.find? n = some k ↔ k ∈ c.keys ∧ name k = n := named_iff c.distinct

theorem find?_active (h : c.active = some k) : c.find? (name k) = some k := find?_iff.mpr ⟨by simp [keys, h], rfl⟩

theorem listed_of_active (h : c.active = some k) : name k ∈ c.listed := by simp [listed, h]

theorem find?_congr (h : c.keys.Perm c'.keys) (m : String) : c'.find? m = c.find? m := named_perm c.distinct h m

theorem pending_distinct (c : Custody K name) : (c.pending.map name).Nodup :=
  c.distinct.sublist ((List.sublist_append_right _ _).map name)

theorem retained_distinct (c : Custody K name) : (c.retained.map name).Nodup :=
  c.distinct.sublist (((List.sublist_append_right _ _).trans (List.sublist_append_left _ _)).map name)

/-! ## A new key -/

theorem generate_distinct (c : Custody K name) (h : c.find? (name k) = none) :
    ((c.active.toList ++ c.retained ++ (c.pending ++ [k])).map name).Nodup := by
  rw [← List.append_assoc, List.map_append]
  refine List.nodup_append.mpr ⟨c.distinct, by simp, ?_⟩
  rintro n hn m hm rfl
  obtain ⟨k', hk', hname⟩ := List.mem_map.mp hn
  obtain rfl : n = name k := by simpa using hm
  simpa [hname] using List.find?_eq_none.mp h k' hk'

/-- A key with a new name is added, pending. -/
def generate (c : Custody K name) (k : K) : Option (Custody K name) :=
  if h : c.find? (name k) = none then some ⟨c.active, c.retained, c.pending ++ [k], c.generate_distinct h⟩ else none

theorem generate_cases (h : c.generate k = some c') :
    c'.active = c.active ∧ c'.listed = c.listed ∧ c'.find? (name k) = some k ∧
      ∀ m k', c.find? m = some k' → c'.find? m = some k' := by
  unfold generate at h
  split at h
  next =>
    obtain rfl := Option.some.inj h
    refine ⟨rfl, rfl, find?_iff.mpr ⟨by simp [keys], rfl⟩, fun m k' hk' => ?_⟩
    obtain ⟨hmem, hname⟩ := find?_iff.mp hk'
    refine find?_iff.mpr ⟨?_, hname⟩
    simp only [keys, List.mem_append] at hmem ⊢
    tauto
  next => cases h

/-! ## Activation -/

theorem activate_perm (h : named name c.pending n = some k) :
    c.keys.Perm ((some k).toList ++ (c.retained ++ c.active.toList) ++ unnamed name c.pending n) := by
  have hactive : (c.active.toList ++ c.retained).Perm (c.retained ++ c.active.toList) := List.perm_append_comm
  calc c.keys
    _ = c.active.toList ++ c.retained ++ c.pending := rfl
    _ |>.Perm (c.retained ++ c.active.toList ++ k :: unnamed name c.pending n) :=
      hactive.append (perm_unnamed c.pending_distinct h)
    _ |>.Perm (k :: (c.retained ++ c.active.toList ++ unnamed name c.pending n)) := List.perm_middle

/-- A pending key becomes the active one, and the one before is retained. -/
def activate (c : Custody K name) (n : String) : Option (Custody K name) :=
  match h : named name c.pending n with
  | some k => some ⟨some k, c.retained ++ c.active.toList, unnamed name c.pending n,
      ((activate_perm h).map name).nodup_iff.mp c.distinct⟩
  | none => none

theorem activate_eq (h : named name c.pending n = some k) :
    ∃ c', c.activate n = some c' ∧ c'.active = some k ∧ c'.retained = c.retained ++ c.active.toList ∧
      c'.pending = unnamed name c.pending n := by
  unfold activate
  split
  next k' hk' =>
    obtain rfl := Option.some.inj (hk'.symm.trans h)
    exact ⟨_, rfl, rfl, rfl, rfl⟩
  next hnone =>
    rw [h] at hnone
    cases hnone

theorem activate_none (h : named name c.pending n = none) : c.activate n = none := by
  unfold activate
  split
  next k hk =>
    rw [h] at hk
    cases hk
  next => rfl

theorem activate_cases (h : c.activate n = some c') :
    ∃ k, k ∈ c.pending ∧ name k = n ∧ c'.active = some k ∧ c.keys.Perm c'.keys ∧
      ∀ m, m ∈ c'.listed ↔ m = n ∨ m ∈ c.listed := by
  unfold activate at h
  split at h
  next k hk =>
    obtain rfl := Option.some.inj h
    obtain ⟨hmem, hname⟩ := (named_iff c.pending_distinct).mp hk
    refine ⟨k, hmem, hname, rfl, activate_perm hk, fun m => ?_⟩
    simp only [listed, Option.toList_some, List.map_append, List.mem_append, List.map_cons, List.map_nil,
      List.mem_singleton, hname]
    tauto
  next => cases h

/-! ## Supersession -/

theorem supersede_distinct (c : Custody K name) (n : String) :
    (((c.active.filter fun k => name k ≠ n).toList ++ unnamed name c.retained n ++ c.pending).map name).Nodup := by
  rw [Option.toList_filter]
  refine c.distinct.sublist (List.Sublist.map name ?_)
  exact (List.filter_sublist.append List.filter_sublist).append (.refl _)

/-- The listed key with this name is given up, unless it is the active one and there must be one. -/
def supersede (vacant : Bool) (c : Custody K name) (n : String) : Option (Custody K name) :=
  if (c.active.any fun k => name k = n) && !vacant then none
  else if n ∈ c.listed then
    some ⟨c.active.filter fun k => name k ≠ n, unnamed name c.retained n, c.pending, c.supersede_distinct n⟩
  else none

theorem supersede_eq {vacant : Bool} (hactive : ((c.active.any fun k => name k = n) && !vacant) = false)
    (hlisted : n ∈ c.listed) :
    ∃ c', c.supersede vacant n = some c' ∧ c'.active = c.active.filter (fun k => name k ≠ n) ∧
      c'.retained = unnamed name c.retained n ∧ c'.pending = c.pending := by
  unfold supersede
  rw [hactive, if_neg Bool.false_ne_true, if_pos hlisted]
  exact ⟨_, rfl, rfl, rfl, rfl⟩

theorem supersede_none {vacant : Bool} (h : ((c.active.any fun k => name k = n) && !vacant) = true ∨ n ∉ c.listed) :
    c.supersede vacant n = none := by
  unfold supersede
  split
  next => rfl
  next hactive => rw [if_neg (h.resolve_left hactive)]

theorem supersede_cases {vacant : Bool} (h : c.supersede vacant n = some c') :
    n ∈ c.listed ∧ n ∉ c'.listed ∧ c'.active = c.active.filter (fun k => name k ≠ n) ∧
      ∀ m k, m ≠ n → c.find? m = some k → c'.find? m = some k := by
  unfold supersede at h
  split at h
  next => cases h
  next =>
    split at h
    next hlisted =>
      obtain rfl := Option.some.inj h
      refine ⟨hlisted, ?_, rfl, fun m k hne hk => ?_⟩
      · simp [listed, unnamed]
      · obtain ⟨hmem, rfl⟩ := find?_iff.mp hk
        refine find?_iff.mpr ⟨?_, rfl⟩
        simp only [keys, unnamed, List.mem_append, Option.toList_filter, List.mem_filter] at hmem ⊢
        simpa [hne] using hmem
    next => cases h

/-- An active key is only given up by a provider that can be without one. -/
theorem vacant_of_supersede {vacant : Bool} (h : c.supersede vacant n = some c') (hk : c.active = some k)
    (hname : name k = n) : vacant = true := by
  unfold supersede at h
  split at h
  next => cases h
  next hguard => simpa [hk, hname] using hguard

end Custody

end Dnsid.Foundations

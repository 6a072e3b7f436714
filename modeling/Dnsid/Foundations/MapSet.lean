import Dnsid.Foundations.NamedPairs

/-! # Setting members of a map

A `Map` is the list of its entries in the order of insertion. Setting a member keeps the place of an earlier one with its
name; setting the members of a second map one after the other is setting all that made it.
-/
namespace Dnsid.Foundations
set_option autoImplicit false

variable {κ V : Type} [DecidableEq κ]

/-- `Map.set`. -/
def setMember (dictionary : List (κ × V)) (member : κ × V) : List (κ × V) :=
  if member.1 ∈ dictionary.map Prod.fst then dictionary.map fun entry => if entry.1 = member.1 then member else entry
  else dictionary ++ [member]

variable {dictionary members : List (κ × V)} {member other : κ × V}

theorem setMember_length_le : (setMember dictionary member).length ≤ dictionary.length + 1 := by
  unfold setMember
  split_ifs
  · rw [List.length_map]
    omega
  · rw [List.length_append, List.length_singleton]

theorem foldl_setMember_length_le (members dictionary : List (κ × V)) :
    (members.foldl setMember dictionary).length ≤ dictionary.length + members.length := by
  induction members generalizing dictionary with
  | nil => exact le_rfl
  | cons member members ih =>
    have hset : (setMember dictionary member).length ≤ dictionary.length + 1 := setMember_length_le
    have hrest := ih (setMember dictionary member)
    rw [List.foldl_cons, List.length_cons]
    omega

theorem foldl_setMember_of_distinct (h : DistinctNames (dictionary ++ members)) :
    members.foldl setMember dictionary = dictionary ++ members := by
  induction members generalizing dictionary with
  | nil => rw [List.append_nil]; rfl
  | cons member members ih =>
    have hnew : member.1 ∉ dictionary.map Prod.fst := by
      intro hmem
      rw [DistinctNames, List.map_append, List.nodup_append] at h
      exact h.2.2 member.1 hmem member.1 (by simp) rfl
    have hset : setMember dictionary member = dictionary ++ [member] := by rw [setMember, if_neg hnew]
    rw [List.foldl_cons, hset, ih (by simpa using h), List.append_assoc]
    rfl

/-- Where no member is lost, the names are distinct. -/
theorem distinct_of_foldl_length (hdistinct : DistinctNames dictionary)
    (h : (members.foldl setMember dictionary).length = dictionary.length + members.length) :
    DistinctNames (dictionary ++ members) := by
  induction members generalizing dictionary with
  | nil => rwa [List.append_nil]
  | cons member members ih =>
    rw [List.foldl_cons, List.length_cons] at h
    by_cases hmem : member.1 ∈ dictionary.map Prod.fst
    · have hlength : (setMember dictionary member).length = dictionary.length := by
        rw [setMember, if_pos hmem, List.length_map]
      have hle := foldl_setMember_length_le members (setMember dictionary member)
      omega
    · have hset : setMember dictionary member = dictionary ++ [member] := by rw [setMember, if_neg hmem]
      have hone : DistinctNames (dictionary ++ [member]) := by
        refine hdistinct.append (by simp [DistinctNames]) fun m hm m' hm' heq => hmem ?_
        rw [← List.mem_singleton.mp hm', ← heq]
        exact List.mem_map_of_mem hm
      rw [hset] at h
      have hrest := ih hone (by rw [h, List.length_append, List.length_singleton]; omega)
      rwa [List.append_assoc] at hrest

theorem setMember_ne_nil (h : dictionary ≠ []) (member : κ × V) : setMember dictionary member ≠ [] := by
  unfold setMember
  split_ifs
  · simpa using h
  · simp

theorem foldl_setMember_ne_nil (h : dictionary ≠ []) (members : List (κ × V)) :
    members.foldl setMember dictionary ≠ [] := by
  induction members generalizing dictionary with
  | nil => exact h
  | cons member members ih => exact ih (setMember_ne_nil h member)

theorem setMember_names : (setMember dictionary member).map Prod.fst =
    if member.1 ∈ dictionary.map Prod.fst then dictionary.map Prod.fst else dictionary.map Prod.fst ++ [member.1] := by
  unfold setMember
  split_ifs
  · rw [List.map_map]
    refine List.map_congr_left fun entry _ => ?_
    dsimp only [Function.comp_apply]
    split_ifs with heq
    · exact heq.symm
    · rfl
  · rw [List.map_append]
    rfl

theorem setMember_distinct (h : DistinctNames dictionary) : DistinctNames (setMember dictionary member) := by
  rw [DistinctNames, setMember_names]
  split_ifs with hmem
  · exact h
  · exact List.nodup_append.mpr ⟨h, List.nodup_singleton _, by
      intro name hname name' hname' heq
      rw [List.mem_singleton.mp hname'] at heq
      exact hmem (heq ▸ hname)⟩

theorem foldl_setMember_distinct (h : DistinctNames dictionary) (members : List (κ × V)) :
    DistinctNames (members.foldl setMember dictionary) := by
  induction members generalizing dictionary with
  | nil => exact h
  | cons member members ih => exact ih (setMember_distinct h)

theorem mem_foldl_setMember {entry : κ × V} (members : List (κ × V))
    (h : entry ∈ members.foldl setMember dictionary) : entry ∈ dictionary ∨ entry ∈ members := by
  induction members generalizing dictionary with
  | nil => exact .inl h
  | cons member members ih =>
    rcases ih h with hset | hrest
    · unfold setMember at hset
      split_ifs at hset
      · obtain ⟨earlier, hearlier, heq⟩ := List.mem_map.mp hset
        split_ifs at heq
        · exact .inr (heq ▸ List.mem_cons_self)
        · exact .inl (heq ▸ hearlier)
      · rcases List.mem_append.mp hset with hold | hnew
        · exact .inl hold
        · exact .inr (List.mem_singleton.mp hnew ▸ List.mem_cons_self)
    · exact .inr (List.mem_cons_of_mem _ hrest)

/-- A later member of the name takes the place of an earlier one. -/
theorem setMember_setMember (h : member.1 = other.1) :
    setMember (setMember dictionary member) other = setMember dictionary other := by
  have hmem : other.1 ∈ (setMember dictionary member).map Prod.fst := by
    rw [setMember_names]
    split_ifs with hmem
    · exact h ▸ hmem
    · simp [h]
  rw [setMember, if_pos hmem]
  unfold setMember
  rw [h]
  split_ifs with hin
  · rw [List.map_map]
    refine List.map_congr_left fun entry _ => ?_
    dsimp only [Function.comp_apply]
    split_ifs <;> simp_all
  · rw [List.map_append]
    congr 1
    · rw [List.map_congr_left, List.map_id]
      intro entry hentry
      rw [if_neg, id]
      rintro heq
      exact hin (heq ▸ List.mem_map_of_mem hentry)
    · simp [h]

/-- Members of different names can be set in either order, once the first is there. -/
theorem setMember_comm (hne : member.1 ≠ other.1) (hmem : other.1 ∈ dictionary.map Prod.fst) :
    setMember (setMember dictionary member) other = setMember (setMember dictionary other) member := by
  have hmem' : other.1 ∈ (setMember dictionary member).map Prod.fst := by
    rw [setMember_names]
    split_ifs
    · exact hmem
    · exact List.mem_append_left _ hmem
  have hnames : (setMember dictionary other).map Prod.fst = dictionary.map Prod.fst := by rw [setMember_names, if_pos hmem]
  rw [setMember, if_pos hmem', setMember.eq_def (setMember dictionary other), hnames]
  unfold setMember
  rw [if_pos hmem]
  split_ifs
  · rw [List.map_map, List.map_map]
    refine List.map_congr_left fun entry _ => ?_
    dsimp only [Function.comp_apply]
    split_ifs <;> simp_all
  · simp [hne]

theorem setMember_foldl (hmem : member.1 ∈ dictionary.map Prod.fst) (hnew : member.1 ∉ members.map Prod.fst) :
    setMember (members.foldl setMember dictionary) member = members.foldl setMember (setMember dictionary member) := by
  induction members generalizing dictionary with
  | nil => rfl
  | cons first members ih =>
    rw [List.map_cons, List.mem_cons, not_or] at hnew
    have hmem' : member.1 ∈ (setMember dictionary first).map Prod.fst := by
      rw [setMember_names]
      split_ifs
      · exact hmem
      · exact List.mem_append_left _ hmem
    rw [List.foldl_cons, ih hmem' hnew.2, List.foldl_cons, setMember_comm (Ne.symm hnew.1) hmem]

theorem foldl_setMember_setMember (h : DistinctNames members) :
    (setMember members member).foldl setMember dictionary = setMember (members.foldl setMember dictionary) member := by
  by_cases hmem : member.1 ∈ members.map Prod.fst
  · induction members generalizing dictionary with
    | nil => cases hmem
    | cons first members ih =>
      obtain ⟨hnew, htail⟩ := h.tail
      by_cases hfirst : first.1 = member.1
      · -- The first one is replaced, and no other has its name.
        have hset : setMember (first :: members) member = member :: members := by
          rw [setMember, if_pos hmem, List.map_cons, if_pos hfirst]
          congr 1
          rw [List.map_congr_left, List.map_id]
          intro entry hentry
          rw [if_neg, id]
          intro heq
          exact hnew ((heq.trans hfirst.symm) ▸ List.mem_map_of_mem hentry)
        have hthere : member.1 ∈ (setMember dictionary first).map Prod.fst := by
          rw [setMember_names]
          split_ifs with hin
          · exact hfirst ▸ hin
          · simp [hfirst]
        rw [hset, List.foldl_cons, List.foldl_cons, setMember_foldl hthere (hfirst ▸ hnew), setMember_setMember hfirst]
      · have hrest : member.1 ∈ members.map Prod.fst := (List.mem_cons.mp hmem).resolve_left (Ne.symm hfirst)
        have hset : setMember (first :: members) member = first :: setMember members member := by
          rw [setMember, if_pos hmem, List.map_cons, if_neg hfirst, setMember, if_pos hrest]
        rw [hset, List.foldl_cons, List.foldl_cons, ih htail hrest]
  · rw [setMember, if_neg hmem, List.foldl_append]
    rfl

/-- A dictionary is set as its members are, one after the other. -/
theorem foldl_setMember_foldl (acc : List (κ × V)) (h : DistinctNames acc) :
    (members.foldl setMember acc).foldl setMember dictionary = members.foldl setMember (acc.foldl setMember dictionary) := by
  induction members generalizing acc with
  | nil => rfl
  | cons member members ih =>
    rw [List.foldl_cons, ih _ (setMember_distinct h), foldl_setMember_setMember h, List.foldl_cons]

theorem lookup_setMember_self (dictionary : List (κ × V)) (name : κ) (value : V) :
    (setMember dictionary (name, value)).lookup name = some value := by
  by_cases hmem : name ∈ dictionary.map Prod.fst
  · rw [setMember, if_pos hmem]
    induction dictionary with
    | nil => cases hmem
    | cons first dictionary ih =>
      obtain ⟨key, old⟩ := first
      by_cases hkey : key = name
      · rw [List.map_cons, if_pos hkey, List.lookup_cons_self]
      · have hrest : name ∈ dictionary.map Prod.fst := (List.mem_cons.mp hmem).resolve_left (Ne.symm hkey)
        have hne : (name == key) = false := by simpa using Ne.symm hkey
        rw [List.map_cons, if_neg hkey, List.lookup_cons, hne, ih hrest]
  · rw [setMember, if_neg hmem]
    exact lookup_middle hmem

theorem lookup_setMember_of_ne (dictionary : List (κ × V)) {name other : κ} (value : V) (h : other ≠ name) :
    (setMember dictionary (name, value)).lookup other = dictionary.lookup other := by
  unfold setMember
  split_ifs with hmem
  · clear hmem
    induction dictionary with
    | nil => rfl
    | cons first dictionary ih =>
      obtain ⟨key, old⟩ := first
      rw [List.map_cons, List.lookup_cons]
      by_cases hkey : key = name
      · have hne : (other == key) = false ∧ (other == name) = false := by simp [hkey, h]
        rw [if_pos hkey, List.lookup_cons, hne.1, hne.2]
        exact ih
      · rw [if_neg hkey, List.lookup_cons, ih]
  · rw [lookup_middle_ne h, List.append_nil]

theorem foldl_setMember_nil (h : DistinctNames members) : members.foldl setMember [] = members := by
  have hall : DistinctNames ([] ++ members) := h
  rw [foldl_setMember_of_distinct hall, List.nil_append]

theorem length_foldl_setMember_nil : (members.foldl setMember []).length = members.length ↔ DistinctNames members := by
  constructor
  · intro h
    have hnil : DistinctNames ([] : List (κ × V)) := List.nodup_nil
    exact distinct_of_foldl_length hnil (by rw [h, List.length_nil, Nat.zero_add])
  · intro h
    rw [foldl_setMember_nil h]

theorem mem_names_foldl_setMember {name : κ} (h : name ∈ dictionary.map Prod.fst ∨ name ∈ members.map Prod.fst) :
    name ∈ (members.foldl setMember dictionary).map Prod.fst := by
  induction members generalizing dictionary with
  | nil => exact h.resolve_right (List.not_mem_nil)
  | cons member members ih =>
    refine ih ?_
    rw [setMember_names]
    rcases h with hold | hnew
    · split_ifs
      · exact .inl hold
      · exact .inl (List.mem_append_left _ hold)
    · rcases List.mem_cons.mp hnew with rfl | hrest
      · split_ifs with hmem
        · exact .inl hmem
        · exact .inl (List.mem_append_right _ (List.mem_singleton_self _))
      · exact .inr hrest

theorem lookup_foldl_congr {name : κ} {dictionary dictionary' : List (κ × V)}
    (h : dictionary.lookup name = dictionary'.lookup name) (members : List (κ × V)) :
    (members.foldl setMember dictionary).lookup name =
      ((members.filter (·.1 = name)).foldl setMember dictionary').lookup name := by
  induction members generalizing dictionary dictionary' with
  | nil => exact h
  | cons member members ih =>
    obtain ⟨key, value⟩ := member
    by_cases hkey : key = name
    · subst hkey
      rw [List.filter_cons_of_pos (by simp), List.foldl_cons, List.foldl_cons]
      exact ih (by rw [lookup_setMember_self, lookup_setMember_self])
    · rw [List.filter_cons_of_neg (by simpa using hkey), List.foldl_cons]
      exact ih (by rw [lookup_setMember_of_ne _ _ (Ne.symm hkey), h])

/-- Only the members of a name matter for its value. -/
theorem lookup_foldl_filter (members : List (κ × V)) (name : κ) :
    (members.foldl setMember []).lookup name = ((members.filter (·.1 = name)).foldl setMember []).lookup name :=
  lookup_foldl_congr rfl members

end Dnsid.Foundations

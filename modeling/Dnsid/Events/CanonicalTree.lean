import Dnsid.Events.JsonDepth

/-! # The text of a canonical value (`log-c2sp-tlog/src/canonical.ts`)

What `canonicalJson` writes is the text of a JSON tree without blanks, and the tree has the value again, with the members of
every object in the order of `Object.keys(obj).sort()`.
-/
namespace Dnsid.Events.JsonDepth
open Dnsid.Foundations Dnsid.Foundations.JsonText
set_option autoImplicit false

variable {N A B : Type}

/-! ## Values without an order of members -/

/-- The order of `sort()`. -/
def leName (a b : CodeUnits × A) : Bool := a.1.map UInt16.toNat ≤ b.1.map UInt16.toNat

def sortNames (members : List (CodeUnits × A)) : List (CodeUnits × A) := members.mergeSort leName

mutual

/-- The value with the members of every object in order. Values are the same up to member order iff they are equal so. -/
def sorted : Value N → Value N
  | .array items => .array (sortedItems items)
  | .object members => .object (sortNames (sortedMembers members))
  | value => value

def sortedItems : List (Value N) → List (Value N)
  | [] => []
  | item :: items => sorted item :: sortedItems items

def sortedMembers : List (CodeUnits × Value N) → List (CodeUnits × Value N)
  | [] => []
  | (name, value) :: members => (name, sorted value) :: sortedMembers members

end

mutual

/-- An object of the runtime has one member for each name. -/
def Distinct : Value N → Prop
  | .array items => DistinctItems items
  | .object members => DistinctNames members ∧ DistinctMembers members
  | _ => True

def DistinctItems : List (Value N) → Prop
  | [] => True
  | item :: items => Distinct item ∧ DistinctItems items

def DistinctMembers : List (CodeUnits × Value N) → Prop
  | [] => True
  | (_, value) :: members => Distinct value ∧ DistinctMembers members

end

/-- A function on the value of a member. -/
def onValue (f : A → B) (member : CodeUnits × A) : CodeUnits × B := (member.1, f member.2)

theorem sortedItems_eq (items : List (Value N)) : sortedItems items = items.map sorted := by
  induction items with
  | nil => rw [sortedItems, List.map_nil]
  | cons item items ih => rw [sortedItems, ih, List.map_cons]

theorem sortedMembers_eq (members : List (CodeUnits × Value N)) : sortedMembers members = members.map (onValue sorted) := by
  induction members with
  | nil => rw [sortedMembers, List.map_nil]
  | cons member members ih =>
    obtain ⟨name, value⟩ := member
    rw [sortedMembers, ih, List.map_cons]
    rfl

theorem distinctItems_iff (items : List (Value N)) : DistinctItems items ↔ ∀ item ∈ items, Distinct item := by
  induction items with
  | nil => simp [DistinctItems]
  | cons item items ih => rw [DistinctItems, ih, List.forall_mem_cons]

theorem distinctMembers_iff (members : List (CodeUnits × Value N)) :
    DistinctMembers members ↔ ∀ member ∈ members, Distinct member.2 := by
  induction members with
  | nil => simp [DistinctMembers]
  | cons member members ih =>
    obtain ⟨name, value⟩ := member
    rw [DistinctMembers, ih, List.forall_mem_cons]

theorem serializeMembers_eq (numbers : NumberText N) (members : List (CodeUnits × Value N)) :
    serializeMembers numbers members = members.map (onValue (serializeJson numbers)) := by
  induction members with
  | nil => rw [serializeMembers, List.map_nil]
  | cons member members ih =>
    obtain ⟨name, value⟩ := member
    rw [serializeMembers, ih, List.map_cons]
    rfl

/-! ### Sorting -/

theorem sortNames_perm (members : List (CodeUnits × A)) : (sortNames members).Perm members := List.mergeSort_perm _ _

theorem pairwise_sortNames (members : List (CodeUnits × A)) : (sortNames members).Pairwise fun a b => leName a b = true := by
  refine List.pairwise_mergeSort ?_ ?_ members
  · intro a b c hab hbc
    simp only [leName, decide_eq_true_eq] at hab hbc ⊢
    exact le_trans hab hbc
  · intro a b
    simp only [leName, Bool.or_eq_true, decide_eq_true_eq]
    exact le_total _ _

theorem sortNames_map (f : A → B) (members : List (CodeUnits × A)) :
    sortNames (members.map (onValue f)) = (sortNames members).map (onValue f) :=
  (List.map_mergeSort (f := onValue f) (r := leName) (s := leName) fun _ _ _ _ => rfl).symm

theorem sortNames_idem (members : List (CodeUnits × A)) : sortNames (sortNames members) = sortNames members :=
  List.mergeSort_of_pairwise (pairwise_sortNames members)

theorem leName_antisymm {a b : CodeUnits × A} (hab : leName a b = true) (hba : leName b a = true) : a.1 = b.1 := by
  simp only [leName, decide_eq_true_eq] at hab hba
  refine List.map_injective_iff.mpr ?_ (le_antisymm hab hba)
  exact fun _ _ => UInt16.toNat_inj.mp

/-- With distinct names the order of the members does not matter. -/
theorem sortNames_congr {members members' : List (CodeUnits × A)} (hdistinct : DistinctNames members)
    (h : members.Perm members') : sortNames members = sortNames members' := by
  have hperm := (sortNames_perm members).trans (h.trans (sortNames_perm members').symm)
  refine hperm.eq_of_pairwise ?_ (pairwise_sortNames members) (pairwise_sortNames members')
  intro a b ha hb hab hba
  have hname := leName_antisymm hab hba
  have hmema := (sortNames_perm members).mem_iff.mp ha
  have hmemb := h.mem_iff.mpr ((sortNames_perm members').mem_iff.mp hb)
  exact List.inj_on_of_nodup_map hdistinct hmema hmemb hname

/-! ### The serializer sorts anyway -/

theorem sizeOf_member {member : CodeUnits × Value N} {members : List (CodeUnits × Value N)} (h : member ∈ members) :
    sizeOf member.2 < sizeOf members := by
  have hlt := List.sizeOf_lt_of_mem h
  obtain ⟨name, value⟩ := member
  simp only [Prod.mk.sizeOf_spec] at hlt
  dsimp only
  omega

section Serialize
variable (numbers : NumberText N)

/-- The text of one member. -/
def memberText (member : CodeUnits × Except Thrown (List Char)) : Except Thrown (List Char) := do
  let _ ← assertValidUnicode member.1
  let text ← member.2
  return stringifyUnits member.1 ++ ':' :: text

theorem serializeJson_object (members : List (CodeUnits × Value N)) :
    serializeJson numbers (.object members) = (do
      let texts ← ((sortNames members).map (onValue (serializeJson numbers))).mapM memberText
      return '\x7b' :: (joinComma texts ++ ['\x7d'])) := by
  rw [← sortNames_map, ← serializeMembers_eq, serializeJson]
  rfl

theorem serializeItems_congr {items items' : List (Value N)} (f : Value N → Value N) (hitems : items' = items.map f)
    (h : ∀ item ∈ items, serializeJson numbers (f item) = serializeJson numbers item) :
    serializeItems numbers items' = serializeItems numbers items := by
  subst hitems
  induction items with
  | nil => rfl
  | cons item items ih =>
    rw [List.forall_mem_cons] at h
    rw [List.map_cons, serializeItems, serializeItems, h.1, ih h.2]

theorem serializeJson_sorted (value : Value N) : serializeJson numbers (sorted value) = serializeJson numbers value := by
  match value with
  | .null => simp only [sorted]
  | .bool b => simp only [sorted]
  | .number n => simp only [sorted]
  | .string text => simp only [sorted]
  | .array items =>
    rw [sorted, serializeJson, serializeJson]
    have hcongr := serializeItems_congr numbers sorted (sortedItems_eq items) fun item hitem => serializeJson_sorted item
    rw [hcongr]
  | .object members =>
    rw [sorted, sortedMembers_eq, serializeJson_object, serializeJson_object, sortNames_idem, sortNames_map, List.map_map]
    have hmembers : (sortNames members).map (onValue (serializeJson numbers) ∘ onValue sorted) =
        (sortNames members).map (onValue (serializeJson numbers)) := by
      refine List.map_congr_left fun member hmember => ?_
      have hsize := sizeOf_member ((sortNames_perm members).mem_iff.mp hmember)
      exact congrArg (Prod.mk member.1) (serializeJson_sorted member.2)
    rw [hmembers]
termination_by sizeOf value
decreasing_by
  · have hlt := List.sizeOf_lt_of_mem hitem
    simp only [Value.array.sizeOf_spec]
    omega
  · simp only [Value.object.sizeOf_spec]
    omega

end Serialize

/-! ### Depth -/

theorem children_sorted_mem (value : Value N) : ∀ c ∈ children value, sorted c ∈ children (sorted value) := by
  intro c hc
  cases value with
  | array items =>
    rw [sorted, children, sortedItems_eq]
    exact List.mem_map_of_mem hc
  | object members =>
    obtain ⟨member, hmember, rfl⟩ := List.mem_map.mp hc
    rw [sorted, children, sortedMembers_eq, sortNames_map, List.map_map]
    exact List.mem_map_of_mem (f := Prod.snd ∘ onValue sorted) ((sortNames_perm members).mem_iff.mpr hmember)
  | _ => cases hc

theorem children_of_sorted (value : Value N) : ∀ c' ∈ children (sorted value), ∃ c ∈ children value, sorted c = c' := by
  intro c' hc'
  cases value with
  | array items =>
    rw [sorted, children, sortedItems_eq] at hc'
    exact List.mem_map.mp hc'
  | object members =>
    rw [sorted, children, sortedMembers_eq, sortNames_map, List.map_map] at hc'
    obtain ⟨member, hmember, rfl⟩ := List.mem_map.mp hc'
    exact ⟨member.2, List.mem_map_of_mem ((sortNames_perm members).mem_iff.mp hmember), rfl⟩
  | null => simp [sorted, children] at hc'
  | bool b => simp [sorted, children] at hc'
  | number n => simp [sorted, children] at hc'
  | string text => simp [sorted, children] at hc'

theorem within_sorted {value : Value N} {limit depth : ℤ} :
    Within children limit depth (sorted value) ↔ Within children limit depth value :=
  ⟨fun h => h.of_map (P := fun _ => True) (fun _ _ _ _ => trivial) (fun value _ => children_sorted_mem value) trivial,
    fun h => h.map children_of_sorted⟩

theorem canonicalJson_ok {numbers : NumberText N} {value : Value N} {text : List Char} :
    canonicalJson numbers value = .ok text ↔
      Within children maxJsonDepth 0 value ∧ serializeJson numbers value = .ok text := by
  have hwithin : checkDepth [(value, 0)] = .ok () ↔ Within children maxJsonDepth 0 value := by
    rw [checkDepth_ok, List.forall_mem_singleton]
  rw [← hwithin, canonicalJson]
  simp only [bind_eq_ok]
  constructor
  · rintro ⟨_, hcheck, htext⟩
    exact ⟨hcheck, htext⟩
  · rintro ⟨hcheck, htext⟩
    exact ⟨(), hcheck, htext⟩

/-- The order of members has no part in the canonical text. -/
theorem canonicalJson_sorted (numbers : NumberText N) (value : Value N) {text : List Char} :
    canonicalJson numbers (sorted value) = .ok text ↔ canonicalJson numbers value = .ok text := by
  rw [canonicalJson_ok, canonicalJson_ok, within_sorted, serializeJson_sorted]

/-! ## Strings -/

theorem hexDigit_spec : ∀ k < 16, isHexDigit (hexDigit k) = true ∧ hexValue (hexDigit k) = k := by decide

theorem escapeChar_control : ∀ n < 0x20, n ∉ [8, 9, 10, 12, 13] →
    escapeChar (Char.ofNat n) = ['\\', 'u', '0', '0', hexDigit (n / 16), hexDigit (n % 16)] ∧
      Utf16.charUnits (Char.ofNat n) = [UInt16.ofNat n] := by
  decide

/-- The part of a string literal that a character is written as. -/
theorem exists_part (c : Char) : ∃ part : StringPart, part.text = escapeChar c ∧ part.units = Utf16.charUnits c := by
  by_cases hcontrol : c.toNat < 0x20
  · obtain ⟨n, hn, rfl⟩ := exists_control hcontrol
    by_cases hspecial : n ∈ [8, 9, 10, 12, 13]
    · simp only [List.mem_cons, List.not_mem_nil, or_false] at hspecial
      rcases hspecial with rfl | rfl | rfl | rfl | rfl
      · exact ⟨.escape .backspace, by decide, by decide⟩
      · exact ⟨.escape .tab, by decide, by decide⟩
      · exact ⟨.escape .lineFeed, by decide, by decide⟩
      · exact ⟨.escape .formFeed, by decide, by decide⟩
      · exact ⟨.escape .carriageReturn, by decide, by decide⟩
    · obtain ⟨htext, hunits⟩ := escapeChar_control n hn hspecial
      have hhigh := hexDigit_spec (n / 16) (by omega)
      have hlow := hexDigit_spec (n % 16) (by omega)
      refine ⟨.unicode ⟨'0', rfl⟩ ⟨'0', rfl⟩ ⟨_, hhigh.1⟩ ⟨_, hlow.1⟩, htext.symm, ?_⟩
      rw [hunits, StringPart.units, hhigh.2, hlow.2]
      have hzero : hexValue '0' = 0 := by decide
      have hvalue : ((hexValue '0' * 16 + hexValue '0') * 16 + n / 16) * 16 + n % 16 = n := by
        rw [hzero]
        omega
      rw [hvalue]
  by_cases hquote : c = '"'
  · subst hquote
    exact ⟨.escape .quote, by decide, by decide⟩
  by_cases hslash : c = '\\'
  · subst hslash
    exact ⟨.escape .backslash, by decide, by decide⟩
  · have hplain : isPlain c = true := by
      simp [isPlain, hquote, hslash, Nat.not_lt.mp hcontrol]
    exact ⟨.plain c hplain, (escapeChar_plain hcontrol hquote hslash).symm, rfl⟩

theorem exists_parts (chars : List Char) :
    ∃ parts, contentText parts = chars.flatMap escapeChar ∧ stringUnits parts = Utf16.ofScalars chars := by
  induction chars with
  | nil => exact ⟨[], rfl, rfl⟩
  | cons c chars ih =>
    obtain ⟨part, htext, hunits⟩ := exists_part c
    obtain ⟨parts, htexts, hrest⟩ := ih
    refine ⟨part :: parts, ?_, ?_⟩
    · rw [contentText, List.flatMap_cons, List.flatMap_cons, htext, ← htexts, contentText]
    · rw [stringUnits, List.flatMap_cons, hunits, Utf16.ofScalars, List.flatMap_cons, ← Utf16.ofScalars, ← hrest, stringUnits]

theorem toWellFormed_of_valid {text : CodeUnits} (h : assertValidUnicode text = .ok ()) : Utf16.toWellFormed text = text := by
  induction text using assertValidUnicode.induct with
  | case1 => rfl
  | case2 code hhigh next rest hlow ih =>
    rw [assertValidUnicode.eq_def] at h
    dsimp only at h
    rw [if_pos hhigh, if_pos hlow] at h
    rw [Utf16.toWellFormed, hhigh, hlow, Bool.and_self, if_pos rfl, ih h]
  | case3 code hhigh next rest hlow =>
    rw [assertValidUnicode.eq_def] at h
    dsimp only at h
    rw [if_pos hhigh, if_neg hlow] at h
    cases h
  | case4 code hhigh =>
    rw [assertValidUnicode.eq_def] at h
    dsimp only at h
    rw [if_pos hhigh] at h
    cases h
  | case5 code rest hhigh hlow =>
    rw [assertValidUnicode.eq_def] at h
    dsimp only at h
    rw [if_neg hhigh, if_pos hlow] at h
    cases h
  | case6 code rest hhigh hlow ih =>
    rw [assertValidUnicode.eq_def] at h
    dsimp only at h
    rw [if_neg hhigh, if_neg hlow] at h
    have hcons := Utf16.toWellFormed_append (Bool.eq_false_iff.mpr hhigh) (Bool.eq_false_iff.mpr hlow) [] rest
    rw [List.nil_append] at hcons
    rw [hcons, ih h]
    rfl

theorem string_parts {text : CodeUnits} (h : assertValidUnicode text = .ok ()) :
    ∃ parts, stringText parts = stringifyUnits text ∧ stringUnits parts = text := by
  obtain ⟨parts, htext, hunits⟩ := exists_parts (Utf16.scalars text)
  refine ⟨parts, ?_, ?_⟩
  · rw [stringText, htext, stringifyUnits, stringifyString, String.toList_ofList]
  · rw [hunits, Utf16.ofScalars_scalars, toWellFormed_of_valid h]

/-! ## Trees without blanks -/

def itemsOf (tree : Tree) : List Tree → Items
  | [] => .last noBlank tree noBlank
  | next :: rest => .more noBlank tree noBlank (itemsOf next rest)

/-- A member as it is written: the parts of its name, and the tree of its value. -/
abbrev WrittenMember := List StringPart × Tree

def membersOf (member : WrittenMember) : List WrittenMember → Members
  | [] => .last noBlank member.1 noBlank noBlank member.2 noBlank
  | next :: rest => .more noBlank member.1 noBlank noBlank member.2 noBlank (membersOf next rest)

def WrittenMember.text (member : WrittenMember) : List Char := stringText member.1 ++ ':' :: member.2.text

theorem joinComma_cons (text : List Char) (texts : List (List Char)) :
    joinComma (text :: texts) = text ++ texts.flatMap fun text => ',' :: text := by
  rw [joinComma, List.flatMap_cons]
  rfl

theorem itemsOf_text (tree : Tree) (trees : List Tree) :
    (itemsOf tree trees).text = joinComma ((tree :: trees).map Tree.text) ++ [']'] := by
  rw [List.map_cons, joinComma_cons]
  induction trees generalizing tree with
  | nil => simp [itemsOf, Items.text, noBlank]
  | cons next trees ih => simp [itemsOf, Items.text, noBlank, ih]

theorem membersOf_text (member : WrittenMember) (members : List WrittenMember) :
    (membersOf member members).text = joinComma ((member :: members).map WrittenMember.text) ++ ['\x7d'] := by
  rw [List.map_cons, joinComma_cons]
  induction members generalizing member with
  | nil => simp [membersOf, Members.text, noBlank, WrittenMember.text]
  | cons next members ih => simp [membersOf, Members.text, noBlank, WrittenMember.text, ih]

section Read
variable (readNumber : List Char → N)

def WrittenMember.entry (member : WrittenMember) : CodeUnits × Value N := (stringUnits member.1, member.2.value readNumber)

theorem itemsOf_values (tree : Tree) (trees : List Tree) :
    (itemsOf tree trees).values readNumber = (tree :: trees).map (Tree.value readNumber) := by
  induction trees generalizing tree with
  | nil => simp [itemsOf, Items.values]
  | cons next trees ih => simp [itemsOf, Items.values, ih]

theorem itemsOf_distinct {tree : Tree} {trees : List Tree} (h : ∀ t ∈ tree :: trees, t.Distinct) :
    (itemsOf tree trees).Distinct := by
  induction trees generalizing tree with
  | nil => exact h tree List.mem_cons_self
  | cons next trees ih =>
    rw [List.forall_mem_cons] at h
    rw [itemsOf, Items.Distinct]
    exact ⟨h.1, ih h.2⟩

theorem membersOf_entries (member : WrittenMember) (members : List WrittenMember) :
    (membersOf member members).entries readNumber = (member :: members).map (WrittenMember.entry readNumber) := by
  induction members generalizing member with
  | nil => simp [membersOf, Members.entries, WrittenMember.entry]
  | cons next members ih =>
    rw [membersOf, Members.entries, ih, List.map_cons]
    rfl

theorem membersOf_distinct {member : WrittenMember} {members : List WrittenMember} (h : ∀ m ∈ member :: members, m.2.Distinct) :
    (membersOf member members).Distinct := by
  induction members generalizing member with
  | nil => exact h member List.mem_cons_self
  | cons next members ih =>
    rw [List.forall_mem_cons] at h
    rw [membersOf, Members.Distinct]
    exact ⟨h.1, ih h.2⟩

/-- The tree of an array. -/
theorem array_tree (trees : List Tree) (h : ∀ t ∈ trees, t.Distinct) :
    ∃ t : Tree, t.text = '[' :: (joinComma (trees.map Tree.text) ++ [']']) ∧
      t.value readNumber = .array (trees.map (Tree.value readNumber)) ∧ t.Distinct := by
  cases trees with
  | nil => exact ⟨.emptyArray noBlank, by simp [Tree.text, noBlank, joinComma], by simp [Tree.value], by simp [Tree.Distinct]⟩
  | cons tree trees =>
    refine ⟨.array (itemsOf tree trees), ?_, ?_, ?_⟩
    · rw [Tree.text, itemsOf_text]
    · rw [Tree.value, itemsOf_values]
    · rw [Tree.Distinct]
      exact itemsOf_distinct h

theorem object_tree (members : List WrittenMember) (hnames : DistinctNames (members.map (WrittenMember.entry readNumber)))
    (h : ∀ m ∈ members, m.2.Distinct) :
    ∃ t : Tree, t.text = '\x7b' :: (joinComma (members.map WrittenMember.text) ++ ['\x7d']) ∧
      t.value readNumber = .object (members.map (WrittenMember.entry readNumber)) ∧ t.Distinct := by
  cases members with
  | nil =>
    exact ⟨.emptyObject noBlank, by simp [Tree.text, noBlank, joinComma], by simp [Tree.value], by simp [Tree.Distinct]⟩
  | cons member members =>
    refine ⟨.object (membersOf member members), ?_, ?_, ?_⟩
    · rw [Tree.text, membersOf_text]
    · rw [Tree.value, membersOf_entries, foldl_setMember_nil hnames]
    · rw [Tree.Distinct, ← entries_names readNumber, membersOf_entries]
      exact ⟨hnames, membersOf_distinct h⟩

end Read

/-! ## What the serializer writes -/

section Written
variable (readNumber : List Char → N) (numbers : NumberText N)

/-- `JSON.stringify` writes a number as JSON, and `JSON.parse` reads the same number. -/
def ReadsNumbers : Prop :=
  ∀ n, numbers.isCanonical n = true → isNumber (numbers.text n) = true ∧ readNumber (numbers.text n) = n

variable {readNumber numbers}

/-- The trees of the items. -/
theorem serializeItems_trees {items : List (Value N)} {texts : List (List Char)} (h : serializeItems numbers items = .ok texts)
    (ih : ∀ item ∈ items, ∀ text, serializeJson numbers item = .ok text →
      ∃ t : Tree, t.text = text ∧ t.value readNumber = sorted item ∧ t.Distinct) :
    ∃ trees : List Tree, trees.map Tree.text = texts ∧ trees.map (Tree.value readNumber) = items.map sorted ∧
      ∀ t ∈ trees, t.Distinct := by
  induction items generalizing texts with
  | nil =>
    cases h
    exact ⟨[], rfl, rfl, List.forall_mem_nil _⟩
  | cons item items ihitems =>
    rw [List.forall_mem_cons] at ih
    simp only [serializeItems, bind_eq_ok, pure_eq_ok] at h
    obtain ⟨text, htext, rest, hrest, rfl⟩ := h
    obtain ⟨tree, rfl, hvalue, hdistinct⟩ := ih.1 text htext
    obtain ⟨trees, rfl, hvalues, hall⟩ := ihitems hrest ih.2
    refine ⟨tree :: trees, rfl, ?_, List.forall_mem_cons.mpr ⟨hdistinct, hall⟩⟩
    rw [List.map_cons, List.map_cons, hvalue, hvalues]

theorem memberTexts_trees {members : List (CodeUnits × Value N)} {texts : List (List Char)}
    (h : (members.map (onValue (serializeJson numbers))).mapM memberText = .ok texts)
    (ih : ∀ member ∈ members, ∀ text, serializeJson numbers member.2 = .ok text →
      ∃ t : Tree, t.text = text ∧ t.value readNumber = sorted member.2 ∧ t.Distinct) :
    ∃ written : List WrittenMember, written.map WrittenMember.text = texts ∧
      written.map (WrittenMember.entry readNumber) = members.map (onValue sorted) ∧ ∀ m ∈ written, m.2.Distinct := by
  induction members generalizing texts with
  | nil =>
    cases h
    exact ⟨[], rfl, rfl, List.forall_mem_nil _⟩
  | cons member members ihmembers =>
    rw [List.forall_mem_cons] at ih
    rw [List.map_cons, List.mapM_cons] at h
    simp only [memberText, onValue, bind_eq_ok, pure_eq_ok] at h
    obtain ⟨_, ⟨_, hvalid, text, htext, rfl⟩, rest, hrest, rfl⟩ := h
    obtain ⟨tree, rfl, hvalue, hdistinct⟩ := ih.1 text htext
    obtain ⟨parts, hparts, hunits⟩ := string_parts hvalid
    obtain ⟨written, rfl, hentries, hall⟩ := ihmembers hrest ih.2
    refine ⟨(parts, tree) :: written, ?_, ?_, List.forall_mem_cons.mpr ⟨hdistinct, hall⟩⟩
    · rw [List.map_cons, WrittenMember.text, hparts]
    · rw [List.map_cons, List.map_cons, hentries, WrittenMember.entry, hunits, hvalue]
      rfl

/-- What is written is the text of a tree that has the value, with the members in order. -/
theorem serializeJson_tree (hnumbers : ReadsNumbers readNumber numbers) (value : Value N) (hdistinct : Distinct value)
    {text : List Char} (h : serializeJson numbers value = .ok text) :
    ∃ t : Tree, t.text = text ∧ t.value readNumber = sorted value ∧ t.Distinct := by
  match value with
  | .null =>
    cases h
    exact ⟨.word .null, rfl, by simp [Tree.value, Word.value, sorted], by simp [Tree.Distinct]⟩
  | .bool true =>
    cases h
    exact ⟨.word .true, rfl, by simp [Tree.value, Word.value, sorted], by simp [Tree.Distinct]⟩
  | .bool false =>
    cases h
    exact ⟨.word .false, rfl, by simp [Tree.value, Word.value, sorted], by simp [Tree.Distinct]⟩
  | .number n =>
    rw [serializeJson] at h
    split_ifs at h with hcanonical
    cases h
    obtain ⟨hnumber, hread⟩ := hnumbers n hcanonical
    exact ⟨.number ⟨_, hnumber⟩, rfl, by simp [Tree.value, sorted, hread], by simp [Tree.Distinct]⟩
  | .string units =>
    simp only [serializeJson, bind_eq_ok, pure_eq_ok] at h
    obtain ⟨_, hvalid, rfl⟩ := h
    obtain ⟨parts, hparts, hunits⟩ := string_parts hvalid
    exact ⟨.string parts, hparts, by simp [Tree.value, sorted, hunits], by simp [Tree.Distinct]⟩
  | .array items =>
    simp only [serializeJson, bind_eq_ok, pure_eq_ok] at h
    obtain ⟨texts, htexts, rfl⟩ := h
    rw [Distinct, distinctItems_iff] at hdistinct
    obtain ⟨trees, rfl, hvalues, hall⟩ := serializeItems_trees htexts fun item hitem text htext =>
      serializeJson_tree hnumbers item (hdistinct item hitem) htext
    obtain ⟨t, htext, hvalue, ht⟩ := array_tree readNumber trees hall
    refine ⟨t, htext, ?_, ht⟩
    rw [hvalue, hvalues, sorted, sortedItems_eq]
  | .object members =>
    rw [serializeJson_object] at h
    simp only [bind_eq_ok, pure_eq_ok] at h
    obtain ⟨texts, htexts, rfl⟩ := h
    rw [Distinct, distinctMembers_iff] at hdistinct
    have hperm := sortNames_perm members
    obtain ⟨written, rfl, hentries, hall⟩ := memberTexts_trees htexts fun member hmember text htext =>
      have hsize := sizeOf_member (hperm.mem_iff.mp hmember)
      serializeJson_tree hnumbers member.2 (hdistinct.2 member (hperm.mem_iff.mp hmember)) htext
    have hnames : DistinctNames (written.map (WrittenMember.entry readNumber)) := by
      rw [hentries, DistinctNames, List.map_map]
      exact (hperm.map Prod.fst).nodup_iff.mpr hdistinct.1
    obtain ⟨t, htext, hvalue, ht⟩ := object_tree readNumber written hnames hall
    refine ⟨t, htext, ?_, ht⟩
    rw [hvalue, hentries, sorted, sortedMembers_eq, sortNames_map]
termination_by sizeOf value
decreasing_by
  · have hlt := List.sizeOf_lt_of_mem hitem
    simp only [Value.array.sizeOf_spec]
    omega
  · simp only [Value.object.sizeOf_spec]
    omega

end Written

end Dnsid.Events.JsonDepth

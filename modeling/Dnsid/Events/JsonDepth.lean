import Dnsid.Events.CanonicalJson
import Dnsid.Foundations.Nesting
import Dnsid.Foundations.UrlEncoded
import Dnsid.Protocol.StrictJson

/-! # The depth limit of JSON (`log-c2sp-tlog/src/canonical.ts`)

`assertJsonDepth` counts brackets in the bytes of a text before anything is parsed; `canonicalJson` walks the parsed value.
Both put the root at depth 0 and every member or element value one deeper. The scanner counts every value that is written;
of two members of one name `JSON.parse` keeps one, so the walk can see less.
-/
namespace Dnsid.Events.JsonDepth
open Dnsid.Foundations Dnsid.Foundations.JsonText
open Dnsid.Protocol (Bytes utf8 byteOrderMark)
set_option autoImplicit false

def maxJsonDepth : ℤ := 64

def limitExceeded : Thrown := .resourceLimitError "JSON nesting limit exceeded (64)"

/-! ## The scanner -/

def isBlankByte (byte : UInt8) : Bool := byte = 0x20 || byte = 0x09 || byte = 0x0a || byte = 0x0d

/-- The inner loop: the bytes from the closing quote on; a backslash takes the next byte along. -/
def skipString : Bytes → Bytes
  | [] => []
  | byte :: bytes =>
    if byte = 0x22 then byte :: bytes
    else if byte = 0x5c then
      match bytes with
      | [] => []
      | _ :: bytes => skipString bytes
    else skipString bytes

/-- `bytes[next]` after the blanks. -/
def nextByte (bytes : Bytes) : Option UInt8 := (bytes.dropWhile isBlankByte).head?

theorem skipString_length (bytes : Bytes) : (skipString bytes).length ≤ bytes.length := by
  induction bytes using skipString.induct with
  | case1 => exact Nat.le_refl _
  | case2 bytes =>
    rw [skipString.eq_def]
    dsimp only
    rw [if_pos rfl]
  | case3 hq => simp [skipString]
  | case4 byte bytes hq ih =>
    rw [skipString.eq_def]
    dsimp only
    rw [if_neg hq, if_pos rfl]
    simp only [List.length_cons]
    omega
  | case5 byte bytes hq hb ih =>
    rw [skipString.eq_def]
    dsimp only
    rw [if_neg hq, if_neg hb]
    simp only [List.length_cons]
    omega

def scanDepth : Bytes → ℤ → Except Thrown Unit
  | [], _ => .ok ()
  | byte :: bytes, depth =>
    if byte = 0x7d ∨ byte = 0x5d then scanDepth bytes (depth - 1)
    else if isBlankByte byte ∨ byte = 0x2c ∨ byte = 0x3a then scanDepth bytes depth
    else if byte = 0x22 then
      -- A member name is no value.
      if nextByte (skipString bytes).tail = some 0x3a then scanDepth (skipString bytes).tail depth
      else if maxJsonDepth < depth then .error limitExceeded
      else scanDepth (skipString bytes).tail depth
    else if maxJsonDepth < depth then .error limitExceeded
    else if byte = 0x7b ∨ byte = 0x5b then scanDepth bytes (depth + 1)
    else scanDepth bytes depth
termination_by bytes => bytes.length
decreasing_by
  all_goals
    have := skipString_length bytes
    simp only [List.length_tail, List.length_cons]
    omega

def assertJsonDepth (bytes : Bytes) : Except Thrown Unit := scanDepth bytes 0

/-! ## The serializer -/

section Serialize
variable {N : Type}

/-- `Object.values(current)` of a value that is an object or an array. -/
def children : Value N → List (Value N)
  | .array items => items
  | .object members => members.map Prod.snd
  | _ => []

theorem children_sizeOf (value : Value N) : ((children value).map sizeOf).sum < sizeOf value := by
  have hitems : ∀ items : List (Value N), (items.map sizeOf).sum ≤ sizeOf items := by
    intro items
    induction items with
    | nil => exact Nat.zero_le _
    | cons item items ih =>
      simp only [List.map_cons, List.sum_cons, List.cons.sizeOf_spec]
      omega
  have hmembers : ∀ members : List (CodeUnits × Value N), ((members.map Prod.snd).map sizeOf).sum ≤ sizeOf members := by
    intro members
    induction members with
    | nil => exact Nat.zero_le _
    | cons member members ih =>
      obtain ⟨name, value⟩ := member
      simp only [List.map_cons, List.sum_cons, List.cons.sizeOf_spec, Prod.mk.sizeOf_spec]
      omega
  cases value with
  | array items =>
    have := hitems items
    simp only [children, Value.array.sizeOf_spec]
    omega
  | object members =>
    have := hmembers members
    simp only [children, Value.object.sizeOf_spec]
    omega
  | null => simp [children]
  | bool value => simp [children]
  | number value => simp [children]
  | string value => simp [children]

/-- The loop of `canonicalJson` over `pending`; the value that `pop` takes is the head. -/
def checkDepth : List (Value N × ℤ) → Except Thrown Unit
  | [] => .ok ()
  | (current, depth) :: pending =>
    if maxJsonDepth < depth then .error limitExceeded
    else checkDepth ((children current).reverse.map (fun child => (child, depth + 1)) ++ pending)
termination_by pending => (pending.map fun entry => sizeOf entry.1).sum
decreasing_by
  have := children_sizeOf current
  have hmap : (List.map (fun child : Value N × ℤ => sizeOf child.1)
      ((children current).reverse.map fun child => (child, depth + 1))).sum = ((children current).map sizeOf).sum := by
    rw [List.map_map, List.map_reverse, List.sum_reverse]
    rfl
  simp only [List.map_append, List.sum_append, List.map_cons, List.sum_cons]
  omega

/-- Rejects strings containing unpaired surrogates. -/
def assertValidUnicode : CodeUnits → Except Thrown Unit
  | [] => .ok ()
  | code :: rest =>
    if Utf16.isHigh code then
      match rest with
      | next :: rest =>
        if Utf16.isLow next then assertValidUnicode rest
        else .error (.parseError "JSON contains an unpaired surrogate")
      | [] => .error (.parseError "JSON contains an unpaired surrogate")
    else if Utf16.isLow code then .error (.parseError "JSON contains an unpaired surrogate")
    else assertValidUnicode rest

/-- `JSON.stringify` of a string without lone surrogates. -/
def stringifyUnits (text : CodeUnits) : List Char := stringifyString (String.ofList (Utf16.scalars text))

/-- What the runtime says of a number: whether it is finite and not `-0`, and `JSON.stringify` of it. -/
structure NumberText (N : Type) where
  isCanonical : N → Bool
  text : N → List Char

variable (numbers : NumberText N)

mutual

def serializeJson : Value N → Except Thrown (List Char)
  | .null => .ok ['n', 'u', 'l', 'l']
  | .bool true => .ok ['t', 'r', 'u', 'e']
  | .bool false => .ok ['f', 'a', 'l', 's', 'e']
  | .number value =>
    if numbers.isCanonical value then .ok (numbers.text value) else .error (.parseError "non-canonical JSON number")
  | .string value => do
    let _ ← assertValidUnicode value
    return stringifyUnits value
  | .array items => do
    let texts ← serializeItems items
    return '[' :: (joinComma texts ++ [']'])
  | .object members => do
    let texts ← ((serializeMembers members).mergeSort fun a b => a.1.map UInt16.toNat ≤ b.1.map UInt16.toNat).mapM fun member => do
      let _ ← assertValidUnicode member.1
      let text ← member.2
      return stringifyUnits member.1 ++ ':' :: text
    return '\x7b' :: (joinComma texts ++ ['\x7d'])

def serializeItems : List (Value N) → Except Thrown (List (List Char))
  | [] => .ok []
  | item :: items => do
    let text ← serializeJson item
    let texts ← serializeItems items
    return text :: texts

/-- The outcome for every member, before they are sorted. -/
def serializeMembers : List (CodeUnits × Value N) → List (CodeUnits × Except Thrown (List Char))
  | [] => []
  | (name, value) :: members => (name, serializeJson value) :: serializeMembers members

end

def canonicalJson (value : Value N) : Except Thrown (List Char) := do
  let _ ← checkDepth [(value, 0)]
  serializeJson numbers value

end Serialize

/-! ## The walk rejects what is too deep -/

section Walk
variable {N : Type}

theorem checkDepth_ok (pending : List (Value N × ℤ)) :
    checkDepth pending = .ok () ↔ ∀ entry ∈ pending, Within children maxJsonDepth entry.2 entry.1 := by
  induction pending using checkDepth.induct with
  | case1 => simp [checkDepth]
  | case2 current depth pending hdeep =>
    rw [checkDepth, if_pos hdeep]
    constructor
    · intro h
      cases h
    · intro h
      have hroot := (within_iff.mp (h _ List.mem_cons_self)).1
      exact absurd hdeep (not_lt.mpr hroot)
  | case3 current depth pending hdeep ih =>
    rw [checkDepth, if_neg hdeep, ih]
    simp only [List.forall_mem_append, List.forall_mem_map, List.mem_reverse, List.forall_mem_cons]
    rw [within_iff, and_iff_right (not_lt.mp hdeep)]

theorem checkDepth_error {pending : List (Value N × ℤ)} {e : Thrown} (h : checkDepth pending = .error e) :
    e = limitExceeded := by
  induction pending using checkDepth.induct with
  | case1 =>
    rw [checkDepth] at h
    cases h
  | case2 current depth pending hdeep =>
    rw [checkDepth, if_pos hdeep] at h
    cases h
    rfl
  | case3 current depth pending hdeep ih =>
    rw [checkDepth, if_neg hdeep] at h
    exact ih h

theorem assertValidUnicode_ne_limit (text : CodeUnits) : assertValidUnicode text ≠ .error limitExceeded := by
  induction text using assertValidUnicode.induct with
  | case1 =>
    intro h
    cases h
  | case2 code hhigh next rest hlow ih =>
    rw [assertValidUnicode.eq_def]
    dsimp only
    rw [if_pos hhigh, if_pos hlow]
    exact ih
  | case3 code hhigh next rest hlow =>
    rw [assertValidUnicode.eq_def]
    dsimp only
    rw [if_pos hhigh, if_neg hlow]
    decide
  | case4 code hhigh =>
    rw [assertValidUnicode.eq_def]
    dsimp only
    rw [if_pos hhigh]
    decide
  | case5 code rest hhigh hlow =>
    rw [assertValidUnicode.eq_def]
    dsimp only
    rw [if_neg hhigh, if_pos hlow]
    decide
  | case6 code rest hhigh hlow ih =>
    rw [assertValidUnicode.eq_def]
    dsimp only
    rw [if_neg hhigh, if_neg hlow]
    exact ih

theorem bind_ne_error {A B : Type} {x : Except Thrown A} {f : A → Except Thrown B} {e : Thrown} (hx : x ≠ .error e)
    (hf : ∀ a, f a ≠ .error e) : x >>= f ≠ .error e := by
  cases x with
  | error e' =>
    intro h
    have herror : (.error e' : Except Thrown B) = .error e := h
    cases herror
    exact hx rfl
  | ok a => exact hf a

theorem mapM_ne_error {A B : Type} {f : A → Except Thrown B} {e : Thrown} (items : List A)
    (h : ∀ a ∈ items, f a ≠ .error e) : items.mapM f ≠ .error e := by
  induction items with
  | nil =>
    intro hnil
    cases hnil
  | cons a items ih =>
    rw [List.forall_mem_cons] at h
    rw [List.mapM_cons]
    refine bind_ne_error h.1 fun b => bind_ne_error (ih h.2) fun bs hpure => ?_
    cases hpure

variable (numbers : NumberText N)

mutual

/-- Whatever `serializeJson` throws, it is not the depth limit. -/
theorem serializeJson_ne_limit : ∀ value : Value N, serializeJson numbers value ≠ .error limitExceeded
  | .null => by simp [serializeJson]
  | .bool true => by simp [serializeJson]
  | .bool false => by simp [serializeJson]
  | .number value => by
    rw [serializeJson]
    split_ifs
    · simp
    · decide
  | .string value => by
    rw [serializeJson]
    refine bind_ne_error (assertValidUnicode_ne_limit value) fun _ hpure => ?_
    cases hpure
  | .array items => by
    rw [serializeJson]
    refine bind_ne_error (serializeItems_ne_limit items) fun _ hpure => ?_
    cases hpure
  | .object members => by
    rw [serializeJson]
    refine bind_ne_error (mapM_ne_error _ fun member hmember => ?_) fun _ hpure => ?_
    · refine bind_ne_error (assertValidUnicode_ne_limit _) fun _ => ?_
      refine bind_ne_error (serializeMembers_ne_limit members member ((List.mergeSort_perm _ _).mem_iff.mp hmember)) ?_
      intro _ hpure
      cases hpure
    · cases hpure

theorem serializeItems_ne_limit : ∀ items : List (Value N), serializeItems numbers items ≠ .error limitExceeded
  | [] => by simp [serializeItems]
  | item :: items => by
    rw [serializeItems]
    refine bind_ne_error (serializeJson_ne_limit item) fun _ => ?_
    refine bind_ne_error (serializeItems_ne_limit items) fun _ hpure => ?_
    cases hpure

theorem serializeMembers_ne_limit : ∀ members : List (CodeUnits × Value N),
    ∀ member ∈ serializeMembers numbers members, member.2 ≠ .error limitExceeded
  | [] => by simp [serializeMembers]
  | (name, value) :: members => by
    rw [serializeMembers, List.forall_mem_cons]
    exact ⟨serializeJson_ne_limit value, serializeMembers_ne_limit members⟩

end

/-- `canonicalJson` throws the depth limit iff some value in the tree of the value is too deep. -/
theorem canonicalJson_limit (value : Value N) :
    canonicalJson numbers value = .error limitExceeded ↔ ¬ Within children maxJsonDepth 0 value := by
  have hwithin : checkDepth [(value, 0)] = .ok () ↔ Within children maxJsonDepth 0 value := by
    rw [checkDepth_ok, List.forall_mem_singleton]
  rw [← hwithin, canonicalJson]
  cases hcheck : checkDepth [(value, 0)] with
  | ok _ => exact iff_of_false (serializeJson_ne_limit numbers value) fun h => h rfl
  | error e =>
    obtain rfl := checkDepth_error hcheck
    refine iff_of_true rfl ?_
    intro h
    cases h

end Walk

/-! ## The values that are written, and those that are parsed -/

section Written
variable {N : Type} (readNumber : List Char → N)

def itemTrees : Items → List Tree
  | .last _ item _ => [item]
  | .more _ item _ rest => item :: itemTrees rest

def memberTrees : Members → List Tree
  | .last _ _ _ _ value _ => [value]
  | .more _ _ _ _ value _ rest => value :: memberTrees rest

/-- The values that stand in a tree, one level below it. -/
def written : Tree → List Tree
  | .array items => itemTrees items
  | .object members => memberTrees members
  | _ => []

theorem values_eq (items : Items) : items.values readNumber = (itemTrees items).map (Tree.value readNumber) := by
  induction items using itemTrees.induct with
  | case1 before item after => rfl
  | case2 before item after rest ih => rw [Items.values, itemTrees, ih, List.map_cons]

theorem entries_values (members : Members) :
    (members.entries readNumber).map Prod.snd = (memberTrees members).map (Tree.value readNumber) := by
  induction members using memberTrees.induct with
  | case1 before name colon space value after => rfl
  | case2 before name colon space value after rest ih => rw [Members.entries, memberTrees, List.map_cons, ih, List.map_cons]

theorem entries_names (members : Members) : (members.entries readNumber).map Prod.fst = members.names := by
  induction members using memberTrees.induct with
  | case1 before name colon space value after => rfl
  | case2 before name colon space value after rest ih => rw [Members.entries, Members.names, List.map_cons, ih]

/-- A parsed value has no child that is not written. -/
theorem exists_written (t : Tree) : ∀ c' ∈ children (t.value readNumber), ∃ c ∈ written t, c.value readNumber = c' := by
  intro c' hc'
  cases t with
  | word w => cases w <;> cases hc'
  | number n => cases hc'
  | string parts => cases hc'
  | emptyArray blank => cases hc'
  | emptyObject blank => cases hc'
  | array items =>
    rw [Tree.value, children, values_eq] at hc'
    exact List.mem_map.mp hc'
  | object members =>
    rw [Tree.value, children] at hc'
    obtain ⟨entry, hentry, rfl⟩ := List.mem_map.mp hc'
    have hmem : entry ∈ members.entries readNumber := (mem_foldl_setMember _ hentry).resolve_left List.not_mem_nil
    have hvalue : entry.2 ∈ (members.entries readNumber).map Prod.snd := List.mem_map_of_mem hmem
    rw [entries_values] at hvalue
    exact List.mem_map.mp hvalue

/-- Without repeated names every written child is there. -/
theorem value_mem_children {t : Tree} (ht : t.Distinct) :
    ∀ c ∈ written t, c.value readNumber ∈ children (t.value readNumber) := by
  intro c hc
  cases t with
  | array items =>
    rw [Tree.value, children, values_eq]
    exact List.mem_map_of_mem hc
  | object members =>
    rw [Tree.Distinct] at ht
    have hdistinct : DistinctNames (members.entries readNumber) := by
      rw [DistinctNames, entries_names]
      exact ht.1
    rw [Tree.value, children, foldl_setMember_nil hdistinct, entries_values]
    exact List.mem_map_of_mem hc
  | _ => cases hc

theorem itemTrees_distinct {items : Items} (h : items.Distinct) : ∀ c ∈ itemTrees items, c.Distinct := by
  induction items using itemTrees.induct with
  | case1 before item after =>
    rw [itemTrees, List.forall_mem_singleton]
    exact h
  | case2 before item after rest ih =>
    rw [Items.Distinct] at h
    rw [itemTrees, List.forall_mem_cons]
    exact ⟨h.1, ih h.2⟩

theorem memberTrees_distinct {members : Members} (h : members.Distinct) : ∀ c ∈ memberTrees members, c.Distinct := by
  induction members using memberTrees.induct with
  | case1 before name colon space value after =>
    rw [memberTrees, List.forall_mem_singleton]
    exact h
  | case2 before name colon space value after rest ih =>
    rw [Members.Distinct] at h
    rw [memberTrees, List.forall_mem_cons]
    exact ⟨h.1, ih h.2⟩

theorem written_distinct (t : Tree) (ht : t.Distinct) : ∀ c ∈ written t, c.Distinct := by
  cases t with
  | array items => exact itemTrees_distinct ht
  | object members =>
    rw [Tree.Distinct] at ht
    exact memberTrees_distinct ht.2
  | _ => exact List.forall_mem_nil _

theorem within_value {t : Tree} {limit depth : ℤ} (h : Within written limit depth t) :
    Within children limit depth (t.value readNumber) := h.map (exists_written readNumber)

theorem within_value_iff {t : Tree} (ht : t.Distinct) {limit depth : ℤ} :
    Within children limit depth (t.value readNumber) ↔ Within written limit depth t :=
  ⟨fun h => h.of_map written_distinct (fun _ hdistinct => value_mem_children readNumber hdistinct) ht,
    within_value readNumber⟩

end Written

/-! ## The scan of a tree -/

theorem utf8_append (text rest : List Char) : utf8 (text ++ rest) = utf8 text ++ utf8 rest := List.flatMap_append

theorem utf8_cons (c : Char) (text : List Char) : utf8 (c :: text) = String.utf8EncodeChar c ++ utf8 text :=
  List.flatMap_cons

/-- A byte below 128 of the text is one of its characters. -/
theorem utf8_byte {text : List Char} {byte : UInt8} (h : byte ∈ utf8 text) :
    (∃ c ∈ text, byte.toNat = c.toNat) ∨ 0x80 ≤ byte.toNat := by
  obtain ⟨c, hc, hbyte⟩ := List.mem_flatMap.mp h
  exact (utf8EncodeChar_byte hbyte).imp (fun heq => ⟨c, hc, heq⟩) id

theorem utf8_ne {text : List Char} {c : Char} {byte : UInt8} (hc : c ∉ text) (hcode : c.toNat < 0x80)
    (h : byte ∈ utf8 text) : byte.toNat ≠ c.toNat := by
  intro heq
  rcases utf8_byte h with ⟨d, hd, hbyte⟩ | hlarge
  · have hcd : c = d := Char.toNat_inj.mp (heq.symm.trans hbyte)
    exact hc (hcd ▸ hd)
  · omega

theorem blank_byte (blank : Blank) {byte : UInt8} (h : byte ∈ utf8 blank.1) : isBlankByte byte = true := by
  obtain ⟨c, hc, hbyte⟩ := List.mem_flatMap.mp h
  have hblank : isBlank c = true := List.all_eq_true.mp blank.2 c hc
  simp only [isBlank, Bool.or_eq_true, decide_eq_true_eq] at hblank
  rcases hblank with ((rfl | rfl) | rfl) | rfl
  all_goals
    obtain rfl := List.mem_singleton.mp hbyte
    rfl

theorem scanDepth_blank (blank : Blank) (rest : Bytes) (depth : ℤ) :
    scanDepth (utf8 blank.1 ++ rest) depth = scanDepth rest depth := by
  have hall : ∀ byte ∈ utf8 blank.1, isBlankByte byte = true := fun _ hbyte => blank_byte blank hbyte
  generalize utf8 blank.1 = blanks at hall
  induction blanks with
  | nil => rfl
  | cons byte blanks ih =>
    rw [List.forall_mem_cons] at hall
    have hclose : ¬ (byte = 0x7d ∨ byte = 0x5d) := by
      rintro (rfl | rfl) <;> exact absurd hall.1 (by decide)
    rw [List.cons_append, scanDepth, if_neg hclose, if_pos (.inl hall.1), ih hall.2]

/-- The characters that the scan looks at. -/
def marks : List Char := ['\x7d', ']', ' ', '\t', '\n', '\r', ',', ':', '"', '\x7b', '[']

theorem scanDepth_byte {byte : UInt8} (h : ∀ c ∈ marks, byte.toNat ≠ c.toNat) (rest : Bytes) (depth : ℤ) :
    scanDepth (byte :: rest) depth = .ok () ↔ depth ≤ maxJsonDepth ∧ scanDepth rest depth = .ok () := by
  have hne : ∀ c ∈ marks, byte ≠ UInt8.ofNat c.toNat := by
    intro c hc heq
    have hsmall : ∀ d ∈ marks, d.toNat < 0x100 := by
      simp [marks]
    refine h c hc ?_
    rw [heq, UInt8.toNat_ofNat', Nat.mod_eq_of_lt (hsmall c hc)]
  simp only [marks, List.forall_mem_cons] at hne
  obtain ⟨hclose, hend, hspace, htab, hfeed, hreturn, hcomma, hcolon, hquote, hopen, hbracket, -⟩ := hne
  have hblank : ¬ (isBlankByte byte ∨ byte = 0x2c ∨ byte = 0x3a) := by
    simp only [isBlankByte, Bool.or_eq_true, decide_eq_true_eq]
    rintro ((((h | h) | h) | h) | h | h)
    exacts [hspace h, htab h, hfeed h, hreturn h, hcomma h, hcolon h]
  have hclosing : ¬ (byte = 0x7d ∨ byte = 0x5d) := not_or.mpr ⟨hclose, hend⟩
  have hopening : ¬ (byte = 0x7b ∨ byte = 0x5b) := not_or.mpr ⟨hopen, hbracket⟩
  have hstring : ¬ byte = 0x22 := hquote
  rw [scanDepth, if_neg hclosing, if_neg hblank, if_neg hstring, if_neg hopening]
  split_ifs with hdeep
  · refine iff_of_false (fun h => by cases h) fun h => ?_
    exact absurd hdeep (not_lt.mpr h.1)
  · exact (and_iff_right (not_lt.mp hdeep)).symm

theorem scanDepth_token {text : List Char} (hne : text ≠ []) (h : ∀ c ∈ marks, c ∉ text) (rest : Bytes) (depth : ℤ) :
    scanDepth (utf8 text ++ rest) depth = .ok () ↔ depth ≤ maxJsonDepth ∧ scanDepth rest depth = .ok () := by
  have hall : ∀ byte ∈ utf8 text, ∀ c ∈ marks, byte.toNat ≠ c.toNat := by
    intro byte hbyte c hc
    have hcode : ∀ d ∈ marks, d.toNat < 0x80 := by
      simp [marks]
    exact utf8_ne (h c hc) (hcode c hc) hbyte
  have hbytes : utf8 text ≠ [] := by
    cases text with
    | nil => exact absurd rfl hne
    | cons c text =>
      rw [utf8_cons]
      refine List.append_ne_nil_of_left_ne_nil ?_ _
      rw [String.utf8EncodeChar.eq_def]
      dsimp only
      split_ifs <;> exact List.cons_ne_nil _ _
  generalize utf8 text = bytes at hall hbytes
  induction bytes with
  | nil => exact absurd rfl hbytes
  | cons byte bytes ih =>
    rw [List.forall_mem_cons] at hall
    rw [List.cons_append, scanDepth_byte hall.1]
    cases bytes with
    | nil => rfl
    | cons next bytes =>
      have hrest := ih hall.2 (List.cons_ne_nil _ _)
      exact ⟨fun h => hrest.mp h.2, fun h => ⟨h.1, hrest.mpr h⟩⟩

theorem word_token (w : Word) : w.text ≠ [] ∧ ∀ c ∈ marks, c ∉ w.text := by
  cases w <;> simp [Word.text, marks]

theorem number_token (n : Number) : n.1 ≠ [] ∧ ∀ c ∈ marks, c ∉ n.1 := by
  obtain ⟨c, rest, hc, -⟩ := number_cons n
  have hnumber := n.2
  rw [isNumber, Bool.and_eq_true] at hnumber
  refine ⟨by rw [hc]; exact List.cons_ne_nil _ _, fun mark hmark hmem => ?_⟩
  have hchar : JsonText.isNumberChar mark = true := List.all_eq_true.mp hnumber.1 mark hmem
  have hmarks : ∀ d ∈ marks, JsonText.isNumberChar d = false := by
    simp only [marks, List.forall_mem_cons]
    refine ⟨rfl, rfl, rfl, rfl, rfl, rfl, rfl, rfl, rfl, rfl, rfl, ?_⟩
    exact List.forall_mem_nil _
  rw [hmarks mark hmark] at hchar
  cases hchar

theorem skipString_run {text : List Char} (hquote : '"' ∉ text) (hslash : '\\' ∉ text) (rest : Bytes) :
    skipString (utf8 text ++ rest) = skipString rest := by
  have hall : ∀ byte ∈ utf8 text, byte ≠ 0x22 ∧ byte ≠ 0x5c := by
    intro byte hbyte
    constructor
    · rintro rfl
      exact utf8_ne hquote (by decide) hbyte rfl
    · rintro rfl
      exact utf8_ne hslash (by decide) hbyte rfl
  generalize utf8 text = bytes at hall
  induction bytes with
  | nil => rfl
  | cons byte bytes ih =>
    rw [List.forall_mem_cons] at hall
    rw [List.cons_append, skipString.eq_def]
    dsimp only
    rw [if_neg hall.1.1, if_neg hall.1.2, ih hall.2]

theorem skipString_escape (byte : UInt8) (rest : Bytes) : skipString (0x5c :: byte :: rest) = skipString rest := by
  rw [skipString.eq_def]
  dsimp only
  rw [if_neg (by decide), if_pos rfl]

theorem skipString_content (parts : List StringPart) (rest : Bytes) :
    skipString (utf8 (contentText parts) ++ 0x22 :: rest) = 0x22 :: rest := by
  induction parts with
  | nil =>
    rw [contentText, List.flatMap_nil, skipString.eq_def]
    exact if_pos rfl
  | cons part parts ih =>
    rw [contentText, List.flatMap_cons, ← contentText, utf8_append, List.append_assoc]
    cases part with
    | plain c h =>
      simp only [isPlain, Bool.and_eq_true, decide_eq_true_eq] at h
      rw [StringPart.text, skipString_run (by simpa using Ne.symm h.1.1) (by simpa using Ne.symm h.1.2), ih]
    | escape e =>
      have hescape : ∃ byte, utf8 (StringPart.text (.escape e)) = [0x5c, byte] := by
        cases e <;> exact ⟨_, rfl⟩
      obtain ⟨byte, hbyte⟩ := hescape
      rw [hbyte, List.cons_append, List.singleton_append, skipString_escape, ih]
    | unicode a b c d =>
      have hhex : ∀ d : HexDigit, '"' ≠ d.1 ∧ '\\' ≠ d.1 := by
        intro d
        obtain ⟨c, hc⟩ := d
        constructor
        all_goals
          rintro rfl
          cases hc
      have htext : utf8 (StringPart.text (.unicode a b c d)) = 0x5c :: 0x75 :: utf8 [a.1, b.1, c.1, d.1] := rfl
      rw [htext, List.cons_append, List.cons_append, skipString_escape, skipString_run _ _, ih]
      · simp [(hhex a).1, (hhex b).1, (hhex c).1, (hhex d).1]
      · simp [(hhex a).2, (hhex b).2, (hhex c).2, (hhex d).2]

theorem utf8_string (parts : List StringPart) (rest : Bytes) :
    utf8 (stringText parts) ++ rest = 0x22 :: (utf8 (contentText parts) ++ 0x22 :: rest) := by
  rw [stringText, utf8_cons, utf8_append, List.append_assoc, List.append_assoc]
  rfl

theorem scanDepth_name (parts : List StringPart) {rest : Bytes} (h : nextByte rest = some 0x3a) (depth : ℤ) :
    scanDepth (utf8 (stringText parts) ++ rest) depth = scanDepth rest depth := by
  rw [utf8_string, scanDepth, skipString_content, List.tail_cons, if_neg (by decide), if_neg (by decide), if_pos rfl,
    if_pos h]

theorem scanDepth_string (parts : List StringPart) {rest : Bytes} (h : nextByte rest ≠ some 0x3a) (depth : ℤ) :
    scanDepth (utf8 (stringText parts) ++ rest) depth = .ok () ↔
      depth ≤ maxJsonDepth ∧ scanDepth rest depth = .ok () := by
  rw [utf8_string, scanDepth, skipString_content, List.tail_cons, if_neg (by decide), if_neg (by decide), if_pos rfl,
    if_neg h]
  split_ifs with hdeep
  · refine iff_of_false (fun h => by cases h) fun h => ?_
    exact absurd hdeep (not_lt.mpr h.1)
  · exact (and_iff_right (not_lt.mp hdeep)).symm

theorem scanDepth_close {byte : UInt8} (h : byte = 0x7d ∨ byte = 0x5d) (rest : Bytes) (depth : ℤ) :
    scanDepth (byte :: rest) depth = scanDepth rest (depth - 1) := by
  rw [scanDepth, if_pos h]

theorem scanDepth_comma (rest : Bytes) (depth : ℤ) : scanDepth (0x2c :: rest) depth = scanDepth rest depth := by
  rw [scanDepth, if_neg (by decide), if_pos (by decide)]

theorem scanDepth_colon (rest : Bytes) (depth : ℤ) : scanDepth (0x3a :: rest) depth = scanDepth rest depth := by
  rw [scanDepth, if_neg (by decide), if_pos (by decide)]

theorem scanDepth_open {byte : UInt8} (h : byte = 0x7b ∨ byte = 0x5b) (rest : Bytes) (depth : ℤ) :
    scanDepth (byte :: rest) depth = .ok () ↔ depth ≤ maxJsonDepth ∧ scanDepth rest (depth + 1) = .ok () := by
  have hopen : scanDepth (byte :: rest) depth =
      if maxJsonDepth < depth then .error limitExceeded else scanDepth rest (depth + 1) := by
    rcases h with rfl | rfl
    · have hmark : (0x7b : UInt8) = 0x7b ∨ (0x7b : UInt8) = 0x5b := .inl rfl
      rw [scanDepth, if_neg (by decide), if_neg (by decide), if_neg (by decide), if_pos hmark]
    · have hmark : (0x5b : UInt8) = 0x7b ∨ (0x5b : UInt8) = 0x5b := .inr rfl
      rw [scanDepth, if_neg (by decide), if_neg (by decide), if_neg (by decide), if_pos hmark]
  rw [hopen]
  split_ifs with hdeep
  · refine iff_of_false (fun h => by cases h) fun h => ?_
    exact absurd hdeep (not_lt.mpr h.1)
  · exact (and_iff_right (not_lt.mp hdeep)).symm

theorem nextByte_blank (blank : Blank) {byte : UInt8} (h : isBlankByte byte = false) (rest : Bytes) :
    nextByte (utf8 blank.1 ++ byte :: rest) = some byte := by
  have hall : ∀ byte ∈ utf8 blank.1, isBlankByte byte = true := fun _ hbyte => blank_byte blank hbyte
  rw [nextByte, List.dropWhile_append_of_pos hall, List.dropWhile_cons_of_neg (by rw [h]; exact Bool.false_ne_true)]
  rfl

/-- What follows a value: no colon behind the blanks. -/
theorem nextByte_ne_colon (blank : Blank) {byte : UInt8} (h : isBlankByte byte = false) (hne : byte ≠ 0x3a) (rest : Bytes) :
    nextByte (utf8 blank.1 ++ byte :: rest) ≠ some 0x3a := by
  rw [nextByte_blank blank h]
  simpa using hne

theorem within_leaf {t : Tree} (h : written t = []) {depth : ℤ} :
    Within written maxJsonDepth depth t ↔ depth ≤ maxJsonDepth := by
  rw [within_iff, h]
  exact and_iff_left (List.forall_mem_nil _)

mutual

/-- The scan goes through a value iff nothing in it is too deep, and then goes on at the same depth. -/
theorem scanDepth_tree : ∀ (t : Tree) {rest : Bytes}, nextByte rest ≠ some 0x3a → ∀ depth : ℤ,
    scanDepth (utf8 t.text ++ rest) depth = .ok () ↔
      Within written maxJsonDepth depth t ∧ scanDepth rest depth = .ok ()
  | .word w, rest, _, depth => by
    rw [Tree.text, scanDepth_token (word_token w).1 (word_token w).2, within_leaf rfl]
  | .number n, rest, _, depth => by
    rw [Tree.text, scanDepth_token (number_token n).1 (number_token n).2, within_leaf rfl]
  | .string parts, rest, hrest, depth => by
    rw [Tree.text, scanDepth_string parts hrest, within_leaf rfl]
  | .emptyArray blank, rest, _, depth => by
    have htext : utf8 (Tree.text (.emptyArray blank)) ++ rest = 0x5b :: (utf8 blank.1 ++ 0x5d :: rest) := by
      simp only [Tree.text, utf8_append, utf8_cons, List.append_assoc]
      rfl
    rw [htext, scanDepth_open (.inr rfl), scanDepth_blank, scanDepth_close (.inr rfl), within_leaf rfl,
      Int.add_sub_cancel]
  | .array items, rest, _, depth => by
    have htext : utf8 (Tree.text (.array items)) ++ rest = 0x5b :: (utf8 items.text ++ rest) := rfl
    rw [htext, scanDepth_open (.inr rfl), scanDepth_items items, Int.add_sub_cancel, within_iff, and_assoc]
    rfl
  | .emptyObject blank, rest, _, depth => by
    have htext : utf8 (Tree.text (.emptyObject blank)) ++ rest = 0x7b :: (utf8 blank.1 ++ 0x7d :: rest) := by
      simp only [Tree.text, utf8_append, utf8_cons, List.append_assoc]
      rfl
    rw [htext, scanDepth_open (.inl rfl), scanDepth_blank, scanDepth_close (.inl rfl), within_leaf rfl,
      Int.add_sub_cancel]
  | .object members, rest, _, depth => by
    have htext : utf8 (Tree.text (.object members)) ++ rest = 0x7b :: (utf8 members.text ++ rest) := rfl
    rw [htext, scanDepth_open (.inl rfl), scanDepth_members members, Int.add_sub_cancel, within_iff, and_assoc]
    rfl

theorem scanDepth_items : ∀ (items : Items) (rest : Bytes) (depth : ℤ),
    scanDepth (utf8 items.text ++ rest) depth = .ok () ↔
      (∀ c ∈ itemTrees items, Within written maxJsonDepth depth c) ∧ scanDepth rest (depth - 1) = .ok ()
  | .last before item after, rest, depth => by
    have htext : utf8 (Items.text (.last before item after)) ++ rest =
        utf8 before.1 ++ (utf8 item.text ++ (utf8 after.1 ++ 0x5d :: rest)) := by
      simp only [Items.text, utf8_append, List.append_assoc]
      rfl
    rw [htext, scanDepth_blank, scanDepth_tree item (nextByte_ne_colon after (by decide) (by decide) rest),
      scanDepth_blank, scanDepth_close (.inr rfl), itemTrees, List.forall_mem_singleton]
  | .more before item after items, rest, depth => by
    have htext : utf8 (Items.text (.more before item after items)) ++ rest =
        utf8 before.1 ++ (utf8 item.text ++ (utf8 after.1 ++ 0x2c :: (utf8 items.text ++ rest))) := by
      simp only [Items.text, utf8_append, utf8_cons, List.append_assoc]
      rfl
    rw [htext, scanDepth_blank, scanDepth_tree item (nextByte_ne_colon after (by decide) (by decide) _),
      scanDepth_blank, scanDepth_comma, scanDepth_items items, itemTrees, List.forall_mem_cons, and_assoc]

theorem scanDepth_members : ∀ (members : Members) (rest : Bytes) (depth : ℤ),
    scanDepth (utf8 members.text ++ rest) depth = .ok () ↔
      (∀ c ∈ memberTrees members, Within written maxJsonDepth depth c) ∧ scanDepth rest (depth - 1) = .ok ()
  | .last before name colon space value after, rest, depth => by
    have htext : utf8 (Members.text (.last before name colon space value after)) ++ rest = utf8 before.1 ++
        (utf8 (stringText name) ++ (utf8 colon.1 ++ 0x3a :: (utf8 space.1 ++ (utf8 value.text ++
          (utf8 after.1 ++ 0x7d :: rest))))) := by
      simp only [Members.text, utf8_append, utf8_cons, List.append_assoc]
      rfl
    rw [htext, scanDepth_blank, scanDepth_name name (nextByte_blank colon (by decide) _), scanDepth_blank,
      scanDepth_colon, scanDepth_blank, scanDepth_tree value (nextByte_ne_colon after (by decide) (by decide) rest),
      scanDepth_blank, scanDepth_close (.inl rfl), memberTrees, List.forall_mem_singleton]
  | .more before name colon space value after members, rest, depth => by
    have htext : utf8 (Members.text (.more before name colon space value after members)) ++ rest = utf8 before.1 ++
        (utf8 (stringText name) ++ (utf8 colon.1 ++ 0x3a :: (utf8 space.1 ++ (utf8 value.text ++
          (utf8 after.1 ++ 0x2c :: (utf8 members.text ++ rest)))))) := by
      simp only [Members.text, utf8_append, utf8_cons, List.append_assoc]
      rfl
    rw [htext, scanDepth_blank, scanDepth_name name (nextByte_blank colon (by decide) _), scanDepth_blank,
      scanDepth_colon, scanDepth_blank, scanDepth_tree value (nextByte_ne_colon after (by decide) (by decide) _),
      scanDepth_blank, scanDepth_comma, scanDepth_members members, memberTrees, List.forall_mem_cons, and_assoc]

end

theorem scanDepth_error {bytes : Bytes} {depth : ℤ} {e : Thrown} (h : scanDepth bytes depth = .error e) :
    e = limitExceeded := by
  induction bytes, depth using scanDepth.induct with
  | case1 =>
    rw [scanDepth] at h
    cases h
  | case2 byte bytes depth hclose ih =>
    rw [scanDepth, if_pos hclose] at h
    exact ih h
  | case3 byte bytes depth hclose hblank ih =>
    rw [scanDepth, if_neg hclose, if_pos hblank] at h
    exact ih h
  | case4 bytes depth hname hclose hblank ih =>
    rw [scanDepth, if_neg hclose, if_neg hblank, if_pos rfl, if_pos hname] at h
    exact ih h
  | case5 bytes depth hname hdeep hclose hblank =>
    rw [scanDepth, if_neg hclose, if_neg hblank, if_pos rfl, if_neg hname, if_pos hdeep] at h
    cases h
    rfl
  | case6 bytes depth hname hdeep hclose hblank ih =>
    rw [scanDepth, if_neg hclose, if_neg hblank, if_pos rfl, if_neg hname, if_neg hdeep] at h
    exact ih h
  | case7 byte bytes depth hclose hblank hquote hdeep =>
    rw [scanDepth, if_neg hclose, if_neg hblank, if_neg hquote, if_pos hdeep] at h
    cases h
    rfl
  | case8 byte bytes depth hclose hblank hquote hdeep hopen ih =>
    rw [scanDepth, if_neg hclose, if_neg hblank, if_neg hquote, if_neg hdeep, if_pos hopen] at h
    exact ih h
  | case9 byte bytes depth hclose hblank hquote hdeep hopen ih =>
    rw [scanDepth, if_neg hclose, if_neg hblank, if_neg hquote, if_neg hdeep, if_neg hopen] at h
    exact ih h

theorem assertJsonDepth_ok (d : Document) : assertJsonDepth (utf8 d.text) = .ok () ↔ Within written maxJsonDepth 0 d.tree := by
  have hend : nextByte (utf8 d.after.1) ≠ some 0x3a := by
    have hall : ∀ byte ∈ utf8 d.after.1, isBlankByte byte = true := fun _ hbyte => blank_byte d.after hbyte
    rw [nextByte, List.dropWhile_eq_nil_iff.mpr hall]
    intro h
    cases h
  have hafter : scanDepth (utf8 d.after.1) 0 = .ok () := by
    have hblank := scanDepth_blank d.after [] 0
    rw [List.append_nil] at hblank
    rw [hblank, scanDepth]
  rw [assertJsonDepth, Document.text, utf8_append, utf8_append, scanDepth_blank, scanDepth_tree d.tree hend]
  exact and_iff_left hafter

/-- The scanner throws the depth limit, and nothing else, iff a value that is written is too deep. -/
theorem assertJsonDepth_limit (d : Document) :
    assertJsonDepth (utf8 d.text) = .error limitExceeded ↔ ¬ Within written maxJsonDepth 0 d.tree := by
  rw [← assertJsonDepth_ok]
  cases hscan : assertJsonDepth (utf8 d.text) with
  | ok _ =>
    refine iff_of_false ?_ fun h => h rfl
    intro h
    cases h
  | error e =>
    obtain rfl := scanDepth_error hscan
    refine iff_of_true rfl ?_
    intro h
    cases h

/-- The decoder drops a byte order mark, and the scanner passes over it. -/
theorem assertJsonDepth_byteOrderMark (text : List Char) :
    assertJsonDepth (utf8 (byteOrderMark :: text)) = assertJsonDepth (utf8 text) := by
  have hmark : utf8 (byteOrderMark :: text) = 0xef :: 0xbb :: 0xbf :: utf8 text := rfl
  have hpassed : ∀ byte ∈ ([0xef, 0xbb, 0xbf] : Bytes), ∀ rest, scanDepth (byte :: rest) 0 = scanDepth rest 0 := by
    intro byte hbyte rest
    simp only [List.mem_cons, List.not_mem_nil, or_false] at hbyte
    rw [scanDepth]
    rcases hbyte with rfl | rfl | rfl
    all_goals
      rw [if_neg (by decide), if_neg (by decide), if_neg (by decide), if_neg (by decide), if_neg (by decide)]
  rw [assertJsonDepth, hmark, hpassed _ (by decide), hpassed _ (by decide), hpassed _ (by decide), assertJsonDepth]

theorem not_within_root {A : Type} {below : A → List A} {a : A} :
    ¬ Within below maxJsonDepth 0 a ↔ ∃ x n, NestedAt below a x n ∧ 64 < n := by
  rw [not_within_iff]
  simp only [maxJsonDepth, zero_add]
  norm_cast

section Agreement
variable {N : Type} (readNumber : List Char → N) (numbers : NumberText N)

/-- **The scanner and the walk.** The scanner throws iff a value that the text has is nested deeper than 64, the walk iff a
value of the parsed document is. What the walk rejects the scanner rejects, and they agree on every text in which no
object repeats a name. A byte order mark changes nothing. -/
theorem assertJsonDepth_canonicalJson (d : Document) :
    (assertJsonDepth (utf8 d.text) = .error limitExceeded ↔ ∃ x n, NestedAt written d.tree x n ∧ 64 < n) ∧
      (canonicalJson numbers (d.tree.value readNumber) = .error limitExceeded ↔
        ∃ x n, NestedAt children (d.tree.value readNumber) x n ∧ 64 < n) ∧
      (canonicalJson numbers (d.tree.value readNumber) = .error limitExceeded →
        assertJsonDepth (utf8 d.text) = .error limitExceeded) ∧
      (d.tree.Distinct → (assertJsonDepth (utf8 d.text) = .error limitExceeded ↔
        canonicalJson numbers (d.tree.value readNumber) = .error limitExceeded)) ∧
      (assertJsonDepth (utf8 d.text) = .ok () ∨ assertJsonDepth (utf8 d.text) = .error limitExceeded) ∧
      assertJsonDepth (utf8 (byteOrderMark :: d.text)) = assertJsonDepth (utf8 d.text) := by
  refine ⟨?_, ?_, ?_, ?_, ?_, assertJsonDepth_byteOrderMark d.text⟩
  · rw [assertJsonDepth_limit, not_within_root]
  · rw [canonicalJson_limit, not_within_root]
  · rw [assertJsonDepth_limit, canonicalJson_limit]
    exact mt (within_value readNumber)
  · intro hdistinct
    rw [assertJsonDepth_limit, canonicalJson_limit, within_value_iff readNumber hdistinct]
  · rw [assertJsonDepth_limit, assertJsonDepth_ok]
    exact Classical.em _

end Agreement

def noBlank : Blank := ⟨[], rfl⟩

/-- `depth` brackets around an empty array. -/
def nested : ℕ → Tree
  | 0 => .emptyArray noBlank
  | depth + 1 => .array (.last noBlank (nested depth) noBlank)

theorem nested_deep (depth : ℕ) : NestedAt written (nested depth) (nested 0) depth := by
  induction depth with
  | zero => exact .root _
  | succ depth ih => exact .child List.mem_cons_self ih

/-- `{"a":[[…]],"a":[]}`, with an array at depth 65. -/
def overwritten : Document :=
  let name : List StringPart := [.plain 'a' rfl]
  ⟨noBlank, .object (.more noBlank name noBlank noBlank (nested 64) noBlank
    (.last noBlank name noBlank noBlank (nested 0) noBlank)), noBlank⟩

/-- Of the two members the parsed document keeps the shallow one, but the scanner has seen both. -/
theorem assertJsonDepth_overwritten : ¬ ∀ d : Document,
    assertJsonDepth (utf8 d.text) = .error limitExceeded ↔
      canonicalJson ⟨fun _ => true, id⟩ (d.tree.value id) = .error limitExceeded := by
  intro h
  have hscan : assertJsonDepth (utf8 overwritten.text) = .error limitExceeded := by
    rw [assertJsonDepth_limit, not_within_root]
    exact ⟨nested 0, 65, .child List.mem_cons_self (nested_deep 64), by decide⟩
  have hwalk := (h overwritten).mp hscan
  rw [canonicalJson_limit, within_iff] at hwalk
  refine hwalk ⟨by decide, ?_⟩
  have hchildren : children (overwritten.tree.value id) = [.array []] := rfl
  rw [hchildren, List.forall_mem_singleton, within_iff]
  exact ⟨by decide, List.forall_mem_nil _⟩

end Dnsid.Events.JsonDepth

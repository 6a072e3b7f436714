import Mathlib.Data.List.Lex
import Mathlib.Tactic.IntervalCases
import Dnsid.Events.EventCodec
import Dnsid.Foundations.JsonText
import Dnsid.Foundations.OrderedMembers
import Dnsid.Foundations.PrefixCode

/-! # Canonical JSON (`log-c2sp-tlog/src/canonical.ts`)

`canonicalJson` sorts the members of every object by their UTF-16 code units and prints the value without
blanks. The text of a number is the runtime's (`JSON.stringify` of a double). A text is canonical for one
value, up to the order of members (`print_injective`): this is what lets two parties compare bytes.

A `String` of the model is valid Unicode and a number is finite and not `-0`: the values that
`serializeJson` refuses are not built.
-/
namespace Dnsid.Events
open Dnsid.Foundations
open Dnsid.Foundations.JsonText (isNumberChar)
set_option autoImplicit false

/-! ## Order of names -/

/-- The UTF-16 code units that `Array.prototype.sort` compares. -/
def utf16Units (c : Char) : List ℕ :=
  if c.toNat < 0x10000 then [c.toNat]
  else [0xd800 + (c.toNat - 0x10000) / 0x400, 0xdc00 + (c.toNat - 0x10000) % 0x400]

def utf16 (text : String) : List ℕ := text.toList.flatMap utf16Units

/-- A character of one unit is no surrogate. -/
theorem toNat_not_surrogate (c : Char) : c.toNat < 0xd800 ∨ 0xdfff < c.toNat ∧ c.toNat < 0x110000 := by
  rcases c.valid with h | ⟨h, h'⟩
  · exact .inl h
  · exact .inr ⟨h, h'⟩

theorem utf16Units_append_inj {c d : Char} {r s : List ℕ}
    (h : utf16Units c ++ r = utf16Units d ++ s) : c = d ∧ r = s := by
  have hc := toNat_not_surrogate c
  have hd := toNat_not_surrogate d
  unfold utf16Units at h
  split at h <;> split at h <;> simp only [List.cons_append, List.nil_append, List.cons.injEq] at h
  · exact ⟨Char.toNat_inj.mp h.1, h.2⟩
  · omega
  · omega
  · refine ⟨Char.toNat_inj.mp ?_, h.2.2⟩
    omega

theorem utf16Units_ne_nil (c : Char) (rest : List ℕ) : [] ≠ utf16Units c ++ rest := by
  unfold utf16Units
  split <;> simp

theorem utf16_injective : Function.Injective utf16 := by
  intro a b h
  have hlist : a.toList = b.toList := by
    refine (flatMap_append_inj utf16Units (fun _ => True) (r := []) (s := [])
      (fun c _ d x y _ _ => utf16Units_append_inj) (fun _ _ => trivial) trivial trivial
      utf16Units_ne_nil utf16Units_ne_nil ?_).1
    simpa [utf16] using h
  exact String.toList_inj.mp hlist

namespace Json

mutual

/-- The members of every object as `Object.keys(obj).sort()` lists them. -/
def sorted : Json → Json
  | .null => .null
  | .bool value => .bool value
  | .num value => .num value
  | .str value => .str value
  | .arr items => .arr (sortedItems items)
  | .obj members => .obj (sortedMembers members)

def sortedItems : List Json → List Json
  | [] => []
  | item :: items => sorted item :: sortedItems items

def sortedMembers : List (String × Json) → List (String × Json)
  | [] => []
  | (name, value) :: members => upsert utf16 name (sorted value) (sortedMembers members)

end

mutual

/-- The root has depth 0, every member or element value adds 1. -/
def depth : Json → ℕ
  | .arr items => depthItems items
  | .obj members => depthMembers members
  | _ => 0

def depthItems : List Json → ℕ
  | [] => 0
  | item :: items => max (depth item + 1) (depthItems items)

def depthMembers : List (String × Json) → ℕ
  | [] => 0
  | (_, value) :: members => max (depth value + 1) (depthMembers members)

end

end Json

/-! ## Text -/

def hexDigit (n : ℕ) : Char := if n < 10 then Char.ofNat (0x30 + n) else Char.ofNat (0x57 + n)

/-- The escapes of `JSON.stringify`. -/
def escapeChar (c : Char) : List Char :=
  if c = '"' then ['\\', '"']
  else if c = '\\' then ['\\', '\\']
  else if c = '\x08' then ['\\', 'b']
  else if c = '\t' then ['\\', 't']
  else if c = '\n' then ['\\', 'n']
  else if c = '\x0c' then ['\\', 'f']
  else if c = '\r' then ['\\', 'r']
  else if c.toNat < 0x20 then ['\\', 'u', '0', '0', hexDigit (c.toNat / 16), hexDigit (c.toNat % 16)]
  else [c]

def stringifyString (text : String) : List Char := '"' :: (text.toList.flatMap escapeChar ++ ['"'])

/-- `items.join(',')`. -/
def joinComma (items : List (List Char)) : List Char := (items.flatMap fun item => ',' :: item).drop 1

section Print
variable (numberText : ℚ → List Char)

mutual

/-- `serializeJson` on a value whose members are in order. -/
def print : Json → List Char
  | .null => ['n', 'u', 'l', 'l']
  | .bool true => ['t', 'r', 'u', 'e']
  | .bool false => ['f', 'a', 'l', 's', 'e']
  | .num value => numberText value
  | .str value => stringifyString value
  | .arr items => '[' :: (joinComma (printItems items) ++ [']'])
  | .obj members => '\x7b' :: (joinComma (printMembers members) ++ ['\x7d'])

def printItems : List Json → List (List Char)
  | [] => []
  | item :: items => print item :: printItems items

def printMembers : List (String × Json) → List (List Char)
  | [] => []
  | (name, value) :: members => (stringifyString name ++ ':' :: print value) :: printMembers members

end

def canonicalJson (value : Json) : Except Thrown (List Char) :=
  if 64 < value.sorted.depth then .error (.resourceLimitError "JSON nesting limit exceeded (64)")
  else .ok (print numberText value.sorted)

end Print

/-- What `canonicalBytes` takes from the runtime: `JSON.stringify` of a number, and `TextEncoder`. -/
structure CanonicalText (Bytes : Type) where
  numberText : ℚ → List Char
  encode : List Char → Bytes
  numberText_ne_nil : ∀ q, numberText q ≠ []
  numberText_chars : ∀ q, ∀ c ∈ numberText q, isNumberChar c = true
  numberText_injective : Function.Injective numberText
  encode_injective : Function.Injective encode

def CanonicalText.canonicalBytes {Bytes : Type} (T : CanonicalText Bytes) (value : Json) :
    Except Thrown Bytes :=
  (canonicalJson T.numberText value).map T.encode

/-! ## Reading the text back -/

/-- Reads one character of a string literal. -/
def unescape : List Char → Option (Char × List Char)
  | '\\' :: 'u' :: '0' :: '0' :: a :: b :: rest =>
    let digit (c : Char) : ℕ := if c.isDigit then c.toNat - 0x30 else c.toNat - 0x57
    some (Char.ofNat (16 * digit a + digit b), rest)
  | '\\' :: 'b' :: rest => some ('\x08', rest)
  | '\\' :: 't' :: rest => some ('\t', rest)
  | '\\' :: 'n' :: rest => some ('\n', rest)
  | '\\' :: 'f' :: rest => some ('\x0c', rest)
  | '\\' :: 'r' :: rest => some ('\r', rest)
  | '\\' :: c :: rest => some (c, rest)
  | c :: rest => some (c, rest)
  | [] => none

/-- A control character, by its number. -/
theorem exists_control {c : Char} (h : c.toNat < 0x20) : ∃ n < 0x20, c = Char.ofNat n :=
  ⟨c.toNat, h, (Char.ofNat_toNat c).symm⟩

theorem escapeChar_plain {c : Char} (hcontrol : ¬ c.toNat < 0x20) (hquote : c ≠ '"')
    (hslash : c ≠ '\\') : escapeChar c = [c] := by
  have hne : ∀ d : Char, d.toNat < 0x20 → c ≠ d := by
    rintro d hd rfl
    exact hcontrol hd
  simp [escapeChar, hquote, hslash, hcontrol, hne '\x08' (by decide), hne '\t' (by decide),
    hne '\n' (by decide), hne '\x0c' (by decide), hne '\r' (by decide)]

theorem unescape_escapeChar (c : Char) (rest : List Char) :
    unescape (escapeChar c ++ rest) = some (c, rest) := by
  by_cases hcontrol : c.toNat < 0x20
  · obtain ⟨n, hn, rfl⟩ := exists_control hcontrol
    interval_cases n <;> rfl
  by_cases hquote : c = '"'
  · subst hquote
    rfl
  by_cases hslash : c = '\\'
  · subst hslash
    rfl
  rw [escapeChar_plain hcontrol hquote hslash, List.singleton_append]
  unfold unescape
  split <;> simp_all

/-- No escaped character starts with the quote that ends a literal. -/
theorem quote_ne_escapeChar (c : Char) (rest rest' : List Char) : '"' :: rest ≠ escapeChar c ++ rest' := by
  by_cases hcontrol : c.toNat < 0x20
  · obtain ⟨n, hn, rfl⟩ := exists_control hcontrol
    interval_cases n <;> simp [escapeChar]
  by_cases hquote : c = '"'
  · simp [hquote, escapeChar]
  by_cases hslash : c = '\\'
  · simp [hslash, escapeChar]
  rw [escapeChar_plain hcontrol hquote hslash]
  simp [Ne.symm hquote]

theorem escapeChar_append_inj {c d : Char} {r s : List Char} (h : escapeChar c ++ r = escapeChar d ++ s) :
    c = d ∧ r = s := by
  have := congrArg unescape h
  rw [unescape_escapeChar, unescape_escapeChar] at this
  simpa using this

theorem stringifyString_append_inj {a b : String} {r s : List Char}
    (h : stringifyString a ++ r = stringifyString b ++ s) : a = b ∧ r = s := by
  simp only [stringifyString, List.cons_append, List.append_assoc, List.cons.injEq, true_and,
    List.nil_append] at h
  obtain ⟨hlist, hrest⟩ := flatMap_append_inj escapeChar (fun _ => True)
    (fun c _ d x y _ _ => escapeChar_append_inj) (fun _ _ => trivial) trivial trivial
    (fun c x => quote_ne_escapeChar c r x) (fun c x => quote_ne_escapeChar c s x) h
  exact ⟨String.toList_inj.mp hlist, (List.cons.inj hrest).2⟩

/-! ### Values -/

/-- What may follow a printed value: nothing that continues a number. -/
def Stops (rest : List Char) : Prop := ∀ c ∈ rest.head?, isNumberChar c = false

theorem stops_cons {c : Char} (h : isNumberChar c = false) (rest : List Char) : Stops (c :: rest) := by
  intro d hd
  cases hd
  exact h

/-- Lists between a bracket and `close`, when no element starts with `close`. -/
theorem joinComma_append_inj {α : Type} (text : α → List Char) {close : Char} {as bs : List α}
    {r s : List Char} (hcomma : close ≠ ',') (hclose : isNumberChar close = false)
    (hhead : ∀ a x y, close :: x ≠ text a ++ y)
    (htext : ∀ a ∈ as, ∀ b x y, Stops x → Stops y → text a ++ x = text b ++ y → a = b ∧ x = y)
    (h : joinComma (as.map text) ++ close :: r = joinComma (bs.map text) ++ close :: s) :
    as = bs ∧ r = s := by
  have hjoin : ∀ (c : α) (cs : List α),
      ',' :: joinComma ((c :: cs).map text) = (c :: cs).flatMap fun a => ',' :: text a := by
    intro c cs
    simp [joinComma, List.flatMap_map]
  cases as with
  | nil =>
    cases bs with
    | nil => exact ⟨rfl, (List.cons.inj h).2⟩
    | cons b bs =>
      have h' := congrArg (',' :: ·) h
      simp only [← List.cons_append, hjoin] at h'
      simp only [List.flatMap_cons, List.cons_append, List.append_assoc, List.cons.injEq, true_and] at h'
      exact absurd h' (hhead b r _)
  | cons a as =>
    cases bs with
    | nil =>
      have h' := congrArg (',' :: ·) h
      simp only [← List.cons_append, hjoin] at h'
      simp only [List.flatMap_cons, List.cons_append, List.append_assoc, List.cons.injEq, true_and] at h'
      exact absurd h'.symm (hhead a s _)
    | cons b bs =>
      have h' := congrArg (',' :: ·) h
      simp only [← List.cons_append, hjoin] at h'
      obtain ⟨heq, hrest⟩ := flatMap_append_inj (fun a => ',' :: text a) Stops
        (fun c hc d x y hx hy hcd => htext c hc d x y hx hy (List.cons.inj hcd).2)
        (fun c x => stops_cons (by decide) _) (stops_cons hclose r) (stops_cons hclose s)
        (fun c x hc => hcomma (List.cons.inj hc).1) (fun c x hc => hcomma (List.cons.inj hc).1) h'
      exact ⟨heq, (List.cons.inj hrest).2⟩

/-- The first character of a printed value tells its constructor. -/
inductive Kind where
  | null
  | bool
  | num
  | str
  | arr
  | obj
  deriving DecidableEq

def kindOfChar (c : Char) : Option Kind :=
  if c = 'n' then some .null
  else if c = 't' ∨ c = 'f' then some .bool
  else if c = '"' then some .str
  else if c = '[' then some .arr
  else if c = '\x7b' then some .obj
  else if isNumberChar c then some .num
  else none

def kindOf : Json → Kind
  | .null => .null
  | .bool _ => .bool
  | .num _ => .num
  | .str _ => .str
  | .arr _ => .arr
  | .obj _ => .obj

theorem kindOfChar_number {c : Char} (h : isNumberChar c = true) : kindOfChar c = some .num := by
  have hne : ∀ d : Char, isNumberChar d = false → c ≠ d := by
    rintro d hd rfl
    rw [h] at hd
    cases hd
  simp [kindOfChar, h, hne 'n' (by decide), hne 't' (by decide), hne 'f' (by decide),
    hne '"' (by decide), hne '[' (by decide), hne '\x7b' (by decide)]

section PrintLists
variable (numberText : ℚ → List Char)

theorem printItems_eq (items : List Json) :
    printItems numberText items = items.map (print numberText) := by
  induction items with
  | nil => rw [printItems, List.map_nil]
  | cons item items ih => rw [printItems, List.map_cons, ih]

theorem printMembers_eq (members : List (String × Json)) :
    printMembers numberText members =
      members.map fun m => stringifyString m.1 ++ ':' :: print numberText m.2 := by
  induction members with
  | nil => rw [printMembers, List.map_nil]
  | cons m members ih =>
    obtain ⟨name, value⟩ := m
    rw [printMembers, List.map_cons, ih]

end PrintLists

section PrintInjective
variable {Bytes : Type} (T : CanonicalText Bytes)

theorem print_head (value : Json) :
    ∃ c rest, print T.numberText value = c :: rest ∧ kindOfChar c = some (kindOf value) := by
  cases value with
  | null => exact ⟨_, _, by rw [print], rfl⟩
  | bool b => cases b <;> exact ⟨_, _, by rw [print], rfl⟩
  | num q =>
    obtain ⟨c, rest, hq⟩ := List.exists_cons_of_ne_nil (T.numberText_ne_nil q)
    refine ⟨c, rest, by rw [print, hq], kindOfChar_number (T.numberText_chars q c ?_)⟩
    rw [hq]
    exact List.mem_cons_self
  | str text => exact ⟨_, _, by rw [print, stringifyString], rfl⟩
  | arr items => exact ⟨_, _, by rw [print], rfl⟩
  | obj members => exact ⟨_, _, by rw [print], rfl⟩

theorem close_ne_print {close : Char} (hclose : kindOfChar close = none) (value : Json) (x y : List Char) :
    close :: x ≠ print T.numberText value ++ y := by
  obtain ⟨c, rest, hprint, hkind⟩ := print_head T value
  rw [hprint]
  intro h
  rw [(List.cons.inj h).1, hkind] at hclose
  cases hclose

theorem kindOf_eq {a b : Json} {r s : List Char}
    (h : print T.numberText a ++ r = print T.numberText b ++ s) : kindOf a = kindOf b := by
  obtain ⟨c, rest, ha, hkind⟩ := print_head T a
  obtain ⟨d, rest', hb, hkind'⟩ := print_head T b
  rw [ha, hb, List.cons_append, List.cons_append] at h
  rw [(List.cons.inj h).1, hkind'] at hkind
  exact (Option.some.inj hkind).symm

theorem sizeOf_member_lt {m : String × Json} {members : List (String × Json)} (h : m ∈ members) :
    sizeOf m.2 < sizeOf members := by
  have := List.sizeOf_lt_of_mem h
  obtain ⟨name, value⟩ := m
  simp only [Prod.mk.sizeOf_spec] at this
  show sizeOf value < sizeOf members
  omega

/-- Induction on the first value. -/
theorem print_append_inj (a b : Json) (r s : List Char) (hr : Stops r) (hs : Stops s)
    (h : print T.numberText a ++ r = print T.numberText b ++ s) : a = b ∧ r = s := by
  have hkind := kindOf_eq T h
  match a, b, hkind with
  | .null, .null, _ => exact ⟨rfl, List.append_cancel_left h⟩
  | .bool true, .bool true, _ => exact ⟨rfl, List.append_cancel_left h⟩
  | .bool false, .bool false, _ => exact ⟨rfl, List.append_cancel_left h⟩
  | .bool true, .bool false, _ => simp [print] at h
  | .bool false, .bool true, _ => simp [print] at h
  | .num p, .num q, _ =>
    rw [print, print] at h
    obtain ⟨hpq, hrest⟩ := append_inj_of_stops (T.numberText_chars p) (T.numberText_chars q) hr hs h
    exact ⟨congrArg Json.num (T.numberText_injective hpq), hrest⟩
  | .str x, .str y, _ =>
    rw [print, print] at h
    obtain ⟨rfl, hrest⟩ := stringifyString_append_inj h
    exact ⟨rfl, hrest⟩
  | .arr xs, .arr ys, _ =>
    rw [print, print, printItems_eq, printItems_eq] at h
    simp only [List.cons_append, List.append_assoc, List.cons.injEq, true_and, List.nil_append] at h
    obtain ⟨rfl, hrest⟩ := joinComma_append_inj (print T.numberText) (by decide) (by decide)
      (fun c x y => close_ne_print T (by decide) c x y)
      (fun item hitem d x y hx hy => print_append_inj item d x y hx hy) h
    exact ⟨rfl, hrest⟩
  | .obj xs, .obj ys, _ =>
    rw [print, print, printMembers_eq, printMembers_eq] at h
    simp only [List.cons_append, List.append_assoc, List.cons.injEq, true_and, List.nil_append] at h
    have hmembers : ∀ m ∈ xs, ∀ d : String × Json, ∀ x y, Stops x → Stops y →
        stringifyString m.1 ++ ':' :: print T.numberText m.2 ++ x =
          stringifyString d.1 ++ ':' :: print T.numberText d.2 ++ y → m = d ∧ x = y := by
      intro m hm d x y hx hy hmd
      have hsize := sizeOf_member_lt hm
      rw [List.append_assoc, List.append_assoc] at hmd
      obtain ⟨hname, hvalue⟩ := stringifyString_append_inj hmd
      obtain ⟨hvalue, hrest⟩ := print_append_inj m.2 d.2 x y hx hy (List.cons.inj hvalue).2
      exact ⟨Prod.ext hname hvalue, hrest⟩
    obtain ⟨rfl, hrest⟩ := joinComma_append_inj _ (by decide) (by decide)
      (fun c x y => by simp [stringifyString]) hmembers h
    exact ⟨rfl, hrest⟩
termination_by sizeOf a
decreasing_by
  · have := List.sizeOf_lt_of_mem hitem
    simp only [Json.arr.sizeOf_spec]
    omega
  · simp only [Json.obj.sizeOf_spec]
    omega

theorem print_injective {a b : Json} (h : print T.numberText a = print T.numberText b) : a = b := by
  have hstops : Stops [] := by simp [Stops]
  refine (print_append_inj T a b [] [] hstops hstops ?_).1
  rw [h]

end PrintInjective

/-! ## Values up to the order of members

`a.sorted = b.sorted` says that two values differ at most in the order of the members of their objects. -/

namespace Json

theorem ordered_sortedMembers (members : List (String × Json)) :
    Ordered utf16 (sortedMembers members) := by
  induction members with
  | nil => rw [sortedMembers]; exact List.Pairwise.nil
  | cons m members ih =>
    obtain ⟨name, value⟩ := m
    rw [sortedMembers]
    exact ih.upsert utf16_injective name value.sorted

theorem lookup_sortedMembers (members : List (String × Json)) (name : String) :
    (sortedMembers members).lookup name = (members.lookup name).map sorted := by
  induction members with
  | nil => rw [sortedMembers]; rfl
  | cons m members ih =>
    obtain ⟨other, value⟩ := m
    rw [sortedMembers, lookup_upsert, lookup_cons_ite, ih]
    split <;> rfl

mutual

/-- The members of every object are in order. -/
def inOrder : Json → Bool
  | .arr items => itemsInOrder items
  | .obj members => decide ((members.map fun m => utf16 m.1).Pairwise (· < ·)) && membersInOrder members
  | _ => true

def itemsInOrder : List Json → Bool
  | [] => true
  | item :: items => inOrder item && itemsInOrder items

def membersInOrder : List (String × Json) → Bool
  | [] => true
  | (_, value) :: members => inOrder value && membersInOrder members

end

/-- `canonicalJson` writes the value as it is. -/
def isCanonical (value : Json) : Bool := value.inOrder && decide (value.depth ≤ 64)

mutual

theorem sorted_of_inOrder : ∀ {value : Json}, value.inOrder = true → value.sorted = value
  | .null, _ => by rw [sorted]
  | .bool _, _ => by rw [sorted]
  | .num _, _ => by rw [sorted]
  | .str _, _ => by rw [sorted]
  | .arr items, h => by
    rw [inOrder] at h
    rw [sorted, sortedItems_of_inOrder h]
  | .obj members, h => by
    rw [inOrder, Bool.and_eq_true, decide_eq_true_eq, List.pairwise_map] at h
    rw [sorted, sortedMembers_of_inOrder h.1 h.2]

theorem sortedItems_of_inOrder : ∀ {items : List Json}, itemsInOrder items = true → sortedItems items = items
  | [], _ => by rw [sortedItems]
  | item :: items, h => by
    rw [itemsInOrder, Bool.and_eq_true] at h
    rw [sortedItems, sorted_of_inOrder h.1, sortedItems_of_inOrder h.2]

theorem sortedMembers_of_inOrder : ∀ {members : List (String × Json)}, Ordered utf16 members → membersInOrder members = true →
    sortedMembers members = members
  | [], _, _ => by rw [sortedMembers]
  | (name, value) :: members, hordered, h => by
    rw [membersInOrder, Bool.and_eq_true] at h
    obtain ⟨hfirst, hrest⟩ := List.pairwise_cons.mp hordered
    rw [sortedMembers, sorted_of_inOrder h.1, sortedMembers_of_inOrder hrest h.2, upsert_of_lt hfirst]

end

theorem sorted_get? (value : Json) (name : String) :
    value.sorted.get? name = (value.get? name).map sorted := by
  cases value with
  | obj members => rw [sorted]; exact lookup_sortedMembers members name
  | _ => rfl

/-- Values equal up to the order of members have equal members up to it. -/
theorem get?_eq_of_sorted {a b : Json} (h : a.sorted = b.sorted) (name : String) :
    (a.get? name).map sorted = (b.get? name).map sorted := by
  rw [← sorted_get?, ← sorted_get?, h]

/-- A text is the same text up to the order of members. -/
theorem eq_str_of_sorted {a b : Option Json} {text : String} (h : a.map sorted = b.map sorted)
    (ha : a = some (.str text)) : b = some (.str text) := by
  subst ha
  cases b with
  | none => cases h
  | some b =>
    have hb : sorted (.str text) = b.sorted := Option.some.inj h
    cases b <;> simp_all [sorted]

theorem eq_num_of_sorted {a b : Option Json} {value : ℚ} (h : a.map sorted = b.map sorted)
    (ha : a = some (.num value)) : b = some (.num value) := by
  subst ha
  cases b with
  | none => cases h
  | some b =>
    have hb : sorted (.num value) = b.sorted := Option.some.inj h
    cases b <;> simp_all [sorted]

theorem eq_none_of_sorted {a b : Option Json} (h : a.map sorted = b.map sorted) (ha : a = none) :
    b = none := by
  subst ha
  simpa using h.symm

theorem eq_obj_of_sorted {a b : Json} {members : List (String × Json)} (h : a.sorted = b.sorted)
    (ha : a = .obj members) : ∃ members', b = .obj members' := by
  subst ha
  cases b <;> simp_all [sorted]

/-- The names of an object, by lookups. -/
theorem mem_names_iff {members : List (String × Json)} {name : String} :
    (∃ m ∈ members, m.1 = name) ↔ (members.lookup name).isSome := by
  rw [← not_iff_not, Option.not_isSome_iff_eq_none, List.lookup_eq_none_iff]
  constructor
  · intro h m hm
    have : m.1 ≠ name := fun heq => h ⟨m, hm, heq⟩
    simpa using this.symm
  · rintro h ⟨m, hm, rfl⟩
    simpa using h m hm

theorem names_of_sorted {members members' : List (String × Json)}
    (h : (Json.obj members).sorted = (Json.obj members').sorted) {p : String → Prop}
    (hp : ∀ m ∈ members, p m.1) : ∀ m ∈ members', p m.1 := by
  intro m hm
  have hlookup := get?_eq_of_sorted h m.1
  have hsome : (members'.lookup m.1).isSome := mem_names_iff.mp ⟨m, hm, rfl⟩
  have hsome' : (members.lookup m.1).isSome := by
    have : ((members.lookup m.1).map sorted).isSome = ((members'.lookup m.1).map sorted).isSome :=
      congrArg Option.isSome hlookup
    simpa [hsome] using this
  obtain ⟨m', hm', heq⟩ := mem_names_iff.mpr hsome'
  exact heq ▸ hp m' hm'

theorem sortedMembers_filter (members : List (String × Json)) (keep : String → Bool) :
    sortedMembers (members.filter fun m => keep m.1) = (sortedMembers members).filter fun m => keep m.1 := by
  refine Ordered.ext utf16_injective (ordered_sortedMembers _)
    ((ordered_sortedMembers members).filter _) fun name => ?_
  rw [lookup_sortedMembers, lookup_filter, lookup_filter, lookup_sortedMembers]
  split <;> rfl

end Json

theorem sorted_withoutSigs (members : List (String × Json)) :
    (withoutSigs (.obj members)).sorted = withoutSigs (Json.obj members).sorted := by
  simp only [withoutSigs, Json.sorted]
  rw [Json.sortedMembers_filter members fun name => decide (name ≠ "sigs")]

theorem withoutSigs_get? (members : List (String × Json)) {name : String} (h : name ≠ "sigs") :
    (withoutSigs (.obj members)).get? name = (Json.obj members).get? name := by
  have hfilter := lookup_filter members (fun other => decide (other ≠ "sigs")) name
  rw [if_pos (decide_eq_true h)] at hfilter
  exact hfilter

theorem depthMembers_filter_le (members : List (String × Json)) (p : String × Json → Bool) :
    Json.depthMembers (members.filter p) ≤ Json.depthMembers members := by
  induction members with
  | nil => exact le_rfl
  | cons m members ih =>
    obtain ⟨name, value⟩ := m
    rw [List.filter_cons]
    split
    · simp only [Json.depthMembers]
      omega
    · simp only [Json.depthMembers]
      omega

namespace CanonicalText
variable {Bytes : Type} (T : CanonicalText Bytes)

theorem canonicalBytes_congr {a b : Json} (h : a.sorted = b.sorted) :
    T.canonicalBytes a = T.canonicalBytes b := by
  unfold canonicalBytes canonicalJson
  rw [h]

/-- One byte string is canonical for one value. -/
theorem sorted_eq_of_canonicalBytes {a b : Json} {bytes : Bytes} (ha : T.canonicalBytes a = .ok bytes)
    (hb : T.canonicalBytes b = .ok bytes) : a.sorted = b.sorted := by
  unfold canonicalBytes canonicalJson at ha hb
  split at ha
  · cases ha
  split at hb
  · cases hb
  refine print_injective T (T.encode_injective ?_)
  rw [Except.ok.inj ha, Except.ok.inj hb]

/-- What can be written can be written without its signatures. -/
theorem canonicalBytes_withoutSigs_ok {members : List (String × Json)} {bytes : Bytes}
    (h : T.canonicalBytes (.obj members) = .ok bytes) : ∃ signed, T.canonicalBytes (withoutSigs (.obj members)) = .ok signed := by
  unfold canonicalBytes canonicalJson at h ⊢
  rw [sorted_withoutSigs]
  split at h
  · cases h
  case isFalse hdepth =>
    rw [if_neg]
    · exact ⟨_, rfl⟩
    · simp only [Json.sorted, withoutSigs, Json.depth] at hdepth ⊢
      have := depthMembers_filter_le (Json.sortedMembers members) fun m => decide (m.1 ≠ "sigs")
      omega

end CanonicalText

end Dnsid.Events

import Dnsid.Foundations.MapSet
import Dnsid.HttpSignatures.SignatureHeaders

/-! # The grammar of structured field dictionaries (RFC 8941)

A valid text is the text of a syntax tree: the tree keeps what the parsed value drops, the optional spaces and the members
and parameters that a later one with the same key overwrites. How the runtime reads a number and decodes base64 is a
parameter.
-/
namespace Dnsid.HttpSignatures
open Dnsid.Foundations
set_option autoImplicit false

namespace Sf

structure Values where
  number : Text → JsNumber
  decode : Text → Option (List UInt8)

/-! ## Characters -/

def isKeyStart (c : Char) : Bool := c.isLower || c = '*'

def isKeyChar (c : Char) : Bool := c.isLower || c.isDigit || c ∈ ['_', '-', '.', '*']

/-- `chr`, as a value. -/
def isStringChar (c : Char) : Bool := ' ' ≤ c && c ≤ '~'

def isTokenStart (c : Char) : Bool := c.isAlpha || c = '*'

/-- `tchar`, `:` and `/`. -/
def isTokenChar (c : Char) : Bool := c.isAlphanum || c ∈ "!#$%&'*+-.^_`|~:/".toList

def isBase64Char (c : Char) : Bool := c.isAlphanum || c ∈ ['+', '/', '=']

/-- `OWS`. -/
def isBlank (c : Char) : Bool := c = ' ' || c = '\t'

def spaces (n : ℕ) : Text := List.replicate n ' '

def isKey : Text → Bool
  | [] => false
  | c :: rest => isKeyStart c && rest.all isKeyChar

def isToken : Text → Bool
  | [] => false
  | c :: rest => isTokenStart c && rest.all isTokenChar

/-- How a character of a string is written. -/
def escaped (c : Char) : Text := if c = '"' ∨ c = '\\' then ['\\', c] else [c]

/-! ## Bare items -/

/-- `sf-key`. -/
structure Key where
  text : Text
  valid : isKey text = true

/-- `sf-integer` and `sf-decimal`. -/
structure Number where
  negative : Bool
  whole : Text
  fraction : Option Text
  digits : whole ≠ [] ∧ whole.all Char.isDigit = true
  bounded : fraction.elim (whole.length ≤ 15) fun fraction =>
    whole.length ≤ 12 ∧ fraction ≠ [] ∧ fraction.length ≤ 3 ∧ fraction.all Char.isDigit = true

def Number.text (number : Number) : Text :=
  (if number.negative then ['-'] else []) ++ number.whole ++ number.fraction.elim [] ('.' :: ·)

section Syntax
variable (V : Values)

inductive BareItem where
  | string (content : Text) (valid : content.all isStringChar = true)
  | number (number : Number)
  | token (text : Text) (valid : isToken text = true)
  | bytes (content : Text) (value : List UInt8) (valid : content.all isBase64Char = true)
    (decodes : V.decode content = some value)
  | boolean (value : Bool)

/-- `gap` is the number of spaces after the semicolon. -/
structure Parameter where
  gap : ℕ
  key : Key
  value : Option (BareItem V)

structure Item where
  bare : BareItem V
  params : List (Parameter V)

/-- `lead` spaces stand before the items. An item has the number of optional spaces that follow it. -/
structure InnerList where
  lead : ℕ
  items : List (Item V × ℕ)
  params : List (Parameter V)

inductive Content where
  | flag (params : List (Parameter V))
  | item (item : Item V)
  | innerList (list : InnerList V)

structure Member where
  key : Key
  content : Content V

/-- A member with the whitespace `after` it and, if there is a further member, the whitespace `next` to the comma. -/
structure Occurrence where
  member : Member V
  after : Text
  next : Text
  blank : after.all isBlank = true ∧ next.all isBlank = true

structure Dictionary where
  lead : ℕ
  occurrences : List (Occurrence V)

end Syntax

variable {V : Values}

/-! ## Texts -/

def BareItem.text : BareItem V → Text
  | .string content _ => '"' :: content.flatMap escaped ++ ['"']
  | .number numeral => numeral.text
  | .token text _ => text
  | .bytes content _ _ _ => ':' :: content ++ [':']
  | .boolean value => ['?', if value then '1' else '0']

def Parameter.text (parameter : Parameter V) : Text :=
  ';' :: spaces parameter.gap ++ parameter.key.text ++ parameter.value.elim [] ('=' :: ·.text)

def paramsText (params : List (Parameter V)) : Text := params.flatMap Parameter.text

def Item.text (item : Item V) : Text := item.bare.text ++ paramsText item.params

/-- Between two items there is one space at least. -/
def itemsText : List (Item V × ℕ) → Text
  | [] => []
  | [item] => item.1.text ++ spaces item.2
  | item :: rest => item.1.text ++ spaces (item.2 + 1) ++ itemsText rest

def InnerList.text (list : InnerList V) : Text :=
  '(' :: spaces list.lead ++ itemsText list.items ++ ')' :: paramsText list.params

def Content.text : Content V → Text
  | .flag params => paramsText params
  | .item single => '=' :: single.text
  | .innerList list => '=' :: list.text

def Member.text (member : Member V) : Text := member.key.text ++ member.content.text

def occurrencesText : List (Occurrence V) → Text
  | [] => []
  | [occurrence] => occurrence.member.text ++ occurrence.after
  | occurrence :: rest => occurrence.member.text ++ occurrence.after ++ ',' :: occurrence.next ++ occurrencesText rest

def Dictionary.text (dictionary : Dictionary V) : Text := spaces dictionary.lead ++ occurrencesText dictionary.occurrences

/-! ## Values -/

def Key.value (key : Key) : String := String.ofList key.text

def BareItem.value : BareItem V → HttpSignatures.BareItem
  | .string content _ => .str (String.ofList content)
  | .number numeral => .num (V.number numeral.text)
  | .token text _ => .token (String.ofList text)
  | .bytes _ value _ _ => .bytes value
  | .boolean value => .bool value

/-- A parameter without a value is true. -/
def Parameter.entry (parameter : Parameter V) : String × HttpSignatures.BareItem :=
  (parameter.key.value, parameter.value.elim (.bool true) BareItem.value)

/-- A later parameter overwrites an earlier one with its key. -/
def paramsMap (params : List (Parameter V)) : Parameters := (params.map Parameter.entry).foldl setMember []

def Item.value (item : Item V) : HttpSignatures.Item := (item.bare.value, paramsMap item.params)

def InnerList.itemValues (list : InnerList V) : List HttpSignatures.Item := list.items.map fun item => item.1.value

def Content.value : Content V → HttpSignatures.Member
  | .flag params => .item (.bool true, paramsMap params)
  | .item single => .item single.value
  | .innerList list => .innerList list.itemValues (paramsMap list.params)

def Member.entry (member : Member V) : String × HttpSignatures.Member := (member.key.value, member.content.value)

def Dictionary.members (dictionary : Dictionary V) : List (Member V) := dictionary.occurrences.map Occurrence.member

def Dictionary.keys (dictionary : Dictionary V) : List String := dictionary.members.map fun member => member.key.value

/-- The parsed dictionary. -/
def Dictionary.value (dictionary : Dictionary V) : List (String × HttpSignatures.Member) :=
  (dictionary.members.map Member.entry).foldl setMember []

/-! ## Shape of the texts -/

theorem spaces_succ (n : ℕ) : spaces (n + 1) = ' ' :: spaces n := rfl

theorem Key.exists_cons (key : Key) : ∃ c rest, key.text = c :: rest ∧ isKeyStart c = true ∧ rest.all isKeyChar = true := by
  obtain ⟨text, valid⟩ := key
  cases text with
  | nil => cases valid
  | cons c rest =>
    rw [isKey, Bool.and_eq_true] at valid
    exact ⟨c, rest, rfl, valid.1, valid.2⟩

theorem isKeyChar_of_start {c : Char} (h : isKeyStart c = true) : isKeyChar c = true := by
  simp only [isKeyStart, Bool.or_eq_true, decide_eq_true_eq] at h
  rcases h with h | rfl
  · simp [isKeyChar, h]
  · decide

theorem Key.all_isKeyChar (key : Key) : key.text.all isKeyChar = true := by
  obtain ⟨c, rest, htext, hstart, hrest⟩ := key.exists_cons
  rw [htext, List.all_cons, isKeyChar_of_start hstart, hrest]
  rfl

theorem isTokenChar_of_start {c : Char} (h : isTokenStart c = true) : isTokenChar c = true := by
  simp only [isTokenStart, Bool.or_eq_true, decide_eq_true_eq] at h
  rcases h with h | rfl
  · simp [isTokenChar, Char.isAlphanum, h]
  · decide

theorem isToken_all {text : Text} (h : isToken text = true) : text.all isTokenChar = true := by
  cases text with
  | nil => cases h
  | cons c rest =>
    rw [isToken, Bool.and_eq_true] at h
    rw [List.all_cons, isTokenChar_of_start h.1, h.2]
    rfl

theorem occurrencesText_cons (occurrence : Occurrence V) {rest : List (Occurrence V)} (h : rest ≠ []) :
    occurrencesText (occurrence :: rest) =
      occurrence.member.text ++ (occurrence.after ++ ',' :: (occurrence.next ++ occurrencesText rest)) := by
  cases rest with
  | nil => exact absurd rfl h
  | cons next rest => simp [occurrencesText]

theorem itemsText_next (item : Item V × ℕ) (items : List (Item V × ℕ)) :
    ∃ n, itemsText (item :: items) = item.1.text ++ (spaces n ++ itemsText items) ∧ (items = [] ∨ n ≠ 0) := by
  cases items with
  | nil => exact ⟨item.2, by simp [itemsText], .inl rfl⟩
  | cons next items => exact ⟨item.2 + 1, List.append_assoc _ _ _, .inr (Nat.succ_ne_zero _)⟩

end Sf

/-- The structured-field library reads every valid text as its syntax tree says. -/
def HttpPlatform.Reads (P : HttpPlatform) (V : Sf.Values) : Prop :=
  ∀ dictionary : Sf.Dictionary V, P.parseDictionary (String.ofList dictionary.text) = some dictionary.value

end Dnsid.HttpSignatures

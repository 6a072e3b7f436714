import Dnsid.HttpSignatures.StructuredFields

/-! # A parser of structured field dictionaries

The parsing algorithm of RFC 8941, section 4.2. On the text of a syntax tree it returns the value of the tree, so a text
has one value.
-/
namespace Dnsid.HttpSignatures.Sf
open Dnsid.Foundations
set_option autoImplicit false

/-! ## The algorithm

Each function returns what it reads and the rest of the text.
-/

/-- The text after the character that it has to start with. -/
def after (c : Char) : Text → Option Text
  | [] => none
  | d :: rest => if d = c then some rest else none

def readKey (text : Text) : Option (String × Text) :=
  if isKey (text.takeWhile isKeyChar) then some (String.ofList (text.takeWhile isKeyChar), text.dropWhile isKeyChar) else none

/-- The rest of a string; the flag says that a backslash was read. -/
def readString : Bool → Text → Option (Text × Text)
  | _, [] => none
  | true, c :: rest => if c = '"' ∨ c = '\\' then (readString false rest).map fun read => (c :: read.1, read.2) else none
  | false, c :: rest =>
    if c = '"' then some ([], rest)
    else if c = '\\' then readString true rest
    else if isStringChar c then (readString false rest).map fun read => (c :: read.1, read.2)
    else none

def readBoolean : Text → Option (HttpSignatures.BareItem × Text)
  | [] => none
  | c :: rest => if c = '1' then some (.bool true, rest) else if c = '0' then some (.bool false, rest) else none

section Read
variable (V : Values)

def readDigits (sign text : Text) : Option (JsNumber × Text) :=
  let whole := text.takeWhile Char.isDigit
  match after '.' (text.dropWhile Char.isDigit) with
  | some rest =>
    let fraction := rest.takeWhile Char.isDigit
    if whole ≠ [] ∧ whole.length ≤ 12 ∧ fraction ≠ [] ∧ fraction.length ≤ 3 then
      some (V.number (sign ++ whole ++ '.' :: fraction), rest.dropWhile Char.isDigit)
    else none
  | none =>
    if whole ≠ [] ∧ whole.length ≤ 15 then some (V.number (sign ++ whole), text.dropWhile Char.isDigit) else none

def readNumber (text : Text) : Option (JsNumber × Text) :=
  match after '-' text with
  | some rest => readDigits V ['-'] rest
  | none => readDigits V [] text

def readBytes (text : Text) : Option (List UInt8 × Text) :=
  match after ':' (text.dropWhile (· ≠ ':')) with
  | none => none
  | some rest =>
    if (text.takeWhile (· ≠ ':')).all isBase64Char then
      (V.decode (text.takeWhile (· ≠ ':'))).map fun value => (value, rest)
    else none

def readBareItem : Text → Option (HttpSignatures.BareItem × Text)
  | [] => none
  | c :: rest =>
    if c = '"' then (readString false rest).map fun read => (.str (String.ofList read.1), read.2)
    else if c = ':' then (readBytes V rest).map fun read => (.bytes read.1, read.2)
    else if c = '?' then readBoolean rest
    else if c = '-' ∨ c.isDigit = true then (readNumber V (c :: rest)).map fun read => (.num read.1, read.2)
    else if isTokenStart c then
      some (.token (String.ofList ((c :: rest).takeWhile isTokenChar)), (c :: rest).dropWhile isTokenChar)
    else none

/-- What follows the semicolon of a parameter. -/
def readParameter (text : Text) : Option ((String × HttpSignatures.BareItem) × Text) := do
  let key ← readKey (text.dropWhile (· = ' '))
  match after '=' key.2 with
  | some rest => do
    let bare ← readBareItem V rest
    return ((key.1, bare.1), bare.2)
  | none => return ((key.1, .bool true), key.2)

/-- `fuel` bounds the number of parameters. -/
def readParams : ℕ → Text → Option (Parameters × Text)
  | 0, text => some ([], text)
  | fuel + 1, text =>
    match after ';' text with
    | some rest => do
      let parameter ← readParameter V rest
      let params ← readParams fuel parameter.2
      return (parameter.1 :: params.1, params.2)
    | none => some ([], text)

def readParamsMap (text : Text) : Option (Parameters × Text) :=
  (readParams V text.length text).map fun params => (params.1.foldl setMember [], params.2)

def readItem (text : Text) : Option (HttpSignatures.Item × Text) := do
  let bare ← readBareItem V text
  let params ← readParamsMap V bare.2
  return ((bare.1, params.1), params.2)

/-- The rest of an inner list; `fuel` bounds the number of items. -/
def readItems : ℕ → Text → Option (List HttpSignatures.Item × Text)
  | 0, _ => none
  | fuel + 1, text =>
    match after ')' (text.dropWhile (· = ' ')) with
    | some rest => some ([], rest)
    | none => do
      let item ← readItem V (text.dropWhile (· = ' '))
      if item.2.head? = some ' ' ∨ item.2.head? = some ')' then
        let items ← readItems fuel item.2
        return (item.1 :: items.1, items.2)
      else none

def readInnerList (text : Text) : Option (HttpSignatures.Member × Text) := do
  let items ← readItems V (text.length + 1) text
  let params ← readParamsMap V items.2
  return (.innerList items.1 params.1, params.2)

def readContent (text : Text) : Option (HttpSignatures.Member × Text) :=
  match after '=' text with
  | some rest =>
    match after '(' rest with
    | some rest => readInnerList V rest
    | none => (readItem V rest).map fun item => (.item item.1, item.2)
  | none => (readParamsMap V text).map fun params => (.item (.bool true, params.1), params.2)

def readMember (text : Text) : Option ((String × HttpSignatures.Member) × Text) := do
  let key ← readKey text
  let content ← readContent V key.2
  return ((key.1, content.1), content.2)

/-- `fuel` bounds the number of members. -/
def readMembers : ℕ → Text → Option (List (String × HttpSignatures.Member))
  | 0, _ => none
  | fuel + 1, text => do
    let member ← readMember V text
    let text := member.2.dropWhile isBlank
    if text = [] then return [member.1]
    else do
      let rest ← after ',' text
      let members ← readMembers fuel (rest.dropWhile isBlank)
      return member.1 :: members

def parseDictionary (text : Text) : Option (List (String × HttpSignatures.Member)) :=
  let text := text.dropWhile (· = ' ')
  if text = [] then some [] else (readMembers V text.length text).map fun members => members.foldl setMember []

end Read

/-! ## Where a part ends -/

/-- What may follow an item. -/
def isEnd (c : Char) : Bool := c ∈ [';', ',', ' ', '\t', ')']

def Ends (rest : Text) : Prop := ∀ c ∈ rest.head?, isEnd c = true

theorem ends_nil : Ends [] := by
  intro c hc
  cases hc

theorem ends_cons {c : Char} (rest : Text) (h : isEnd c = true) : Ends (c :: rest) := by
  intro c' hc'
  obtain rfl := Option.some.inj hc'
  exact h

theorem after_self (c : Char) (rest : Text) : after c (c :: rest) = some rest := if_pos rfl

theorem after_eq_none {c : Char} {text : Text} (h : text.head? ≠ some c) : after c text = none := by
  cases text with
  | nil => rfl
  | cons d rest =>
    have hne : d ≠ c := by
      rintro rfl
      exact h rfl
    exact if_neg hne

theorem Ends.head_ne {rest : Text} (h : Ends rest) {c : Char} (hc : isEnd c = false) : rest.head? ≠ some c := by
  intro hhead
  rw [h c hhead] at hc
  cases hc

theorem span_of_stop {p : Char → Bool} {text : Text} (rest : Text) (htext : text.all p = true)
    (hrest : ∀ c ∈ rest.head?, p c = false) :
    (text ++ rest).takeWhile p = text ∧ (text ++ rest).dropWhile p = rest := by
  rw [List.all_eq_true] at htext
  rw [List.takeWhile_append_of_pos htext, List.dropWhile_append_of_pos htext]
  cases rest with
  | nil => simp
  | cons c rest =>
    have hc : p c = false := hrest c rfl
    simp [hc]

theorem Ends.stops {rest : Text} (h : Ends rest) {p : Char → Bool} (hp : [';', ',', ' ', '\t', ')'].all (fun c => !p c) = true) :
    ∀ c ∈ rest.head?, p c = false := by
  intro c hc
  have hend := h c hc
  rw [isEnd, decide_eq_true_eq] at hend
  simpa using List.all_eq_true.mp hp c hend

theorem dropWhile_spaces (n : ℕ) (rest : Text) (h : rest.head? ≠ some ' ') :
    (spaces n ++ rest).dropWhile (· = ' ') = rest := by
  refine (span_of_stop rest ?_ ?_).2
  · simp [spaces]
  · intro c hc
    have hne : c ≠ ' ' := by
      rintro rfl
      exact h hc
    simpa using hne

theorem dropWhile_blank {blank : Text} (rest : Text) (hblank : blank.all isBlank = true) (h : ∀ c ∈ rest.head?, isBlank c = false) :
    (blank ++ rest).dropWhile isBlank = rest := (span_of_stop rest hblank h).2

/-! ## What is read of a tree -/

variable {V : Values} {rest : Text}

theorem readKey_text (key : Key) (rest : Text) (h : ∀ c ∈ rest.head?, isKeyChar c = false) :
    readKey (key.text ++ rest) = some (key.value, rest) := by
  obtain ⟨htake, hdrop⟩ := span_of_stop rest key.all_isKeyChar h
  rw [readKey, htake, hdrop, if_pos key.valid]
  rfl

theorem readString_text {content : Text} (h : content.all isStringChar = true) :
    readString false (content.flatMap escaped ++ '"' :: rest) = some (content, rest) := by
  induction content with
  | nil => simp [readString]
  | cons c content ih =>
    rw [List.all_cons, Bool.and_eq_true] at h
    have hrest := ih h.2
    by_cases hc : c = '"' ∨ c = '\\'
    · rw [List.flatMap_cons, escaped, if_pos hc]
      simp only [List.cons_append, List.nil_append, readString]
      rw [if_neg (by decide), if_pos trivial, if_pos hc, hrest]
      rfl
    · rw [List.flatMap_cons, escaped, if_neg hc]
      rw [not_or] at hc
      simp only [List.cons_append, List.nil_append, readString]
      rw [if_neg hc.1, if_neg hc.2, if_pos h.1, hrest]
      rfl

theorem readDigits_text (number : Number) (sign : Text) (h : Ends rest) :
    readDigits V sign (number.whole ++ number.fraction.elim [] ('.' :: ·) ++ rest) =
      some (V.number (sign ++ number.whole ++ number.fraction.elim [] ('.' :: ·)), rest) := by
  obtain ⟨negative, whole, fraction, ⟨hwhole, hdigits⟩, hbounded⟩ := number
  cases fraction with
  | none =>
    obtain ⟨htake, hdrop⟩ := span_of_stop rest hdigits (h.stops (by decide))
    simp only [Option.elim_none, List.append_nil] at hbounded ⊢
    rw [readDigits, htake, hdrop, after_eq_none (h.head_ne (by decide))]
    exact if_pos ⟨hwhole, hbounded⟩
  | some fraction =>
    simp only [Option.elim_some] at hbounded ⊢
    obtain ⟨hlength, hfraction, hshort, hall⟩ := hbounded
    obtain ⟨htake, hdrop⟩ := span_of_stop ('.' :: (fraction ++ rest)) hdigits (by simp)
    obtain ⟨htake', hdrop'⟩ := span_of_stop rest hall (h.stops (by decide))
    rw [List.append_assoc, List.cons_append, readDigits, htake, hdrop, after_self]
    dsimp only
    rw [htake', hdrop', if_pos ⟨hwhole, hlength, hfraction, hshort⟩]

theorem Number.exists_whole (number : Number) : ∃ c rest, number.whole = c :: rest ∧ c.isDigit = true := by
  obtain ⟨c, rest, hwhole⟩ := List.exists_cons_of_ne_nil number.digits.1
  have hall := number.digits.2
  rw [hwhole, List.all_cons, Bool.and_eq_true] at hall
  exact ⟨c, rest, hwhole, hall.1⟩

theorem readNumber_text (number : Number) (h : Ends rest) :
    readNumber V (number.text ++ rest) = some (V.number number.text, rest) := by
  have hdigits := readDigits_text (V := V) number (if number.negative then ['-'] else []) h
  rw [Number.text]
  cases hnegative : number.negative with
  | true =>
    rw [hnegative] at hdigits
    simpa [readNumber, after_self] using hdigits
  | false =>
    rw [hnegative] at hdigits
    obtain ⟨c, whole, hwhole, hc⟩ := number.exists_whole
    have hsign : (number.whole ++ number.fraction.elim [] ('.' :: ·) ++ rest).head? ≠ some '-' := by
      rw [hwhole]
      rintro hhead
      obtain rfl := Option.some.inj hhead
      cases hc
    rw [if_neg Bool.false_ne_true, List.nil_append] at hdigits ⊢
    rw [readNumber, after_eq_none hsign]
    exact hdigits

theorem readBytes_text {content : Text} {value : List UInt8} (hchars : content.all isBase64Char = true)
    (hdecodes : V.decode content = some value) : readBytes V (content ++ ':' :: rest) = some (value, rest) := by
  have hcolon : content.all (· ≠ ':') = true := by
    rw [List.all_eq_true] at hchars ⊢
    intro c hc
    have hbase := hchars c hc
    rw [decide_eq_true_eq]
    rintro rfl
    exact absurd hbase (by decide)
  obtain ⟨htake, hdrop⟩ := span_of_stop (':' :: rest) hcolon (by simp)
  rw [readBytes, hdrop, htake, after_self]
  dsimp only
  rw [if_pos hchars, hdecodes]
  rfl

theorem Number.exists_text (number : Number) : ∃ c rest, number.text = c :: rest ∧ (c = '-' ∨ c.isDigit = true) := by
  obtain ⟨c, whole, hwhole, hc⟩ := number.exists_whole
  rw [Number.text, hwhole]
  cases number.negative with
  | true => exact ⟨'-', _, rfl, .inl rfl⟩
  | false => exact ⟨c, _, rfl, .inr hc⟩

theorem not_isDigit_of_isAlpha {c : Char} (h : c.isAlpha = true) : c.isDigit = false := by
  rw [Bool.eq_false_iff]
  intro hd
  have hdigit : c.toNat ≤ 57 := (Char.isDigit_iff_toNat.mp hd).2
  have halpha : 65 ≤ c.toNat := by
    rcases Bool.or_eq_true_iff.mp h with h | h
    · exact UInt32.le_iff_toNat_le.mp (show 'A'.val ≤ c.val ∧ c.val ≤ 'Z'.val from of_decide_eq_true h).1
    · have hlow : 97 ≤ c.toNat := UInt32.le_iff_toNat_le.mp
        (show 'a'.val ≤ c.val from of_decide_eq_true (Bool.and_eq_true_iff.mp h).1)
      omega
  omega

theorem isTokenStart_not_number {c : Char} (h : isTokenStart c = true) : ¬ (c = '-' ∨ c.isDigit = true) := by
  intro hc
  rcases hc with rfl | hdigit
  · cases h
  · rcases Bool.or_eq_true_iff.mp h with halpha | hstar
    · rw [not_isDigit_of_isAlpha halpha] at hdigit
      cases hdigit
    · obtain rfl := of_decide_eq_true hstar
      cases hdigit

theorem readBareItem_text (bare : BareItem V) (h : Ends rest) :
    readBareItem V (bare.text ++ rest) = some (bare.value, rest) := by
  cases bare with
  | string content valid => simp [BareItem.text, BareItem.value, readBareItem, readString_text valid]
  | number numeral =>
    have hread := readNumber_text (V := V) numeral h
    obtain ⟨c, tail, htext, hc⟩ := numeral.exists_text
    have hne : c ≠ '"' ∧ c ≠ ':' ∧ c ≠ '?' := by
      refine ⟨?_, ?_, ?_⟩
      all_goals
        rintro rfl
        revert hc
        decide
    rw [BareItem.value, BareItem.text]
    rw [htext, List.cons_append] at hread ⊢
    rw [readBareItem, if_neg hne.1, if_neg hne.2.1, if_neg hne.2.2, if_pos hc, hread]
    rfl
  | token text valid =>
    obtain ⟨htake, hdrop⟩ := span_of_stop rest (isToken_all valid) (h.stops (by decide))
    cases text with
    | nil => cases valid
    | cons c tail =>
      have hstart : isTokenStart c = true := (Bool.and_eq_true_iff.mp valid).1
      have hne : c ≠ '"' ∧ c ≠ ':' ∧ c ≠ '?' := by
        refine ⟨?_, ?_, ?_⟩
        all_goals
          rintro rfl
          cases hstart
      rw [BareItem.text]
      rw [List.cons_append] at htake hdrop ⊢
      rw [readBareItem, if_neg hne.1, if_neg hne.2.1, if_neg hne.2.2, if_neg (isTokenStart_not_number hstart),
        if_pos hstart, htake, hdrop]
      rfl
  | bytes content value valid decodes =>
    simp [BareItem.text, BareItem.value, readBareItem, readBytes_text valid decodes]
  | boolean value => cases value <;> simp [BareItem.text, BareItem.value, readBareItem, readBoolean]

theorem readParameter_text (parameter : Parameter V) (h : Ends rest) :
    readParameter V (spaces parameter.gap ++ parameter.key.text ++ parameter.value.elim [] ('=' :: ·.text) ++ rest) =
      some (parameter.entry, rest) := by
  obtain ⟨gap, key, value⟩ := parameter
  obtain ⟨c, tail, hkey, hstart, -⟩ := key.exists_cons
  have hspace : ∀ after : Text, (key.text ++ after).head? ≠ some ' ' := by
    intro after hhead
    rw [hkey] at hhead
    obtain rfl := Option.some.inj hhead
    cases hstart
  dsimp only
  rw [List.append_assoc, List.append_assoc, readParameter, dropWhile_spaces gap _ (hspace _)]
  cases value with
  | none =>
    have hread := readKey_text key rest (h.stops (by decide))
    rw [Option.elim_none, List.nil_append, hread]
    simp only [Option.bind_eq_bind, Option.bind_some, after_eq_none (h.head_ne (c := '=') (by decide))]
    rfl
  | some bare =>
    have hread := readKey_text key ('=' :: (bare.text ++ rest)) (by simp; decide)
    rw [Option.elim_some, List.cons_append, hread]
    simp only [Option.bind_eq_bind, Option.bind_some, after_self, readBareItem_text bare h]
    rfl

theorem Parameter.exists_text (parameter : Parameter V) : ∃ rest, parameter.text = ';' :: rest :=
  ⟨_, rfl⟩

theorem ends_params (params : List (Parameter V)) (h : Ends rest) : Ends (paramsText params ++ rest) := by
  cases params with
  | nil => exact h
  | cons parameter params =>
    obtain ⟨tail, htext⟩ := parameter.exists_text
    rw [paramsText, List.flatMap_cons, htext]
    exact ends_cons _ (by decide)

theorem readParams_text (params : List (Parameter V)) {fuel : ℕ} (hfuel : params.length ≤ fuel) (h : Ends rest)
    (hlast : rest.head? ≠ some ';') :
    readParams V fuel (paramsText params ++ rest) = some (params.map Parameter.entry, rest) := by
  induction params generalizing fuel with
  | nil =>
    cases fuel with
    | zero => rfl
    | succ fuel =>
      rw [paramsText, List.flatMap_nil, List.nil_append, readParams, after_eq_none hlast]
      rfl
  | cons parameter params ih =>
    cases fuel with
    | zero => exact absurd hfuel (Nat.not_succ_le_zero _)
    | succ fuel =>
      have hrest := ih (Nat.le_of_succ_le_succ hfuel)
      have hread := readParameter_text parameter (ends_params params h)
      have htext : paramsText (parameter :: params) ++ rest =
          ';' :: (spaces parameter.gap ++ parameter.key.text ++ parameter.value.elim [] ('=' :: ·.text) ++
            (paramsText params ++ rest)) := by
        simp [paramsText, Parameter.text]
      rw [htext, readParams, after_self]
      simp only [Option.bind_eq_bind, hread, Option.bind_some, hrest]
      rfl

theorem readParamsMap_text (params : List (Parameter V)) (h : Ends rest) (hlast : rest.head? ≠ some ';') :
    readParamsMap V (paramsText params ++ rest) = some (paramsMap params, rest) := by
  have hfuel : params.length ≤ (paramsText params ++ rest).length := by
    induction params with
    | nil => exact Nat.zero_le _
    | cons parameter params ih =>
      obtain ⟨tail, htext⟩ := parameter.exists_text
      rw [paramsText, List.flatMap_cons, htext, List.length_cons, List.append_assoc, List.length_append, List.length_cons]
      rw [paramsText] at ih
      omega
  rw [readParamsMap, readParams_text params hfuel h hlast]
  rfl

/-- What an item may start with. -/
def isBareStart (c : Char) : Bool := c ∈ ['"', ':', '?', '-'] || c.isDigit || isTokenStart c

theorem BareItem.exists_text (bare : BareItem V) : ∃ c rest, bare.text = c :: rest ∧ isBareStart c = true := by
  cases bare with
  | string content valid => exact ⟨'"', _, rfl, rfl⟩
  | number numeral =>
    obtain ⟨c, tail, htext, hc⟩ := numeral.exists_text
    refine ⟨c, tail, htext, ?_⟩
    rcases hc with rfl | hc
    · rfl
    · simp [isBareStart, hc]
  | token text valid =>
    cases text with
    | nil => cases valid
    | cons c tail =>
      have hstart : isTokenStart c = true := (Bool.and_eq_true_iff.mp valid).1
      exact ⟨c, tail, rfl, by simp [isBareStart, hstart]⟩
  | bytes content value valid decodes => exact ⟨':', _, rfl, rfl⟩
  | boolean value => exact ⟨'?', _, rfl, rfl⟩

theorem Item.exists_text (item : Item V) : ∃ c rest, item.text = c :: rest ∧ isBareStart c = true := by
  obtain ⟨c, tail, htext, hc⟩ := item.bare.exists_text
  exact ⟨c, tail ++ paramsText item.params, by rw [Item.text, htext, List.cons_append], hc⟩

theorem Item.head_ne (item : Item V) {c : Char} (hc : isBareStart c = false) : (item.text ++ rest).head? ≠ some c := by
  obtain ⟨d, tail, htext, hd⟩ := item.exists_text
  intro hhead
  rw [htext] at hhead
  obtain rfl := Option.some.inj hhead
  rw [hd] at hc
  cases hc

theorem readItem_text (item : Item V) (h : Ends rest) (hlast : rest.head? ≠ some ';') :
    readItem V (item.text ++ rest) = some (item.value, rest) := by
  have hbare := readBareItem_text item.bare (ends_params item.params h)
  rw [Item.text, List.append_assoc, readItem]
  simp only [Option.bind_eq_bind, hbare, Option.bind_some, readParamsMap_text item.params h hlast]
  rfl

theorem head_after_item (rest : Text) {n : ℕ} {items : List (Item V × ℕ)} (h : items = [] ∨ n ≠ 0) :
    (spaces n ++ itemsText items ++ ')' :: rest).head? = some ' ' ∨
      (spaces n ++ itemsText items ++ ')' :: rest).head? = some ')' := by
  cases n with
  | zero =>
    obtain rfl := h.resolve_right (not_not_intro rfl)
    exact .inr rfl
  | succ n => exact .inl rfl

theorem readItems_text (lead : ℕ) (items : List (Item V × ℕ)) {fuel : ℕ} (hfuel : items.length < fuel) :
    readItems V fuel (spaces lead ++ itemsText items ++ ')' :: rest) = some (items.map fun item => item.1.value, rest) := by
  induction items generalizing lead fuel with
  | nil =>
    cases fuel with
    | zero => exact absurd hfuel (Nat.not_lt_zero _)
    | succ fuel =>
      have hdrop := dropWhile_spaces lead (')' :: rest) (by simp)
      rw [itemsText, List.append_nil, readItems, hdrop, after_self]
      rfl
  | cons item items ih =>
    cases fuel with
    | zero => exact absurd hfuel (Nat.not_lt_zero _)
    | succ fuel =>
      obtain ⟨n, htext, hn⟩ := itemsText_next item items
      have hhead := head_after_item rest hn
      have hrest := ih n (Nat.lt_of_succ_lt_succ hfuel)
      have hends : Ends (spaces n ++ itemsText items ++ ')' :: rest) := by
        intro c hc
        rcases hhead with hspace | hclose
        · obtain rfl := Option.some.inj (hspace.symm.trans hc)
          rfl
        · obtain rfl := Option.some.inj (hclose.symm.trans hc)
          rfl
      have hlast : (spaces n ++ itemsText items ++ ')' :: rest).head? ≠ some ';' := by
        rcases hhead with hspace | hclose
        · rw [hspace]
          decide
        · rw [hclose]
          decide
      have hread := readItem_text item.1 hends hlast
      rw [htext, List.append_assoc, List.append_assoc, readItems, dropWhile_spaces lead _ (item.1.head_ne rfl),
        after_eq_none (item.1.head_ne rfl)]
      simp only [Option.bind_eq_bind, hread, Option.bind_some, if_pos hhead, hrest]
      rfl

theorem items_length_le (items : List (Item V × ℕ)) : items.length ≤ (itemsText items).length := by
  induction items with
  | nil => exact Nat.zero_le _
  | cons item items ih =>
    obtain ⟨n, htext, -⟩ := itemsText_next item items
    obtain ⟨c, tail, hitem, -⟩ := item.1.exists_text
    rw [htext, hitem, List.length_cons, List.length_append, List.length_cons, List.length_append]
    omega

theorem InnerList.text_append (list : InnerList V) (rest : Text) :
    list.text ++ rest =
      '(' :: (spaces list.lead ++ itemsText list.items ++ ')' :: (paramsText list.params ++ rest)) := by
  simp [InnerList.text]

theorem readInnerList_text (list : InnerList V) (h : Ends rest) (hlast : rest.head? ≠ some ';') :
    readInnerList V (spaces list.lead ++ itemsText list.items ++ ')' :: (paramsText list.params ++ rest)) =
      some (.innerList list.itemValues (paramsMap list.params), rest) := by
  have hfuel : list.items.length <
      (spaces list.lead ++ itemsText list.items ++ ')' :: (paramsText list.params ++ rest)).length + 1 := by
    have hitems := items_length_le list.items
    rw [List.length_append, List.length_append]
    omega
  rw [readInnerList]
  simp only [Option.bind_eq_bind, readItems_text list.lead list.items hfuel, Option.bind_some,
    readParamsMap_text list.params h hlast]
  rfl

theorem readContent_text (content : Content V) (h : Ends rest) (hlast : rest.head? ≠ some ';') :
    readContent V (content.text ++ rest) = some (content.value, rest) := by
  cases content with
  | flag params =>
    have hhead : (paramsText params ++ rest).head? ≠ some '=' := (ends_params params h).head_ne rfl
    rw [Content.text, readContent, after_eq_none hhead]
    simp only [readParamsMap_text params h hlast]
    rfl
  | item single =>
    have hopen : (single.text ++ rest).head? ≠ some '(' := single.head_ne rfl
    rw [Content.text, List.cons_append, readContent, after_self]
    simp only [after_eq_none hopen, readItem_text single h hlast]
    rfl
  | innerList list =>
    rw [Content.text, List.cons_append, list.text_append, readContent, after_self]
    simp only [after_self]
    exact readInnerList_text list h hlast

theorem Content.head_not_isKeyChar (content : Content V) (h : Ends rest) :
    ∀ c ∈ (content.text ++ rest).head?, isKeyChar c = false := by
  cases content with
  | flag params => exact (ends_params params h).stops (by decide)
  | item single =>
    intro c hc
    obtain rfl := Option.some.inj hc
    rfl
  | innerList list =>
    intro c hc
    obtain rfl := Option.some.inj hc
    rfl

theorem readMember_text (member : Member V) (h : Ends rest) (hlast : rest.head? ≠ some ';') :
    readMember V (member.text ++ rest) = some (member.entry, rest) := by
  have hkey := readKey_text member.key _ (member.content.head_not_isKeyChar h)
  rw [Member.text, List.append_assoc, readMember]
  simp only [Option.bind_eq_bind, hkey, Option.bind_some, readContent_text member.content h hlast]
  rfl

theorem isBlank_of_isKeyStart {c : Char} (h : isKeyStart c = true) : isBlank c = false := by
  rw [Bool.eq_false_iff]
  intro hblank
  simp only [isBlank, Bool.or_eq_true, decide_eq_true_eq] at hblank
  rcases hblank with rfl | rfl
  · cases h
  · cases h

theorem Member.exists_text (member : Member V) : ∃ c rest, member.text = c :: rest ∧ isKeyStart c = true := by
  obtain ⟨c, tail, htext, hc, -⟩ := member.key.exists_cons
  exact ⟨c, tail ++ member.content.text, by rw [Member.text, htext, List.cons_append], hc⟩

theorem occurrencesText_exists {occurrences : List (Occurrence V)} (h : occurrences ≠ []) :
    ∃ c rest, occurrencesText occurrences = c :: rest ∧ isKeyStart c = true := by
  cases occurrences with
  | nil => exact absurd rfl h
  | cons occurrence occurrences =>
    obtain ⟨c, tail, htext, hc⟩ := occurrence.member.exists_text
    by_cases hnil : occurrences = []
    · subst hnil
      exact ⟨c, tail ++ occurrence.after, by rw [occurrencesText, htext, List.cons_append], hc⟩
    · rw [occurrencesText_cons occurrence hnil, htext]
      exact ⟨c, _, rfl, hc⟩

/-- Whitespace, and then the end or a comma. -/
theorem head_after_member {blank : Text} (rest : Text) (hblank : blank.all isBlank = true) (hrest : rest = [] ∨ rest.head? = some ',') :
    Ends (blank ++ rest) ∧ (blank ++ rest).head? ≠ some ';' := by
  cases blank with
  | nil =>
    rcases hrest with rfl | hcomma
    · exact ⟨ends_nil, by simp⟩
    · refine ⟨?_, by simp [hcomma]⟩
      intro c hc
      obtain rfl := Option.some.inj (hcomma.symm.trans hc)
      rfl
  | cons c blank =>
    rw [List.all_cons, Bool.and_eq_true] at hblank
    have hc := hblank.1
    simp only [isBlank, Bool.or_eq_true, decide_eq_true_eq] at hc
    rcases hc with rfl | rfl
    · exact ⟨ends_cons _ rfl, by simp⟩
    · exact ⟨ends_cons _ rfl, by simp⟩

theorem readMembers_text {occurrences : List (Occurrence V)} (hne : occurrences ≠ []) {fuel : ℕ}
    (hfuel : occurrences.length ≤ fuel) :
    readMembers V fuel (occurrencesText occurrences) = some (occurrences.map fun occurrence => occurrence.member.entry) := by
  induction occurrences generalizing fuel with
  | nil => exact absurd rfl hne
  | cons occurrence occurrences ih =>
    cases fuel with
    | zero => exact absurd hfuel (Nat.not_succ_le_zero _)
    | succ fuel =>
      obtain ⟨hafter, hnext⟩ := occurrence.blank
      by_cases hnil : occurrences = []
      · subst hnil
        obtain ⟨hends, hlast⟩ := head_after_member [] hafter (.inl rfl)
        rw [List.append_nil] at hends hlast
        have hdrop : occurrence.after.dropWhile isBlank = [] := by
          have hall := dropWhile_blank [] hafter (by simp)
          rwa [List.append_nil] at hall
        rw [occurrencesText, readMembers]
        simp only [Option.bind_eq_bind, readMember_text occurrence.member hends hlast, Option.bind_some, hdrop]
        rfl
      · obtain ⟨c, tail, htext, hc⟩ := occurrencesText_exists hnil
        have hrest := ih hnil (Nat.le_of_succ_le_succ hfuel)
        obtain ⟨hends, hlast⟩ := head_after_member
          (',' :: (occurrence.next ++ occurrencesText occurrences)) hafter (.inr rfl)
        have hdrop := dropWhile_blank (',' :: (occurrence.next ++ occurrencesText occurrences)) hafter (by simp; decide)
        have hdrop' := dropWhile_blank (occurrencesText occurrences) hnext (by simp [htext, isBlank_of_isKeyStart hc])
        rw [occurrencesText_cons occurrence hnil, readMembers]
        simp only [Option.bind_eq_bind, readMember_text occurrence.member hends hlast, Option.bind_some, hdrop,
          after_self, hdrop', hrest]
        rfl

theorem occurrences_length_le (occurrences : List (Occurrence V)) :
    occurrences.length ≤ (occurrencesText occurrences).length := by
  induction occurrences with
  | nil => exact Nat.zero_le _
  | cons occurrence occurrences ih =>
    obtain ⟨c, tail, htext, -⟩ := occurrence.member.exists_text
    by_cases hnil : occurrences = []
    · subst hnil
      rw [occurrencesText, htext]
      simp only [List.length_append, List.length_cons, List.length_nil]
      omega
    · rw [occurrencesText_cons occurrence hnil, htext]
      simp only [List.length_append, List.length_cons]
      omega

/-- The parser reads the text of a tree as its value. -/
theorem parseDictionary_text (dictionary : Dictionary V) : parseDictionary V dictionary.text = some dictionary.value := by
  obtain ⟨lead, occurrences⟩ := dictionary
  by_cases hnil : occurrences = []
  · subst hnil
    have hdrop := dropWhile_spaces lead [] (by simp)
    rw [Dictionary.text, occurrencesText, parseDictionary, hdrop]
    rfl
  · obtain ⟨c, tail, htext, hc⟩ := occurrencesText_exists hnil
    have hspace : (occurrencesText occurrences).head? ≠ some ' ' := by
      rw [htext]
      rintro hhead
      obtain rfl := Option.some.inj hhead
      cases hc
    have hread := readMembers_text hnil (occurrences_length_le occurrences)
    rw [Dictionary.text, parseDictionary, dropWhile_spaces lead _ hspace, if_neg (by simp [htext]), hread]
    simp [Dictionary.value, Dictionary.members, List.map_map, Function.comp_def]

/-! ## Strings without an end -/

theorem readString_unterminated {front : Text} (h : front.all isStringChar = true) :
    readString false (front.flatMap escaped) = none := by
  induction front with
  | nil => rfl
  | cons c front ih =>
    rw [List.all_cons, Bool.and_eq_true] at h
    have hrest := ih h.2
    rw [List.flatMap_cons, escaped]
    split_ifs with hc
    · simp [readString, hc, hrest]
    · rw [not_or] at hc
      simp [readString, hc.1, hc.2, hrest]

theorem readParamsMap_unterminated (gap : ℕ) (key : Key) {front : Text} (h : front.all isStringChar = true) :
    readParamsMap V (';' :: spaces gap ++ key.text ++ '=' :: '"' :: front.flatMap escaped) = none := by
  obtain ⟨c, tail, hkey, hstart, -⟩ := key.exists_cons
  have hspace : (key.text ++ '=' :: '"' :: front.flatMap escaped).head? ≠ some ' ' := by
    intro hhead
    rw [hkey] at hhead
    obtain rfl := Option.some.inj hhead
    cases hstart
  have hread := readKey_text key ('=' :: '"' :: front.flatMap escaped) (by simp; decide)
  have hparameter : readParameter V (spaces gap ++ (key.text ++ '=' :: '"' :: front.flatMap escaped)) = none := by
    rw [readParameter, dropWhile_spaces gap _ hspace, hread]
    simp [after_self, readBareItem, readString_unterminated h]
  rw [List.cons_append, List.cons_append, List.append_assoc, readParamsMap, List.length_cons, readParams, after_self]
  simp [hparameter]

/-- A list whose parameters cannot be read cannot be read. -/
theorem parseDictionary_params {text : Text} (h : readParamsMap V text = none) :
    parseDictionary V ('x' :: '=' :: '(' :: ')' :: text) = none := by
  have hkey : isKey ['x'] = true := rfl
  have hread : readKey ('x' :: '=' :: '(' :: ')' :: text) = some ("x", '=' :: '(' :: ')' :: text) :=
    readKey_text ⟨['x'], hkey⟩ ('=' :: '(' :: ')' :: text) (by simp; decide)
  have hitems : readItems V ((')' :: text).length + 1) (')' :: text) = some ([], text) :=
    readItems_text (V := V) 0 [] (Nat.succ_pos _)
  have hmember : readMember V ('x' :: '=' :: '(' :: ')' :: text) = none := by
    rw [readMember, hread]
    simp only [Option.bind_eq_bind, Option.bind_some, readContent, after_self, readInnerList, hitems, h, Option.bind_none]
  rw [parseDictionary, List.dropWhile_cons_of_neg (by decide), if_neg (List.cons_ne_nil _ _), List.length_cons, readMembers,
    hmember]
  rfl

end Dnsid.HttpSignatures.Sf

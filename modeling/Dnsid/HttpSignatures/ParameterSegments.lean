import Mathlib.Data.List.Induction
import Dnsid.HttpSignatures.AcceptedInput
import Dnsid.HttpSignatures.DictionaryHeaders

/-! # Parameters of an inner list as they are found again

`parseSignatureParameterOccurrences` finds the end of the list and of each parameter with scanners of its own, and gives
each parameter to the structured-field library by itself. A space after a semicolon hides that the value is a string.
-/
namespace Dnsid.HttpSignatures
open Dnsid.Foundations
set_option autoImplicit false

namespace Sf
variable {V : Values} {rest : Text}

/-! ## The end of the list -/

/-- Outside strings only a quote and a closing parenthesis count. -/
def isInner (c : Char) : Bool := c ∉ ['"', ')']

theorem afterClose_inner {text : Text} (h : text.all isInner = true) (rest : Text) :
    afterClose false false (text ++ rest) = afterClose false false rest := by
  induction text with
  | nil => rfl
  | cons c text ih =>
    rw [List.all_cons, Bool.and_eq_true] at h
    have hne : c ≠ '"' ∧ c ≠ ')' := by simpa [isInner] using h.1
    rw [List.cons_append, afterClose]
    simp only [Bool.false_and, Bool.false_eq_true, ↓reduceIte, hne.1, hne.2, Bool.not_false, Bool.true_and, decide_false]
    exact ih h.2

theorem afterClose_string (content rest : Text) :
    afterClose true false (content.flatMap escaped ++ '"' :: rest) = afterClose false false rest := by
  induction content with
  | nil => simp [afterClose]
  | cons c content ih =>
    rw [List.flatMap_cons, escaped]
    split_ifs with hc
    · show afterClose true false ('\\' :: c :: (content.flatMap escaped ++ '"' :: rest)) = _
      simpa [afterClose] using ih
    · rw [not_or] at hc
      show afterClose true false (c :: (content.flatMap escaped ++ '"' :: rest)) = _
      simpa [afterClose, hc.1, hc.2] using ih

theorem inner_of_plain {text : Text} (h : text.all isPlain = true) : text.all isInner = true := by
  rw [List.all_eq_true] at h ⊢
  intro c hc
  have hplain := h c hc
  simp only [isPlain, isInner, List.mem_cons, List.not_mem_nil, or_false, not_or, decide_eq_true_eq] at hplain ⊢
  exact ⟨hplain.1, hplain.2.2.2.1⟩

theorem afterClose_bare (bare : BareItem V) (rest : Text) :
    afterClose false false (bare.text ++ rest) = afterClose false false rest := by
  cases bare with
  | string content valid =>
    have htext : BareItem.text (.string (V := V) content valid) ++ rest =
        '"' :: (content.flatMap escaped ++ '"' :: rest) := by simp [BareItem.text]
    rw [htext, ← afterClose_string content rest, afterClose]
    simp
  | number numeral => exact afterClose_inner (inner_of_plain numeral.plain) rest
  | token text valid =>
    refine afterClose_inner ?_ rest
    have hall := isToken_all valid
    rw [List.all_eq_true] at hall ⊢
    intro c hc
    have htoken := hall c hc
    rw [isInner, decide_eq_true_eq]
    intro hmem
    have hnone : ['"', ')'].all (fun c => !isTokenChar c) = true := by decide
    have hnot := List.all_eq_true.mp hnone c hmem
    rw [htoken] at hnot
    cases hnot
  | bytes content value valid decodes =>
    refine afterClose_inner ?_ rest
    have hcontent := inner_of_plain (plain_of_all (by decide) valid)
    rw [BareItem.text, List.cons_append, List.all_cons, List.all_append, hcontent]
    rfl
  | boolean value =>
    refine afterClose_inner ?_ rest
    cases value <;> rfl

theorem afterClose_params (params : List (Parameter V)) (rest : Text) :
    afterClose false false (paramsText params ++ rest) = afterClose false false rest := by
  induction params with
  | nil => rfl
  | cons parameter params ih =>
    obtain ⟨gap, key, value⟩ := parameter
    have hname : (';' :: spaces gap ++ key.text).all isPlain = true := by
      rw [List.cons_append, List.all_cons, List.all_append, spaces_plain, key.plain]
      rfl
    rw [paramsText, List.flatMap_cons, ← paramsText, Parameter.text, List.append_assoc, List.append_assoc,
      afterClose_inner (inner_of_plain hname)]
    cases value with
    | none => exact ih
    | some bare =>
      have hequals : ['='].all isInner = true := rfl
      exact (afterClose_inner hequals _).trans ((afterClose_bare bare _).trans ih)

theorem afterClose_items (items : List (Item V × ℕ)) (rest : Text) :
    afterClose false false (itemsText items ++ rest) = afterClose false false rest := by
  induction items with
  | nil => rfl
  | cons item items ih =>
    obtain ⟨n, htext, -⟩ := itemsText_next item items
    rw [htext, Item.text, List.append_assoc, List.append_assoc, afterClose_bare, afterClose_params, List.append_assoc,
      afterClose_inner (inner_of_plain (spaces_plain n)), ih]

/-- The end of the list is found. -/
theorem afterInnerList_text (list : InnerList V) : afterInnerList list.text = paramsText list.params := by
  have hclose : afterClose false false (')' :: paramsText list.params) = some (paramsText list.params) := by simp [afterClose]
  rw [afterInnerList, InnerList.text, List.cons_append, List.cons_append, List.tail_cons, List.append_assoc,
    afterClose_inner (inner_of_plain (spaces_plain list.lead)), afterClose_items, hclose]
  rfl

/-! ## The end of a parameter -/

/-- The text ends, or another parameter follows. -/
def NextParameter (rest : Text) : Prop := ∀ c ∈ rest.head?, c = ';'

theorem nextParameter_nil : NextParameter [] := by
  intro c hc
  cases hc

theorem nextParameter_params (params : List (Parameter V)) (h : NextParameter rest) :
    NextParameter (paramsText params ++ rest) := by
  cases params with
  | nil => exact h
  | cons parameter params =>
    obtain ⟨tail, htext⟩ := parameter.exists_text
    intro c hc
    rw [paramsText, List.flatMap_cons, htext] at hc
    exact (Option.some.inj hc).symm

theorem span_semicolon {text : Text} (h : ';' ∉ text) (hrest : NextParameter rest) :
    (text ++ rest).takeWhile (· ≠ ';') = text ∧ (text ++ rest).dropWhile (· ≠ ';') = rest := by
  refine span_of_stop rest ?_ ?_
  · rw [List.all_eq_true]
    intro c hc
    rw [decide_eq_true_eq]
    rintro rfl
    exact h hc
  · intro c hc
    simp [hrest c hc]

theorem stringRest_text (content rest : Text) :
    stringRest (content.flatMap escaped ++ '"' :: rest) = (content.flatMap escaped ++ ['"'], rest) := by
  induction content with
  | nil => simp [stringRest]
  | cons c content ih =>
    rw [List.flatMap_cons, escaped]
    split_ifs with hc
    · show stringRest ('\\' :: c :: (content.flatMap escaped ++ '"' :: rest)) = _
      rw [stringRest, ih]
      rfl
    · rw [not_or] at hc
      show stringRest (c :: (content.flatMap escaped ++ '"' :: rest)) = _
      rw [stringRest, ih]
      · rfl
      · exact fun h _ => hc.2 h
      · exact fun _ _ h _ => hc.2 h
      · exact fun h => hc.1 h

theorem bytesRest_text {content : Text} (h : ':' ∉ content) (rest : Text) :
    bytesRest (content ++ ':' :: rest) = (content ++ [':'], rest) := by
  induction content with
  | nil => simp [bytesRest]
  | cons c content ih =>
    rw [List.mem_cons, not_or] at h
    rw [List.cons_append, bytesRest, ih h.2]
    · rfl
    · exact fun hc => h.1 hc.symm

/-- A value that is not known by its first character ends before the next semicolon. -/
theorem valueRest_of_start {text : Text} {c : Char} (hc : c ≠ '"' ∧ c ≠ '%' ∧ c ≠ ':') :
    valueRest (c :: text) = ((c :: text).takeWhile (· ≠ ';'), (c :: text).dropWhile (· ≠ ';')) := by
  rw [valueRest]
  · exact fun _ h => hc.1 (List.cons.inj h).1
  · exact fun _ h => hc.2.1 (List.cons.inj h).1
  · exact fun _ h => hc.2.2 (List.cons.inj h).1

/-- A string with a semicolon. -/
def BareItem.hasSemicolon : BareItem V → Bool
  | .string content _ => ';' ∈ content
  | _ => false

/-- No space hides a string that has a semicolon. -/
def Parameter.found (parameter : Parameter V) : Bool :=
  parameter.gap = 0 || parameter.value.all fun bare => !bare.hasSemicolon

theorem not_mem_of_all {p : Char → Bool} {text : Text} {c : Char} (hc : p c = false) (h : text.all p = true) : c ∉ text := by
  intro hmem
  rw [List.all_eq_true.mp h c hmem] at hc
  cases hc

theorem semicolon_mem_escaped {content : Text} : ';' ∈ content.flatMap escaped ↔ ';' ∈ content := by
  have hone : ∀ c, ';' ∈ escaped c ↔ ';' = c := by
    intro c
    rw [escaped]
    split_ifs <;> simp
  simp [List.mem_flatMap, hone]

theorem Number.no_semicolon (number : Number) : ';' ∉ number.text := by
  have hwhole : ';' ∉ number.whole := not_mem_of_all rfl number.digits.2
  have hbounded := number.bounded
  have hsign : ';' ∉ (if number.negative then ['-'] else [] : Text) := by cases number.negative <;> decide
  rw [Number.text, List.mem_append, List.mem_append, not_or, not_or]
  refine ⟨⟨hsign, hwhole⟩, ?_⟩
  cases hfraction : number.fraction with
  | none => exact List.not_mem_nil
  | some fraction =>
    rw [hfraction, Option.elim_some] at hbounded
    have hdigits : ';' ∉ fraction := not_mem_of_all rfl hbounded.2.2.2
    simpa using hdigits

theorem BareItem.no_semicolon (bare : BareItem V) (h : bare.hasSemicolon = false) : ';' ∉ bare.text := by
  cases bare with
  | string content valid =>
    rw [BareItem.hasSemicolon, decide_eq_false_iff_not] at h
    rw [BareItem.text, List.mem_append, List.mem_cons, semicolon_mem_escaped]
    simpa using h
  | number numeral => exact numeral.no_semicolon
  | token text valid => exact not_mem_of_all (by decide) (isToken_all valid)
  | bytes content value valid decodes =>
    have hcontent : ';' ∉ content := not_mem_of_all rfl valid
    rw [BareItem.text, List.mem_append, List.mem_cons]
    simpa using hcontent
  | boolean value =>
    rw [BareItem.text]
    cases value <;> decide

theorem valueRest_bare (bare : BareItem V) (hrest : NextParameter rest) : valueRest (bare.text ++ rest) = (bare.text, rest) := by
  have hother : bare.hasSemicolon = false → ∀ c tail, bare.text = c :: tail → c ≠ '"' ∧ c ≠ '%' ∧ c ≠ ':' →
      valueRest (bare.text ++ rest) = (bare.text, rest) := by
    intro hsemicolon c tail htext hc
    obtain ⟨htake, hdrop⟩ := span_semicolon (bare.no_semicolon hsemicolon) hrest
    rw [htext, List.cons_append] at htake hdrop ⊢
    rw [valueRest_of_start hc, htake, hdrop]
  cases bare with
  | string content valid =>
    have htext : BareItem.text (.string (V := V) content valid) ++ rest =
        '"' :: (content.flatMap escaped ++ '"' :: rest) := by simp [BareItem.text]
    rw [htext, valueRest, stringRest_text]
    rfl
  | number numeral =>
    obtain ⟨c, tail, htext, hc⟩ := numeral.exists_text
    refine hother rfl c tail htext ⟨?_, ?_, ?_⟩
    all_goals
      rintro rfl
      revert hc
      decide
  | token text valid =>
    cases text with
    | nil => cases valid
    | cons c tail =>
      have hstart : isTokenStart c = true := (Bool.and_eq_true_iff.mp valid).1
      refine hother rfl c tail rfl ⟨?_, ?_, ?_⟩
      all_goals
        rintro rfl
        cases hstart
  | bytes content value valid decodes =>
    have htext : BareItem.text (.bytes (V := V) content value valid decodes) ++ rest =
        ':' :: (content ++ ':' :: rest) := by simp [BareItem.text]
    rw [htext, valueRest, bytesRest_text (not_mem_of_all rfl valid)]
    rfl
  | boolean value => exact hother rfl '?' _ rfl (by decide)

theorem isNameChar_eq (c : Char) : isNameChar c = isKeyChar c := by
  rw [Bool.eq_iff_iff]
  simp only [isNameChar, isKeyChar, Bool.or_eq_true, decide_eq_true_eq, List.mem_cons, List.not_mem_nil, or_false]
  tauto

/-- The text of a parameter without its semicolon. -/
def Parameter.inner (parameter : Parameter V) : Text :=
  spaces parameter.gap ++ parameter.key.text ++ parameter.value.elim [] ('=' :: ·.text)

theorem Parameter.text_eq (parameter : Parameter V) : parameter.text = ';' :: parameter.inner := by
  rw [Parameter.text, Parameter.inner]
  rfl

theorem Parameter.inner_no_semicolon (parameter : Parameter V)
    (h : parameter.value.all (fun bare => !bare.hasSemicolon) = true) : ';' ∉ parameter.inner := by
  have hspaces : ';' ∉ spaces parameter.gap := fun hmem => absurd (List.eq_of_mem_replicate hmem) (by decide)
  have hkey : ';' ∉ parameter.key.text := not_mem_of_all rfl parameter.key.all_isKeyChar
  rw [Parameter.inner, List.mem_append, List.mem_append, not_or, not_or]
  refine ⟨⟨hspaces, hkey⟩, ?_⟩
  cases hvalue : parameter.value with
  | none => exact List.not_mem_nil
  | some bare =>
    rw [hvalue, Option.all_some, Bool.not_eq_true'] at h
    simpa using bare.no_semicolon h

theorem valueRest_nextParameter (hrest : NextParameter rest) : valueRest rest = ([], rest) := by
  cases rest with
  | nil => rfl
  | cons c rest =>
    obtain rfl := hrest c rfl
    rw [valueRest_of_start (by decide)]
    simp

theorem parameterRest_of_ne {text : Text} (h : (text.dropWhile isKeyChar).head? ≠ some '=') :
    parameterRest text = (text.takeWhile isKeyChar ++ (valueRest (text.dropWhile isKeyChar)).1,
      (valueRest (text.dropWhile isKeyChar)).2) := by
  have hclass : isNameChar = isKeyChar := funext isNameChar_eq
  rw [parameterRest, hclass]
  cases hdrop : text.dropWhile isKeyChar with
  | nil => rfl
  | cons c rest =>
    rw [hdrop] at h
    split
    next heq =>
      obtain rfl := (List.cons.inj heq).1
      exact absurd rfl h
    next => rfl

/-- After a space the next semicolon ends the parameter. -/
theorem parameterRest_gap {text : Text} : parameterRest (' ' :: text) =
    ((' ' :: text).takeWhile (· ≠ ';'), (' ' :: text).dropWhile (· ≠ ';')) := by
  have htake : (' ' :: text).takeWhile isKeyChar = [] := rfl
  have hdrop : (' ' :: text).dropWhile isKeyChar = ' ' :: text := rfl
  rw [parameterRest_of_ne (by rw [hdrop]; simp), htake, hdrop, valueRest_of_start (by decide), List.nil_append]

theorem parameterRest_text (parameter : Parameter V) (hfound : parameter.found = true) (hrest : NextParameter rest) :
    parameterRest (parameter.inner ++ rest) = (parameter.inner, rest) := by
  cases hgap : parameter.gap with
  | zero =>
    have hinner : parameter.inner = parameter.key.text ++ parameter.value.elim [] ('=' :: ·.text) := by
      rw [Parameter.inner, hgap]
      rfl
    rw [hinner, List.append_assoc]
    cases parameter.value with
    | none =>
      have hstop : ∀ c ∈ rest.head?, isKeyChar c = false := by
        intro c hc
        rw [hrest c hc]
        rfl
      have hhead : rest.head? ≠ some '=' := by
        intro hc
        cases hrest '=' hc
      obtain ⟨htake, hdrop⟩ := span_of_stop rest parameter.key.all_isKeyChar hstop
      rw [Option.elim_none, List.nil_append, parameterRest_of_ne (by rwa [hdrop]), htake, hdrop, valueRest_nextParameter hrest]
    | some bare =>
      have hclass : isNameChar = isKeyChar := funext isNameChar_eq
      obtain ⟨htake, hdrop⟩ := span_of_stop ('=' :: (bare.text ++ rest)) parameter.key.all_isKeyChar (by simp; decide)
      rw [Option.elim_some, List.cons_append, parameterRest, hclass, htake, hdrop]
      simp [valueRest_bare bare hrest]
  | succ n =>
    have hvalue : parameter.value.all (fun bare => !bare.hasSemicolon) = true := by
      rw [Parameter.found, hgap] at hfound
      simpa using hfound
    obtain ⟨htake, hdrop⟩ := span_semicolon (parameter.inner_no_semicolon hvalue) hrest
    have hinner : parameter.inner =
        ' ' :: (spaces n ++ parameter.key.text ++ parameter.value.elim [] ('=' :: ·.text)) := by
      rw [Parameter.inner, hgap]
      rfl
    rw [hinner, List.cons_append] at htake hdrop ⊢
    rw [parameterRest_gap, htake, hdrop]

theorem Parameter.solid (parameter : Parameter V) : Solid isTrimmed parameter.text := by
  refine ⟨⟨';', parameter.inner, parameter.text_eq, rfl⟩, parameter.closes⟩

theorem trim_of_solid {text : Text} (h : Solid isTrimmed text) : trim text = text := by
  have htrim : trim ([] ++ text ++ []) = text := trimBoth_solid (fun _ hc => hc) rfl rfl h
  rwa [List.nil_append, List.append_nil] at htrim

theorem scanSegments_cons (fuel : ℕ) (text : Text) : scanSegments (fuel + 1) (';' :: text) =
    trim (';' :: (parameterRest text).1) :: scanSegments fuel (parameterRest text).2 := rfl

/-- The parameters that are found come first. -/
theorem scanSegments_text (params : List (Parameter V)) (hfound : ∀ parameter ∈ params, parameter.found = true)
    (hrest : NextParameter rest) (fuel : ℕ) :
    scanSegments (params.length + fuel) (paramsText params ++ rest) =
      params.map Parameter.text ++ scanSegments fuel rest := by
  induction params with
  | nil =>
    rw [List.length_nil, Nat.zero_add]
    rfl
  | cons parameter params ih =>
    have hread := parameterRest_text parameter (hfound parameter List.mem_cons_self) (nextParameter_params params hrest)
    have htext : paramsText (parameter :: params) ++ rest = ';' :: (parameter.inner ++ (paramsText params ++ rest)) := by
      rw [paramsText, List.flatMap_cons, ← paramsText, parameter.text_eq, List.cons_append, List.cons_append, List.append_assoc]
    rw [htext, List.length_cons, Nat.succ_add, scanSegments_cons, hread, ← parameter.text_eq,
      trim_of_solid parameter.solid, ih fun other hother => hfound other (List.mem_cons_of_mem _ hother)]
    rfl

theorem scanSegments_nil (fuel : ℕ) : scanSegments fuel [] = [] := by
  cases fuel <;> rfl

theorem length_params_le (params : List (Parameter V)) : params.length ≤ (paramsText params).length := by
  induction params with
  | nil => exact Nat.zero_le _
  | cons parameter params ih =>
    rw [paramsText, List.flatMap_cons, ← paramsText, parameter.text_eq, List.length_append, List.length_cons,
      List.length_cons]
    omega

/-- Each parameter is found as it is written. -/
theorem scanParameterSegments_text (params : List (Parameter V)) (hfound : ∀ parameter ∈ params, parameter.found = true) :
    scanParameterSegments (paramsText params) = params.map Parameter.text := by
  obtain ⟨fuel, hfuel⟩ := Nat.exists_eq_add_of_le (length_params_le params)
  have hscan := scanSegments_text params hfound nextParameter_nil fuel
  rw [List.append_nil, scanSegments_nil, List.append_nil] at hscan
  rw [scanParameterSegments, hfuel, hscan]

/-- A text without the spaces at its end. -/
theorem exists_trailing (text : Text) :
    ∃ front n, text = front ++ spaces n ∧ (front = [] ∨ ∃ init c, front = init ++ [c] ∧ c ≠ ' ') := by
  induction text using List.reverseRecOn with
  | nil => exact ⟨[], 0, rfl, .inl rfl⟩
  | append_singleton text c ih =>
    by_cases hc : c = ' '
    · subst hc
      obtain ⟨front, n, rfl, hfront⟩ := ih
      refine ⟨front, n + 1, ?_, hfront⟩
      rw [List.append_assoc, spaces, spaces, List.replicate_succ']
    · exact ⟨text ++ [c], 0, (List.append_nil _).symm, .inr ⟨text, c, rfl, hc⟩⟩

theorem escaped_spaces (n : ℕ) : (spaces n).flatMap escaped = spaces n := by
  induction n with
  | zero => rfl
  | succ n ih => rw [spaces_succ, List.flatMap_cons, ih]; rfl

/-- The start of a string parameter, up to a character that is no space. -/
theorem solid_unterminated (gap : ℕ) (key : Key) {front : Text} (hvalid : front.all isStringChar = true)
    (hfront : front = [] ∨ ∃ init c, front = init ++ [c] ∧ c ≠ ' ') :
    Solid isTrimmed (';' :: spaces gap ++ key.text ++ '=' :: '"' :: front.flatMap escaped) := by
  refine ⟨⟨';', _, rfl, rfl⟩, ?_⟩
  rcases hfront with rfl | ⟨init, c, rfl, hc⟩
  · exact ⟨';' :: spaces gap ++ key.text ++ ['='], '"', by simp, rfl⟩
  · have hchar : isStringChar c = true := by
      rw [List.all_append, Bool.and_eq_true] at hvalid
      simpa using hvalid.2
    have htrimmed : isTrimmed c = false := by
      rw [isTrimmed, decide_eq_false_iff_not, List.mem_cons, not_or]
      have hnone : ['\t', '\n', '\x0b', '\x0c', '\r', '\xa0'].all (fun c => !isStringChar c) = true := by decide
      refine ⟨hc, fun hmem => ?_⟩
      have hnot := List.all_eq_true.mp hnone c hmem
      rw [hchar] at hnot
      cases hnot
    have hlast : ∃ before, escaped c = before ++ [c] := by
      rw [escaped]
      split_ifs
      · exact ⟨['\\'], rfl⟩
      · exact ⟨[], rfl⟩
    obtain ⟨before, hbefore⟩ := hlast
    refine ⟨';' :: spaces gap ++ key.text ++ '=' :: '"' :: (init.flatMap escaped ++ before), c, ?_, htrimmed⟩
    rw [List.flatMap_append, List.flatMap_singleton, hbefore]
    simp

/-- The string is cut at its first semicolon. -/
theorem exists_cut (parameter : Parameter V) (hfound : parameter.found = false) (rest : Text) (fuel : ℕ) :
    ∃ (front : Text) (more : List Text), front.all isStringChar = true ∧ scanSegments (fuel + 1) (parameter.text ++ rest) =
      (';' :: spaces parameter.gap ++ parameter.key.text ++ '=' :: '"' :: front.flatMap escaped) :: more := by
  obtain ⟨gap, key, value⟩ := parameter
  rw [Parameter.found, Bool.or_eq_false_iff, decide_eq_false_iff_not] at hfound
  obtain ⟨hgap, hvalue⟩ := hfound
  obtain ⟨n, rfl⟩ := Nat.exists_eq_succ_of_ne_zero hgap
  cases value with
  | none => cases hvalue
  | some bare =>
    cases bare with
    | string content valid =>
      have hmem : ';' ∈ content := by simpa [BareItem.hasSemicolon] using hvalue
      obtain ⟨before, after, rfl, hbefore⟩ := List.eq_append_cons_of_mem hmem
      obtain ⟨front, k, rfl, hfront⟩ := exists_trailing before
      have hvalid : front.all isStringChar = true := by
        rw [List.all_append, List.all_append, Bool.and_eq_true, Bool.and_eq_true] at valid
        exact valid.1.1
      -- What stands before the semicolon.
      have hcut : ';' ∉ ' ' :: (spaces n ++ key.text ++ '=' :: '"' :: (front.flatMap escaped ++ spaces k)) := by
        have hspaces : ∀ m, ';' ∉ spaces m := fun m hmem => absurd (List.eq_of_mem_replicate hmem) (by decide)
        have hkey : ';' ∉ key.text := not_mem_of_all rfl key.all_isKeyChar
        rw [List.mem_append, not_or] at hbefore
        simp [hspaces, hkey, -List.mem_flatMap, semicolon_mem_escaped, hbefore.1]
      have hnext : NextParameter (';' :: (after.flatMap escaped ++ '"' :: rest)) := by
        intro c hc
        exact (Option.some.inj hc).symm
      obtain ⟨htake, hdrop⟩ := span_semicolon hcut hnext
      have htext : Parameter.text (V := V) ⟨n + 1, key, some (.string (front ++ spaces k ++ ';' :: after) valid)⟩ ++ rest =
          ';' :: ' ' :: (spaces n ++ key.text ++ '=' :: '"' :: (front.flatMap escaped ++ spaces k) ++
            ';' :: (after.flatMap escaped ++ '"' :: rest)) := by
        have hsemicolon : escaped ';' = [';'] := rfl
        simp [Parameter.text, BareItem.text, spaces_succ, escaped_spaces, hsemicolon]
      have hblank : (spaces k).all isTrimmed = true := by simp [spaces, isTrimmed]
      have htrim : trim ([] ++ (';' :: spaces (n + 1) ++ key.text ++ '=' :: '"' :: front.flatMap escaped) ++ spaces k) = _ :=
        trimBoth_solid (fun _ hc => hc) rfl hblank (solid_unterminated (n + 1) key hvalid hfront)
      refine ⟨front, scanSegments fuel (';' :: (after.flatMap escaped ++ '"' :: rest)), hvalid, ?_⟩
      rw [List.cons_append] at htake hdrop
      rw [htext, scanSegments_cons, parameterRest_gap, htake, hdrop, ← htrim]
      simp [spaces_succ]
    | number numeral => cases hvalue
    | token text valid => cases hvalue
    | bytes content value valid decodes => cases hvalue
    | boolean value => cases hvalue

theorem InnerList.solid (list : InnerList V) : Solid isTrimmed list.text := by
  refine ⟨⟨'(', _, rfl, rfl⟩, ?_⟩
  have htext : list.text = '(' :: spaces list.lead ++ itemsText list.items ++ [')'] ++ paramsText list.params := by
    simp [InnerList.text]
  rw [htext]
  exact closes_params ⟨_, ')', rfl, rfl⟩ list.params

/-- A dictionary of one inner list. -/
def listDictionary (key : Key) (list : InnerList V) : Dictionary V := ⟨0, [.of ⟨key, .innerList list⟩]⟩

theorem listDictionary_text (key : Key) (list : InnerList V) :
    (listDictionary key list).text = key.text ++ '=' :: list.text := by
  simp [listDictionary, Dictionary.text, occurrencesText, Occurrence.of, Member.text, Content.text, spaces]

/-- The inner list after the first `=`. -/
theorem memberText_text (key : Key) (list : InnerList V) : memberText (listDictionary key list).text = list.text := by
  have hkey : key.text.all (· ≠ '=') = true := by
    rw [List.all_eq_true]
    intro c hc
    have hchar := List.all_eq_true.mp key.all_isKeyChar c hc
    rw [decide_eq_true_eq]
    rintro rfl
    cases hchar
  obtain ⟨-, hdrop⟩ := span_of_stop ('=' :: list.text) hkey (by simp)
  rw [listDictionary_text, memberText, hdrop]
  exact trim_of_solid list.solid

end Sf

/-! ## What is recovered -/

/-- What the structured-field library does with the parameters of a list, as RFC 8941 has it. -/
structure HttpPlatform.ReadsParameters (P : HttpPlatform) (V : Sf.Values) : Prop where
  reads : P.Reads V
  /-- A string that does not end is refused. -/
  unterminated : ∀ (gap : ℕ) (key : Sf.Key) (front : Text), front.all Sf.isStringChar = true →
    P.parseDictionary (String.ofList ("x=()".toList ++
      (';' :: Sf.spaces gap ++ key.text ++ '=' :: '"' :: front.flatMap Sf.escaped))) = none
  /-- The parameters are written one after the other behind the list. -/
  serializes : ∀ (items : List Item) (params : Parameters) (out : String), P.serializeInnerList items params = .ok out ↔
    ∃ list texts, P.serializeInnerList items [] = .ok list ∧
      (params.mapM fun parameter => P.serializeParameters [parameter]) = .ok texts ∧ list ++ String.join texts = out

section Recovered
variable {P : HttpPlatform} {V : Sf.Values}

theorem parseParameter_text (hP : P.Reads V) (parameter : Sf.Parameter V) :
    parseParameter P parameter.text = .ok parameter.entry := by
  have hkey : Sf.isKey ['x'] = true := rfl
  have hread := hP (Sf.listDictionary ⟨['x'], hkey⟩ ⟨0, [], [parameter]⟩)
  have htext : (Sf.listDictionary ⟨['x'], hkey⟩ ⟨0, [], [parameter]⟩).text = "x=()".toList ++ parameter.text := by
    rw [Sf.listDictionary_text]
    simp [Sf.InnerList.text, Sf.itemsText, Sf.paramsText, Sf.spaces]
  rw [htext] at hread
  rw [parseParameter, hread]
  rfl

theorem applyParameter_checked {state state' : SignatureParams × List String} {parameter : String × BareItem}
    (h : applyParameter state parameter = .ok state') : checkParameter state.2 parameter = .ok state'.2 := by
  obtain ⟨haccepted, hfresh, hseen⟩ := exists_applyParameter.mp ⟨state'.1, h⟩
  have hrfc : ¬ isRfc9651Only parameter.2 = true := by simp [haccepted.rfc8941]
  have htext : ¬ (parameter.1 ∈ ["keyid", "alg", "nonce", "tag"] ∧ isStringItem parameter.2 = false) := by
    rintro ⟨hname, hnot⟩
    rw [haccepted.text hname] at hnot
    cases hnot
  have hinteger : ¬ (parameter.1 ∈ ["created", "expires"] ∧ isIntegerItem parameter.2 = false) := by
    rintro ⟨hname, hnot⟩
    rw [haccepted.integer hname] at hnot
    cases hnot
  rw [checkParameter, throwIf_bind hrfc, throwIf_bind hfresh, throwIf_bind htext, throwIf_bind hinteger, hseen]
  rfl

/-- What was read can be written. -/
theorem applyParameters_checked {params : Parameters} {state state' : SignatureParams × List String}
    (h : params.foldlM applyParameter state = .ok state') : params.foldlM checkParameter state.2 = .ok state'.2 := by
  induction params generalizing state with
  | nil =>
    obtain rfl := pure_eq_ok.mp h
    rfl
  | cons parameter params ih =>
    rw [List.foldlM_cons, bind_eq_ok] at h
    obtain ⟨middle, hstep, hrest⟩ := h
    rw [List.foldlM_cons, applyParameter_checked hstep, ok_bind, ih hrest]

theorem serializeSigParams_read (hP : P.ReadsParameters V) {label : String} {items : List Item} {params parameters : Parameters}
    {entry : Text} {parsed : SignatureParams}
    (hparameters : parseSignatureParameterOccurrences P (memberText entry) = .ok parameters)
    (h : parseInputMember P label (.innerList items params) entry = .ok parsed) (out : String) :
    serializeSigParams P parsed = .ok out ↔ P.serializeInnerList items parameters = .ok out := by
  obtain ⟨components, hcomponents, h⟩ := bind_eq_ok.mp h
  rw [hparameters, ok_bind] at h
  obtain ⟨-, hparsed, hlist⟩ := applySignatureInputParams_eq_ok h
  obtain ⟨state, hstate, -⟩ := bind_eq_ok.mp h
  have hchecked := applyParameters_checked hstate
  have hsignature : signatureParameterList parsed = .ok parameters := by
    rw [signatureParameterList, hlist]
    dsimp only
    rw [hchecked]
    rfl
  rw [hP.serializes, serializeSigParams, serializedParameterList, hparsed, (parseComponents_eq_ok hcomponents).2, hsignature]
  simp only [bind_eq_ok, pure_eq_ok, ok_bind, exists_and_left]

/-- The parameters of a list as the structured-field library reads them are found again, and written as it does. -/
structure RecoversParameters (P : HttpPlatform) {V : Sf.Values} (list : Sf.InnerList V) : Prop where
  read : ∀ key : Sf.Key, P.parseDictionary (String.ofList (key.text ++ '=' :: list.text)) =
    some [(key.value, .innerList list.itemValues (Sf.paramsMap list.params))]
  parameters : parseSignatureParameterOccurrences P list.text = .ok (Sf.paramsMap list.params)
  serialized : ∀ (key : Sf.Key) (parsed : SignatureParams),
    parseInputMember P key.value (.innerList list.itemValues (Sf.paramsMap list.params)) (key.text ++ '=' :: list.text) =
      .ok parsed →
    ∀ out, serializeSigParams P parsed = .ok out ↔
      P.serializeInnerList list.itemValues (Sf.paramsMap list.params) = .ok out

theorem parameters_found (hP : P.Reads V) {list : Sf.InnerList V} (hdistinct : (list.params.map (·.key.value)).Nodup)
    (hfound : ∀ parameter ∈ list.params, parameter.found = true) :
    parseSignatureParameterOccurrences P list.text = .ok (Sf.paramsMap list.params) := by
  have hnames : DistinctNames (list.params.map Sf.Parameter.entry) := by
    rw [DistinctNames, List.map_map]
    exact hdistinct
  rw [parseSignatureParameterOccurrences, Sf.afterInnerList_text, Sf.scanParameterSegments_text list.params hfound,
    Sf.paramsMap, foldl_setMember_nil hnames]
  clear hdistinct hfound hnames
  induction list.params with
  | nil => rfl
  | cons parameter params ih =>
    rw [List.map_cons, List.mapM_cons, parseParameter_text hP, ok_bind, ih]
    rfl

theorem found_of_parameters (hP : P.ReadsParameters V) {list : Sf.InnerList V} {parameters : Parameters}
    (h : parseSignatureParameterOccurrences P list.text = .ok parameters) :
    ∀ parameter ∈ list.params, parameter.found = true := by
  by_contra hnot
  -- The first parameter that is not found is cut.
  have hsplit := List.takeWhile_append_dropWhile (p := Sf.Parameter.found) (l := list.params)
  have hne : list.params.dropWhile Sf.Parameter.found ≠ [] := by
    intro hnil
    exact hnot (List.dropWhile_eq_nil_iff.mp hnil)
  obtain ⟨parameter, after, hdrop⟩ := List.exists_cons_of_ne_nil hne
  have hfound : parameter.found = false := by
    have hhead := List.head_dropWhile_not Sf.Parameter.found hne
    simpa [hdrop] using hhead
  have hbefore : ∀ other ∈ list.params.takeWhile Sf.Parameter.found, other.found = true := fun other hother =>
    List.mem_takeWhile_imp hother
  have hlength := Sf.length_params_le list.params
  rw [hdrop] at hsplit
  have hcount : (list.params.takeWhile Sf.Parameter.found).length + 1 ≤ list.params.length := by
    rw [← congrArg List.length hsplit, List.length_append, List.length_cons]
    omega
  obtain ⟨fuel, hfuel⟩ := Nat.exists_eq_add_of_le (hcount.trans hlength)
  have hnext : Sf.NextParameter (Sf.paramsText (parameter :: after) ++ []) :=
    Sf.nextParameter_params (parameter :: after) Sf.nextParameter_nil
  rw [List.append_nil] at hnext
  obtain ⟨front, more, hfront, hcut⟩ := Sf.exists_cut parameter hfound (Sf.paramsText after) fuel
  have hscan := Sf.scanSegments_text _ hbefore hnext (fuel + 1)
  rw [parseSignatureParameterOccurrences, Sf.afterInnerList_text, scanParameterSegments, hfuel] at h
  have htext : Sf.paramsText list.params =
      Sf.paramsText (list.params.takeWhile Sf.Parameter.found) ++ Sf.paramsText (parameter :: after) := by
    rw [Sf.paramsText, Sf.paramsText, Sf.paramsText, ← List.flatMap_append, hsplit]
  have hcons : Sf.paramsText (parameter :: after) = parameter.text ++ Sf.paramsText after := List.flatMap_cons
  rw [htext, Nat.add_assoc, Nat.add_comm 1, hscan, hcons, hcut] at h
  simp only [mapM_append_eq_ok, List.mapM_cons, bind_eq_ok] at h
  obtain ⟨_, _, -, ⟨entry, hentry, -⟩, -⟩ := h
  simp only [parseParameter, hP.unterminated parameter.gap parameter.key front hfront, bind_eq_ok, orThrow_eq_ok] at hentry
  obtain ⟨dictionary, hparse, -⟩ := hentry
  cases hparse

theorem recoversParameters_iff (hP : P.ReadsParameters V) {list : Sf.InnerList V}
    (hdistinct : (list.params.map (·.key.value)).Nodup) :
    RecoversParameters P list ↔ ∀ parameter ∈ list.params, parameter.found = true := by
  constructor
  · intro h
    exact found_of_parameters hP h.parameters
  · intro hfound
    have hparameters := parameters_found hP.reads hdistinct hfound
    refine ⟨?_, hparameters, ?_⟩
    · intro key
      rw [← Sf.listDictionary_text, hP.reads]
      rfl
    · intro key parsed h
      rw [← Sf.listDictionary_text] at h
      refine serializeSigParams_read hP ?_ h
      rw [Sf.memberText_text]
      exact hparameters

end Recovered

/-! The platform of the parser recovers parameters. -/

theorem sampleParameters_eq_ok {params : Parameters} {out : String} : sampleParameters params = .ok out ↔
    ∃ texts, (params.mapM fun parameter => sampleParameters [parameter]) = .ok texts ∧ String.join texts = out := by
  induction params generalizing out with
  | nil =>
    simp only [sampleParameters, List.mapM_nil, bind_eq_ok, pure_eq_ok]
    simp
  | cons parameter params ih =>
    have hone : ∀ text, sampleParameters [parameter] = .ok text ↔
        ∃ part, sampleParameter parameter = .ok part ∧ String.ofList part = text := by
      intro text
      simp only [sampleParameters, List.mapM_cons, List.mapM_nil, bind_eq_ok, pure_eq_ok]
      constructor
      · rintro ⟨_, ⟨part, hpart, _, rfl, rfl⟩, rfl⟩
        exact ⟨part, hpart, by simp⟩
      · rintro ⟨part, hpart, rfl⟩
        exact ⟨_, ⟨part, hpart, _, rfl, rfl⟩, by simp⟩
    have hall : sampleParameters (parameter :: params) = .ok out ↔
        ∃ part, sampleParameter parameter = .ok part ∧ ∃ tail, sampleParameters params = .ok tail ∧
          String.ofList part ++ tail = out := by
      simp only [sampleParameters, List.mapM_cons, bind_eq_ok, pure_eq_ok]
      constructor
      · rintro ⟨_, ⟨part, hpart, parts, hparts, rfl⟩, rfl⟩
        exact ⟨part, hpart, _, ⟨parts, hparts, rfl⟩, by rw [List.flatten_cons, String.ofList_append]⟩
      · rintro ⟨part, hpart, _, ⟨parts, hparts, rfl⟩, rfl⟩
        exact ⟨_, ⟨part, hpart, parts, hparts, rfl⟩, by rw [List.flatten_cons, String.ofList_append]⟩
    simp only [hall, ih, List.mapM_cons, bind_eq_ok, pure_eq_ok, hone]
    constructor
    · rintro ⟨part, hpart, _, ⟨texts, htexts, rfl⟩, rfl⟩
      exact ⟨_, ⟨_, ⟨part, hpart, rfl⟩, texts, htexts, rfl⟩, String.join_cons⟩
    · rintro ⟨_, ⟨_, ⟨part, hpart, rfl⟩, texts, htexts, rfl⟩, rfl⟩
      exact ⟨part, hpart, _, ⟨texts, htexts, rfl⟩, String.join_cons.symm⟩

theorem parsingProfile_readsParameters : parsingProfile.toHttpPlatform.ReadsParameters parsingValues where
  reads := parsingProfile_reads
  unterminated gap key front hfront := by
    show Sf.parseDictionary parsingValues (String.ofList _).toList = none
    rw [String.toList_ofList]
    exact Sf.parseDictionary_params (Sf.readParamsMap_unterminated gap key hfront)
  serializes items params out := by
    have hnone : sampleParameters [] = .ok "" := rfl
    have htail : ∀ tail, sampleParameters params = .ok tail ↔ ∃ texts,
        (params.mapM fun parameter => sampleParameters [parameter]) = .ok texts ∧ String.join texts = tail :=
      fun _ => sampleParameters_eq_ok
    show samplePlatform.serializeInnerList items params = .ok out ↔ ∃ list texts,
      samplePlatform.serializeInnerList items [] = .ok list ∧
        (params.mapM fun parameter => sampleParameters [parameter]) = .ok texts ∧ list ++ String.join texts = out
    simp only [samplePlatform, bind_eq_ok, pure_eq_ok, htail, hnone, Except.ok.injEq]
    constructor
    · rintro ⟨items', hitems, _, ⟨texts, htexts, rfl⟩, rfl⟩
      exact ⟨_, texts, ⟨items', hitems, "", rfl, rfl⟩, htexts, by simp⟩
    · rintro ⟨_, texts, ⟨items', hitems, _, rfl, rfl⟩, htexts, rfl⟩
      exact ⟨items', hitems, _, ⟨texts, htexts, rfl⟩, by simp⟩

def methodItem : Sf.Item parsingValues := ⟨.string "@method".toList (by decide), []⟩

/-- `("@method");created=1; tag="a b";nonce="a;b";sf`. -/
def foundList : Sf.InnerList parsingValues where
  lead := 0
  items := [(methodItem, 0)]
  params := [
    ⟨0, ⟨"created".toList, by decide⟩, some one⟩,
    ⟨1, ⟨"tag".toList, by decide⟩, some (.string "a b".toList (by decide))⟩,
    ⟨0, ⟨"nonce".toList, by decide⟩, some (.string "a;b".toList (by decide))⟩,
    ⟨0, ⟨"sf".toList, by decide⟩, none⟩]

theorem foundList_recovered :
    foundList.text = "(\"@method\");created=1; tag=\"a b\";nonce=\"a;b\";sf".toList ∧
      RecoversParameters parsingProfile.toHttpPlatform foundList :=
  ⟨by decide, (recoversParameters_iff parsingProfile_readsParameters (by decide)).mpr (by decide)⟩

/-- `("@method"); tag="a;b"`. -/
def hiddenList : Sf.InnerList parsingValues where
  lead := 0
  items := [(methodItem, 0)]
  params := [⟨1, ⟨"tag".toList, by decide⟩, some (.string "a;b".toList (by decide))⟩]

/-- The library reads the header, and the string is cut at its semicolon. -/
theorem hiddenList_refused :
    hiddenList.text = "(\"@method\"); tag=\"a;b\"".toList ∧
      parsingProfile.parseDictionary (String.ofList ("s=".toList ++ hiddenList.text)) =
        some [("s", .innerList [(.str "@method", [])] [("tag", .str "a;b")])] ∧
      parseSignatureParameterOccurrences parsingProfile.toHttpPlatform hiddenList.text =
        .error (recordInvalid "malformed Signature-Input parameter") ∧
      ¬ RecoversParameters parsingProfile.toHttpPlatform hiddenList := by
  have hrefused : parseSignatureParameterOccurrences parsingProfile.toHttpPlatform hiddenList.text =
      .error (recordInvalid "malformed Signature-Input parameter") := by decide
  refine ⟨by decide, by decide, hrefused, ?_⟩
  intro h
  have hparameters := h.parameters
  rw [hrefused] at hparameters
  cases hparameters

end Dnsid.HttpSignatures

import Dnsid.Foundations.StructuredText
import Dnsid.HttpSignatures.SignatureBase

/-! # One signature base covers one message

`HttpPlatform.Laws` is what RFC 8941 says about serialized items, inner lists and parameters. A base is cut at its
line feeds; a line of a component is cut after the identifier, which ends before the first `:` outside quotes.
-/
namespace Dnsid.HttpSignatures
open Dnsid.Foundations
set_option autoImplicit false

def isPrintable (c : Char) : Bool := 0x20 ≤ c.toNat && c.toNat ≤ 0x7e

/-- Outside quotes, a serialized bare item has neither `;` nor a quote. -/
def SerializedBare (value : BareItem) (out : List Char) : Prop :=
  (∀ c ∈ out, isPrintable c = true) ∧
    match value with
    | .str text => out = quotedText text.toList
    | .displayString _ => True
    | _ => ∀ c ∈ out, c ≠ ';' ∧ c ≠ '"'

/-- `;key` if the value is `true`, else `;key=value`. -/
def SerializedParameter (parameter : String × BareItem) (out : List Char) : Prop :=
  (∀ c ∈ parameter.1.toList, isKeyChar c = true) ∧
    if parameter.2 = .bool true then out = ';' :: parameter.1.toList
    else ∃ bare, SerializedBare parameter.2 bare ∧ out = ';' :: (parameter.1.toList ++ '=' :: bare)

/-- The texts of RFC 8941, section 4.1. -/
structure HttpPlatform.Laws (P : HttpPlatform) : Prop where
  parameters : ∀ params out, P.serializeParameters params = .ok out →
    ∃ parts, List.Forall₂ SerializedParameter params parts ∧ out.toList = parts.flatten
  item : ∀ text params out, P.serializeItem (.str text, params) = .ok out →
    ∃ tail, P.serializeParameters params = .ok tail ∧ (∀ c ∈ text.toList, isPrintable c = true) ∧
      out.toList = quotedText text.toList ++ tail.toList
  innerList : ∀ items params out, P.serializeInnerList items params = .ok out →
    ∃ texts tail, items.mapM P.serializeItem = .ok texts ∧ P.serializeParameters params = .ok tail ∧
      out = "(" ++ " ".intercalate texts ++ ")" ++ tail

/-! ## Printable texts -/

theorem isPrintable_of_isKeyChar {c : Char} (h : isKeyChar c = true) : isPrintable c = true := by
  have hrange : (97 ≤ c.toNat ∧ c.toNat ≤ 122) ∨ (48 ≤ c.toNat ∧ c.toNat ≤ 57) ∨ c ∈ ['_', '-', '.', '*'] := by
    have hlower : c.isLower = (decide (c.val ≥ 'a'.val) && decide (c.val ≤ 'z'.val)) := rfl
    simpa [isKeyChar, hlower, Char.isDigit, UInt32.le_iff_toNat_le, or_assoc] using h
  rcases hrange with h | h | h
  · simp only [isPrintable, Bool.and_eq_true, decide_eq_true_eq]
    omega
  · simp only [isPrintable, Bool.and_eq_true, decide_eq_true_eq]
    omega
  · have hlisted : ∀ d ∈ ['_', '-', '.', '*'], isPrintable d = true := by simp [isPrintable]
    exact hlisted c h

theorem SerializedParameter.printable {parameter : String × BareItem} {out : List Char}
    (h : SerializedParameter parameter out) : ∀ c ∈ out, isPrintable c = true := by
  obtain ⟨hkey, hout⟩ := h
  have hkey' : ∀ c ∈ parameter.1.toList, isPrintable c = true := fun c hc => isPrintable_of_isKeyChar (hkey c hc)
  split at hout
  · subst hout
    simpa using ⟨by decide, hkey'⟩
  · obtain ⟨bare, ⟨hbare, -⟩, rfl⟩ := hout
    intro c hc
    simp only [List.mem_cons, List.mem_append] at hc
    rcases hc with rfl | hc | rfl | hc
    · decide
    · exact hkey' c hc
    · decide
    · exact hbare c hc

theorem quotedText_printable {text : List Char} (h : ∀ c ∈ text, isPrintable c = true) :
    ∀ c ∈ quotedText text, isPrintable c = true := by
  intro c hc
  rcases mem_quotedText hc with rfl | rfl | hc
  · decide
  · decide
  · exact h c hc

theorem not_mem_of_printable {text : List Char} (h : ∀ c ∈ text, isPrintable c = true) : '\n' ∉ text := by
  intro hmem
  exact absurd (h _ hmem) (by decide)

/-! ## Serialized parameters as words -/

section Words
variable {stop : Char → Bool}

/-- If the value is written, then in quotes or without a symbol that may follow a parameter. -/
def WordValue (stop : Char → Bool) (value : BareItem) : Prop :=
  value ≠ .bool true → ∀ bare, SerializedBare value bare → ∃ word : ValueText stop, word.text = bare

theorem wordValue_str (text : String) : WordValue stop (.str text) := by
  rintro - bare ⟨-, rfl⟩
  exact ⟨.quoted text.toList, rfl⟩

theorem wordValue_true : WordValue stop (.bool true) := fun h => absurd rfl h

theorem exists_parameterText {parameter : String × BareItem} {out : List Char}
    (h : SerializedParameter parameter out) (hvalue : WordValue stop parameter.2) :
    ∃ word : ParameterText stop, word.text = out := by
  obtain ⟨hkey, hout⟩ := h
  split at hout
  next =>
    subst hout
    exact ⟨⟨parameter.1.toList, hkey, none⟩, by simp [ParameterText.text, valueSuffix]⟩
  next hwritten =>
    obtain ⟨bare, hbare, rfl⟩ := hout
    obtain ⟨word, rfl⟩ := hvalue hwritten bare hbare
    exact ⟨⟨parameter.1.toList, hkey, some word⟩, rfl⟩

theorem exists_parameterTexts {params : Parameters} {parts : List (List Char)}
    (h : List.Forall₂ SerializedParameter params parts) (hvalues : ∀ p ∈ params, WordValue stop p.2) :
    ∃ words : List (ParameterText stop), words.map ParameterText.text = parts := by
  induction h with
  | nil => exact ⟨[], rfl⟩
  | @cons p part params parts hp _ ih =>
    obtain ⟨word, rfl⟩ := exists_parameterText hp (hvalues p List.mem_cons_self)
    obtain ⟨words, rfl⟩ := ih fun q hq => hvalues q (List.mem_cons_of_mem p hq)
    exact ⟨word :: words, rfl⟩

end Words

section Lines
variable {P : HttpPlatform} (laws : P.Laws)

include laws in
theorem serializeParameters_printable {params : Parameters} {out : String}
    (h : P.serializeParameters params = .ok out) : ∀ c ∈ out.toList, isPrintable c = true := by
  obtain ⟨parts, hparts, hout⟩ := laws.parameters params out h
  intro c hc
  rw [hout, List.mem_flatten] at hc
  obtain ⟨part, hpart, hc⟩ := hc
  clear hout h
  induction hparts with
  | nil => cases hpart
  | cons hp _ ih =>
    rcases List.mem_cons.mp hpart with rfl | hpart
    · exact hp.printable c hc
    · exact ih hpart

/-! ## Identifiers -/

theorem isNonEmptyString_iff {value : Option ParamValue} :
    isNonEmptyString value = true ↔ ∃ text, value = some (.str text) ∧ text ≠ "" := by
  rcases value with - | (text | value | value) <;> simp [isNonEmptyString]

/-- The parameters of a valid component are strings, and `req`. -/
theorem param_of_valid {component : ComponentIdentifier} (h : validateComponentIdentifier component = .ok ())
    {p : String × ParamValue} (hp : p ∈ componentParams component) : p.2 = .bool true ∨ ∃ text, p.2 = .str text := by
  simp only [validateComponentIdentifier, bind_eq_ok, throwIf_eq_ok, forM_eq_ok, exists_const, validateParam] at h
  obtain ⟨-, hname, hkey, hparams⟩ := h
  obtain ⟨hallowed, hreq⟩ := hparams p hp
  have hlookup : (componentParams component).lookup p.1 = some p.2 :=
    ((componentParams_distinct component).mem_iff p.1 p.2).mp hp
  have hstr : isNonEmptyString ((componentParams component).lookup p.1) = true → ∃ text, p.2 = .str text := by
    intro htext
    obtain ⟨text, htext, -⟩ := isNonEmptyString_iff.mp htext
    exact ⟨text, Option.some.inj (hlookup.symm.trans htext)⟩
  by_cases hp1 : p.1 = "req"
  · exact .inl (not_not.mp fun hvalue => hreq ⟨hp1, hvalue⟩)
  · refine .inr (hstr ?_)
    rw [not_not, allowedParams] at hallowed
    split at hallowed
    next hquery =>
      obtain hp1 : p.1 = "name" := by simpa [hp1] using hallowed
      rw [hp1]
      simpa [hquery] using hname
    next =>
      split at hallowed
      next => cases hallowed
      next =>
        split at hallowed
        next => exact absurd (List.mem_singleton.mp hallowed) hp1
        next hderived =>
          obtain hp1 : p.1 = "key" := by simpa [hp1] using hallowed
          rw [hp1] at hlookup ⊢
          simpa [hderived, hlookup] using hkey

theorem wordValue_of_valid {stop : Char → Bool} {component : ComponentIdentifier}
    (h : validateComponentIdentifier component = .ok ()) :
    ∀ p ∈ toStructuredParams (componentParams component), WordValue stop p.2 := by
  intro p hp
  obtain ⟨q, hq, rfl⟩ := List.mem_map.mp hp
  rcases param_of_valid h hq with hvalue | ⟨text, hvalue⟩
  · rw [hvalue]
    exact wordValue_true
  · rw [hvalue]
    exact wordValue_str text

def identifierStop (c : Char) : Bool := c = ';' || c = ':'

theorem isKeyChar_ne {c d : Char} (h : isKeyChar c = true) (hd : isKeyChar d = false) : c ≠ d := by
  rintro rfl
  simp [h] at hd

include laws in
/-- An identifier is printable, and ends where its last parameter does. -/
theorem serializeComponentIdentifier_text {component : ComponentIdentifier} {out : String}
    (hvalid : validateComponentIdentifier component = .ok ())
    (h : serializeComponentIdentifier P component = .ok out) :
    (∀ c ∈ out.toList, isPrintable c = true) ∧ ∃ words : List (ParameterText identifierStop),
      out.toList = quotedText (componentName component).toList ++ words.flatMap ParameterText.text := by
  obtain ⟨tail, htail, hname, hout⟩ := laws.item _ _ _ h
  constructor
  · intro c hc
    rw [hout, List.mem_append] at hc
    rcases hc with hc | hc
    · exact quotedText_printable hname c hc
    · exact serializeParameters_printable laws htail c hc
  · obtain ⟨parts, hparts, hflat⟩ := laws.parameters _ _ htail
    have hwords : ∃ words : List (ParameterText identifierStop), words.map ParameterText.text = parts :=
      exists_parameterTexts hparts (wordValue_of_valid hvalid)
    obtain ⟨words, rfl⟩ := hwords
    exact ⟨words, by rw [hout, hflat, List.flatMap_def]⟩

include laws in
/-- A line of a component is cut after the identifier. -/
theorem componentLine_inj {c₁ c₂ : ComponentIdentifier} {out₁ out₂ v₁ v₂ : String}
    (hvalid₁ : validateComponentIdentifier c₁ = .ok ()) (hvalid₂ : validateComponentIdentifier c₂ = .ok ())
    (h₁ : serializeComponentIdentifier P c₁ = .ok out₁) (h₂ : serializeComponentIdentifier P c₂ = .ok out₂)
    (h : out₁ ++ ": " ++ v₁ = out₂ ++ ": " ++ v₂) : out₁ = out₂ ∧ v₁ = v₂ := by
  obtain ⟨-, words₁, hout₁⟩ := serializeComponentIdentifier_text laws hvalid₁ h₁
  obtain ⟨-, words₂, hout₂⟩ := serializeComponentIdentifier_text laws hvalid₂ h₂
  have hlist := congrArg String.toList h
  simp only [String.toList_append, hout₁, hout₂, List.append_assoc] at hlist
  obtain ⟨hname, hrest⟩ := quotedText_append_inj hlist
  have hstopped : ∀ v : String, Stopped identifierStop (": ".toList ++ v.toList) := by
    intro v c hc
    obtain rfl : ':' = c := by simpa using hc
    rfl
  have hkey : ∀ c, isKeyChar c = true → identifierStop c = false := by
    intro c hc
    have hsemicolon := isKeyChar_ne hc (by decide : isKeyChar ';' = false)
    have hcolon := isKeyChar_ne hc (by decide : isKeyChar ':' = false)
    simp [identifierStop, hsemicolon, hcolon]
  obtain ⟨hwords, hvalues⟩ := parameterTexts_append_inj rfl rfl hkey rfl (hstopped v₁) (hstopped v₂)
    (by simp) (by simp) hrest
  constructor
  · exact String.toList_inj.mp (by rw [hout₁, hout₂, hname, hwords])
  · exact String.toList_inj.mp (List.append_cancel_left hvalues)

/-! ## Lines -/

/-- The identifier and the value of a component, and its line. -/
def LineOf (P : HttpPlatform) (msg : HttpMessage) (component : ComponentIdentifier) (line : String) : Prop :=
  ∃ identifier value, serializeComponentIdentifier P component = .ok identifier ∧
    extractComponentValue P msg component = .ok value ∧ line = identifier ++ ": " ++ value

theorem componentLine_eq_ok {msg : HttpMessage} {component : ComponentIdentifier} {line : String} :
    componentLine P msg component = .ok line ↔ LineOf P msg component line := by
  simp only [componentLine, bind_eq_ok, pure_eq_ok, LineOf]
  constructor
  · rintro ⟨identifier, hidentifier, value, hvalue, hline⟩
    exact ⟨identifier, value, hidentifier, hvalue, hline.symm⟩
  · rintro ⟨identifier, value, hidentifier, hvalue, hline⟩
    exact ⟨identifier, hidentifier, value, hvalue, hline.symm⟩

theorem valid_of_extract {msg : HttpMessage} {component : ComponentIdentifier} {value : String}
    (h : extractComponentValue P msg component = .ok value) : validateComponentIdentifier component = .ok () := by
  rw [extractComponentValue, bind_eq_ok] at h
  obtain ⟨_, hvalid, -⟩ := h
  exact hvalid

/-- The values that are covered have no line feed. -/
def NoLineFeed (P : HttpPlatform) (msg : HttpMessage) (params : SignatureParams) : Prop :=
  ∀ component ∈ params.components, ∀ value, extractComponentValue P msg component = .ok value → '\n' ∉ value.toList

include laws in
theorem LineOf.no_line_feed {msg : HttpMessage} {component : ComponentIdentifier} {line : String}
    (h : LineOf P msg component line)
    (hvalue : ∀ value, extractComponentValue P msg component = .ok value → '\n' ∉ value.toList) :
    '\n' ∉ line.toList := by
  obtain ⟨identifier, value, hidentifier, hextract, rfl⟩ := h
  have hprintable := (serializeComponentIdentifier_text laws (valid_of_extract hextract) hidentifier).1
  simp [not_mem_of_printable hprintable, hvalue value hextract]

include laws in
/-- Equal lines come from equal identifiers and equal values. -/
theorem lines_inj {m₁ m₂ : HttpMessage} {cs₁ cs₂ : List ComponentIdentifier} {lines : List String}
    (h₁ : List.Forall₂ (LineOf P m₁) cs₁ lines) (h₂ : List.Forall₂ (LineOf P m₂) cs₂ lines) :
    cs₁.map (serializeComponentIdentifier P) = cs₂.map (serializeComponentIdentifier P) ∧
      cs₁.map (extractComponentValue P m₁) = cs₂.map (extractComponentValue P m₂) := by
  induction h₁ generalizing cs₂ with
  | nil =>
    cases h₂
    exact ⟨rfl, rfl⟩
  | @cons c₁ line cs₁ lines hline _ ih =>
    cases h₂ with
    | @cons c₂ _ cs₂ _ hline₂ hrest =>
      obtain ⟨out₁, v₁, hout₁, hv₁, hline₁⟩ := hline
      obtain ⟨out₂, v₂, hout₂, hv₂, hline₂⟩ := hline₂
      obtain ⟨hout, hv⟩ := componentLine_inj laws (valid_of_extract hv₁) (valid_of_extract hv₂) hout₁ hout₂
        (hline₁.symm.trans hline₂)
      obtain ⟨hids, hvalues⟩ := ih hrest
      simp [hout₁, hout₂, hv₁, hv₂, hout, hv, hids, hvalues]

/-! ## The signature parameters -/

def listStop (c : Char) : Bool := c = ';'

theorem wordValue_of_not_rfc9651 {value : BareItem} (h : isRfc9651Only value = false) : WordValue listStop value := by
  rintro - bare ⟨-, hbare⟩
  cases value with
  | str text => exact ⟨.quoted text.toList, hbare.symm⟩
  | displayString text => simp [isRfc9651Only] at h
  | _ => exact ⟨.plain bare fun c hc => ⟨by simp [listStop, (hbare c hc).1], (hbare c hc).2⟩, rfl⟩

theorem not_rfc9651_of_checked {parameters : Parameters} {seenKnown seen : List String}
    (h : parameters.foldlM checkParameter seenKnown = .ok seen) : ∀ p ∈ parameters, isRfc9651Only p.2 = false := by
  induction parameters generalizing seenKnown with
  | nil => simp
  | cons p parameters ih =>
    rw [List.foldlM_cons, bind_eq_ok] at h
    obtain ⟨seen', hp, h⟩ := h
    simp only [checkParameter, bind_eq_ok, throwIf_eq_ok] at hp
    obtain ⟨_, hrfc9651, -⟩ := hp
    exact List.forall_mem_cons.mpr ⟨by simpa using hrfc9651, ih h⟩

/-- Parameters that only RFC 9651 has are not serialized. -/
theorem signatureParameterList_not_rfc9651 {params : SignatureParams} {list : Parameters}
    (h : signatureParameterList params = .ok list) : ∀ p ∈ list, isRfc9651Only p.2 = false := by
  unfold signatureParameterList at h
  split at h
  next parameters hparameters =>
    simp only [bind_eq_ok, pure_eq_ok] at h
    obtain ⟨seen, hchecked, rfl⟩ := h
    exact not_rfc9651_of_checked hchecked
  next =>
    obtain rfl := Except.ok.inj h
    intro p hp
    simp only [List.mem_append, Option.mem_toList, Option.map_eq_some_iff] at hp
    rcases hp with ((((hp | hp) | hp) | hp) | hp) | hp <;>
    · obtain ⟨value, -, rfl⟩ := hp
      rfl

include laws in
/-- The serialized parameters are words, and none is cut in another way. -/
theorem serializedParameterList_words {params : SignatureParams} {texts : List String}
    (h : serializedParameterList P params = .ok texts) :
    (∀ c ∈ (String.join texts).toList, isPrintable c = true) ∧
      ∃ words : List (ParameterText listStop), words.map ParameterText.text = texts.map String.toList := by
  simp only [serializedParameterList, bind_eq_ok, mapM_eq_ok] at h
  obtain ⟨list, hlist, htexts⟩ := h
  have hvalues := signatureParameterList_not_rfc9651 hlist
  clear hlist
  induction htexts with
  | nil => exact ⟨by simp, [], rfl⟩
  | @cons p text list texts htext _ ih =>
    obtain ⟨hprintable, words, hwords⟩ := ih fun q hq => hvalues q (List.mem_cons_of_mem p hq)
    obtain ⟨parts, hparts, hflat⟩ := laws.parameters _ _ htext
    obtain ⟨part, rest, hpart, hrest, rfl⟩ := List.forall₂_cons_left_iff.mp hparts
    obtain rfl := List.forall₂_nil_left_iff.mp hrest
    have hword : ∃ word : ParameterText listStop, word.text = part :=
      exists_parameterText hpart (wordValue_of_not_rfc9651 (hvalues p List.mem_cons_self))
    obtain ⟨word, rfl⟩ := hword
    refine ⟨fun c hc => ?_, word :: words, ?_⟩
    · rw [String.join_cons, String.toList_append, List.mem_append] at hc
      rcases hc with hc | hc
      · exact serializeParameters_printable laws htext c hc
      · exact hprintable c hc
    · simp [hwords, hflat]

theorem join_toList (texts : List String) : (String.join texts).toList = (texts.map String.toList).flatten := by
  induction texts with
  | nil => rfl
  | cons text texts ih => simp [String.join_cons, ih]

include laws in
theorem serializedParameterList_inj {p₁ p₂ : SignatureParams} {texts₁ texts₂ : List String}
    (h₁ : serializedParameterList P p₁ = .ok texts₁) (h₂ : serializedParameterList P p₂ = .ok texts₂)
    (h : String.join texts₁ = String.join texts₂) : texts₁ = texts₂ := by
  obtain ⟨-, words₁, hwords₁⟩ := serializedParameterList_words laws h₁
  obtain ⟨-, words₂, hwords₂⟩ := serializedParameterList_words laws h₂
  have hflat := congrArg String.toList h
  rw [join_toList, join_toList, ← hwords₁, ← hwords₂, ← List.flatMap_def, ← List.flatMap_def,
    ← List.append_nil (words₁.flatMap _), ← List.append_nil (words₂.flatMap _)] at hflat
  have hkey : ∀ c, isKeyChar c = true → listStop c = false := by
    intro c hc
    simpa [listStop] using isKeyChar_ne hc (by decide : isKeyChar ';' = false)
  have hnil : Stopped listStop [] := by
    intro c hc
    cases hc
  obtain ⟨rfl, -⟩ := parameterTexts_append_inj rfl rfl hkey rfl hnil hnil (by simp) (by simp) hflat
  have htexts : texts₁.map String.toList = texts₂.map String.toList := hwords₁.symm.trans hwords₂
  exact List.map_injective_iff.mpr (fun _ _ => String.toList_inj.mp) htexts

include laws in
/-- The text of the signature parameters, after the components that it lists. -/
theorem serializeSigParams_text {params : SignatureParams} {out : String} (h : serializeSigParams P params = .ok out) :
    ∃ identifiers parameters,
      params.components.map (serializeComponentIdentifier P) = identifiers.map .ok ∧
        serializedParameterList P params = .ok parameters ∧
        out = "(" ++ " ".intercalate identifiers ++ ")" ++ String.join parameters := by
  simp only [serializeSigParams, bind_eq_ok, pure_eq_ok] at h
  obtain ⟨innerList, hinner, parameters, hparameters, rfl⟩ := h
  obtain ⟨identifiers, tail, hidentifiers, htail, rfl⟩ := laws.innerList _ _ _ hinner
  refine ⟨identifiers, parameters, ?_, hparameters, ?_⟩
  · rw [← map_eq_of_mapM hidentifiers, List.map_map]
    rfl
  · obtain ⟨parts, hparts, hflat⟩ := laws.parameters _ _ htail
    obtain rfl := List.forall₂_nil_left_iff.mp hparts
    obtain rfl : tail = "" := String.toList_inj.mp hflat
    simp

end Lines

/-! ## The base -/

section Base
variable {P : HttpPlatform} (laws : P.Laws)

/-- The text of a base: its lines, and the line of the signature parameters. -/
theorem buildSignatureInput_text {msg : HttpMessage} {params : SignatureParams} {base : ByteArray}
    (h : buildSignatureInput P msg params = .ok base) :
    ∃ lines sigParams, List.Forall₂ (LineOf P msg) params.components lines ∧
      serializeSigParams P params = .ok sigParams ∧
      base = ("\n".intercalate (lines ++ ["\"@signature-params\": " ++ sigParams])).toUTF8 := by
  simp only [buildSignatureInput, bind_eq_ok, pure_eq_ok, mapM_eq_ok, componentLine_eq_ok] at h
  obtain ⟨-, -, lines, hlines, sigParams, hparams, rfl⟩ := h
  exact ⟨lines, sigParams, hlines, hparams, rfl⟩

include laws in
theorem serializeSigParams_no_line_feed {params : SignatureParams} {out : String}
    (hvalid : ∀ c ∈ params.components, validateComponentIdentifier c = .ok ())
    (h : serializeSigParams P params = .ok out) : '\n' ∉ out.toList := by
  obtain ⟨identifiers, parameters, hidentifiers, hparameters, rfl⟩ := serializeSigParams_text laws h
  have hjoin := not_mem_of_printable (serializedParameterList_words laws hparameters).1
  have hitems : ∀ text ∈ identifiers, '\n' ∉ text.toList := by
    intro text htext
    have hmem : Except.ok text ∈ params.components.map (serializeComponentIdentifier P) := by
      rw [hidentifiers]
      exact List.mem_map_of_mem htext
    obtain ⟨c, hc, hserialized⟩ := List.mem_map.mp hmem
    exact not_mem_of_printable (serializeComponentIdentifier_text laws (hvalid c hc) hserialized).1
  have hinner : '\n' ∉ [' '].intercalate (identifiers.map String.toList) := by
    refine not_mem_intercalate (by decide) fun text htext => ?_
    obtain ⟨identifier, hidentifier, rfl⟩ := List.mem_map.mp htext
    exact hitems identifier hidentifier
  rw [String.toList_append, List.mem_append, not_or]
  exact ⟨by simpa using hinner, hjoin⟩

/-- The lines of a base, cut at the line feeds. -/
theorem lines_of_base {lines lines' : List String} (h : ∀ line ∈ lines, '\n' ∉ line.toList)
    (h' : ∀ line ∈ lines', '\n' ∉ line.toList) (hne : lines ≠ []) (hne' : lines' ≠ [])
    (hbase : ("\n".intercalate lines).toUTF8 = ("\n".intercalate lines').toUTF8) : lines = lines' := by
  have hcut : ∀ {ls : List String}, (∀ line ∈ ls, '\n' ∉ line.toList) → ls ≠ [] →
      ("\n".intercalate ls).toList.splitOn '\n' = ls.map String.toList := by
    intro ls hls hne
    rw [String.toList_intercalate]
    refine List.splitOn_intercalate '\n' (fun line hline => ?_) (by simpa using hne)
    obtain ⟨text, htext, rfl⟩ := List.mem_map.mp hline
    exact hls text htext
  rw [String.toUTF8_eq_toByteArray, String.toUTF8_eq_toByteArray, String.toByteArray_inj] at hbase
  have htexts : lines.map String.toList = lines'.map String.toList := by
    rw [← hcut h hne, ← hcut h' hne', hbase]
  exact List.map_injective_iff.mpr (fun _ _ => String.toList_inj.mp) htexts

include laws in
theorem base_lines_no_line_feed {msg : HttpMessage} {params : SignatureParams} {lines : List String}
    {sigParams : String} (hlf : NoLineFeed P msg params)
    (hlines : List.Forall₂ (LineOf P msg) params.components lines)
    (hparams : serializeSigParams P params = .ok sigParams) :
    ∀ line ∈ lines ++ ["\"@signature-params\": " ++ sigParams], '\n' ∉ line.toList := by
  have hof : ∀ line ∈ lines, ∃ c ∈ params.components, LineOf P msg c line := by
    intro line hline
    obtain ⟨i, hi, rfl⟩ := List.getElem_of_mem hline
    have hlength := hlines.length_eq
    exact ⟨params.components[i], List.getElem_mem _, hlines.get (hlength ▸ hi) hi⟩
  have hvalid : ∀ c ∈ params.components, validateComponentIdentifier c = .ok () := by
    intro c hc
    obtain ⟨i, hi, rfl⟩ := List.getElem_of_mem hc
    obtain ⟨_, value, _, hvalue, _⟩ := hlines.get hi (hlines.length_eq ▸ hi)
    exact valid_of_extract hvalue
  intro line hline
  rcases List.mem_append.mp hline with hline | hline
  · obtain ⟨c, hc, hlineOf⟩ := hof line hline
    exact hlineOf.no_line_feed laws (hlf c hc)
  · obtain rfl := List.mem_singleton.mp hline
    have := serializeSigParams_no_line_feed laws hvalid hparams
    rw [String.toList_append, List.mem_append, not_or]
    exact ⟨by decide, this⟩

/-- Two messages with one signature base have the same covered components with the same values, and the same
signature parameters. -/
theorem buildSignatureInput_injective {m₁ m₂ : HttpMessage} {p₁ p₂ : SignatureParams} {base : ByteArray}
    (laws : P.Laws) (hlf₁ : NoLineFeed P m₁ p₁) (hlf₂ : NoLineFeed P m₂ p₂)
    (h₁ : buildSignatureInput P m₁ p₁ = .ok base) (h₂ : buildSignatureInput P m₂ p₂ = .ok base) :
    p₁.components.map (serializeComponentIdentifier P) = p₂.components.map (serializeComponentIdentifier P) ∧
      serializedParameterList P p₁ = serializedParameterList P p₂ ∧
      p₁.components.map (extractComponentValue P m₁) = p₂.components.map (extractComponentValue P m₂) := by
  obtain ⟨lines₁, sigParams₁, hlines₁, hparams₁, rfl⟩ := buildSignatureInput_text h₁
  obtain ⟨lines₂, sigParams₂, hlines₂, hparams₂, hbase⟩ := buildSignatureInput_text h₂
  have hall := lines_of_base (base_lines_no_line_feed laws hlf₁ hlines₁ hparams₁)
    (base_lines_no_line_feed laws hlf₂ hlines₂ hparams₂) (by simp) (by simp) hbase
  obtain ⟨rfl, hlast⟩ := List.append_inj' hall rfl
  obtain ⟨hids, hvalues⟩ := lines_inj laws hlines₁ hlines₂
  refine ⟨hids, ?_, hvalues⟩
  obtain ⟨identifiers₁, parameters₁, hids₁, hparameters₁, rfl⟩ := serializeSigParams_text laws hparams₁
  obtain ⟨identifiers₂, parameters₂, hids₂, hparameters₂, rfl⟩ := serializeSigParams_text laws hparams₂
  have hidentifiers : identifiers₁ = identifiers₂ :=
    List.map_injective_iff.mpr (fun _ _ => Except.ok.inj) (hids₁.symm.trans (hids.trans hids₂))
  subst hidentifiers
  have hjoin : String.join parameters₁ = String.join parameters₂ := by
    have htext := congrArg String.toList (List.cons.inj hlast).1
    simp only [String.toList_append, List.append_assoc] at htext
    simp only [List.append_cancel_left_eq] at htext
    exact String.toList_inj.mp htext
  rw [hparameters₁, hparameters₂, serializedParameterList_inj laws hparameters₁ hparameters₂ hjoin]

end Base

/-! A platform that serializes printable strings, natural numbers, Booleans and tokens in lower case. -/

def sampleBare : BareItem → Except HttpError (List Char)
  | .str text => do
    throwIf (text.toList.all isPrintable = false) (.other "Only ASCII strings may be serialized")
    return quotedText text.toList
  | .num (.finite value) => do
    throwIf (¬ (value.den = 1 ∧ 0 ≤ value.num)) (.other "unsupported number")
    return Nat.toDigits 10 value.num.toNat
  | .bool value => .ok ['?', if value then '1' else '0']
  | .token text => do
    throwIf (text.toList.all isKeyChar = false) (.other "unsupported token")
    return text.toList
  | _ => .error (.other "unsupported item")

def sampleParameter (parameter : String × BareItem) : Except HttpError (List Char) := do
  throwIf (parameter.1.toList.all isKeyChar = false) (.other "invalid key")
  if parameter.2 = .bool true then return ';' :: parameter.1.toList
  let bare ← sampleBare parameter.2
  return ';' :: (parameter.1.toList ++ '=' :: bare)

def sampleParameters (params : Parameters) : Except HttpError String := do
  let parts ← params.mapM sampleParameter
  return String.ofList parts.flatten

def sampleItem (item : Item) : Except HttpError String := do
  let bare ← sampleBare item.1
  let tail ← sampleParameters item.2
  return String.ofList (bare ++ tail.toList)

def samplePlatform : HttpPlatform where
  serializeItem := sampleItem
  serializeInnerList items params := do
    let texts ← items.mapM sampleItem
    let tail ← sampleParameters params
    return "(" ++ " ".intercalate texts ++ ")" ++ tail
  serializeParameters := sampleParameters
  parseDictionary _ := none
  searchParams part :=
    match part.toList.splitOn '=' with
    | [name, value] => [(String.ofList name, String.ofList value)]
    | _ => []

theorem sampleBare_serialized {value : BareItem} {out : List Char} (h : sampleBare value = .ok out) :
    SerializedBare value out := by
  have hplain : ∀ {text : List Char}, (∀ c ∈ text, isKeyChar c = true) →
      (∀ c ∈ text, isPrintable c = true) ∧ ∀ c ∈ text, c ≠ ';' ∧ c ≠ '"' := fun htext =>
    ⟨fun c hc => isPrintable_of_isKeyChar (htext c hc), fun c hc =>
      ⟨isKeyChar_ne (htext c hc) (by decide), isKeyChar_ne (htext c hc) (by decide)⟩⟩
  unfold sampleBare at h
  split at h
  next text =>
    simp only [bind_eq_ok, throwIf_eq_ok, pure_eq_ok, Bool.not_eq_false, List.all_eq_true] at h
    obtain ⟨-, hprintable, rfl⟩ := h
    exact ⟨quotedText_printable hprintable, rfl⟩
  next value =>
    simp only [bind_eq_ok, throwIf_eq_ok, pure_eq_ok] at h
    obtain ⟨-, -, rfl⟩ := h
    exact hplain fun c hc => by simp [isKeyChar, Nat.isDigit_of_mem_toDigits (by decide) (by decide) hc]
  next value =>
    obtain rfl := Except.ok.inj h
    cases value
    · exact ⟨by simp [isPrintable], by simp⟩
    · exact ⟨by simp [isPrintable], by simp⟩
  next text =>
    simp only [bind_eq_ok, throwIf_eq_ok, pure_eq_ok, Bool.not_eq_false, List.all_eq_true] at h
    obtain ⟨-, htext, rfl⟩ := h
    exact hplain htext
  next => cases h

theorem sampleParameter_serialized {parameter : String × BareItem} {out : List Char}
    (h : sampleParameter parameter = .ok out) : SerializedParameter parameter out := by
  simp only [sampleParameter, bind_eq_ok, throwIf_eq_ok, Bool.not_eq_false, List.all_eq_true] at h
  obtain ⟨-, hkey, h⟩ := h
  refine ⟨hkey, ?_⟩
  split at h
  next htrue =>
    rw [if_pos htrue]
    exact (pure_eq_ok.mp h).symm
  next hwritten =>
    rw [if_neg hwritten]
    simp only [bind_eq_ok, pure_eq_ok] at h
    obtain ⟨bare, hbare, rfl⟩ := h
    exact ⟨bare, sampleBare_serialized hbare, rfl⟩

theorem samplePlatform_laws : samplePlatform.Laws where
  parameters params out h := by
    simp only [samplePlatform, sampleParameters, bind_eq_ok, pure_eq_ok, mapM_eq_ok] at h
    obtain ⟨parts, hparts, rfl⟩ := h
    exact ⟨parts, hparts.imp fun _ _ => sampleParameter_serialized, by simp⟩
  item text params out h := by
    simp only [samplePlatform, sampleItem, bind_eq_ok, pure_eq_ok] at h
    obtain ⟨bare, hbare, tail, htail, rfl⟩ := h
    refine ⟨tail, htail, ?_, ?_⟩
    · simp only [sampleBare, bind_eq_ok, throwIf_eq_ok, Bool.not_eq_false, List.all_eq_true] at hbare
      obtain ⟨-, hprintable, -⟩ := hbare
      exact hprintable
    · rw [(sampleBare_serialized hbare).2, String.toList_ofList]
  innerList items params out h := by
    simp only [samplePlatform, bind_eq_ok, pure_eq_ok] at h
    obtain ⟨texts, htexts, tail, htail, rfl⟩ := h
    exact ⟨texts, tail, htexts, htail, rfl⟩

def sampleUrl : Url := ⟨"https:", "api.example", "8443", "/items", "?id=7"⟩

def sampleMessage (accept : String) : HttpMessage :=
  ⟨.request ⟨"GET", sampleUrl, [("content-type", "text/plain"), ("accept", accept)]⟩, none⟩

def sampleSignatureParams : SignatureParams where
  label := "sig1"
  components := [.name "@method", .name "@authority", .object "@query-param" (some ⟨[("name", .str "id")], List.nodup_singleton _⟩),
    .name "content-type"]
  keyId := some "agent.example#k1"
  alg := none
  created := some (.finite 1700000000)
  expires := none
  nonce := none
  tag := some "x;y"
  parameters := none

theorem noLineFeed_of_all {P : HttpPlatform} {msg : HttpMessage} {params : SignatureParams}
    (h : ∀ component ∈ params.components,
      (extractComponentValue P msg component).toOption.all (fun value => !value.toList.contains '\n') = true) :
    NoLineFeed P msg params := by
  intro component hcomponent value hvalue
  simpa [hvalue, Except.toOption] using h component hcomponent

theorem sampleMessages_same_base :
    ∃ base, buildSignatureInput samplePlatform (sampleMessage "text/html") sampleSignatureParams = .ok base ∧
      buildSignatureInput samplePlatform (sampleMessage "text/plain") sampleSignatureParams = .ok base ∧
      sampleSignatureParams.components.map (extractComponentValue samplePlatform (sampleMessage "text/html")) =
        sampleSignatureParams.components.map (extractComponentValue samplePlatform (sampleMessage "text/plain")) := by
  have hok : (buildSignatureInput samplePlatform (sampleMessage "text/html") sampleSignatureParams).isOk = true := by
    decide
  obtain ⟨base, hbase⟩ : ∃ base,
      buildSignatureInput samplePlatform (sampleMessage "text/html") sampleSignatureParams = .ok base := by
    cases hresult : buildSignatureInput samplePlatform (sampleMessage "text/html") sampleSignatureParams with
    | ok base => exact ⟨base, rfl⟩
    | error error =>
      rw [hresult] at hok
      cases hok
  have hbase' : buildSignatureInput samplePlatform (sampleMessage "text/plain") sampleSignatureParams = .ok base := hbase
  refine ⟨base, hbase, hbase', ?_⟩
  exact (buildSignatureInput_injective samplePlatform_laws (noLineFeed_of_all (by decide))
    (noLineFeed_of_all (by decide)) hbase hbase').2.2

end Dnsid.HttpSignatures

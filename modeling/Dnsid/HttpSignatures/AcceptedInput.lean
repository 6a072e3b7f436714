import Dnsid.HttpSignatures.SignatureHeaders

/-! # Members of `Signature-Input` that the profile reads

A member is read exactly when its components and its parameters are such as the profile knows.
-/
namespace Dnsid.HttpSignatures
open Dnsid.Foundations
set_option autoImplicit false

variable {P : HttpPlatform}

/-- A parameter that `applySignatureInputParams` takes. -/
structure AcceptedParameter (parameter : String × BareItem) : Prop where
  rfc8941 : isRfc9651Only parameter.2 = false
  text : parameter.1 ∈ ["keyid", "alg", "nonce", "tag"] → isStringItem parameter.2 = true
  integer : parameter.1 ∈ ["created", "expires"] → isIntegerItem parameter.2 = true

/-- Components and parameters that the profile knows. -/
structure AcceptedInput (P : HttpPlatform) (items : List Item) (member : Text) : Prop where
  count : items.length ≤ 64
  components : ∃ components, List.Forall₂ (fun item component => parseComponentItem item = .ok component) items components ∧
    (∀ component ∈ components, validateComponentIdentifier component = .ok ()) ∧
    components.Pairwise fun a b => sameComponent a b = false
  parameters : ∃ parameters, parseSignatureParameterOccurrences P member = .ok parameters ∧
    (∀ parameter ∈ parameters, AcceptedParameter parameter) ∧
    ((parameters.map Prod.fst).filter (· ∈ knownParameters)).Nodup

theorem validateComponentsFrom_eq_ok {before components : List ComponentIdentifier} {u : Unit} :
    validateComponentsFrom P before components = .ok u ↔
      (∀ component ∈ components, validateComponentIdentifier component = .ok ()) ∧
        (∀ earlier ∈ before, ∀ component ∈ components, sameComponent earlier component = false) ∧
        components.Pairwise fun a b => sameComponent a b = false := by
  induction components generalizing before with
  | nil => simp [validateComponentsFrom]
  | cons component components ih =>
    simp only [validateComponentsFrom, bind_eq_ok, List.forall_mem_cons, List.pairwise_cons]
    by_cases hdup : (before.any fun earlier => sameComponent earlier component) = true
    · rw [if_pos hdup]
      constructor
      · rintro ⟨_, -, hthrow⟩
        obtain ⟨_, -, herror⟩ := bind_eq_ok.mp hthrow
        cases herror
      · rintro ⟨-, hbefore, -⟩
        obtain ⟨earlier, hmem, hsame⟩ := List.any_eq_true.mp hdup
        rw [(hbefore earlier hmem).1] at hsame
        cases hsame
    · rw [if_neg hdup]
      have hfresh : ∀ earlier ∈ before, sameComponent earlier component = false := by
        intro earlier hmem
        by_contra hsame
        exact hdup (List.any_eq_true.mpr ⟨earlier, hmem, by simpa using hsame⟩)
      constructor
      · rintro ⟨_, hvalid, hrest⟩
        obtain ⟨hall, hbefore, hpairs⟩ := ih.mp hrest
        refine ⟨⟨hvalid, hall⟩, fun earlier hmem => ⟨hfresh earlier hmem, fun c hc => ?_⟩, fun c hc => ?_, hpairs⟩
        · exact hbefore earlier (List.mem_append_left _ hmem) c hc
        · exact hbefore component (by simp) c hc
      · rintro ⟨⟨hvalid, hall⟩, hbefore, hfirst, hpairs⟩
        refine ⟨(), hvalid, ih.mpr ⟨hall, fun earlier hmem c hc => ?_, hpairs⟩⟩
        rcases List.mem_append.mp hmem with hmem | hmem
        · exact (hbefore earlier hmem).2 c hc
        · obtain rfl := List.mem_singleton.mp hmem
          exact hfirst c hc

theorem validateComponents_eq_ok {components : List ComponentIdentifier} {u : Unit} :
    validateComponents P components = .ok u ↔
      (∀ component ∈ components, validateComponentIdentifier component = .ok ()) ∧
        components.Pairwise fun a b => sameComponent a b = false := by
  rw [validateComponents, validateComponentsFrom_eq_ok]
  simp

theorem exists_parseComponents {items : List Item} :
    (∃ components, parseComponents P items = .ok components) ↔ items.length ≤ 64 ∧
      ∃ components, List.Forall₂ (fun item component => parseComponentItem item = .ok component) items components ∧
        (∀ component ∈ components, validateComponentIdentifier component = .ok ()) ∧
        components.Pairwise fun a b => sameComponent a b = false := by
  simp only [parseComponents, bind_eq_ok, throwIf_eq_ok, mapError_eq_ok, pure_eq_ok, mapM_eq_ok, validateComponents_eq_ok]
  constructor
  · rintro ⟨_, _, hcount, components, hitems, _, hvalid, rfl⟩
    exact ⟨by omega, components, hitems, hvalid⟩
  · rintro ⟨hcount, components, hitems, hvalid⟩
    exact ⟨components, (), by omega, components, hitems, (), hvalid, rfl⟩

theorem exists_signatureStringParam {key : String} {value : BareItem} :
    (∃ text, signatureStringParam key value = .ok text) ↔ isStringItem value = true := by
  cases value <;> simp [signatureStringParam, isStringItem]

theorem exists_signatureIntegerParam {key : String} {value : BareItem} :
    (∃ number, signatureIntegerParam key value = .ok number) ↔ isIntegerItem value = true := by
  cases value with
  | num number => by_cases hint : number.isInteger = true <;> simp [signatureIntegerParam, isIntegerItem, hint]
  | str _ | bool _ | token _ | bytes _ | date _ | displayString _ => simp [signatureIntegerParam, isIntegerItem]

/-- The known names after a parameter. -/
def seenAfter (seenKnown : List String) (parameter : String × BareItem) : List String :=
  if parameter.1 ∈ knownParameters then parameter.1 :: seenKnown else seenKnown

theorem acceptedParameter_string {key : String} {value : BareItem} (hkey : key ∈ ["keyid", "alg", "nonce", "tag"]) :
    AcceptedParameter (key, value) ↔ isStringItem value = true := by
  constructor
  · intro h
    exact h.text hkey
  · intro h
    refine ⟨?_, fun _ => h, fun hinteger => ?_⟩
    · cases value <;> first | rfl | cases h
    · rcases List.mem_pair.mp hinteger with rfl | rfl <;> simp at hkey

theorem acceptedParameter_integer {key : String} {value : BareItem} (hkey : key ∈ ["created", "expires"]) :
    AcceptedParameter (key, value) ↔ isIntegerItem value = true := by
  constructor
  · intro h
    exact h.integer hkey
  · intro h
    refine ⟨?_, fun htext => ?_, fun _ => h⟩
    · cases value <;> first | rfl | cases h
    · rcases List.mem_pair.mp hkey with rfl | rfl <;> simp at htext

/-- The parameters that set a field, one turn after the other checks. -/
theorem exists_setParameter {α : Type} {accepted : Prop} {value : Except HttpError α} {parsed : α → SignatureParams}
    {seen seen' : List String} (haccepted : (∃ a, value = .ok a) ↔ accepted) :
    (∃ parsed', (do let a ← value; return (parsed a, seen) : Except HttpError _) = .ok (parsed', seen')) ↔
      accepted ∧ seen' = seen := by
  simp only [bind_eq_ok, pure_eq_ok, Prod.mk.injEq, ← haccepted]
  constructor
  · rintro ⟨parsed', a, ha, -, rfl⟩
    exact ⟨⟨a, ha⟩, rfl⟩
  · rintro ⟨⟨a, ha⟩, rfl⟩
    exact ⟨_, a, ha, rfl, rfl⟩

theorem exists_applyParameter {state : SignatureParams × List String} {parameter : String × BareItem} {seen : List String} :
    (∃ parsed, applyParameter state parameter = .ok (parsed, seen)) ↔ AcceptedParameter parameter ∧
      ¬ (parameter.1 ∈ knownParameters ∧ parameter.1 ∈ state.2) ∧ seen = seenAfter state.2 parameter := by
  obtain ⟨parsed, seenKnown⟩ := state
  obtain ⟨key, value⟩ := parameter
  by_cases hrfc : isRfc9651Only value = true
  · constructor
    · rintro ⟨parsed', h⟩
      simp only [applyParameter, bind_eq_ok, throwIf_eq_ok] at h
      obtain ⟨_, hnot, -⟩ := h
      exact absurd hrfc hnot
    · rintro ⟨haccepted, -⟩
      have hnot := haccepted.rfc8941
      rw [hrfc] at hnot
      cases hnot
  by_cases hdup : key ∈ knownParameters ∧ key ∈ seenKnown
  · constructor
    · rintro ⟨parsed', h⟩
      simp only [applyParameter, bind_eq_ok, throwIf_eq_ok] at h
      obtain ⟨_, -, _, hnot, -⟩ := h
      exact absurd hdup hnot
    · rintro ⟨-, hnot, -⟩
      exact absurd hdup hnot
  have hstring : key ∈ ["keyid", "alg", "nonce", "tag"] →
      ((∃ text, signatureStringParam key value = .ok text) ↔ AcceptedParameter (key, value)) := fun hkey =>
    exists_signatureStringParam.trans (acceptedParameter_string hkey).symm
  have hinteger : key ∈ ["created", "expires"] →
      ((∃ number, signatureIntegerParam key value = .ok number) ↔ AcceptedParameter (key, value)) := fun hkey =>
    exists_signatureIntegerParam.trans (acceptedParameter_integer hkey).symm
  simp only [applyParameter, throwIf_bind hrfc, hdup, not_false_eq_true, true_and]
  by_cases hkeyid : key = "keyid"
  · simp only [if_pos hkeyid]
    exact exists_setParameter (hstring (by simp [hkeyid]))
  by_cases halg : key = "alg"
  · simp only [if_neg hkeyid, if_pos halg]
    exact exists_setParameter (hstring (by simp [halg]))
  by_cases hcreated : key = "created"
  · simp only [if_neg hkeyid, if_neg halg, if_pos hcreated]
    exact exists_setParameter (hinteger (by simp [hcreated]))
  by_cases hnonce : key = "nonce"
  · simp only [if_neg hkeyid, if_neg halg, if_neg hcreated, if_pos hnonce]
    exact exists_setParameter (hstring (by simp [hnonce]))
  by_cases hexpires : key = "expires"
  · simp only [if_neg hkeyid, if_neg halg, if_neg hcreated, if_neg hnonce, if_pos hexpires]
    exact exists_setParameter (hinteger (by simp [hexpires]))
  by_cases htag : key = "tag"
  · simp only [if_neg hkeyid, if_neg halg, if_neg hcreated, if_neg hnonce, if_neg hexpires, if_pos htag]
    exact exists_setParameter (hstring (by simp [htag]))
  -- A parameter of another name is kept as it occurs.
  have haccepted : AcceptedParameter (key, value) := by
    refine ⟨by simpa using hrfc, fun htext => ?_, fun hint => ?_⟩
    · simp [hkeyid, halg, hnonce, htag] at htext
    · simp [hcreated, hexpires] at hint
  simp only [if_neg hkeyid, if_neg halg, if_neg hcreated, if_neg hnonce, if_neg hexpires, if_neg htag]
  constructor
  · rintro ⟨parsed', h⟩
    obtain ⟨-, rfl⟩ := Prod.mk.inj (pure_eq_ok.mp h)
    exact ⟨haccepted, rfl⟩
  · rintro ⟨-, rfl⟩
    exact ⟨parsed, rfl⟩

theorem exists_applyParameters {state : SignatureParams × List String} {params : Parameters} :
    (∃ state', params.foldlM applyParameter state = .ok state') ↔ (∀ parameter ∈ params, AcceptedParameter parameter) ∧
      (∀ name ∈ (params.map Prod.fst).filter (· ∈ knownParameters), name ∉ state.2) ∧
      ((params.map Prod.fst).filter (· ∈ knownParameters)).Nodup := by
  induction params generalizing state with
  | nil => simp [pure_eq_ok]
  | cons parameter params ih =>
    simp only [List.foldlM_cons, bind_eq_ok]
    constructor
    · rintro ⟨state', ⟨parsed, seen⟩, hstep, hrest⟩
      obtain ⟨haccepted, hfresh, rfl⟩ := exists_applyParameter.mp ⟨parsed, hstep⟩
      obtain ⟨hall, hnames, hnodup⟩ := ih.mp ⟨state', hrest⟩
      refine ⟨List.forall_mem_cons.mpr ⟨haccepted, hall⟩, ?_⟩
      by_cases hknown : parameter.1 ∈ knownParameters
      · simp only [seenAfter, if_pos hknown, List.mem_cons, not_or] at hnames
        simp only [List.map_cons, List.filter_cons, hknown, decide_true, if_true, List.forall_mem_cons, List.nodup_cons]
        refine ⟨⟨fun hmem => hfresh ⟨hknown, hmem⟩, fun name hname => (hnames name hname).2⟩, ?_, hnodup⟩
        exact fun hmem => (hnames _ hmem).1 rfl
      · simp only [seenAfter, if_neg hknown] at hnames
        simp only [List.map_cons, List.filter_cons, hknown, decide_false, Bool.false_eq_true, if_false]
        exact ⟨hnames, hnodup⟩
    · rintro ⟨haccepted, hnames, hnodup⟩
      obtain ⟨hfirst, hall⟩ := List.forall_mem_cons.mp haccepted
      simp only [List.map_cons, List.filter_cons] at hnames hnodup
      by_cases hknown : parameter.1 ∈ knownParameters
      · simp only [hknown, decide_true, if_true, List.forall_mem_cons, List.nodup_cons] at hnames hnodup
        obtain ⟨parsed, hstep⟩ := exists_applyParameter.mpr ⟨hfirst, fun hdup => hnames.1 hdup.2, rfl⟩
        have hseen : ∀ name ∈ (params.map Prod.fst).filter (· ∈ knownParameters), name ∉ seenAfter state.2 parameter := by
          intro name hname
          simp only [seenAfter, if_pos hknown, List.mem_cons, not_or]
          exact ⟨fun heq => hnodup.1 (heq ▸ hname), hnames.2 name hname⟩
        obtain ⟨state', hstate⟩ : ∃ state', params.foldlM applyParameter (parsed, seenAfter state.2 parameter) = .ok state' :=
          ih.mpr ⟨hall, hseen, hnodup.2⟩
        exact ⟨state', _, hstep, hstate⟩
      · simp only [hknown, decide_false, Bool.false_eq_true, if_false] at hnames hnodup
        obtain ⟨parsed, hstep⟩ := exists_applyParameter.mpr ⟨hfirst, fun hdup => hknown hdup.1, rfl⟩
        have hseen : ∀ name ∈ (params.map Prod.fst).filter (· ∈ knownParameters), name ∉ seenAfter state.2 parameter := by
          simpa only [seenAfter, if_neg hknown] using hnames
        obtain ⟨state', hstate⟩ : ∃ state', params.foldlM applyParameter (parsed, seenAfter state.2 parameter) = .ok state' :=
          ih.mpr ⟨hall, hseen, hnodup⟩
        exact ⟨state', _, hstep, hstate⟩

/-- The member is read. -/
theorem exists_parseInputMember {label : String} {items : List Item} {params : Parameters} {entry : Text} :
    (∃ sigParams, parseInputMember P label (.innerList items params) entry = .ok sigParams) ↔
      AcceptedInput P items (memberText entry) := by
  simp only [parseInputMember, applySignatureInputParams, bind_eq_ok, pure_eq_ok]
  constructor
  · rintro ⟨sigParams, components, hcomponents, parameters, hparameters, state, hstate, -⟩
    obtain ⟨hcount, hread⟩ := exists_parseComponents.mp ⟨components, hcomponents⟩
    obtain ⟨haccepted, -, hnodup⟩ := exists_applyParameters.mp ⟨state, hstate⟩
    exact ⟨hcount, hread, parameters, hparameters, haccepted, hnodup⟩
  · rintro ⟨hcount, hread, parameters, hparameters, haccepted, hnodup⟩
    obtain ⟨components, hcomponents⟩ := (exists_parseComponents (P := P)).mpr ⟨hcount, hread⟩
    let read : SignatureParams := ⟨label, components, none, none, none, none, none, none, some parameters⟩
    obtain ⟨state, hstate⟩ : ∃ state, parameters.foldlM applyParameter (read, []) = .ok state :=
      exists_applyParameters.mpr ⟨haccepted, by simp, hnodup⟩
    exact ⟨state.1, components, hcomponents, parameters, hparameters, state, hstate, rfl⟩

end Dnsid.HttpSignatures

import Dnsid.HttpSignatures.VerifyRequest

/-! # Candidates of a signed request

The loop over the candidates returns when one of them verifies and each of the others fails with an error that the loop
catches. A candidate that was read from a header fails with no other error, unless the identity resolver does.
-/
namespace Dnsid.HttpSignatures
open Dnsid.Foundations
set_option autoImplicit false

/-! ## The loop -/

section Loop
variable {Identity : Type} {check : SignatureParams → Except HttpError Identity} {candidates : List SignatureParams}
  {lastError : Option HttpError} {verified result : Identity}

/-- The candidate fails, and the loop goes on. -/
def Skips (check : SignatureParams → Except HttpError Identity) (sigParams : SignatureParams) : Prop :=
  ∃ error, check sigParams = .error error ∧ error.isCaught = true

theorem tryCandidates_verified :
    tryCandidates check candidates (some verified) lastError = .ok result ↔
      result = verified ∧ ∀ sigParams ∈ candidates, Skips check sigParams := by
  induction candidates generalizing lastError with
  | nil =>
    simp only [tryCandidates, Except.ok.injEq]
    exact ⟨fun h => ⟨h.symm, by rintro sigParams ⟨⟩⟩, fun h => h.1.symm⟩
  | cons sigParams rest ih =>
    simp only [tryCandidates, List.forall_mem_cons]
    cases hcheck : check sigParams with
    | error error =>
      dsimp only
      by_cases hcaught : error.isCaught = true
      · rw [if_pos hcaught, ih]
        exact ⟨fun h => ⟨h.1, ⟨error, hcheck, hcaught⟩, h.2⟩, fun h => ⟨h.1, h.2.2⟩⟩
      · rw [if_neg hcaught]
        refine ⟨by rintro ⟨⟩, ?_⟩
        rintro ⟨-, ⟨error', herror, hcaught'⟩, -⟩
        rw [hcheck] at herror
        cases herror
        exact absurd hcaught' hcaught
    | ok candidate =>
      refine ⟨by rintro ⟨⟩, ?_⟩
      rintro ⟨-, ⟨error', herror, -⟩, -⟩
      rw [hcheck] at herror
      cases herror

/-- Exactly one candidate verifies. -/
theorem tryCandidates_eq_ok :
    tryCandidates check candidates none lastError = .ok result ↔
      ∃ before sigParams after, candidates = before ++ sigParams :: after ∧ check sigParams = .ok result ∧
        ∀ other ∈ before ++ after, Skips check other := by
  induction candidates generalizing lastError with
  | nil =>
    constructor
    · intro h
      cases lastError <;> cases h
    · rintro ⟨before, sigParams, after, heq, -⟩
      cases before <;> cases heq
  | cons sigParams rest ih =>
    simp only [tryCandidates]
    cases hcheck : check sigParams with
    | error error =>
      dsimp only
      constructor
      · intro h
        split_ifs at h with hcaught
        obtain ⟨before, found, after, rfl, hfound, hothers⟩ := ih.mp h
        refine ⟨sigParams :: before, found, after, rfl, hfound, fun other hother => ?_⟩
        rcases List.mem_cons.mp hother with rfl | hother
        · exact ⟨error, hcheck, hcaught⟩
        · exact hothers other hother
      · rintro ⟨before, found, after, heq, hfound, hothers⟩
        cases before with
        | nil =>
          obtain ⟨rfl, -⟩ := List.cons.inj heq
          rw [hcheck] at hfound
          cases hfound
        | cons first before =>
          obtain ⟨rfl, rfl⟩ := List.cons.inj heq
          obtain ⟨error', herror, hcaught⟩ := hothers sigParams (by simp)
          rw [hcheck] at herror
          cases herror
          rw [if_pos hcaught]
          exact ih.mpr ⟨before, found, after, rfl, hfound, fun other hother => hothers other (List.mem_cons_of_mem _ hother)⟩
    | ok candidate =>
      dsimp only
      rw [if_neg (by simp), tryCandidates_verified]
      constructor
      · rintro ⟨rfl, hothers⟩
        exact ⟨[], sigParams, rest, rfl, hcheck, hothers⟩
      · rintro ⟨before, found, after, heq, hfound, hothers⟩
        cases before with
        | nil =>
          obtain ⟨rfl, rfl⟩ := List.cons.inj heq
          rw [hcheck] at hfound
          exact ⟨(Except.ok.inj hfound).symm, hothers⟩
        | cons first before =>
          obtain ⟨rfl, -⟩ := List.cons.inj heq
          obtain ⟨error', herror, -⟩ := hothers sigParams (by simp)
          rw [hcheck] at herror
          cases herror

/-- The order of the candidates does not matter. -/
theorem tryCandidates_perm :
    tryCandidates check candidates none lastError = .ok result ↔
      ∃ sigParams rest, candidates.Perm (sigParams :: rest) ∧ check sigParams = .ok result ∧
        ∀ other ∈ rest, Skips check other := by
  rw [tryCandidates_eq_ok]
  constructor
  · rintro ⟨before, sigParams, after, rfl, hvalid, hothers⟩
    exact ⟨sigParams, before ++ after, List.perm_middle, hvalid, hothers⟩
  · rintro ⟨sigParams, rest, hperm, hvalid, hothers⟩
    have hmem : sigParams ∈ candidates := hperm.symm.subset List.mem_cons_self
    obtain ⟨before, after, rfl⟩ := List.append_of_mem hmem
    have hrest : (before ++ after).Perm rest := List.Perm.cons_inv (List.perm_middle.symm.trans hperm)
    exact ⟨before, sigParams, after, rfl, hvalid, fun other hother => hothers other (hrest.subset hother)⟩

end Loop

/-! ## What was read from a header -/

section Read
variable {P : HttpPlatform}

/-- What the structured-field library has parsed, it serializes. -/
structure HttpPlatform.Reserializes (P : HttpPlatform) : Prop where
  item : ∀ text dictionary name item, P.parseDictionary text = some dictionary → (name, Member.item item) ∈ dictionary →
    ∃ out, P.serializeItem item = .ok out
  innerList : ∀ text dictionary name items params, P.parseDictionary text = some dictionary →
    (name, Member.innerList items params) ∈ dictionary →
    (∃ out, P.serializeInnerList items params = .ok out) ∧ (∃ out, P.serializeInnerList items [] = .ok out) ∧
      (∀ item ∈ items, ∃ out, P.serializeItem item = .ok out) ∧
      ∀ parameter ∈ params, ∃ out, P.serializeParameters [parameter] = .ok out

/-- Components and parameters serialize. -/
structure SignatureParams.Serializes (P : HttpPlatform) (sigParams : SignatureParams) : Prop where
  valid : validateComponents P sigParams.components = .ok ()
  component : ∀ component ∈ sigParams.components, ∃ out, P.serializeItem (componentItem component) = .ok out
  components : ∃ out, P.serializeInnerList (sigParams.components.map componentItem) [] = .ok out
  parameters : ∃ parameters, sigParams.parameters = some parameters ∧
    ∀ parameter ∈ parameters, ∃ out, P.serializeParameters [parameter] = .ok out

theorem fromStructuredParam_eq_ok {param : String × BareItem} {value : String × ParamValue}
    (h : fromStructuredParam param = .ok value) : (value.1, structuredValue value.2) = param := by
  unfold fromStructuredParam at h
  obtain ⟨name, item⟩ := param
  cases item with
  | str text | bool value =>
    obtain rfl := Except.ok.inj h
    rfl
  | num number =>
    simp only at h
    split_ifs at h
    obtain rfl := Except.ok.inj h
    rfl
  | token _ | bytes _ | date _ | displayString _ => cases h

theorem toStructuredParams_of_read {params : Parameters} {entries : List (String × ParamValue)}
    (h : List.Forall₂ (fun param value => fromStructuredParam param = .ok value) params entries) :
    toStructuredParams entries = params := by
  induction h with
  | nil => rfl
  | cons hparam _ ih =>
    rw [toStructuredParams, List.map_cons, fromStructuredParam_eq_ok hparam, ← ih]
    rfl

theorem fromStructuredParams_eq_ok {params : Parameters} {object : ParamObject}
    (h : fromStructuredParams params = .ok object) : toStructuredParams object.entries = params := by
  simp only [fromStructuredParams, bind_eq_ok] at h
  obtain ⟨entries, hentries, h⟩ := h
  split_ifs at h
  obtain rfl := Except.ok.inj h
  exact toStructuredParams_of_read (mapM_eq_ok.mp hentries)

/-- A component is serialized as it was read. -/
theorem parseComponentItem_eq_ok {item : Item} {component : ComponentIdentifier}
    (h : parseComponentItem item = .ok component) : componentItem component = item := by
  obtain ⟨value, params⟩ := item
  unfold parseComponentItem at h
  cases value with
  | str rawName =>
    simp only [bind_eq_ok, pure_eq_ok] at h
    obtain ⟨object, hobject, rfl⟩ := h
    have hparams := fromStructuredParams_eq_ok hobject
    split_ifs with hempty
    · rw [hempty] at hparams
      rw [componentItem, componentName, componentParams, hparams]
    · rw [componentItem, componentName, componentParams, hparams]
  | num _ | bool _ | token _ | bytes _ | date _ | displayString _ => cases h

theorem parseComponents_eq_ok {items : List Item} {components : List ComponentIdentifier}
    (h : parseComponents P items = .ok components) :
    validateComponents P components = .ok () ∧ components.map componentItem = items := by
  simp only [parseComponents, bind_eq_ok, throwIf_eq_ok, mapError_eq_ok, pure_eq_ok] at h
  obtain ⟨_, -, components', hitems, _, hvalid, rfl⟩ := h
  refine ⟨hvalid, ?_⟩
  have hall := mapM_eq_ok.mp hitems
  clear hitems hvalid
  induction hall with
  | nil => rfl
  | cons hitem _ ih => rw [List.map_cons, parseComponentItem_eq_ok hitem, ih]

theorem applyParameter_eq_ok {state state' : SignatureParams × List String} {parameter : String × BareItem}
    (h : applyParameter state parameter = .ok state') :
    state'.1.label = state.1.label ∧ state'.1.components = state.1.components ∧
      state'.1.parameters = state.1.parameters := by
  simp only [applyParameter, bind_eq_ok, throwIf_eq_ok] at h
  obtain ⟨_, -, _, -, h⟩ := h
  -- Each known parameter sets its own field.
  split_ifs at h
  all_goals
    first
    | obtain ⟨_, -, h⟩ := bind_eq_ok.mp h
      obtain rfl := pure_eq_ok.mp h
      exact ⟨rfl, rfl, rfl⟩
    | obtain rfl := pure_eq_ok.mp h
      exact ⟨rfl, rfl, rfl⟩

theorem applySignatureInputParams_eq_ok {parsed result : SignatureParams} {params : Parameters}
    (h : applySignatureInputParams parsed params = .ok result) :
    result.label = parsed.label ∧ result.components = parsed.components ∧ result.parameters = parsed.parameters := by
  simp only [applySignatureInputParams, bind_eq_ok, pure_eq_ok] at h
  obtain ⟨⟨result', seen⟩, hfold, rfl⟩ := h
  have hall : ∀ (params : Parameters) (state state' : SignatureParams × List String),
      params.foldlM applyParameter state = .ok state' → state'.1.label = state.1.label ∧
        state'.1.components = state.1.components ∧ state'.1.parameters = state.1.parameters := by
    intro params
    induction params with
    | nil =>
      intro state state' h
      obtain rfl := pure_eq_ok.mp h
      exact ⟨rfl, rfl, rfl⟩
    | cons parameter params ih =>
      intro state state' h
      rw [List.foldlM_cons, bind_eq_ok] at h
      obtain ⟨state₁, hstep, hrest⟩ := h
      obtain ⟨hlabel, hcomponents, hparameters⟩ := applyParameter_eq_ok hstep
      obtain ⟨hlabel', hcomponents', hparameters'⟩ := ih state₁ state' hrest
      exact ⟨hlabel'.trans hlabel, hcomponents'.trans hcomponents, hparameters'.trans hparameters⟩
  exact hall params _ _ hfold

theorem parseParameter_eq_ok {segment : Text} {parameter : String × BareItem}
    (h : parseParameter P segment = .ok parameter) :
    ∃ text dictionary items, P.parseDictionary text = some dictionary ∧
      ("x", Member.innerList items [parameter]) ∈ dictionary := by
  simp only [parseParameter, bind_eq_ok, orThrow_eq_ok] at h
  obtain ⟨dictionary, hparse, h⟩ := h
  split at h
  next items parameter' hlookup =>
    obtain rfl := Except.ok.inj h
    exact ⟨_, dictionary, items, hparse, mem_of_lookup hlookup⟩
  next => cases h

/-- The items of the member are covered, under its label. -/
theorem parseInputMember_covers {label : String} {member : Member} {entry : Text} {sigParams : SignatureParams}
    (h : parseInputMember P label member entry = .ok sigParams) :
    sigParams.label = label ∧ ∃ items params, member = .innerList items params ∧
      sigParams.components.map componentItem = items := by
  unfold parseInputMember at h
  split at h
  next => cases h
  next items params =>
    simp only [bind_eq_ok] at h
    obtain ⟨components, hcomponents, parameters, -, happly⟩ := h
    obtain ⟨hlabel, hcomponents', -⟩ := applySignatureInputParams_eq_ok happly
    refine ⟨hlabel, items, params, rfl, ?_⟩
    rw [hcomponents']
    exact (parseComponents_eq_ok hcomponents).2

/-- Who is read from a header serializes. -/
theorem parseInputMember_eq_ok (hP : P.Reserializes) {text : String} {dictionary : List (String × Member)}
    {label : String} {member : Member} {entry : Text} {sigParams : SignatureParams}
    (hparse : P.parseDictionary text = some dictionary) (hmem : (label, member) ∈ dictionary)
    (h : parseInputMember P label member entry = .ok sigParams) : sigParams.Serializes P := by
  unfold parseInputMember at h
  split at h
  next => cases h
  next items params =>
    simp only [bind_eq_ok] at h
    obtain ⟨components, hcomponents, parameters, hparameters, happly⟩ := h
    obtain ⟨hvalid, hitems⟩ := parseComponents_eq_ok hcomponents
    obtain ⟨-, hcomponents', hparameters'⟩ := applySignatureInputParams_eq_ok happly
    obtain ⟨-, hlist, hitem, -⟩ := hP.innerList _ _ _ _ _ hparse hmem
    refine ⟨?_, ?_, ?_, ?_⟩
    · rw [hcomponents']
      exact hvalid
    · intro component hcomponent
      rw [hcomponents'] at hcomponent
      apply hitem
      rw [← hitems]
      exact List.mem_map_of_mem hcomponent
    · rw [hcomponents', hitems]
      exact hlist
    · refine ⟨parameters, hparameters', fun parameter hparameter => ?_⟩
      obtain ⟨segment, -, hsegment⟩ := mem_of_mapM hparameters hparameter
      obtain ⟨text', dictionary', items', hparse', hmem'⟩ := parseParameter_eq_ok hsegment
      exact (hP.innerList _ _ _ _ _ hparse' hmem').2.2.2 parameter List.mem_cons_self

end Read

/-! ## Errors of a candidate -/

section Caught
variable {P : HttpPlatform}

/-- Every error is one that the loop catches. -/
def Caught {α : Type} (x : Except HttpError α) : Prop := ErrorsIn (fun error => error.isCaught = true) x

theorem caught_of_ok {α : Type} {x : Except HttpError α} (h : ∃ a, x = .ok a) : Caught x := by
  obtain ⟨a, rfl⟩ := h
  exact ErrorsIn.of_ok a

theorem caught_orThrow {α : Type} {error : HttpError} (h : error.isCaught = true) (x : Option α) : Caught (orThrow error x) :=
  ErrorsIn.orThrow (P := fun e : HttpError => e.isCaught = true) h x

theorem caught_validateParam (allowed : List String) (param : String × ParamValue) : Caught (validateParam allowed param) :=
  ErrorsIn.bind (ErrorsIn.throwIf rfl) fun _ _ => ErrorsIn.throwIf rfl

theorem caught_validateComponentIdentifier (component : ComponentIdentifier) :
    Caught (validateComponentIdentifier component) := by
  refine ErrorsIn.bind (ErrorsIn.throwIf rfl) fun _ _ => ErrorsIn.bind (ErrorsIn.throwIf rfl) fun _ _ => ?_
  refine ErrorsIn.bind (ErrorsIn.throwIf rfl) fun _ _ => ErrorsIn.forM fun param _ => ?_
  exact caught_validateParam _ param

theorem caught_fieldValue (hP : P.Reserializes) (source : Message) (name : String) (params : List (String × ParamValue)) :
    Caught (fieldValue P source name params) := by
  refine ErrorsIn.bind (caught_orThrow rfl _) fun val _ => ?_
  split
  next => exact ErrorsIn.of_pure _
  next value _ =>
    refine ErrorsIn.bind (caught_orThrow rfl _) fun dict hdict => ErrorsIn.bind (caught_orThrow rfl _) fun member hmember => ?_
    have hmem := mem_of_lookup (orThrow_eq_ok.mp hmember)
    have hparse := orThrow_eq_ok.mp hdict
    cases member with
    | item item => exact caught_of_ok (hP.item _ _ _ _ hparse hmem)
    | innerList items params => exact caught_of_ok (hP.innerList _ _ _ _ _ hparse hmem).1

theorem caught_queryParamValue (search paramName : String) : Caught (queryParamValue P search paramName) := by
  unfold queryParamValue
  split
  next => exact ErrorsIn.of_error rfl
  next => exact ErrorsIn.of_ok _
  next => exact ErrorsIn.of_error rfl

theorem caught_derivedComponent {params : List (String × ParamValue)} {name : String}
    {value : Request → Except HttpError String} (h : derivedComponent P params name = some value) (req : Request) :
    Caught (value req) := by
  unfold derivedComponent at h
  split at h
  case h_6 =>
    obtain rfl := Option.some.inj h
    exact caught_queryParamValue _ _
  case h_9 => cases h
  all_goals
    obtain rfl := Option.some.inj h
    exact ErrorsIn.of_ok _

theorem caught_extractComponentValue (hP : P.Reserializes) (input : HttpMessage) (component : ComponentIdentifier) :
    Caught (extractComponentValue P input component) := by
  refine ErrorsIn.bind (caught_validateComponentIdentifier component) fun _ _ => ErrorsIn.bind ?_ fun source _ => ?_
  · unfold sourceOf
    split_ifs
    · split
      next => exact ErrorsIn.of_ok _
      next => exact ErrorsIn.of_error rfl
    · exact ErrorsIn.of_ok _
  · dsimp only
    split
    next value hvalue =>
      exact ErrorsIn.bind (caught_orThrow rfl _) fun req _ => caught_derivedComponent hvalue req
    next =>
      split_ifs
      · cases source with
        | request req => exact ErrorsIn.of_error rfl
        | response res => exact ErrorsIn.of_ok _
      · exact caught_fieldValue hP _ _ _

theorem caught_checkParameter (seenKnown : List String) (parameter : String × BareItem) :
    Caught (checkParameter seenKnown parameter) := by
  refine ErrorsIn.bind (ErrorsIn.throwIf rfl) fun _ _ => ErrorsIn.bind (ErrorsIn.throwIf rfl) fun _ _ => ?_
  refine ErrorsIn.bind (ErrorsIn.throwIf rfl) fun _ _ => ErrorsIn.bind (ErrorsIn.throwIf rfl) fun _ _ => ?_
  exact ErrorsIn.of_pure _

theorem caught_buildSignatureInput (hP : P.Reserializes) (msg : HttpMessage) {sigParams : SignatureParams}
    (h : sigParams.Serializes P) : Caught (buildSignatureInput P msg sigParams) := by
  refine ErrorsIn.bind (caught_of_ok ⟨(), h.valid⟩) fun _ _ => ErrorsIn.bind (ErrorsIn.mapM fun component hmem => ?_) fun _ _ =>
    ErrorsIn.bind (ErrorsIn.bind (caught_of_ok h.components) fun _ _ => ErrorsIn.bind ?_ fun _ _ => ErrorsIn.of_pure _)
      fun _ _ => ErrorsIn.of_pure _
  · refine ErrorsIn.bind (caught_of_ok (h.component component hmem)) fun _ _ => ?_
    exact ErrorsIn.bind (caught_extractComponentValue hP msg component) fun _ _ => ErrorsIn.of_pure _
  · obtain ⟨parameters, hparameters, hserialize⟩ := h.parameters
    have hlist : signatureParameterList sigParams = (do let _ ← parameters.foldlM checkParameter []; return parameters) := by
      rw [signatureParameterList, hparameters]
    unfold serializedParameterList
    rw [hlist]
    refine ErrorsIn.bind ?_ fun list hok => ErrorsIn.mapM fun parameter hmem => ?_
    · exact ErrorsIn.bind (ErrorsIn.foldlM caught_checkParameter []) fun _ _ => ErrorsIn.of_pure _
    · obtain ⟨_, -, hpure⟩ := bind_eq_ok.mp hok
      obtain rfl := pure_eq_ok.mp hpure
      exact caught_of_ok (hserialize parameter hmem)

theorem caught_jwkSignatureAlg (key : Protocol.SignatureJwk) : Caught ((Protocol.jwkSignatureAlg key).mapError ofKeyError) := by
  have hvalidation : ErrorsIn (fun error => ∃ message, error = Protocol.KeyError.validationError message)
      (Protocol.jwkSignatureAlg key) := by
    refine ErrorsIn.bind (ErrorsIn.throwIf ⟨_, rfl⟩) fun _ _ => ?_
    split
    next =>
      refine ErrorsIn.bind (ErrorsIn.throwIf ⟨_, rfl⟩) fun _ _ => ErrorsIn.bind (ErrorsIn.throwIf ⟨_, rfl⟩) fun _ _ => ?_
      exact ErrorsIn.of_pure _
    next =>
      unfold Protocol.derivedSignatureAlg
      split_ifs
      iterate 4 exact ErrorsIn.of_ok _
      exact ErrorsIn.of_error ⟨_, rfl⟩
  refine hvalidation.mapError ?_
  rintro error ⟨message, rfl⟩
  rfl

section Profile
variable {Identity : Type} {E : ProfileEnvironment Identity}

theorem caught_parseKeyId (keyId : String) : Caught ((parseKeyId E keyId).mapError invalidKeyId) := by
  have hargument : ErrorsIn (fun error => ∃ message, error = HttpError.argumentError message) (parseKeyId E keyId) := by
    refine ErrorsIn.bind (ErrorsIn.throwIf ⟨_, rfl⟩) fun _ _ => ErrorsIn.bind (ErrorsIn.throwIf ⟨_, rfl⟩) fun _ _ => ?_
    refine ErrorsIn.bind (ErrorsIn.throwIf ⟨_, rfl⟩) fun _ _ => ErrorsIn.bind (ErrorsIn.throwIf ⟨_, rfl⟩) fun _ _ => ?_
    refine ErrorsIn.bind ?_ fun _ _ => ErrorsIn.of_pure _
    exact ErrorsIn.mapError (P := fun _ => True) (fun _ _ => trivial) fun _ _ => ⟨_, rfl⟩
  refine hargument.mapError ?_
  rintro error ⟨message, rfl⟩
  rfl

theorem caught_checkFreshness (created : ℚ) (expires : Option ℚ) : Caught (checkFreshness E created expires) := by
  refine ErrorsIn.bind (ErrorsIn.throwIf rfl) fun _ _ => ErrorsIn.bind (ErrorsIn.throwIf rfl) fun _ _ => ?_
  cases expires with
  | none => exact ErrorsIn.of_pure ()
  | some expires =>
    refine ErrorsIn.bind (ErrorsIn.throwIf rfl) fun _ _ => ErrorsIn.bind (ErrorsIn.throwIf rfl) fun _ _ => ?_
    exact ErrorsIn.throwIf rfl

theorem caught_parseSha256ContentDigest (headerValue : Text) (components : List ComponentIdentifier) :
    Caught (parseSha256ContentDigest E headerValue components) := by
  refine ErrorsIn.bind (ErrorsIn.throwIf rfl) fun _ _ => ErrorsIn.bind ?_ fun dictionary _ => ?_
  · exact ErrorsIn.mapError (P := fun _ => True) (fun _ _ => trivial) fun _ _ => rfl
  · unfold sha256Member
    split
    · exact ErrorsIn.of_ok _
    · exact ErrorsIn.of_error rfl

theorem caught_checkContent (req : BodyRequest) (components : List ComponentIdentifier) :
    Caught (checkContent E req components) := by
  refine ErrorsIn.bind (ErrorsIn.throwIf rfl) fun _ _ => ?_
  split_ifs
  · refine ErrorsIn.bind (caught_orThrow rfl _) fun body _ => ErrorsIn.bind (caught_orThrow rfl _) fun header _ => ?_
    refine ErrorsIn.bind (caught_parseSha256ContentDigest _ _) fun digest _ => ErrorsIn.bind ?_ fun bytes _ => ?_
    · exact ErrorsIn.bind (ErrorsIn.throwIf rfl) fun _ _ => ErrorsIn.of_pure _
    · exact ErrorsIn.throwIf rfl
  · exact ErrorsIn.of_pure ()

theorem caught_joseAlgToHttpSigAlg (alg : String) : Caught (joseAlgToHttpSigAlg alg) := by
  unfold joseAlgToHttpSigAlg
  split_ifs
  · exact ErrorsIn.of_ok _
  · exact ErrorsIn.of_ok _
  · exact ErrorsIn.of_error rfl

theorem caught_checkSignature (hP : E.toHttpPlatform.Reserializes) (req : BodyRequest) {sigParams : SignatureParams}
    (h : sigParams.Serializes E.toHttpPlatform) (rawSig : Bytes) (sigKey : Protocol.SignatureJwk) :
    Caught (checkSignature E req sigParams rawSig sigKey) := by
  refine ErrorsIn.bind (caught_jwkSignatureAlg sigKey) fun alg _ => ErrorsIn.bind (caught_joseAlgToHttpSigAlg alg) fun _ _ => ?_
  refine ErrorsIn.bind (ErrorsIn.throwIf rfl) fun _ _ => ErrorsIn.bind ?_ fun _ _ => ErrorsIn.throwIf rfl
  refine ErrorsIn.mapError (caught_buildSignatureInput hP _ h) fun error hcaught => ?_
  cases error with
  | argumentError message => rfl
  | validationError message => rfl
  | verificationError code message transient => rfl
  | other message => exact hcaught

/-- A candidate that was read from a header verifies, or the loop goes on to the next one. -/
theorem caught_verifySignatureCandidate (hP : E.toHttpPlatform.Reserializes) (hresolver : ∀ domain, Caught (E.verifyDomain domain))
    (req : BodyRequest) {sigParams : SignatureParams} (h : sigParams.Serializes E.toHttpPlatform) (rawSig : Bytes)
    (opts : HttpVerificationOptions) : Caught (verifySignatureCandidate E req sigParams rawSig opts) := by
  refine ErrorsIn.bind (ErrorsIn.forM fun component _ => ErrorsIn.throwIf rfl) fun _ _ => ?_
  refine ErrorsIn.bind (caught_orThrow rfl _) fun keyId _ => ErrorsIn.bind (caught_orThrow rfl _) fun created _ => ?_
  refine ErrorsIn.bind (caught_parseKeyId keyId) fun identity _ => ?_
  refine ErrorsIn.bind (caught_checkFreshness _ _) fun _ _ => ErrorsIn.bind (hresolver _) fun vd _ => ?_
  refine ErrorsIn.bind (caught_orThrow rfl _) fun sigKey _ => ErrorsIn.bind (caught_checkContent req _) fun _ _ => ?_
  exact ErrorsIn.bind (caught_checkSignature hP req h rawSig sigKey) fun _ _ => ErrorsIn.of_pure _

end Profile

end Caught

end Dnsid.HttpSignatures

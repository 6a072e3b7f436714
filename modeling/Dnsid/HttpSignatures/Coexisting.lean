import Dnsid.HttpSignatures.AcceptedInput
import Dnsid.HttpSignatures.BaseInjective
import Dnsid.HttpSignatures.Candidates
import Dnsid.HttpSignatures.DictionaryMembers
import Mathlib.Data.List.TakeWhile

/-! # Signatures beside a verified one

A signature that is added to a verified request is one more candidate, which the loop skips. That is so when the member
of `Signature-Input` is one that the profile could have read as its own; otherwise the whole request is rejected.
-/
namespace Dnsid.HttpSignatures
open Dnsid.Foundations
set_option autoImplicit false

/-! ## A member more -/

/-- A header, cut where a member is added, and what the parts have. -/
structure Insertion where
  before : List Text
  after : List Text
  text : Text
  beforeRead : List (List ((String × Member) × Text))
  afterRead : List (List ((String × Member) × Text))

def Insertion.header (i : Insertion) : Text := joined (i.before ++ i.after)

def Insertion.extended (i : Insertion) : Text := joined (i.before ++ i.text :: i.after)

/-- The members of the header. -/
def Insertion.members (i : Insertion) : List ((String × Member) × Text) := i.beforeRead.flatten ++ i.afterRead.flatten

/-- The parts are read as these members and the text as one; the extended header stays within the limits. -/
structure Insertion.Reads (P : HttpPlatform) (i : Insertion) (member : String × Member) : Prop where
  before : List.Forall₂ (IsPart P) i.before i.beforeRead
  after : List.Forall₂ (IsPart P) i.after i.afterRead
  added : IsPart P i.text [(member, trim i.text)]
  stripped : Stripped i.header ∧ Stripped i.extended
  bound : i.extended.length ≤ 16 * 1024
  count : i.members.length < 16
  fresh : member.1 ∉ i.members.map fun read => read.1.1

section Insertion
variable {P : HttpPlatform} {i : Insertion} {member : String × Member} {failure : HttpError}
  {read : List ((String × Member) × Text)}

theorem Insertion.parts_ne_nil (hne : i.header ≠ []) : i.before ++ i.after ≠ [] := by
  intro hnil
  rw [Insertion.header, hnil] at hne
  exact hne rfl

theorem Insertion.Reads.distinct (h : i.Reads P member) (hdistinct : DistinctNames (i.members.map Prod.fst)) :
    DistinctNames ((i.beforeRead.flatten ++ (member, trim i.text) :: i.afterRead.flatten).map Prod.fst) := by
  have hperm : (i.beforeRead.flatten ++ (member, trim i.text) :: i.afterRead.flatten).Perm ((member, trim i.text) :: i.members) :=
    List.perm_middle
  refine DistinctNames.perm ?_ (hperm.map Prod.fst).symm
  refine List.nodup_cons.mpr ⟨?_, hdistinct⟩
  simpa using h.fresh

theorem Insertion.Reads.parsed (hP : P.DictionaryLaws) (h : i.Reads P member) (hne : i.header ≠ [])
    (hdistinct : DistinctNames (i.members.map Prod.fst)) :
    P.parseDictionary (String.ofList i.header) = some (i.members.map Prod.fst) ∧
      P.parseDictionary (String.ofList i.extended) =
        some ((i.beforeRead.flatten ++ (member, trim i.text) :: i.afterRead.flatten).map Prod.fst) := by
  have htexts := Insertion.parts_ne_nil hne
  have hflatten : (i.beforeRead ++ [(member, trim i.text)] :: i.afterRead).flatten =
      i.beforeRead.flatten ++ (member, trim i.text) :: i.afterRead.flatten := by simp
  constructor
  · have hall := parseDictionary_distinct hP (List.rel_append h.before h.after) htexts h.stripped.1
    rw [List.flatten_append] at hall
    exact hall hdistinct
  · have hall := parseDictionary_distinct hP (List.rel_append h.before (.cons h.added h.after)) (by simp) h.stripped.2
    rw [hflatten] at hall
    exact hall (h.distinct hdistinct)

/-- The extended header has the members of the header, and one more. -/
theorem Insertion.Reads.read_extended (hP : P.DictionaryLaws) (h : i.Reads P member) (hne : i.header ≠ [])
    (hread : readDictionary P failure i.header = .ok read) :
    DistinctNames (i.members.map Prod.fst) ∧ read = i.members ∧
      readDictionary P failure i.extended = .ok (i.beforeRead.flatten ++ (member, trim i.text) :: i.afterRead.flatten) := by
  have htexts := Insertion.parts_ne_nil hne
  have hmembers := (readDictionary_joined hP (List.rel_append h.before h.after) htexts h.stripped.1).mp hread
  rw [List.flatten_append] at hmembers
  obtain ⟨-, -, hdistinct, rfl⟩ := hmembers
  refine ⟨hdistinct, rfl, ?_⟩
  have hextended := List.rel_append h.before (.cons h.added h.after)
  have hflatten : (i.beforeRead ++ [(member, trim i.text)] :: i.afterRead).flatten =
      i.beforeRead.flatten ++ (member, trim i.text) :: i.afterRead.flatten := by simp
  refine (readDictionary_joined hP hextended (by simp) h.stripped.2).mpr ⟨h.bound, ?_, ?_, hflatten.symm⟩
  · rw [hflatten, List.perm_middle.length_eq, List.length_cons]
    exact h.count
  · rw [hflatten]
    exact h.distinct hdistinct

theorem Insertion.extended_ne_nil (hne : i.header ≠ []) : i.extended ≠ [] := by
  have htexts := Insertion.parts_ne_nil hne
  have hcomma : ∀ text texts, texts ≠ [] → joined (text :: texts) ≠ [] := by
    intro text texts hrest
    rw [joined_cons hrest]
    simp
  rw [Insertion.extended]
  cases hbefore : i.before with
  | nil =>
    rw [hbefore] at htexts
    exact hcomma _ _ htexts
  | cons text texts => exact hcomma _ _ (by simp)

/-- Another member is found where it was. -/
theorem lookup_extended {key : String} (hkey : key ≠ member.1) :
    ((i.beforeRead.flatten ++ (member, trim i.text) :: i.afterRead.flatten).map Prod.fst).lookup key =
      (i.members.map Prod.fst).lookup key := by
  rw [Insertion.members, List.map_append, List.map_append, List.map_cons]
  exact lookup_middle_ne hkey

end Insertion

/-! ## What is signed -/

/-- The item covers neither header as a whole, nor the member of this label in it. -/
def SparesLabel (label : String) (item : Item) : Prop :=
  ∀ name, item.1 = .str name → name ∈ ["signature", "signature-input"] →
    ∃ key, item.2.lookup "key" = some (.str key) ∧ key ≠ label

/-- The requests differ in the members of this label. -/
structure AlikeBut (P : HttpPlatform) (label : String) (req req' : BodyRequest) : Prop where
  method : req'.method = req.method
  url : req'.url = req.url
  body : req'.body = req.body
  others : ∀ name, name ∉ ["signature", "signature-input"] → req'.headers.lookup name = req.headers.lookup name
  members : ∀ name ∈ ["signature", "signature-input"], ∃ header header' dictionary dictionary',
    req.headers.lookup name = some header ∧ req'.headers.lookup name = some header' ∧
      P.parseDictionary header = some dictionary ∧ P.parseDictionary header' = some dictionary' ∧
      ∀ key, key ≠ label → dictionary'.lookup key = dictionary.lookup key

section Signed
variable {P : HttpPlatform} {label : String} {req req' : BodyRequest}

theorem lookup_toStructuredParams (params : List (String × ParamValue)) (name : String) :
    (toStructuredParams params).lookup name = (params.lookup name).map structuredValue := by
  induction params with
  | nil => rfl
  | cons param params ih =>
    rw [toStructuredParams, List.map_cons, List.lookup_cons, List.lookup_cons]
    split
    · rfl
    · exact ih

theorem fieldValue_of_member {source : Message} {name key header : String} {params : List (String × ParamValue)}
    {dictionary : List (String × Member)} (hheader : source.headers.lookup name = some header)
    (hparam : params.lookup "key" = some (.str key)) (hparsed : P.parseDictionary header = some dictionary) :
    fieldValue P source name params =
      (orThrow (.argumentError s!"covered component \"{name}\" missing dictionary key \"{key}\"") (dictionary.lookup key) >>=
        serializeStructuredMember P) := by
  simp only [fieldValue, hheader, hparam, hparsed, orThrow_some, ok_bind, paramText]

theorem fieldValue_alike (h : AlikeBut P label req req') {name : String} {params : List (String × ParamValue)}
    (hspares : name ∈ ["signature", "signature-input"] → ∃ key, params.lookup "key" = some (.str key) ∧ key ≠ label) :
    fieldValue P (.request req'.toRequest) name params = fieldValue P (.request req.toRequest) name params := by
  by_cases hname : name ∈ ["signature", "signature-input"]
  · obtain ⟨key, hparam, hkey⟩ := hspares hname
    obtain ⟨header, header', dictionary, dictionary', hheader, hheader', hparsed, hparsed', hlookup⟩ := h.members name hname
    rw [fieldValue_of_member hheader' hparam hparsed', fieldValue_of_member hheader hparam hparsed, hlookup key hkey]
  · rw [fieldValue, fieldValue, Message.headers, Message.headers, h.others name hname]

theorem derivedComponent_alike (h : AlikeBut P label req req') {name : String} {params : List (String × ParamValue)}
    {value : Request → Except HttpError String} (hvalue : derivedComponent P params name = some value) :
    value req'.toRequest = value req.toRequest := by
  unfold derivedComponent at hvalue
  split at hvalue
  case h_9 => cases hvalue
  all_goals
    obtain rfl := Option.some.inj hvalue
    simp only [h.method, h.url]

theorem extractComponentValue_alike (h : AlikeBut P label req req') {component : ComponentIdentifier}
    (hspares : SparesLabel label (componentItem component)) :
    extractComponentValue P ⟨.request req'.toRequest, none⟩ component =
      extractComponentValue P ⟨.request req.toRequest, none⟩ component := by
  have hfield : componentName component ∈ ["signature", "signature-input"] →
      ∃ key, (componentParams component).lookup "key" = some (.str key) ∧ key ≠ label := by
    intro hname
    obtain ⟨key, hkey, hne⟩ := hspares _ rfl hname
    rw [componentItem, lookup_toStructuredParams, Option.map_eq_some_iff] at hkey
    obtain ⟨value, hvalue, hstr⟩ := hkey
    cases value with
    | str text =>
      obtain rfl := BareItem.str.inj hstr
      exact ⟨text, hvalue, hne⟩
    | num _ | bool _ => cases hstr
  simp only [extractComponentValue, sourceOf]
  by_cases hreq : (componentParams component).lookup "req" = some (.bool true)
  · rw [if_pos hreq, if_pos hreq]
  · rw [if_neg hreq, if_neg hreq]
    refine congrArg _ (funext fun _ => ?_)
    simp only [bind, Except.bind]
    cases hderived : derivedComponent P (componentParams component) (componentName component) with
    | some value => simp only [requestOf, orThrow, derivedComponent_alike h hderived]
    | none =>
      dsimp only
      split_ifs
      · rfl
      · exact fieldValue_alike h hfield

theorem buildSignatureInput_alike (h : AlikeBut P label req req') {sigParams : SignatureParams}
    (hspares : ∀ component ∈ sigParams.components, SparesLabel label (componentItem component)) :
    buildSignatureInput P ⟨.request req'.toRequest, none⟩ sigParams =
      buildSignatureInput P ⟨.request req.toRequest, none⟩ sigParams := by
  have hlines : sigParams.components.mapM (componentLine P ⟨.request req'.toRequest, none⟩) =
      sigParams.components.mapM (componentLine P ⟨.request req.toRequest, none⟩) := by
    refine mapM_congr fun component hmem => ?_
    rw [componentLine, componentLine, extractComponentValue_alike h (hspares component hmem)]
  rw [buildSignatureInput, buildSignatureInput, hlines]

end Signed

theorem verifySignatureCandidate_alike {Identity : Type} {E : ProfileEnvironment Identity} {label : String}
    {req req' : BodyRequest} (h : AlikeBut E.toHttpPlatform label req req') {sigParams : SignatureParams}
    (hspares : ∀ component ∈ sigParams.components, SparesLabel label (componentItem component)) (rawSig : Bytes)
    (opts : HttpVerificationOptions) :
    verifySignatureCandidate E req' sigParams rawSig opts = verifySignatureCandidate E req sigParams rawSig opts := by
  have hcontent : checkContent E req' sigParams.components = checkContent E req sigParams.components := by
    rw [checkContent, checkContent, checkDigest, checkDigest, h.body, h.others "content-digest" (by decide)]
  have hsignature : checkSignature E req' sigParams rawSig = checkSignature E req sigParams rawSig := by
    funext sigKey
    rw [checkSignature, checkSignature, buildSignatureInput_alike h hspares]
  rw [verifySignatureCandidate, verifySignatureCandidate, hcontent, hsignature]

/-! ## One more signature -/

/-- A signature of another party, and where its members go. -/
structure AddedSignature where
  label : String
  items : List Item
  params : Parameters
  value : Bytes
  valueParams : Parameters
  input : Insertion
  signature : Insertion

/-- `req'` is `req` with the signature. -/
structure AddedSignature.Adds (P : HttpPlatform) (a : AddedSignature) (req req' : BodyRequest) : Prop where
  method : req'.method = req.method
  url : req'.url = req.url
  body : req'.body = req.body
  others : ∀ name, name ∉ ["signature", "signature-input"] → req'.headers.lookup name = req.headers.lookup name
  inputHeader : req.headers.lookup "signature-input" = some (String.ofList a.input.header) ∧
    req'.headers.lookup "signature-input" = some (String.ofList a.input.extended)
  signatureHeader : req.headers.lookup "signature" = some (String.ofList a.signature.header) ∧
    req'.headers.lookup "signature" = some (String.ofList a.signature.extended)
  input : a.input.Reads P (a.label, .innerList a.items a.params)
  signature : a.signature.Reads P (a.label, .item (.bytes a.value, a.valueParams))

/-- A candidate of the request spares the label in all that it covers, or it is valid neither with the added signature nor
without it. -/
def AddedSignature.Spared {Identity : Type} (E : ProfileEnvironment Identity) (opts : HttpVerificationOptions)
    (a : AddedSignature) (req req' : BodyRequest) : Prop :=
  ∀ inputs sigs, parseSignatureInput E.toHttpPlatform a.input.header = .ok inputs →
    parseSignature E.toHttpPlatform a.signature.header = .ok sigs →
    ∀ candidate ∈ inputs.filter (isCandidate sigs opts.requiredTag),
      (∀ component ∈ candidate.components, SparesLabel a.label (componentItem component)) ∨
        ∀ request ∈ [req, req'], ∀ identity,
          verifySignatureCandidate E request candidate ((sigs.lookup candidate.label).getD []) opts ≠ .ok identity

section Added
variable {Identity : Type} {E : ProfileEnvironment Identity} {opts : HttpVerificationOptions} {vd : Identity}
  {req req' : BodyRequest} {a : AddedSignature}

theorem headerText_iff {name : String} {text found : Text} (h : req.headers.lookup name = some (String.ofList text)) :
    headerText req name = some found ↔ text ≠ [] ∧ found = text := by
  rw [headerText, h, Option.map_some, String.toList_ofList, Option.filter_eq_some_iff, Option.some.injEq, decide_eq_true_iff]
  constructor
  · rintro ⟨rfl, hne⟩
    exact ⟨hne, rfl⟩
  · rintro ⟨hne, rfl⟩
    exact ⟨rfl, hne⟩

/-- The verification of a request, after both headers were read. -/
theorem verify_eq_ok :
    verifySignedHttpRequest E req opts = .ok vd ↔ ∃ inputHeader signatureHeader inputs sigs sigParams rest,
      headerText req "signature-input" = some inputHeader ∧ headerText req "signature" = some signatureHeader ∧
      parseSignatureInput E.toHttpPlatform inputHeader = .ok inputs ∧
      parseSignature E.toHttpPlatform signatureHeader = .ok sigs ∧
      (inputs.filter (isCandidate sigs opts.requiredTag)).Perm (sigParams :: rest) ∧
      verifySignatureCandidate E req sigParams ((sigs.lookup sigParams.label).getD []) opts = .ok vd ∧
      ∀ other ∈ rest, Skips (fun params => verifySignatureCandidate E req params ((sigs.lookup params.label).getD []) opts)
        other := by
  simp only [verifySignedHttpRequest, selectSignatureCandidates, bind_eq_ok, throwIf_eq_ok, orThrow_eq_ok, pure_eq_ok,
    tryCandidates_perm]
  constructor
  · rintro ⟨inputHeader, hinput, signatureHeader, hsignature, inputs, hinputs, sigs, hsigs, _, ⟨_, -, rfl⟩, sigParams, rest,
      hperm, hvalid, hothers⟩
    exact ⟨inputHeader, signatureHeader, inputs, sigs, sigParams, rest, hinput, hsignature, hinputs, hsigs, hperm, hvalid,
      hothers⟩
  · rintro ⟨inputHeader, signatureHeader, inputs, sigs, sigParams, rest, hinput, hsignature, hinputs, hsigs, hperm, hvalid,
      hothers⟩
    refine ⟨inputHeader, hinput, signatureHeader, hsignature, inputs, hinputs, sigs, hsigs, _, ⟨(), ?_, rfl⟩, sigParams, rest,
      hperm, hvalid, hothers⟩
    intro hnil
    rw [hnil] at hperm
    exact List.cons_ne_nil _ _ hperm.nil_eq.symm

theorem AddedSignature.Adds.parseSignatureInput_extended (hP : E.DictionaryLaws) (h : a.Adds E.toHttpPlatform req req')
    (hne : a.input.header ≠ []) {inputs : List SignatureParams}
    (hinputs : parseSignatureInput E.toHttpPlatform a.input.header = .ok inputs) :
    ∃ front back, inputs = front ++ back ∧ ∀ inputs',
      parseSignatureInput E.toHttpPlatform a.input.extended = .ok inputs' ↔
        ∃ added, parseInputMember E.toHttpPlatform a.label (.innerList a.items a.params) (trim a.input.text) = .ok added ∧
          inputs' = front ++ added :: back := by
  obtain ⟨read, hread, hturns⟩ := bind_eq_ok.mp hinputs
  obtain ⟨-, rfl, hextended⟩ := h.input.read_extended hP hne hread
  obtain ⟨front, back, hfront, hback, rfl⟩ := mapM_append_eq_ok.mp hturns
  refine ⟨front, back, rfl, fun inputs' => ?_⟩
  rw [parseSignatureInput, hextended, ok_bind, mapM_middle_eq_ok hfront hback]

theorem AddedSignature.Adds.parseSignature_extended (hP : E.DictionaryLaws) (h : a.Adds E.toHttpPlatform req req')
    (hne : a.signature.header ≠ []) {sigs : List (String × Bytes)}
    (hsigs : parseSignature E.toHttpPlatform a.signature.header = .ok sigs) :
    ∃ front back, sigs = front ++ back ∧ a.label ∉ front.map Prod.fst ∧ ∀ sigs',
      parseSignature E.toHttpPlatform a.signature.extended = .ok sigs' ↔
        a.valueParams = [] ∧ sigs' = front ++ (a.label, a.value) :: back := by
  obtain ⟨read, hread, hturns⟩ := bind_eq_ok.mp hsigs
  obtain ⟨-, rfl, hextended⟩ := h.signature.read_extended hP hne hread
  obtain ⟨front, back, hfront, hback, rfl⟩ := mapM_append_eq_ok.mp hturns
  refine ⟨front, back, rfl, ?_, fun sigs' => ?_⟩
  · intro hmem
    obtain ⟨entry, hentry, hlabel⟩ := List.mem_map.mp hmem
    obtain ⟨member, hmember, hparsed⟩ := mem_of_mapM hfront hentry
    apply h.signature.fresh
    rw [Insertion.members, List.map_append]
    refine List.mem_append_left _ (List.mem_map.mpr ⟨member, hmember, ?_⟩)
    unfold parseSignatureMember at hparsed
    split at hparsed
    next =>
      obtain rfl := Except.ok.inj hparsed
      exact hlabel
    next => cases hparsed
  · rw [parseSignature, hextended, ok_bind, mapM_middle_eq_ok hfront hback]
    cases hparams : a.valueParams with
    | nil =>
      simp only [parseSignatureMember, Except.ok.injEq]
      constructor
      · rintro ⟨_, rfl, rfl⟩
        exact ⟨trivial, rfl⟩
      · rintro ⟨-, rfl⟩
        exact ⟨_, rfl, rfl⟩
    | cons param params =>
      constructor
      · rintro ⟨_, herror, -⟩
        cases herror
      · rintro ⟨hnil, -⟩
        cases hnil

/-- The requests differ in the members of the label only. -/
theorem AddedSignature.Adds.alike (hP : E.DictionaryLaws) (h : a.Adds E.toHttpPlatform req req')
    (hinput : a.input.header ≠ []) (hsignature : a.signature.header ≠ []) {inputs : List SignatureParams}
    {sigs : List (String × Bytes)} (hinputs : parseSignatureInput E.toHttpPlatform a.input.header = .ok inputs)
    (hsigs : parseSignature E.toHttpPlatform a.signature.header = .ok sigs) : AlikeBut E.toHttpPlatform a.label req req' := by
  refine ⟨h.method, h.url, h.body, h.others, fun name hname => ?_⟩
  obtain ⟨_, hread, -⟩ := bind_eq_ok.mp hinputs
  obtain ⟨_, hread', -⟩ := bind_eq_ok.mp hsigs
  obtain ⟨hparsed, hextended⟩ := h.input.parsed hP hinput (h.input.read_extended hP hinput hread).1
  obtain ⟨hparsed', hextended'⟩ := h.signature.parsed hP hsignature (h.signature.read_extended hP hsignature hread').1
  rcases List.mem_pair.mp hname with rfl | rfl
  · exact ⟨_, _, _, _, h.signatureHeader.1, h.signatureHeader.2, hparsed', hextended', fun key hkey => lookup_extended hkey⟩
  · exact ⟨_, _, _, _, h.inputHeader.1, h.inputHeader.2, hparsed, hextended, fun key hkey => lookup_extended hkey⟩

/-- What was read from the header of the request does not have the label, and serializes. -/
theorem AddedSignature.Adds.of_read (hP : E.DictionaryLaws) (hserializes : E.Reserializes)
    (h : a.Adds E.toHttpPlatform req req') (hne : a.input.header ≠ []) {inputs : List SignatureParams}
    (hinputs : parseSignatureInput E.toHttpPlatform a.input.header = .ok inputs) {sigParams : SignatureParams}
    (hmem : sigParams ∈ inputs) : sigParams.label ≠ a.label ∧ sigParams.Serializes E.toHttpPlatform := by
  obtain ⟨read, hread, hturns⟩ := bind_eq_ok.mp hinputs
  obtain ⟨hdistinct, rfl, -⟩ := h.input.read_extended hP hne hread
  obtain ⟨member, hmember, hturn⟩ := mem_of_mapM hturns hmem
  constructor
  · intro heq
    apply h.input.fresh
    rw [← heq, (parseInputMember_covers hturn).1]
    exact List.mem_map.mpr ⟨member, hmember, rfl⟩
  · have hparsed := (h.input.parsed hP hne hdistinct).1
    exact parseInputMember_eq_ok hserializes hparsed (List.mem_map_of_mem hmember) hturn

/-- One that is valid without the added signature is valid beside it. -/
theorem AlikeBut.valid (halike : AlikeBut E.toHttpPlatform a.label req req') {sigParams : SignatureParams} {rawSig : Bytes}
    (hspared : (∀ component ∈ sigParams.components, SparesLabel a.label (componentItem component)) ∨
      ∀ request ∈ [req, req'], ∀ identity, verifySignatureCandidate E request sigParams rawSig opts ≠ .ok identity)
    (hvalid : verifySignatureCandidate E req sigParams rawSig opts = .ok vd) :
    verifySignatureCandidate E req' sigParams rawSig opts = .ok vd := by
  cases hspared with
  | inl hspares => rw [verifySignatureCandidate_alike halike hspares, hvalid]
  | inr hnever => exact absurd hvalid (hnever req (by simp) vd)

/-- One that is skipped without the added signature is skipped beside it. -/
theorem AlikeBut.skipped (hserializes : E.Reserializes) (hresolver : ∀ domain, Caught (E.verifyDomain domain))
    (halike : AlikeBut E.toHttpPlatform a.label req req') {sigParams : SignatureParams}
    (hread : sigParams.Serializes E.toHttpPlatform) {rawSig : Bytes}
    (hspared : (∀ component ∈ sigParams.components, SparesLabel a.label (componentItem component)) ∨
      ∀ request ∈ [req, req'], ∀ identity, verifySignatureCandidate E request sigParams rawSig opts ≠ .ok identity)
    (hskips : ∃ error, verifySignatureCandidate E req sigParams rawSig opts = .error error ∧ error.isCaught = true) :
    ∃ error, verifySignatureCandidate E req' sigParams rawSig opts = .error error ∧ error.isCaught = true := by
  cases hspared with
  | inl hspares =>
    rw [verifySignatureCandidate_alike halike hspares]
    exact hskips
  | inr hnever =>
    have hcaught := caught_verifySignatureCandidate hserializes hresolver req' hread rawSig opts
    cases hcheck : verifySignatureCandidate E req' sigParams rawSig opts with
    | ok identity => exact absurd hcheck (hnever req' (by simp) identity)
    | error error => exact ⟨error, rfl, hcaught error hcheck⟩

/-- The candidates of the extended request are those of the request, and possibly the added one. -/
theorem candidates_extended {front back : List SignatureParams} (before after : List (String × Bytes)) (added : SignatureParams)
    (tag : Option String) (hlabels : ∀ sigParams ∈ front ++ back, sigParams.label ≠ a.label) :
    ∃ more ⊆ [added], ((front ++ added :: back).filter (isCandidate (before ++ (a.label, a.value) :: after) tag)).Perm
      (more ++ (front ++ back).filter (isCandidate (before ++ after) tag)) := by
  have hmiddle : (front ++ added :: back).Perm (added :: (front ++ back)) := List.perm_middle
  have hperm := hmiddle.filter (isCandidate (before ++ (a.label, a.value) :: after) tag)
  have hsame : (front ++ back).filter (isCandidate (before ++ (a.label, a.value) :: after) tag) =
      (front ++ back).filter (isCandidate (before ++ after) tag) := by
    refine List.filter_congr fun sigParams hmem => ?_
    rw [isCandidate, isCandidate, lookup_middle_ne (hlabels sigParams hmem)]
  rw [List.filter_cons, hsame] at hperm
  split_ifs at hperm
  · exact ⟨[added], List.Subset.refl _, hperm⟩
  · exact ⟨[], List.nil_subset _, hperm⟩

/-- The result stays when the added member is one that the profile could have read as its own, and only then. -/
theorem added_signature_skipped_iff (hP : E.DictionaryLaws) (hserializes : E.Reserializes)
    (hresolver : ∀ domain, Caught (E.verifyDomain domain)) (hadds : a.Adds E.toHttpPlatform req req')
    (hspared : a.Spared E opts req req')
    (hverified : verifySignedHttpRequest E req opts = .ok vd)
    (hinvalid : ∀ added other,
      parseInputMember E.toHttpPlatform a.label (.innerList a.items a.params) (trim a.input.text) = .ok added →
        verifySignatureCandidate E req' added a.value opts ≠ .ok other) :
    verifySignedHttpRequest E req' opts = .ok vd ↔
      a.valueParams = [] ∧ AcceptedInput E.toHttpPlatform a.items (memberText (trim a.input.text)) := by
  obtain ⟨inputHeader, signatureHeader, inputs, sigs, sigParams, rest, hinput, hsignature, hinputs, hsigs, hperm, hvalid,
    hothers⟩ := verify_eq_ok.mp hverified
  obtain ⟨hinputNe, rfl⟩ := (headerText_iff hadds.inputHeader.1).mp hinput
  obtain ⟨hsignatureNe, rfl⟩ := (headerText_iff hadds.signatureHeader.1).mp hsignature
  have halike := hadds.alike hP hinputNe hsignatureNe hinputs hsigs
  obtain ⟨front, back, rfl, hinputs'⟩ := hadds.parseSignatureInput_extended hP hinputNe hinputs
  obtain ⟨before, after, rfl, hfresh, hsigs'⟩ := hadds.parseSignature_extended hP hsignatureNe hsigs
  have hextended : a.input.extended ≠ [] ∧ a.signature.extended ≠ [] :=
    ⟨Insertion.extended_ne_nil hinputNe, Insertion.extended_ne_nil hsignatureNe⟩
  constructor
  · intro hverified'
    obtain ⟨inputHeader', signatureHeader', inputs', sigs', -, -, hinput', hsignature', hread, hread', -⟩ :=
      verify_eq_ok.mp hverified'
    obtain ⟨-, rfl⟩ := (headerText_iff hadds.inputHeader.2).mp hinput'
    obtain ⟨-, rfl⟩ := (headerText_iff hadds.signatureHeader.2).mp hsignature'
    obtain ⟨added, hadded, -⟩ := (hinputs' inputs').mp hread
    exact ⟨((hsigs' sigs').mp hread').1, exists_parseInputMember.mp ⟨added, hadded⟩⟩
  · rintro ⟨hparams, haccepted⟩
    obtain ⟨added, hadded⟩ : ∃ added, parseInputMember E.toHttpPlatform a.label (.innerList a.items a.params)
        (trim a.input.text) = .ok added := exists_parseInputMember.mpr haccepted
    have hlabel : added.label = a.label := (parseInputMember_covers hadded).1
    have hread : ∀ sigParams ∈ front ++ back, sigParams.label ≠ a.label ∧ sigParams.Serializes E.toHttpPlatform :=
      fun sigParams hmem => hadds.of_read hP hserializes hinputNe hinputs hmem
    have hlabels : ∀ sigParams ∈ front ++ back, sigParams.label ≠ a.label := fun sigParams hmem => (hread sigParams hmem).1
    have hcandidate : ∀ other ∈ sigParams :: rest, other ∈ (front ++ back).filter (isCandidate (before ++ after) opts.requiredTag) :=
      fun other hother => hperm.symm.subset hother
    have hmem : ∀ other ∈ sigParams :: rest, other ∈ front ++ back := fun other hother =>
      (List.mem_filter.mp (hcandidate other hother)).1
    -- The added one fails, with an error that the loop catches.
    have hskips : Skips (fun params => verifySignatureCandidate E req' params
        (((before ++ (a.label, a.value) :: after).lookup params.label).getD []) opts) added := by
      rw [Skips, hlabel, lookup_middle hfresh, Option.getD_some]
      obtain ⟨_, text, -, -, hparsed⟩ := hadds.input.added.parsed
      have hread : added.Serializes E.toHttpPlatform := parseInputMember_eq_ok hserializes hparsed List.mem_cons_self hadded
      have hcaught := caught_verifySignatureCandidate hserializes hresolver req' hread a.value opts
      cases hcheck : verifySignatureCandidate E req' added a.value opts with
      | ok other => exact absurd hcheck (hinvalid added other hadded)
      | error error => exact ⟨error, rfl, hcaught error hcheck⟩
    obtain ⟨more, hmore, hextra⟩ := candidates_extended before after added
      opts.requiredTag hlabels
    refine verify_eq_ok.mpr ⟨a.input.extended, a.signature.extended, _, _, sigParams, more ++ rest,
      (headerText_iff hadds.inputHeader.2).mpr ⟨hextended.1, rfl⟩, (headerText_iff hadds.signatureHeader.2).mpr ⟨hextended.2, rfl⟩,
      (hinputs' _).mpr ⟨added, hadded, rfl⟩, (hsigs' _).mpr ⟨hparams, rfl⟩, ?_, ?_, ?_⟩
    · exact hextra.trans ((List.Perm.append_left more hperm).trans List.perm_middle)
    · have hmember : sigParams ∈ sigParams :: rest := List.mem_cons_self
      rw [lookup_middle_ne (hlabels sigParams (hmem sigParams hmember))]
      exact halike.valid (hspared _ _ hinputs hsigs sigParams (hcandidate sigParams hmember)) hvalid
    · intro other hother
      cases List.mem_append.mp hother with
      | inl hadded =>
        obtain rfl := List.mem_singleton.mp (hmore hadded)
        exact hskips
      | inr hrest =>
        have hmember : other ∈ sigParams :: rest := List.mem_cons_of_mem sigParams hrest
        rw [Skips, lookup_middle_ne (hlabels other (hmem other hmember))]
        exact halike.skipped hserializes hresolver (hread other (hmem other hmember)).2
          (hspared _ _ hinputs hsigs other (hcandidate other hmember)) (hothers other hrest)

end Added

/-! A library that knows a few members, and a request with one signature of the profile. -/

def sampleMembers : List (Text × (String × Member)) := [
  ("s=(\"@method\" \"@authority\" \"@target-uri\");created=100;keyid=\"a.example#k\"".toList,
    ("s", .innerList [(.str "@method", []), (.str "@authority", []), (.str "@target-uri", [])]
      [("created", .num (.finite 100)), ("keyid", .str "a.example#k")])),
  ("s=:AQ==:".toList, ("s", .item (.bytes [1], []))),
  ("o=(\"content-type\";sf);created=100".toList,
    ("o", .innerList [(.str "content-type", [("sf", .bool true)])] [("created", .num (.finite 100))])),
  ("o=:AA==:".toList, ("o", .item (.bytes [0], []))),
  ("p=(\"@path\");created=100".toList, ("p", .innerList [(.str "@path", [])] [("created", .num (.finite 100))])),
  ("p=:AA==:".toList, ("p", .item (.bytes [0], []))),
  ("x=();created=100".toList, ("x", .innerList [] [("created", .num (.finite 100))])),
  ("x=();keyid=\"a.example#k\"".toList, ("x", .innerList [] [("keyid", .str "a.example#k")]))]

def sampleMember (chunk : Text) : Option (String × Member) := sampleMembers.lookup (chunk.dropWhile isOws)

def sampleDictionary (text : String) : Option (List (String × Member)) := do
  let members ← (text.toList.splitOn ',').mapM sampleMember
  return members.foldl setMember []

def dictionaryPlatform : HttpPlatform where
  serializeItem item := if item.1 = .bytes [0] then .ok ":AA==:" else if item.1 = .bytes [1] then .ok ":AQ==:" else sampleItem item
  serializeInnerList := samplePlatform.serializeInnerList
  serializeParameters := samplePlatform.serializeParameters
  parseDictionary := sampleDictionary
  searchParams := samplePlatform.searchParams

def sampleCrypto : Protocol.WebCrypto where
  Private := Unit
  Public := Unit
  importKey _ _ _ := none
  importJWK _ _ := some ((), { name := "ECDSA", namedCurve := some "P-256" })
  Signs _ _ _ signature := signature = [1]
  verifies _ _ signature _ := signature = [1]

def sampleProfile : ProfileEnvironment String where
  toHttpPlatform := dictionaryPlatform
  webCrypto := sampleCrypto
  sha256 := id
  normalizeFQDN := .ok
  verifyDomain := .ok
  jwks _ := [{ kid := "k", kty := "EC", crv := some "P-256", x := some "AAAAAAAAAAAAAAAAAAAAAAAAAAAAAAAAAAAAAAAAAAA", y := some "AAAAAAAAAAAAAAAAAAAAAAAAAAAAAAAAAAAAAAAAAAA" }]
  now := 100
  maxAge := none
  clockSkew := none

def sampleRequest (input signature : Text) : BodyRequest where
  method := "GET"
  url := sampleUrl
  headers := [("signature-input", String.ofList input), ("signature", String.ofList signature)]
  body := none

theorem sampleMember_blank {blank : Text} (h : trim blank = []) : sampleMember blank = none := by
  have hblank := List.all_eq_true.mp (trimBoth_eq_nil.mp h)
  rw [sampleMember, Option.eq_none_iff_forall_ne_some]
  intro member hmember
  have hmem := mem_of_lookup hmember
  have hnames : ∀ entry ∈ sampleMembers, entry.1.any (fun c => !isTrimmed c) = true := by decide
  obtain ⟨c, hc, hnot⟩ := List.any_eq_true.mp (hnames _ hmem)
  rw [hblank c ((List.dropWhile_suffix _).subset hc)] at hnot
  cases hnot

theorem sampleMembers_ows {ows next : Text} (h : ∀ c ∈ ows, isOws c = true) :
    ((ows ++ next).splitOn ',').mapM sampleMember = (next.splitOn ',').mapM sampleMember := by
  induction ows with
  | nil => rfl
  | cons c ows ih =>
    have hc : isOws c = true := h c List.mem_cons_self
    have hcomma : c ≠ ',' := by
      rintro rfl
      cases hc
    have hrest := ih fun c hc => h c (List.mem_cons_of_mem _ hc)
    rw [← hrest, List.cons_append, List.splitOn_cons_eq_if_modifyHead, if_neg (by simpa using hcomma)]
    cases (ows ++ next).splitOn ',' with
    | nil => rfl
    | cons chunk chunks =>
      have hsame : sampleMember (c :: chunk) = sampleMember chunk := by rw [sampleMember, sampleMember, List.dropWhile_cons, if_pos hc]
      rw [List.modifyHead_cons, List.mapM_cons, List.mapM_cons, hsame]

theorem sampleDictionary_eq_some {text : Text} {dictionary : List (String × Member)} :
    sampleDictionary (String.ofList text) = some dictionary ↔
      ∃ members, (text.splitOn ',').mapM sampleMember = some members ∧ members.foldl setMember [] = dictionary := by
  simp [sampleDictionary, Option.bind_eq_some_iff]

theorem dictionaryPlatform_laws : dictionaryPlatform.DictionaryLaws where
  distinct text dictionary h := by
    rw [← String.ofList_toList (s := text)] at h
    obtain ⟨members, -, rfl⟩ := sampleDictionary_eq_some.mp h
    exact foldl_setMember_distinct (by simp [DistinctNames]) members
  members text ows next dictionary rest h _ hnext _ hows := by
    obtain ⟨members, hmembers, rfl⟩ := sampleDictionary_eq_some.mp h
    obtain ⟨members', hmembers', rfl⟩ := sampleDictionary_eq_some.mp hnext
    refine sampleDictionary_eq_some.mpr ⟨members ++ members', ?_, ?_⟩
    · rw [List.splitOn_append_cons_of_beq _ _ (beq_self_eq_true ','), List.mapM_append, hmembers, sampleMembers_ows hows, hmembers']
      rfl
    · rw [List.foldl_append, foldl_setMember_foldl [] (by simp [DistinctNames])]
      rfl
  ends ows next dictionary hows h hopen := by
    obtain ⟨members, hmembers, -⟩ := sampleDictionary_eq_some.mp h
    rw [← sampleMembers_ows hows] at hmembers
    obtain ⟨blank, hblank, heq | ⟨front, heq⟩⟩ := hopen
    all_goals
      have hone : blank.splitOn ',' = [blank] := List.splitOn_eq_singleton fun hmem => by
        have hcomma := List.all_eq_true.mp (trimBoth_eq_nil.mp hblank) ',' hmem
        cases hcomma
    · rw [heq, hone, List.mapM_cons, sampleMember_blank hblank] at hmembers
      cases hmembers
    · rw [heq, List.splitOn_append_cons_of_beq _ _ (beq_self_eq_true ','), hone, List.mapM_append, List.mapM_cons,
        sampleMember_blank hblank] at hmembers
      cases hfront : (front.splitOn ',').mapM sampleMember <;> rw [hfront] at hmembers <;> cases hmembers

def sampleSerializes : Member → Bool
  | .item item => (dictionaryPlatform.serializeItem item).isOk
  | .innerList items params =>
    (dictionaryPlatform.serializeInnerList items params).isOk && (dictionaryPlatform.serializeInnerList items []).isOk &&
      items.all (fun item => (dictionaryPlatform.serializeItem item).isOk) &&
      params.all fun parameter => (dictionaryPlatform.serializeParameters [parameter]).isOk

theorem exists_of_isOk {α : Type} {x : Except HttpError α} (h : x.isOk = true) : ∃ a, x = .ok a := by
  cases x with
  | ok a => exact ⟨a, rfl⟩
  | error error => cases h

theorem sampleMember_of_mem {chunks : List Text} {members : List (String × Member)} {member : String × Member}
    (h : chunks.mapM sampleMember = some members) (hmem : member ∈ members) : ∃ chunk, sampleMember chunk = some member := by
  induction chunks generalizing members with
  | nil =>
    obtain rfl := Option.some.inj h
    cases hmem
  | cons chunk chunks ih =>
    simp only [List.mapM_cons, Option.bind_eq_bind, Option.bind_eq_some_iff, Option.pure_def, Option.some.injEq] at h
    obtain ⟨first, hfirst, rest, hrest, rfl⟩ := h
    rcases List.mem_cons.mp hmem with rfl | hmem
    · exact ⟨chunk, hfirst⟩
    · exact ih hrest hmem

theorem sampleSerializes_of_mem {text name : String} {dictionary : List (String × Member)} {member : Member}
    (h : dictionaryPlatform.parseDictionary text = some dictionary) (hmem : (name, member) ∈ dictionary) :
    sampleSerializes member = true := by
  have hall : ∀ entry ∈ sampleMembers, sampleSerializes entry.2.2 = true := by decide
  rw [← String.ofList_toList (s := text)] at h
  obtain ⟨members, hmembers, rfl⟩ := sampleDictionary_eq_some.mp h
  rcases mem_foldl_setMember members hmem with hnil | hmem
  · cases hnil
  · obtain ⟨chunk, hchunk⟩ := sampleMember_of_mem hmembers hmem
    exact hall _ (mem_of_lookup hchunk)

theorem dictionaryPlatform_reserializes : dictionaryPlatform.Reserializes where
  item text dictionary name item h hmem := exists_of_isOk (sampleSerializes_of_mem h hmem)
  innerList text dictionary name items params h hmem := by
    have hall := sampleSerializes_of_mem h hmem
    simp only [sampleSerializes, Bool.and_eq_true, List.all_eq_true] at hall
    obtain ⟨⟨⟨hlist, hbare⟩, hitems⟩, hparams⟩ := hall
    exact ⟨exists_of_isOk hlist, exists_of_isOk hbare, fun item hitem => exists_of_isOk (hitems item hitem),
      fun parameter hparameter => exists_of_isOk (hparams parameter hparameter)⟩

def sampleInput : Text := "s=(\"@method\" \"@authority\" \"@target-uri\");created=100;keyid=\"a.example#k\"".toList

def sampleSignature : Text := "s=:AQ==:".toList

/-- A signature after the one of the profile. -/
def sampleAdded (label : String) (items : List Item) (input signature : Text) : AddedSignature where
  label := label
  items := items
  params := [("created", .num (.finite 100))]
  value := [0]
  valueParams := []
  input := ⟨[sampleInput], [], input, [[(("s", .innerList [(.str "@method", []), (.str "@authority", []), (.str "@target-uri", [])]
      [("created", .num (.finite 100)), ("keyid", .str "a.example#k")]), sampleInput)]], []⟩
  signature := ⟨[sampleSignature], [], signature, [[(("s", .item (.bytes [1], [])), sampleSignature)]], []⟩

def sampleExtended (a : AddedSignature) : BodyRequest := sampleRequest a.input.extended a.signature.extended

/-- It covers the path. -/
def samplePathSignature : AddedSignature :=
  sampleAdded "p" [(.str "@path", [])] "p=(\"@path\");created=100".toList "p=:AA==:".toList

/-- It covers a field in strict serialization. -/
def sampleStrictSignature : AddedSignature :=
  sampleAdded "o" [(.str "content-type", [("sf", .bool true)])] "o=(\"content-type\";sf);created=100".toList "o=:AA==:".toList

theorem sampleInsertion_reads {own text : Text} {member added : String × Member}
    (hown : sampleDictionary (String.ofList own) = some [member] ∧ splitDictionary own = .ok [own] ∧ own.head? = some 's')
    (hadded : sampleDictionary (String.ofList text) = some [added] ∧ splitDictionary text = .ok [trim text])
    (hbound : own.length + text.length ≤ 1024) (hfresh : added.1 ≠ member.1) :
    (Insertion.mk [own] [] text [[(member, own)]] []).Reads dictionaryPlatform added where
  before := .cons ⟨⟨[], own, rfl, by simp, hown.1⟩, hown.2.1, by simp⟩ .nil
  after := .nil
  added := ⟨⟨[], text, rfl, by simp, hadded.1⟩, hadded.2, by simp⟩
  stripped := by
    obtain ⟨rest, rfl⟩ := List.head?_eq_some_iff.mp hown.2.2
    constructor
    · rfl
    · rfl
  bound := by
    simp [Insertion.extended, joined]
    omega
  count := by simp [Insertion.members]
  fresh := by simpa [Insertion.members] using hfresh

/-- The headers of the request and of the extended one. -/
theorem sampleAdded_adds {label : String} {items : List Item} {input signature : Text}
    (hinput : (sampleAdded label items input signature).input.Reads dictionaryPlatform
      (label, .innerList items [("created", .num (.finite 100))]))
    (hsignature : (sampleAdded label items input signature).signature.Reads dictionaryPlatform (label, .item (.bytes [0], []))) :
    (sampleAdded label items input signature).Adds dictionaryPlatform (sampleRequest sampleInput sampleSignature)
      (sampleExtended (sampleAdded label items input signature)) where
  method := rfl
  url := rfl
  body := rfl
  others name hname := by
    simp only [List.mem_cons, List.not_mem_nil, or_false, not_or] at hname
    have hother : (name == "signature-input") = false ∧ (name == "signature") = false := by simpa using hname.symm
    simp [sampleExtended, sampleRequest, List.lookup_cons, hother.1, hother.2]
  inputHeader := ⟨rfl, rfl⟩
  signatureHeader := ⟨rfl, rfl⟩
  input := hinput
  signature := hsignature

/-- What the texts of the sample are read as. -/
theorem sampleTexts_read :
    ((sampleDictionary (String.ofList sampleInput) = some [("s", .innerList [(.str "@method", []), (.str "@authority", []),
          (.str "@target-uri", [])] [("created", .num (.finite 100)), ("keyid", .str "a.example#k")])] ∧
        splitDictionary sampleInput = .ok [sampleInput] ∧ sampleInput.head? = some 's') ∧
      sampleDictionary (String.ofList sampleSignature) = some [("s", .item (.bytes [1], []))] ∧
        splitDictionary sampleSignature = .ok [sampleSignature] ∧ sampleSignature.head? = some 's') ∧
    ∀ a ∈ [samplePathSignature, sampleStrictSignature],
      ((sampleDictionary (String.ofList a.input.text) = some [(a.label, .innerList a.items a.params)] ∧
          splitDictionary a.input.text = .ok [trim a.input.text]) ∧ sampleInput.length + a.input.text.length ≤ 1024) ∧
        ((sampleDictionary (String.ofList a.signature.text) = some [(a.label, .item (.bytes [0], []))] ∧
          splitDictionary a.signature.text = .ok [trim a.signature.text]) ∧
            sampleSignature.length + a.signature.text.length ≤ 1024) ∧ a.label ≠ "s" := by
  decide

theorem samplePathSignature_adds :
    samplePathSignature.Adds dictionaryPlatform (sampleRequest sampleInput sampleSignature) (sampleExtended samplePathSignature) := by
  obtain ⟨hinput, hsignature, hlabel⟩ := sampleTexts_read.2 samplePathSignature (by simp)
  exact sampleAdded_adds (sampleInsertion_reads sampleTexts_read.1.1 hinput.1 hinput.2 hlabel)
    (sampleInsertion_reads sampleTexts_read.1.2 hsignature.1 hsignature.2 hlabel)

theorem sampleStrictSignature_adds :
    sampleStrictSignature.Adds dictionaryPlatform (sampleRequest sampleInput sampleSignature) (sampleExtended sampleStrictSignature) := by
  obtain ⟨hinput, hsignature, hlabel⟩ := sampleTexts_read.2 sampleStrictSignature (by simp)
  exact sampleAdded_adds (sampleInsertion_reads sampleTexts_read.1.1 hinput.1 hinput.2 hlabel)
    (sampleInsertion_reads sampleTexts_read.1.2 hsignature.1 hsignature.2 hlabel)

/-- The one candidate of the request covers no header. -/
theorem sampleCandidates_cover :
    ((parseSignatureInput dictionaryPlatform sampleInput).toOption.getD []).all (fun sigParams =>
      sigParams.components.all fun component => (componentItem component).1 ≠ .str "signature" ∧
        (componentItem component).1 ≠ .str "signature-input") = true := by
  decide

theorem sampleAdded_spared {label : String} {items : List Item} {input signature : Text} {opts : HttpVerificationOptions}
    {req req' : BodyRequest} : (sampleAdded label items input signature).Spared sampleProfile opts req req' := by
  intro inputs sigs hinputs _ candidate hcandidate
  left
  intro component hcomponent name hname hmem
  have hall := sampleCandidates_cover
  have hread : parseSignatureInput dictionaryPlatform sampleInput = .ok inputs := hinputs
  rw [hread] at hall
  have hcovers := List.all_eq_true.mp (List.all_eq_true.mp hall candidate (List.mem_filter.mp hcandidate).1) component hcomponent
  rw [decide_eq_true_iff] at hcovers
  cases List.mem_pair.mp hmem with
  | inl hsignature => exact absurd (hsignature ▸ hname) hcovers.1
  | inr hinput => exact absurd (hinput ▸ hname) hcovers.2

/-- The added signature is none of the profile: it is not read, or not valid. -/
def sampleInvalid (a : AddedSignature) : Bool :=
  (parseInputMember sampleProfile.toHttpPlatform a.label (.innerList a.items a.params) (trim a.input.text)).toOption.all
    fun added => !(verifySignatureCandidate sampleProfile (sampleExtended a) added a.value ⟨none, none⟩).isOk

theorem sampleRequest_outcomes :
    verifySignedHttpRequest sampleProfile (sampleRequest sampleInput sampleSignature) ⟨none, none⟩ = .ok "a.example" ∧
      sampleInvalid samplePathSignature = true ∧ sampleInvalid sampleStrictSignature = true ∧
      verifySignedHttpRequest sampleProfile (sampleExtended sampleStrictSignature) ⟨none, none⟩ =
        .error (recordInvalid "unsupported component parameter: sf") := by
  decide +kernel

theorem not_valid_of_sampleInvalid {a : AddedSignature} (ha : sampleInvalid a = true) (added : SignatureParams) (other : String)
    (h : parseInputMember sampleProfile.toHttpPlatform a.label (.innerList a.items a.params) (trim a.input.text) = .ok added) :
    verifySignatureCandidate sampleProfile (sampleExtended a) added a.value ⟨none, none⟩ ≠ .ok other := by
  intro hvalid
  rw [sampleInvalid, h] at ha
  simp only [Except.toOption, Option.all_some, hvalid] at ha
  cases ha

/-- Coverage of a path is read, so the result stays. -/
theorem path_signature_skipped :
    verifySignedHttpRequest sampleProfile (sampleExtended samplePathSignature) ⟨none, none⟩ = .ok "a.example" ↔
      samplePathSignature.valueParams = [] ∧ AcceptedInput sampleProfile.toHttpPlatform samplePathSignature.items
        (memberText (trim samplePathSignature.input.text)) :=
  added_signature_skipped_iff dictionaryPlatform_laws dictionaryPlatform_reserializes (fun _ => ErrorsIn.of_ok _)
    samplePathSignature_adds sampleAdded_spared sampleRequest_outcomes.1 (not_valid_of_sampleInvalid sampleRequest_outcomes.2.1)

/-- A signature that covers a field in strict serialization makes a verified request fail. -/
theorem strict_signature_vetoes :
    sampleStrictSignature.Adds sampleProfile.toHttpPlatform (sampleRequest sampleInput sampleSignature)
        (sampleExtended sampleStrictSignature) ∧
      sampleStrictSignature.Spared sampleProfile ⟨none, none⟩ (sampleRequest sampleInput sampleSignature)
        (sampleExtended sampleStrictSignature) ∧
      sampleInvalid sampleStrictSignature = true ∧
      verifySignedHttpRequest sampleProfile (sampleRequest sampleInput sampleSignature) ⟨none, none⟩ = .ok "a.example" ∧
      verifySignedHttpRequest sampleProfile (sampleExtended sampleStrictSignature) ⟨none, none⟩ =
        .error (recordInvalid "unsupported component parameter: sf") :=
  ⟨sampleStrictSignature_adds, sampleAdded_spared, sampleRequest_outcomes.2.2.1, sampleRequest_outcomes.1,
    sampleRequest_outcomes.2.2.2⟩

end Dnsid.HttpSignatures

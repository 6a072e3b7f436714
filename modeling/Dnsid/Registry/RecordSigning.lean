import Dnsid.Protocol.DomainLog
import Dnsid.Record.Publication
import Dnsid.Registry.Submission

/-! # Signing a record of the registry (`RegistryClient.publishTxtRecordWithSigner`)

The registry proposes the canonical content, and the client has it signed if its known tags are the expected ones.
The registry answers both requests as it likes. Each signature that is asked for is on expected content.
-/
namespace Dnsid.Registry
open Dnsid.Foundations Dnsid.Events Dnsid.Record DnsIdTxtRecord
open Dnsid.Protocol (Bytes utf8)
open Dnsid.Protocol.Jose (toBase64Url)
set_option autoImplicit false

structure RegistryPlatform extends RecordPlatform where
  /-- `new Date(value).getTime()`, unless it is `NaN`. -/
  date : Json → Option ℤ
  /-- `String(value)`. -/
  text : Option Json → String

/-! ## Status documents (`protocol/src/agent-status.ts`) -/

structure AgentStatus where
  state : Protocol.AgentStatusState
  lastTransitionAt : ℤ
  revocationReason : Option RevocationReason

def normalizeStatusState (value : Option Json) : Option Protocol.AgentStatusState :=
  (value.bind Json.str?).bind fun text =>
    [.pending, .provisioning, .verifying, .active, .retired, .revoked].find? fun
      state : Protocol.AgentStatusState => state.name = text

def revocationReasonOf (text : String) : Option RevocationReason := (asRevocationReason (some (.str text))).toOption

/-- `new Date('0001-01-01T00:00:00Z').getTime()`. -/
def zeroTimestampMs : ℤ := -62135596800000

section Responses
variable (P : RegistryPlatform)

def normalizeRevocationReason (value : Option Json) : Option RevocationReason :=
  if value = none ∨ value = some .null ∨ value = some (.str "") then none else revocationReasonOf (P.text value)

def isObjectValue : Json → Bool
  | .arr _ | .obj _ => true
  | _ => false

def validateAgentStatus (data : Json) : Except String AgentStatus := do
  throwIf (isObjectValue data = false) "status response is not a JSON object"
  let state ← orThrow ("unknown agent status state: " ++ P.text (data.get? "state"))
    (normalizeStatusState (data.get? "state"))
  let rawLastTransitionAt ← orThrow "lastTransitionAt is required" ((data.get? "lastTransitionAt").filter Json.truthy)
  let lastTransitionAt ← orThrow "lastTransitionAt is not a valid date"
    ((P.date rawLastTransitionAt).filter (· ≠ zeroTimestampMs))
  let revocationReason := normalizeRevocationReason P (data.get? "revocationReason")
  throwIf (state = .revoked ∧ revocationReason = none) "valid revocationReason is required when status is REVOKED"
  return ⟨state, lastTransitionAt, revocationReason⟩

/-! ## Responses -/

/-- `post` with `readJsonObject`: a response of success has a JSON object. -/
def postedObject (label : String) : PreparationOutcome Json → Except Failure (List (String × Json))
  | .failed message code => .error (.other message code none none none)
  | .response status detail body => do
    throwIf (¬ (200 ≤ status ∧ status ≤ 299)) (.error s!"registry request failed: HTTP {detail}")
    let value ← orThrow (.error "invalid JSON") body
    orThrow (.error s!"invalid {label}: expected JSON object") value.members?

def optionalDate (raw : List (String × Json)) (field : String) : Except Failure (Option ℤ) :=
  match optionalString raw field with
  | none => .ok none
  | some value => (orThrow (.error s!"invalid registry response: {field} must be an ISO date")
      (P.date (.str value))).map some

def requiredNumber (raw : List (String × Json)) (field label : String) : Except Failure ℚ :=
  orThrow (.error s!"invalid {label}: {field} must be a finite number") (numberMember raw field)

/-- `isStringRecord(tags) ? tags : undefined`. -/
def stringRecord? (value : Option Json) : Option (List (String × String)) :=
  (value.bind Json.members?).bind fun members =>
    members.mapM fun m => m.2.str?.map fun text => (m.1, text)

structure IdentityRecordToSign where
  domain : String
  canonicalContent : String
  signingKid : String
  tags : Option (List (String × String))
  expiresAt : Option ℤ
  raw : List (String × Json)

/-- The kid that a response names. -/
def responseSigningKid (raw : List (String × Json)) : Option String :=
  (optionalString raw "signingKid").or (optionalString raw "signing_kid")

/-- What `getIdentityRecordToSign` makes of the response. -/
def recordToSign (domain agentFQDN : String) (outcome : PreparationOutcome Json) :
    Except Failure IdentityRecordToSign := do
  let recordRaw ← postedObject "registry record response" outcome
  let registryCanonical ← (requiredString recordRaw "canonicalContent" "registry record response").mapError .error
  let _ ← (parseUnsignedCanonical P.toRecordPlatform registryCanonical.toList (some agentFQDN.toList)).mapError
    fun error => .error ("registry canonicalContent is invalid: " ++ messageOf error)
  let signingKid ← orThrow (.error "invalid registry record response: signingKid must be a non-empty string")
    (responseSigningKid recordRaw)
  let expiresAt ← optionalDate P recordRaw "expiresAt"
  return ⟨(optionalString recordRaw "fqdn").getD domain, registryCanonical, signingKid,
    stringRecord? (recordRaw.lookup "tags"), expiresAt, recordRaw⟩

structure PublishedRecord where
  domain : String
  ownerName : String
  txtRecord : String
  ttl : ℚ
  publicationStatus : String
  protocolStatus : Option AgentStatus
  raw : List (String × Json)

def signatureLabel : String := "registry signature response"

def firstRecord (raw : List (String × Json)) : Except Failure (List (String × Json)) :=
  match raw.lookup "records" with
  | some (.arr (first :: _)) =>
    orThrow (.error s!"invalid {signatureLabel}: records[0] must be an object") first.members?
  | _ => .error (.error s!"invalid {signatureLabel}: records must be a non-empty array")

def protocolStatusOf (raw : List (String × Json)) : Except Failure (Option AgentStatus) :=
  match raw.lookup "protocolStatus" with
  | none => .ok none
  | some value => ((validateAgentStatus P value).mapError .error).map some

/-- `fqdn || domain` is `fqdn`, which is not empty. -/
def publishedRecordFromSignatureResponse (raw : List (String × Json)) : Except Failure PublishedRecord := do
  let fqdn ← (requiredString raw "fqdn" signatureLabel).mapError .error
  let status ← (requiredString raw "status" signatureLabel).mapError .error
  let first ← firstRecord raw
  let ownerName ← (requiredString first "name" s!"{signatureLabel} records[0]").mapError .error
  let txtRecord ← (requiredString first "value" s!"{signatureLabel} records[0]").mapError .error
  let ttl ← requiredNumber first "ttl" s!"{signatureLabel} records[0]"
  let protocolStatus ← protocolStatusOf P raw
  return ⟨fqdn, ownerName, txtRecord, ttl, status, protocolStatus, raw⟩

/-! ## The program -/

/-- `Uint8Array | string`. -/
inductive SignerAnswer where
  | bytes (signature : Bytes)
  | text (signature : Text)

def signatureText : SignerAnswer → Text
  | .bytes signature => toBase64Url signature
  | .text signature => signature

inductive RecordEffect where
  | postRecord (domain : String) (signingKid : Option String)
  | sign (canonical : Bytes)
  | postSignature (domain : String) (signature : Text)

abbrev RecordEffect.Answer : RecordEffect → Type
  | postRecord _ _ => PreparationOutcome Json
  | sign _ => SignerAnswer
  | postSignature _ _ => PreparationOutcome Json

structure PublishTxtRecordValidationOptions where
  expectedCanonicalContent : String
  agentFQDN : Option String
  signingKid : String

/-- The names of the known tags whose fields differ. -/
def differingKnownTags (registry expected : DnsIdTxtRecord) : List String :=
  (if registry.v ≠ expected.v then ["v"] else []) ++ (if registry.gi ≠ expected.gi then ["gi"] else []) ++
    (if registry.ek ≠ expected.ek then ["ek"] else []) ++ (if registry.ku ≠ expected.ku then ["ku"] else []) ++
    (if registry.lr ≠ expected.lr then ["lr"] else []) ++ (if registry.su ≠ expected.su then ["su"] else []) ++
    (if registry.fl ≠ expected.fl then ["fl"] else []) ++ (if registry.ka ≠ expected.ka then ["ka"] else []) ++
    (if registry.cu ≠ expected.cu then ["cu"] else [])

def assertKnownTagsCanonicalMatch (registryCanonical expectedCanonical agentFQDN : Text) : Except Failure Unit := do
  let comparisonFailed : RecordError → Failure := fun error =>
    .error ("canonicalContent comparison failed: " ++ messageOf error)
  let registryRecord ← (parseUnsignedCanonical P.toRecordPlatform registryCanonical (some agentFQDN)).mapError
    comparisonFailed
  let expectedRecord ← (parseUnsignedCanonical P.toRecordPlatform expectedCanonical (some agentFQDN)).mapError
    comparisonFailed
  throwIf (expectedRecord.v ∉ supportedPublishProfiles)
    (.error ("unsupported DNSid publish profile: " ++ String.ofList expectedRecord.v))
  throwIf (registryRecord.knownTagsCanonical ≠ expectedRecord.knownTagsCanonical)
    (.error ("registry canonicalContent does not match effective publication config; differing known tags: " ++
      ", ".intercalate (differingKnownTags registryRecord expectedRecord)))

def getIdentityRecordToSign (domain agentFQDN : String) (signingKid : Option String) :
    Prog Failure RecordEffect.Answer IdentityRecordToSign := do
  let outcome ← Prog.perform (.postRecord domain signingKid)
  Prog.ofExcept (recordToSign P domain agentFQDN outcome)

def submitIdentityRecordSignature (domain : String) (signature : SignerAnswer) :
    Prog Failure RecordEffect.Answer PublishedRecord := do
  let outcome ← Prog.perform (.postSignature domain (signatureText signature))
  Prog.ofExcept (postedObject signatureLabel outcome >>= publishedRecordFromSignatureResponse P)

def publishTxtRecordWithSigner (domain : String) (validation : PublishTxtRecordValidationOptions) :
    Prog Failure RecordEffect.Answer PublishedRecord := do
  let record ← getIdentityRecordToSign P domain (validation.agentFQDN.getD domain) (some validation.signingKid)
  Prog.ofExcept (throwIf (record.signingKid ≠ validation.signingKid)
    (.error "registry canonicalContent targets a different active signing kid"))
  Prog.ofExcept (assertKnownTagsCanonicalMatch P record.canonicalContent.toList
    validation.expectedCanonicalContent.toList (validation.agentFQDN.getD domain).toList)
  let signature ← Prog.perform (.sign (utf8 record.canonicalContent.toList))
  submitIdentityRecordSignature P domain signature

end Responses

/-! ## Expected content -/

/-- A text that may be signed: an unsigned record in canonical form whose known tags are the expected ones. -/
structure ExpectedContent (expected c : Text) : Prop where
  canonical : ∃ r, parseTagPairs c false false = .ok r ∧ r.canonical = c
  unsigned : tagMap c tagSg = none
  known : ∀ tag ∈ [tagV, tagGi, tagEk, tagKu, tagLr, tagSu, tagFl, tagKa, tagCu], tagMap c tag = tagMap expected tag

section Content
variable {P : RecordPlatform} {raw : Text} {agentFQDN : Option Text} {record : DnsIdTxtRecord}

theorem parseUnsignedCanonical_ok (h : parseUnsignedCanonical P raw agentFQDN = .ok record) :
    ∃ tags, tagPairs raw = some tags ∧ UnsignedTags tags ∧ parseTagPairs raw false false = .ok (recordOf tags) ∧
      (recordOf tags).canonical = raw ∧ record.knownTagsCanonical = (recordOf tags).knownTagsCanonical := by
  simp only [parseUnsignedCanonical, bind_eq_ok, throwIf_eq_ok, not_not] at h
  obtain ⟨parsed, hparsed, _, hcanonical, h⟩ := h
  obtain ⟨tags, htags, hunsigned, rfl⟩ := parseUnsigned_ok hparsed
  refine ⟨tags, htags, hunsigned, hparsed, hcanonical, ?_⟩
  split_ifs at h
  · rw [pure_eq_ok.mp h]
  · simp only [bind_eq_ok, pure_eq_ok] at h
    obtain ⟨_, -, rfl⟩ := h
    rfl

theorem assertKnownTagsCanonicalMatch_ok {P : RegistryPlatform} {c expected agentFQDN : Text} {u : Unit}
    (h : assertKnownTagsCanonicalMatch P c expected agentFQDN = .ok u) : ExpectedContent expected c := by
  simp only [assertKnownTagsCanonicalMatch, bind_eq_ok, throwIf_eq_ok, not_not, mapError_eq_ok] at h
  obtain ⟨registryRecord, hregistry, expectedRecord, hexpected, _, -, hequal⟩ := h
  obtain ⟨tags, htags, hunsigned, hparsed, hcanonical, hknown⟩ := parseUnsignedCanonical_ok hregistry
  obtain ⟨tags', htags', hunsigned', -, -, hknown'⟩ := parseUnsignedCanonical_ok hexpected
  rw [hknown, hknown'] at hequal
  refine ⟨⟨_, hparsed, hcanonical⟩, ?_, fun tag htag => ?_⟩
  · rw [tagMap, htags]
    refine lookup_eq_none_of_not_mem fun hmem => ?_
    obtain ⟨m, hm, hname⟩ := List.mem_map.mp hmem
    exact hunsigned.good.unsigned rfl m hm hname
  · rw [tagMap, tagMap, htags, htags']
    exact lookup_of_knownTagsCanonical hunsigned hunsigned' hequal htag

end Content

/-! ## Every run -/

section Runs
variable {P : RegistryPlatform} {domain : String} {validation : PublishTxtRecordValidationOptions}
variable {trace : List (Σ e : RecordEffect, Except Failure e.Answer)}

/-- The bytes that the signer was asked for. -/
def signedBytes (trace : List (Σ e : RecordEffect, Except Failure e.Answer)) : List Bytes :=
  trace.filterMap fun step =>
    match step.1 with
    | .sign canonical => some canonical
    | _ => none

/-- The first response proposed the text `c` and named the kid. -/
def Proposes (domain : String) (validation : PublishTxtRecordValidationOptions)
    (trace : List (Σ e : RecordEffect, Except Failure e.Answer)) (c : Text) : Prop :=
  ∃ outcome raw, ⟨.postRecord domain (some validation.signingKid), .ok outcome⟩ ∈ trace ∧
    postedObject "registry record response" outcome = .ok raw ∧
    raw.lookup "canonicalContent" = some (.str (String.ofList c)) ∧ responseSigningKid raw = some validation.signingKid

theorem requiredString_eq_ok {raw : List (String × Json)} {field label value : String}
    (h : requiredString raw field label = .ok value) : raw.lookup field = some (.str value) := by
  rw [requiredString, orThrow_eq_ok, Option.filter_eq_some_iff, Option.bind_eq_some_iff] at h
  obtain ⟨⟨json, hlookup, hjson⟩, -⟩ := h
  cases json with
  | str text =>
    obtain rfl := Option.some.inj hjson
    exact hlookup
  | null | bool _ | num _ | arr _ | obj _ => cases hjson

theorem recordToSign_ok {agentFQDN : String} {outcome : PreparationOutcome Json} {record : IdentityRecordToSign}
    (h : recordToSign P domain agentFQDN outcome = .ok record) :
    ∃ raw, postedObject "registry record response" outcome = .ok raw ∧
      raw.lookup "canonicalContent" = some (.str record.canonicalContent) ∧
      responseSigningKid raw = some record.signingKid := by
  simp only [recordToSign, bind_eq_ok, mapError_eq_ok, orThrow_eq_ok, pure_eq_ok] at h
  obtain ⟨raw, hraw, canonical, hcanonical, _, -, kid, hkid, _, -, rfl⟩ := h
  exact ⟨raw, hraw, requiredString_eq_ok hcanonical, hkid⟩

/-- The second request asks for no signature. -/
theorem submitSignature_signs {signature : SignerAnswer} {q : Prog Failure RecordEffect.Answer PublishedRecord}
    (h : Prog.Performs (submitIdentityRecordSignature P domain signature) trace q) : signedBytes trace = [] := by
  unfold submitIdentityRecordSignature at h
  obtain ⟨rfl, -⟩ | ⟨answer, rest, rfl, hposted⟩ := h.of_perform_bind
  · rfl
  · obtain ⟨outcome, -, hposted⟩ | ⟨_, -, rfl, -⟩ := hposted.of_ofExcept_bind
    · obtain ⟨rfl, -⟩ := hposted.of_ofExcept
      rfl
    · rfl

/-- What a run can do: it asks for a signature of expected content, or it has not asked for one and has not
returned. -/
theorem publishTxtRecordWithSigner_performs {q : Prog Failure RecordEffect.Answer PublishedRecord}
    (h : Prog.Performs (publishTxtRecordWithSigner P domain validation) trace q) :
    (signedBytes trace = [] ∧ ∀ published, q ≠ .ret published) ∨
      ∃ c, signedBytes trace = [utf8 c] ∧ ExpectedContent validation.expectedCanonicalContent.toList c ∧
        Proposes domain validation trace c := by
  simp only [publishTxtRecordWithSigner, getIdentityRecordToSign, submitIdentityRecordSignature, Prog.bind_assoc] at h
  have hstop : ∀ (x : Failure) (published : PublishedRecord),
      (Prog.throw x : Prog Failure RecordEffect.Answer PublishedRecord) ≠ .ret published := by
    rintro x published ⟨⟩
  obtain ⟨rfl, rfl⟩ | ⟨answer, rest, rfl, hposted⟩ := h.of_perform_bind
  · exact .inl ⟨rfl, by rintro published ⟨⟩⟩
  obtain ⟨outcome, rfl, hread⟩ | ⟨x, rfl, rfl, rfl⟩ := hposted.of_ofExcept_bind
  swap
  · exact .inl ⟨rfl, hstop x⟩
  obtain ⟨record, hrecord, hread⟩ | ⟨x, -, rfl, rfl⟩ := hread.of_ofExcept_bind
  swap
  · exact .inl ⟨rfl, hstop x⟩
  obtain ⟨_, hkid, hread⟩ | ⟨x, -, rfl, rfl⟩ := hread.of_ofExcept_bind
  swap
  · exact .inl ⟨rfl, hstop x⟩
  obtain ⟨_, hmatch, hread⟩ | ⟨x, -, rfl, rfl⟩ := hread.of_ofExcept_bind
  swap
  · exact .inl ⟨rfl, hstop x⟩
  obtain ⟨rfl, rfl⟩ | ⟨answer, rest', rfl, hsigned⟩ := hread.of_perform_bind
  · exact .inl ⟨rfl, by rintro published ⟨⟩⟩
  obtain ⟨raw, hraw, hcontent, hsigningKid⟩ := recordToSign_ok hrecord
  have hrest : signedBytes rest' = [] := by
    obtain ⟨signature, -, hsigned⟩ | ⟨x, -, rfl, -⟩ := hsigned.of_ofExcept_bind
    · exact submitSignature_signs hsigned
    · rfl
  refine .inr ⟨record.canonicalContent.toList, ?_, assertKnownTagsCanonicalMatch_ok hmatch, outcome, raw,
    List.mem_cons_self, hraw, ?_, ?_⟩
  · exact congrArg (List.cons _) hrest
  · rw [String.ofList_toList]
    exact hcontent
  · rw [hsigningKid, not_not.mp (throwIf_eq_ok.mp hkid)]

/-- Whatever the registry answers, a signature is asked for at most once, and only on the UTF-8 bytes of expected
content for the named kid; without it the call throws. -/
theorem publishTxtRecordWithSigner_signs_expected {q : Prog Failure RecordEffect.Answer PublishedRecord}
    (h : Prog.Performs (publishTxtRecordWithSigner P domain validation) trace q) :
    (signedBytes trace).length ≤ 1 ∧
      (∀ bytes ∈ signedBytes trace, ∃ c, bytes = utf8 c ∧
        ExpectedContent validation.expectedCanonicalContent.toList c ∧ Proposes domain validation trace c) ∧
      (signedBytes trace = [] → ∀ published, q ≠ .ret published) := by
  obtain ⟨hnone, hstop⟩ | ⟨c, hone, hexpected, hproposes⟩ := publishTxtRecordWithSigner_performs h
  · rw [hnone]
    exact ⟨Nat.zero_le 1, fun bytes hbytes => absurd hbytes List.not_mem_nil, fun _ => hstop⟩
  · rw [hone]
    refine ⟨le_refl 1, fun bytes hbytes => ?_, fun hnone => absurd hnone (List.cons_ne_nil _ _)⟩
    exact ⟨c, List.mem_singleton.mp hbytes, hexpected, hproposes⟩

/-- A proposal that passes the checks is given to the signer. -/
theorem publishTxtRecordWithSigner_asks {outcome : PreparationOutcome Json} {record : IdentityRecordToSign}
    (hrecord : recordToSign P domain (validation.agentFQDN.getD domain) outcome = .ok record)
    (hkid : record.signingKid = validation.signingKid)
    (hmatch : assertKnownTagsCanonicalMatch P record.canonicalContent.toList
      validation.expectedCanonicalContent.toList (validation.agentFQDN.getD domain).toList = .ok ())
    (answer : Except Failure SignerAnswer) :
    ∃ q, Prog.Performs (publishTxtRecordWithSigner P domain validation)
      [⟨.postRecord domain (some validation.signingKid), .ok outcome⟩,
        ⟨.sign (utf8 record.canonicalContent.toList), answer⟩] q := by
  simp only [publishTxtRecordWithSigner, getIdentityRecordToSign, Prog.bind_assoc]
  refine ⟨Prog.ofExcept answer >>= submitIdentityRecordSignature P domain, .perform_bind _ (.ofExcept_bind rfl ?_)⟩
  refine .ofExcept_bind hrecord (.ofExcept_bind (b := ()) (throwIf_eq_ok.mpr (not_not.mpr hkid)) ?_)
  refine .ofExcept_bind hmatch ?_
  exact .perform_bind _ (.refl _)

end Runs

/-! ## A proposal with an unknown tag -/

def sampleRegistry : RegistryPlatform where
  toRecordPlatform := samplePlatform.toRecordPlatform
  date _ := some 0
  text _ := ""

def sampleExpected : String :=
  "ek=https://example/e;gi=example;ku=https://a.example/k;lr=tlog:1;su=https://example/s;v=dnsid-draft-01"

def sampleValidation : PublishTxtRecordValidationOptions := ⟨sampleExpected, none, "E"⟩

def sampleProposal : PreparationOutcome Json :=
  .response 200 "200 OK" (some (.obj [("canonicalContent", .str (sampleExpected ++ ";zz=1")), ("signingKid", .str "E")]))

theorem sampleProposal_signed :
    ∃ trace q, Prog.Performs (publishTxtRecordWithSigner sampleRegistry "a.example" sampleValidation) trace q ∧
      signedBytes trace = [utf8 (sampleExpected ++ ";zz=1").toList] ∧ (signedBytes trace).length ≤ 1 ∧
      (∀ bytes ∈ signedBytes trace, ∃ c, bytes = utf8 c ∧ ExpectedContent sampleExpected.toList c ∧
        Proposes "a.example" sampleValidation trace c) ∧
      (signedBytes trace = [] → ∀ published, q ≠ .ret published) := by
  obtain ⟨record, hrecord, hcontent, hkid⟩ : ∃ record,
      recordToSign sampleRegistry "a.example" "a.example" sampleProposal = .ok record ∧
        record.canonicalContent = sampleExpected ++ ";zz=1" ∧ record.signingKid = "E" := by
    have hok : ((recordToSign sampleRegistry "a.example" "a.example" sampleProposal).toOption.map fun record =>
      (record.canonicalContent, record.signingKid)) = some (sampleExpected ++ ";zz=1", "E") := by decide +kernel
    obtain ⟨record, hrecord, hpair⟩ := Option.map_eq_some_iff.mp hok
    exact ⟨record, toOption_eq_some.mp hrecord, congrArg Prod.fst hpair, congrArg Prod.snd hpair⟩
  have hmatch : assertKnownTagsCanonicalMatch sampleRegistry record.canonicalContent.toList sampleExpected.toList
      "a.example".toList = .ok () := by
    rw [hcontent]
    exact toOption_eq_some.mp (by decide +kernel)
  obtain ⟨q, hq⟩ := @publishTxtRecordWithSigner_asks sampleRegistry "a.example" sampleValidation sampleProposal record
    hrecord hkid hmatch (.ok (.bytes [1]))
  refine ⟨_, q, hq, ?_, publishTxtRecordWithSigner_signs_expected hq⟩
  rw [← hcontent]
  rfl

end Dnsid.Registry

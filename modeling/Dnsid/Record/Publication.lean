import Dnsid.Managed.Workflow
import Dnsid.Protocol.CompactJose
import Dnsid.Stream.WellFormed
import Dnsid.Record.CanonicalForm

/-! # Publishing a TXT record (`IdentityManager.createTxtRecord`)

The configured identity becomes an unsigned record, the entity key signs its canonical form, and the record is
written with the signature as `sg`. The key providers answer as they like. The text is read back as it was signed
exactly when every configured value is a tag value.
-/
namespace Dnsid.Record
open Dnsid.Foundations Dnsid.Events DnsIdTxtRecord
open Dnsid.Protocol (Bytes utf8)
open Dnsid.Protocol.Jose (toBase64Url)
set_option autoImplicit false

/-! ## Base64url text is a tag value -/

theorem toBase64Url_tagValue (bytes : Bytes) : isTagValue (toBase64Url bytes) = true := by
  have hchar : ∀ n < 64, isTagValueChar (Protocol.Jose.base64UrlChar n) = true := by decide
  rw [Protocol.Jose.toBase64Url_eq, isTagValue, List.all_map, List.all_eq_true]
  exact fun n hn => hchar n (Protocol.Jose.sextets_lt bytes n hn)

theorem toBase64Url_eq_nil {bytes : Bytes} : toBase64Url bytes = [] ↔ bytes = [] := by
  rw [Protocol.Jose.toBase64Url_eq, List.map_eq_nil_iff]
  cases bytes using Protocol.Jose.sextets.fun_cases <;> simp [Protocol.Jose.sextets]

/-! ## The program -/

structure PublisherPlatform extends RecordPlatform where
  jwkThumbprint : DnsIdJWK → Option String

/-- `config.identity`, as the constructor has validated it. -/
structure IdentityConfig where
  domain : Text
  governanceId : Text
  logRef : Text
  statusUrl : Text
  ekUrl : Option Text
  kuUrl : Option Text
  publishProfile : Option Text
  policyFlags : Option Text
  maxKeyAge : Option Text
  capabilitiesUrl : Option Text

/-- What `createTxtRecord` reads of the manager. -/
structure Publisher where
  identity : Option IdentityConfig
  hasKeyProvider : Bool
  hasEntityKeyProvider : Bool

inductive PublishError where
  | argumentError (message : String)
  | validationError (message : String)
  | outside (message : String)
  deriving DecidableEq, Repr

inductive PublishEffect where
  | entitySigningKey
  | agentSigningKey
  | sign (canonicalBytes : Bytes)

abbrev PublishEffect.Answer : PublishEffect → Type
  | entitySigningKey => DnsIdJWK
  | agentSigningKey => DnsIdJWK
  | sign _ => Bytes

/-- The record before validation. -/
def unsignedRecord (config : IdentityConfig) (profile ekUrl kuUrl : Text) : DnsIdTxtRecord where
  v := profile
  gi := config.governanceId
  ek := ekUrl
  ku := kuUrl
  lr := config.logRef
  su := config.statusUrl
  agentFQDN := config.domain
  fl := config.policyFlags.bind present
  ka := config.maxKeyAge.bind present
  cu := config.capabilitiesUrl.bind present

def messageOf : RecordError → String
  | .parseError message => message
  | .validationError message => message

section Program
variable (P : PublisherPlatform)

def createUnsignedTxtRecord (identity : Option IdentityConfig) : Except PublishError DnsIdTxtRecord := do
  let config ← orThrow (.argumentError "this operation requires a local identity (config.identity)") identity
  let profile := config.publishProfile.getD dnsidDraft01Version
  throwIf (profile ∉ supportedPublishProfiles)
    (.argumentError ("unsupported DNSid publish profile: " ++ String.ofList profile))
  throwIf (config.ekUrl.getD [] = [] ∨ config.kuUrl.getD [] = [])
    (.argumentError "draft-01 publishing requires ekUrl and kuUrl")
  let record := unsignedRecord config profile (config.ekUrl.getD []) (config.kuUrl.getD [])
  (record.validate P.toRecordPlatform).mapError fun error =>
    .argumentError ("invalid TXT record configuration: " ++ messageOf error)
  return record

def assertPublishingKeys (signingKey agentKey : DnsIdJWK) : Except PublishError Unit := do
  (Managed.validateRecordSigning signingKey).mapError .validationError
  (Managed.validateOperational agentKey).mapError .validationError
  let entityThumbprint ← orThrow (.outside "JWK thumbprint failed") (P.jwkThumbprint signingKey)
  let agentThumbprint ← orThrow (.outside "JWK thumbprint failed") (P.jwkThumbprint agentKey)
  throwIf (entityThumbprint = agentThumbprint) (.argumentError "draft-01 entity and agent keys must be distinct")

def createTxtRecord (manager : Publisher) : Prog PublishError PublishEffect.Answer Text := do
  Prog.ofExcept (throwIf (manager.hasKeyProvider = false) (.argumentError "local signing requires a keyProvider"))
  let record ← Prog.ofExcept (createUnsignedTxtRecord P manager.identity)
  Prog.ofExcept (throwIf (manager.hasEntityKeyProvider = false)
    (.argumentError "draft-01 CreateTxtRecord requires entityKeyProvider"))
  let signingKey ← Prog.perform .entitySigningKey
  let agentKey ← Prog.perform .agentSigningKey
  Prog.ofExcept (assertPublishingKeys P signingKey agentKey)
  let signature ← Prog.perform (.sign (utf8 record.canonical))
  return { record with sg := toBase64Url signature }.serialize

end Program

/-! ## What the configuration stands for -/

/-- The tags of the record that is published, in the order of `serialize`; `sg` is empty before signing. -/
def publishedTags (record : DnsIdTxtRecord) : List (Text × Text) :=
  [(tagV, record.v), (tagGi, record.gi), (tagEk, record.ek), (tagKu, record.ku), (tagLr, record.lr),
    (tagSu, record.su)] ++ pairIf tagSg record.sg ++ pairIf tagFl (record.fl.getD []) ++
    pairIf tagKa (record.ka.getD []) ++ pairIf tagCu (record.cu.getD [])

/-- The tag-to-value map of a configuration. -/
def configuredTags (config : IdentityConfig) : List (Text × Text) :=
  publishedTags (unsignedRecord config (config.publishProfile.getD dnsidDraft01Version) (config.ekUrl.getD [])
    (config.kuUrl.getD []))

/-- The text reads back to the configured tags, and its canonical form is what was signed. -/
def VerifiesAsSigned (config : IdentityConfig)
    (trace : List (Σ e : PublishEffect, Except PublishError e.Answer)) (s : Text) : Prop :=
  ∃ r, parse s = .ok r ∧ (∀ tag, tag ≠ tagSg → r.tag? tag = (configuredTags config).lookup tag) ∧
    ∀ bytes answer, ⟨.sign bytes, answer⟩ ∈ trace → bytes = utf8 r.canonical

/-- The configured values that nothing else restricts to the characters of a tag value. -/
def freeValues (config : IdentityConfig) : List Text :=
  [config.ekUrl.getD [], config.kuUrl.getD [], config.logRef, config.statusUrl, config.policyFlags.getD [],
    config.capabilitiesUrl.getD []]

/-- The fields of a valid record that must not be empty. -/
structure ValidRecord (record : DnsIdTxtRecord) : Prop where
  v : record.v ∈ supportedVersions
  gi : record.gi ≠ [] ∧ isTagValue record.gi = true
  ek : record.ek ≠ []
  ku : record.ku ≠ []
  lr : record.lr ≠ []
  su : record.su ≠ []
  ka : record.ka.getD [] = [] ∨ record.ka.getD [] ∈ validKaValues

theorem ValidRecord.v_ne_nil {record : DnsIdTxtRecord} (h : ValidRecord record) : record.v ≠ [] := by
  intro hempty
  have hall : ∀ version ∈ supportedVersions, version ≠ [] := by decide
  exact hall _ h.v hempty

theorem isLdhChar_tagValue {c : Char} (h : isLdhChar c = true) : isTagValueChar c = true := by
  have hlower : c.isLower = (decide (c.val ≥ 'a'.val) && decide (c.val ≤ 'z'.val)) := rfl
  simp only [isLdhChar, Bool.or_eq_true, decide_eq_true_eq, hlower, Char.isDigit, Bool.and_eq_true,
    UInt32.le_iff_toNat_le, ge_iff_le] at h
  simp only [isTagValueChar, Bool.or_eq_true, Bool.and_eq_true, decide_eq_true_eq]
  have hval : c.val.toNat = c.toNat := rfl
  rcases h with ((⟨hlow, hhigh⟩ | ⟨hlow, hhigh⟩) | rfl) | rfl
  · simp only [hval] at hlow hhigh
    have h1 : 'a'.val.toNat = 97 := rfl
    have h2 : 'z'.val.toNat = 122 := rfl
    omega
  · simp only [hval] at hlow hhigh
    have h1 : '0'.val.toNat = 48 := rfl
    have h2 : '9'.val.toNat = 57 := rfl
    omega
  · decide
  · decide

section Valid
variable {P : RecordPlatform} {record : DnsIdTxtRecord}

theorem validateHttpsUrl_ne_nil {value : Text} {name : String} {url : Url}
    (h : validateHttpsUrl P value name = .ok url) : value ≠ [] := by
  simp only [validateHttpsUrl, bind_eq_ok, throwIf_eq_ok] at h
  obtain ⟨-, hstart, -⟩ := h
  rintro rfl
  exact hstart (.inl rfl)

theorem validate_ok (h : record.validate P = .ok ()) : ValidRecord record := by
  simp only [DnsIdTxtRecord.validate, validateEkHost, validateHttpsUrlHost, validateLrFormat, bind_eq_ok,
    throwIf_eq_ok, orThrow_eq_ok, not_not, exists_const] at h
  obtain ⟨hv, -, agentFQDN, -, giDomain, hgi, hsame, ⟨ekUrl, hek, -⟩, ⟨kuUrl, hku, -⟩, ⟨lr, hlr, -⟩, suUrl, hsu,
    _, -, hka⟩ := h
  obtain ⟨hne, hldh⟩ := P.normalizeFQDN_ldh hgi
  refine ⟨hv, ?_, validateHttpsUrl_ne_nil hek, validateHttpsUrl_ne_nil hku, ?_, validateHttpsUrl_ne_nil hsu, ?_⟩
  · rw [hsame]
    refine ⟨hne, List.all_eq_true.mpr fun c hc => ?_⟩
    exact isLdhChar_tagValue (List.all_eq_true.mp hldh c hc)
  · rintro hempty
    rw [hempty] at hlr
    cases hlr
  · by_cases hempty : record.ka.getD [] = []
    · exact .inl hempty
    · exact .inr (by_contra fun hnot => hka ⟨hempty, hnot⟩)

end Valid

/-! ## The tags of the published text -/

section Published
variable {record : DnsIdTxtRecord}

theorem pairIf_names (tag value : Text) : List.Sublist ((pairIf tag value).map Prod.fst) [tag] := by
  unfold pairIf
  split_ifs
  · exact List.nil_sublist _
  · exact List.Sublist.refl _

theorem publishedTags_names (record : DnsIdTxtRecord) :
    List.Sublist ((publishedTags record).map Prod.fst) serialOrder := by
  simp only [publishedTags, List.map_append]
  exact ((((List.Sublist.refl requiredUnsignedTags).append (pairIf_names tagSg _)).append
    (pairIf_names tagFl _)).append (pairIf_names tagKa _)).append (pairIf_names tagCu _)

theorem publishedTags_distinct (record : DnsIdTxtRecord) : DistinctNames (publishedTags record) := by
  have hnodup : serialOrder.Nodup := by decide
  exact hnodup.sublist (publishedTags_names record)

theorem mem_pairIf {tag value : Text} {m : Text × Text} : m ∈ pairIf tag value ↔ m = (tag, value) ∧ value ≠ [] := by
  unfold pairIf
  split_ifs with h <;> simp [h]

theorem mem_publishedTags {m : Text × Text} :
    m ∈ publishedTags record ↔
      m = (tagV, record.v) ∨ m = (tagGi, record.gi) ∨ m = (tagEk, record.ek) ∨ m = (tagKu, record.ku) ∨
        m = (tagLr, record.lr) ∨ m = (tagSu, record.su) ∨ (m = (tagSg, record.sg) ∧ record.sg ≠ []) ∨
        (m = (tagFl, record.fl.getD []) ∧ record.fl.getD [] ≠ []) ∨
        (m = (tagKa, record.ka.getD []) ∧ record.ka.getD [] ≠ []) ∨
        (m = (tagCu, record.cu.getD []) ∧ record.cu.getD [] ≠ []) := by
  simp only [publishedTags, List.mem_append, List.mem_cons, List.not_mem_nil, or_false, mem_pairIf]
  tauto

theorem optionalPair_unparsed (hparsed : record.parsedTags = []) (tag : Text) (value : Option Text) :
    record.optionalPair tag value = pairIf tag (value.getD []) := by
  unfold optionalPair pairIf
  rw [hparsed]
  by_cases hvalue : value.getD [] = [] <;> simp [hvalue]

/-- A record that no text was read into is written with the tags it has values for. -/
theorem serialize_publishedTags (h : ValidRecord record) (hparsed : record.parsedTags = [])
    (hunknown : record.unknownTags = []) : record.serialize = joinElements (publishedTags record) := by
  unfold serialize publishedTags requiredPairs optionalPairs
  simp only [optionalPair_unparsed hparsed, hunknown, pairIf, h.gi.1, h.ek, h.ku, h.lr, h.su, if_false, List.append_nil,
    List.append_assoc, List.cons_append, List.nil_append]

/-- Before it is signed, its canonical form is the sorted list of these tags. -/
theorem canonical_publishedTags (h : ValidRecord record) (hparsed : record.parsedTags = [])
    (hunknown : record.unknownTags = []) (hsg : record.sg = []) :
    record.canonical = canonicalJoin (publishedTags record) := by
  unfold canonical knownCanonicalPairs publishedTags requiredPairs optionalPairs
  simp only [optionalPair_unparsed hparsed, hunknown, pairIf, hsg, h.v_ne_nil, h.gi.1, h.ek, h.ku, h.lr, h.su, if_false, if_true,
    List.append_nil, List.append_assoc, List.cons_append, List.nil_append]

/-- The tags of a valid record make a text that is accepted, once they are tag values and it is signed. -/
theorem publishedTags_good (h : ValidRecord record) (hsg : isTagValue record.sg = true)
    (hvalues : ∀ value ∈ [record.ek, record.ku, record.lr, record.su, record.fl.getD [], record.cu.getD []],
      isTagValue value = true) : GoodTags true [] (publishedTags record) := by
  have hv : isTagValue record.v = true := by
    have hall : ∀ version ∈ supportedVersions, isTagValue version = true := by decide
    exact hall _ h.v
  have hka : isTagValue (record.ka.getD []) = true := by
    have hall : ∀ value ∈ validKaValues, isTagValue value = true := by decide
    rcases h.ka with hempty | hmem
    · rw [hempty]
      rfl
    · exact hall _ hmem
  simp only [List.mem_cons, List.not_mem_nil, or_false, forall_eq_or_imp, forall_eq] at hvalues
  obtain ⟨hek, hku, hlr, hsu, hfl, hcu⟩ := hvalues
  refine ⟨fun m hm => ?_, fun m hm => ?_, publishedTags_distinct record, fun _ _ => List.not_mem_nil, by simp⟩
  · have hall : ∀ name ∈ serialOrder, isTagName name = true := by decide
    exact hall m.1 ((publishedTags_names record).subset (List.mem_map_of_mem hm))
  · rcases mem_publishedTags.mp hm with rfl | rfl | rfl | rfl | rfl | rfl | ⟨rfl, -⟩ | ⟨rfl, -⟩ | ⟨rfl, -⟩ | ⟨rfl, -⟩
    · exact hv
    · exact h.gi.2
    · exact hek
    · exact hku
    · exact hlr
    · exact hsu
    · exact hsg
    · exact hfl
    · exact hka
    · exact hcu

theorem publishedTags_signed (h : ValidRecord record) (hgood : GoodTags true [] (publishedTags record))
    (hsg : record.sg ≠ []) : SignedTags (publishedTags record) := by
  refine ⟨hgood, ⟨record.v, h.v, rfl⟩, fun name hname => ?_⟩
  have hlookup : ∀ value, (name, value) ∈ publishedTags record → value ≠ [] →
      ((publishedTags record).lookup name).getD [] ≠ [] := by
    intro value hmem hne
    rw [(hgood.distinct.mem_iff _ _).mp hmem]
    exact hne
  simp only [requiredTags, requiredUnsignedTags, List.cons_append, List.nil_append, List.mem_cons,
    List.not_mem_nil, or_false] at hname
  rcases hname with rfl | rfl | rfl | rfl | rfl | rfl | rfl
  · exact hlookup record.v (mem_publishedTags.mpr (by tauto)) h.v_ne_nil
  · exact hlookup record.gi (mem_publishedTags.mpr (by tauto)) h.gi.1
  · exact hlookup record.ek (mem_publishedTags.mpr (by tauto)) h.ek
  · exact hlookup record.ku (mem_publishedTags.mpr (by tauto)) h.ku
  · exact hlookup record.lr (mem_publishedTags.mpr (by tauto)) h.lr
  · exact hlookup record.su (mem_publishedTags.mpr (by tauto)) h.su
  · exact hlookup record.sg (mem_publishedTags.mpr (by tauto)) hsg

/-- Signing adds `sg` and nothing else. -/
theorem unsignedPart_publishedTags (record : DnsIdTxtRecord) :
    unsignedPart (publishedTags record) = publishedTags { record with sg := [] } := by
  have hkeep : ∀ tag value, tag ≠ tagSg → unsignedPart (pairIf tag value) = pairIf tag value := by
    intro tag value hne
    refine List.filter_eq_self.mpr fun m hm => ?_
    rw [(mem_pairIf.mp hm).1]
    exact decide_eq_true hne
  have hdrop : unsignedPart (pairIf tagSg record.sg) = [] := by
    refine List.filter_eq_nil_iff.mpr fun m hm => ?_
    rw [(mem_pairIf.mp hm).1]
    simp
  have happend : ∀ a b, unsignedPart (a ++ b) = unsignedPart a ++ unsignedPart b := fun a b => List.filter_append a b
  simp only [publishedTags, happend, hdrop, hkeep tagFl _ (by decide), hkeep tagKa _ (by decide),
    hkeep tagCu _ (by decide)]
  rfl

end Published

/-! ## Every publication -/

section Publication
variable {P : PublisherPlatform} {manager : Publisher} {config : IdentityConfig} {record : DnsIdTxtRecord}
variable {s : Text} {trace : List (Σ e : PublishEffect, Except PublishError e.Answer)}

/-- The record of a configuration, before it is signed. -/
structure Prepared (config : IdentityConfig) (record : DnsIdTxtRecord) : Prop where
  valid : ValidRecord record
  tags : configuredTags config = publishedTags record
  free : freeValues config = [record.ek, record.ku, record.lr, record.su, record.fl.getD [], record.cu.getD []]
  sg : record.sg = []
  parsedTags : record.parsedTags = []
  unknownTags : record.unknownTags = []

theorem getD_bind_present (value : Option Text) : (value.bind present).getD [] = value.getD [] := by
  cases value with
  | none => rfl
  | some value =>
    rw [Option.bind_some, present]
    split
    next hempty => rw [hempty]; rfl
    next => rfl

theorem createUnsignedTxtRecord_ok (h : createUnsignedTxtRecord P (some config) = .ok record) :
    Prepared config record := by
  simp only [createUnsignedTxtRecord, bind_eq_ok, throwIf_eq_ok, orThrow_eq_ok, pure_eq_ok] at h
  obtain ⟨_, hconfig, _, -, _, -, _, hvalid, rfl⟩ := h
  obtain rfl := Option.some.inj hconfig
  refine ⟨?_, rfl, ?_, rfl, rfl, rfl⟩
  · generalize unsignedRecord config _ _ _ = record at hvalid ⊢
    cases hresult : record.validate P.toRecordPlatform with
    | ok u => exact validate_ok hresult
    | error error =>
      rw [hresult] at hvalid
      cases hvalid
  · simp only [freeValues, unsignedRecord, getD_bind_present]

/-- A publication that returns asked for both keys and for one signature. -/
theorem createTxtRecord_performs (h : Prog.Performs (createTxtRecord P manager) trace (.ret s)) :
    ∃ record signingKey agentKey signature, createUnsignedTxtRecord P manager.identity = .ok record ∧
      trace = [⟨.entitySigningKey, .ok signingKey⟩, ⟨.agentSigningKey, .ok agentKey⟩,
        ⟨.sign (utf8 record.canonical), .ok signature⟩] ∧
      s = { record with sg := toBase64Url signature }.serialize := by
  unfold createTxtRecord at h
  simp only [Prog.Performs.returns_ofExcept_bind, Prog.Performs.returns_perform_bind, Prog.Performs.returns_pure] at h
  obtain ⟨_, -, record, hrecord, _, -, signingKey, _, rfl, agentKey, _, rfl, _, -, signature, _, rfl, rfl, rfl⟩ := h
  exact ⟨record, signingKey, agentKey, signature, hrecord, rfl, rfl⟩

/-- With providers that answer, the record of the configuration is published. -/
theorem createTxtRecord_returns {signingKey agentKey : DnsIdJWK} {signature : Bytes}
    (hproviders : manager.hasKeyProvider = true ∧ manager.hasEntityKeyProvider = true)
    (hrecord : createUnsignedTxtRecord P manager.identity = .ok record)
    (hkeys : assertPublishingKeys P signingKey agentKey = .ok ()) :
    Prog.Performs (createTxtRecord P manager)
      [⟨.entitySigningKey, .ok signingKey⟩, ⟨.agentSigningKey, .ok agentKey⟩,
        ⟨.sign (utf8 record.canonical), .ok signature⟩]
      (.ret { record with sg := toBase64Url signature }.serialize) := by
  unfold createTxtRecord
  simp only [Prog.Performs.returns_ofExcept_bind, Prog.Performs.returns_perform_bind, Prog.Performs.returns_pure,
    throwIf_eq_ok, hproviders]
  exact ⟨(), by simp, record, hrecord, (), by simp, signingKey, _, rfl, agentKey, _, rfl, (), hkeys, signature, _, rfl,
    rfl, rfl⟩

namespace Prepared
variable (h : Prepared config record) (signature : Bytes)
include h

theorem signed_valid : ValidRecord { record with sg := toBase64Url signature } :=
  ⟨h.valid.v, h.valid.gi, h.valid.ek, h.valid.ku, h.valid.lr, h.valid.su, h.valid.ka⟩

theorem signed_serialize : { record with sg := toBase64Url signature }.serialize =
    joinElements (publishedTags { record with sg := toBase64Url signature }) :=
  serialize_publishedTags (h.signed_valid signature) h.parsedTags h.unknownTags

theorem signed_unsignedPart : unsignedPart (publishedTags { record with sg := toBase64Url signature }) =
    publishedTags record := by
  rw [unsignedPart_publishedTags]
  congr 1
  rw [← h.sg]

theorem signed_good (hvalues : ∀ value ∈ freeValues config, isTagValue value = true) :
    GoodTags true [] (publishedTags { record with sg := toBase64Url signature }) := by
  rw [h.free] at hvalues
  exact publishedTags_good (h.signed_valid signature) (toBase64Url_tagValue signature) hvalues

theorem signed_tags (hvalues : ∀ value ∈ freeValues config, isTagValue value = true) (hne : signature ≠ []) :
    SignedTags (publishedTags { record with sg := toBase64Url signature }) :=
  publishedTags_signed (h.signed_valid signature) (h.signed_good signature hvalues)
    fun hempty => hne (toBase64Url_eq_nil.mp hempty)

/-- Tag values survive, and what is read back has the canonical form that was signed. -/
theorem parse_signed (hvalues : ∀ value ∈ freeValues config, isTagValue value = true) (hne : signature ≠ []) :
    ∃ r, parse { record with sg := toBase64Url signature }.serialize = .ok r ∧
      (∀ tag, tag ≠ tagSg → r.tag? tag = (configuredTags config).lookup tag) ∧ r.canonical = record.canonical := by
  have hsigned := h.signed_tags signature hvalues hne
  refine ⟨recordOf (publishedTags { record with sg := toBase64Url signature }), ?_, fun tag htag => ?_, ?_⟩
  · rw [h.signed_serialize]
    exact parse_joinElements hsigned
  · rw [hsigned.tag?, h.tags, ← h.signed_unsignedPart signature, lookup_unsignedPart hsigned.good.distinct htag]
  · rw [recordOf_canonical hsigned.good.distinct hsigned.completeUnsigned, h.signed_unsignedPart,
      canonical_publishedTags h.valid h.parsedTags h.unknownTags h.sg]

/-- A configured value is read back only as the value of a tag. -/
theorem values_of_parse {r : DnsIdTxtRecord} (hparse : parse s = .ok r)
    (htags : ∀ tag, tag ≠ tagSg → r.tag? tag = (configuredTags config).lookup tag) :
    ∀ value ∈ freeValues config, isTagValue value = true := by
  obtain ⟨tags, -, hsigned, rfl⟩ := parse_ok_iff.mp hparse
  have hfound : ∀ tag value, tag ≠ tagSg → (value ≠ [] → (tag, value) ∈ publishedTags record) →
      isTagValue value = true := by
    intro tag value hne hmem
    by_cases hempty : value = []
    · rw [hempty]
      rfl
    · have hlookup := htags tag hne
      rw [hsigned.tag?, h.tags, ((publishedTags_distinct record).mem_iff _ _).mp (hmem hempty)] at hlookup
      exact hsigned.good.values _ ((hsigned.good.distinct.mem_iff _ _).mpr hlookup)
  rw [h.free]
  simp only [List.mem_cons, List.not_mem_nil, or_false, forall_eq_or_imp, forall_eq]
  refine ⟨hfound tagEk _ (by decide) ?_, hfound tagKu _ (by decide) ?_, hfound tagLr _ (by decide) ?_,
    hfound tagSu _ (by decide) ?_, hfound tagFl _ (by decide) ?_, hfound tagCu _ (by decide) ?_⟩ <;>
    intro hne <;> rw [mem_publishedTags] <;> simp [hne]

/-- With an empty signature the text has no `sg`, and is not accepted. -/
theorem parse_unsigned (hvalues : ∀ value ∈ freeValues config, isTagValue value = true) (r : DnsIdTxtRecord) :
    parse { record with sg := toBase64Url [] }.serialize ≠ .ok r := by
  intro hparse
  obtain ⟨tags, hpairs, hsigned, rfl⟩ := parse_ok_iff.mp hparse
  rw [h.signed_serialize, tagPairs_joinElements (h.signed_good [] hvalues) (by simp [publishedTags])] at hpairs
  obtain rfl := Option.some.inj hpairs
  refine hsigned.complete tagSg (by decide) ?_
  rw [lookup_eq_none_of_not_mem]
  · rfl
  · intro hmem
    obtain ⟨m, hm, hname⟩ := List.mem_map.mp hmem
    have hunsigned : publishedTags { record with sg := toBase64Url [] } = unsignedPart (publishedTags record) :=
      (unsignedPart_publishedTags record).symm
    rw [hunsigned] at hm
    exact (mem_unsignedPart.mp hm).2 hname

end Prepared

/-- A published record reads back as it was configured and signed exactly when the configured values are tag values
and the signature is not empty. -/
theorem createTxtRecord_verifies_iff (hidentity : manager.identity = some config)
    (h : Prog.Performs (createTxtRecord P manager) trace (.ret s)) :
    VerifiesAsSigned config trace s ↔
      (∀ value ∈ freeValues config, isTagValue value = true) ∧
        ∀ bytes signature, ⟨.sign bytes, .ok signature⟩ ∈ trace → signature ≠ [] := by
  obtain ⟨record, signingKey, agentKey, signature, hrecord, rfl, rfl⟩ := createTxtRecord_performs h
  rw [hidentity] at hrecord
  have hprepared := createUnsignedTxtRecord_ok hrecord
  constructor
  · rintro ⟨r, hparse, htags, -⟩
    have hvalues := hprepared.values_of_parse hparse htags
    refine ⟨hvalues, fun bytes signature' hmem hempty => ?_⟩
    obtain ⟨-, hsame⟩ : bytes = utf8 record.canonical ∧ signature' = signature := by simpa using hmem
    rw [← hsame, hempty] at hparse
    exact hprepared.parse_unsigned hvalues r hparse
  · rintro ⟨hvalues, hsignature⟩
    have hne : signature ≠ [] := hsignature (utf8 record.canonical) signature (by simp)
    obtain ⟨r, hparse, htags, hcanonical⟩ := hprepared.parse_signed signature hvalues hne
    refine ⟨r, hparse, htags, fun bytes answer hmem => ?_⟩
    simp only [List.mem_cons, List.not_mem_nil, or_false, Sigma.mk.injEq] at hmem
    rw [hcanonical]
    obtain ⟨hother, -⟩ | ⟨hother, -⟩ | ⟨hsign, -⟩ := hmem
    · cases hother
    · cases hother
    · injection hsign

end Publication

/-! ## A record with an injected tag -/

/-- Names that are normalized already, and URLs `https://host/path`. -/
def samplePlatform : PublisherPlatform where
  normalizeFQDN name _ :=
    if name ≠ [] ∧ name.all isLdhChar then .ok name else .error (.validationError "invalid domain name")
  url value := some ⟨"https:".toList, (value.drop 8).takeWhile (· ≠ '/'), [], []⟩
  normalizeFQDN_ldh h := by
    split_ifs at h with hname
    obtain rfl := Except.ok.inj h
    exact hname
  jwkThumbprint key := key.text? "x"

def sampleConfig (policyFlags : Text) : IdentityConfig where
  domain := "a.example".toList
  governanceId := "example".toList
  logRef := "tlog:1".toList
  statusUrl := "https://example/s".toList
  ekUrl := some "https://example/e".toList
  kuUrl := some "https://a.example/k".toList
  publishProfile := none
  policyFlags := some policyFlags
  maxKeyAge := none
  capabilitiesUrl := none

def samplePublisher (policyFlags : Text) : Publisher := ⟨some (sampleConfig policyFlags), true, true⟩

def sampleRecord (policyFlags : Text) : DnsIdTxtRecord :=
  unsignedRecord (sampleConfig policyFlags) dnsidDraft01Version "https://example/e".toList "https://a.example/k".toList

/-- The text published with the signature `[1]`. -/
def sampleText (policyFlags : Text) : Text := { sampleRecord policyFlags with sg := toBase64Url [1] }.serialize

def sampleTrace (policyFlags : Text) : List (Σ e : PublishEffect, Except PublishError e.Answer) :=
  [⟨.entitySigningKey, .ok (Dnsid.Stream.sampleKey "E" "E")⟩, ⟨.agentSigningKey, .ok (Dnsid.Stream.sampleKey "O" "O")⟩,
    ⟨.sign (utf8 (sampleRecord policyFlags).canonical), .ok [1]⟩]

theorem sampleText_published :
    Prog.Performs (createTxtRecord samplePlatform (samplePublisher "mtls".toList)) (sampleTrace "mtls".toList)
      (.ret (sampleText "mtls".toList)) ∧
    Prog.Performs (createTxtRecord samplePlatform (samplePublisher "mtls;zz=1".toList))
      (sampleTrace "mtls;zz=1".toList) (.ret (sampleText "mtls;zz=1".toList)) := by
  have hkeys : assertPublishingKeys samplePlatform (Dnsid.Stream.sampleKey "E" "E") (Dnsid.Stream.sampleKey "O" "O") =
      .ok () := by decide
  exact ⟨createTxtRecord_returns ⟨rfl, rfl⟩ (by decide) hkeys,
    createTxtRecord_returns ⟨rfl, rfl⟩ (by decide) hkeys⟩

theorem createTxtRecord_verifies_mtls :
    VerifiesAsSigned (sampleConfig "mtls".toList) (sampleTrace "mtls".toList) (sampleText "mtls".toList) := by
  refine (createTxtRecord_verifies_iff rfl sampleText_published.1).mpr ⟨by decide, ?_⟩
  intro bytes signature hmem
  obtain ⟨-, rfl⟩ : bytes = utf8 (sampleRecord "mtls".toList).canonical ∧ signature = [1] := by
    simpa [sampleTrace] using hmem
  decide

theorem createTxtRecord_injected_tag :
    Prog.Performs (createTxtRecord samplePlatform (samplePublisher "mtls;zz=1".toList))
      (sampleTrace "mtls;zz=1".toList) (.ret (sampleText "mtls;zz=1".toList)) ∧
    ((parse (sampleText "mtls;zz=1".toList)).toOption.bind fun r => r.tag? "zz".toList) = some "1".toList ∧
    ¬ VerifiesAsSigned (sampleConfig "mtls;zz=1".toList) (sampleTrace "mtls;zz=1".toList)
      (sampleText "mtls;zz=1".toList) := by
  have hparsed : ((parse (sampleText "mtls;zz=1".toList)).toOption.bind fun r => r.tag? "zz".toList) =
      some "1".toList := by decide
  refine ⟨sampleText_published.2, hparsed, ?_⟩
  rintro ⟨r, hparse, htags, -⟩
  have hnone : (configuredTags (sampleConfig "mtls;zz=1".toList)).lookup "zz".toList = none := by decide
  rw [hparse] at hparsed
  rw [← htags _ (by decide)] at hnone
  exact Option.some_ne_none _ (hparsed.symm.trans hnone)

end Dnsid.Record

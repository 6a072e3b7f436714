import Dnsid.Events.EventCodec

/-! # What a parsed event takes from its envelope

`parseC2spEventEntry_ok` inverts the event parser: the members of the event that authority and chaining rest
on are the ones of the envelope. The readers of one entry agree on the domain and throw resource failures
only where the JSON modules do.
-/
namespace Dnsid.Events
open Dnsid.Foundations
set_option autoImplicit false

theorem asString_ok {value : Option Json} {name s : String} :
    asString value name = .ok s ↔ value = some (.str s) ∧ s ≠ "" := by
  unfold asString
  split
  · split <;> simp_all
    rintro rfl
    assumption
  · simp_all

theorem text?_eq {value : Json} {name s : String} :
    value.text? name = some s ↔ value.get? name = some (.str s) := by
  unfold Json.text?
  cases h : value.get? name with
  | none => simp
  | some v => cases v <;> simp [Json.str?]

theorem asObject_ok {value : Option Json} {error : Thrown} {members : List (String × Json)} :
    asObject value error = .ok members ↔ value = some (.obj members) := by
  unfold asObject
  rw [orThrow_eq_ok]
  cases value with
  | none => simp
  | some v => cases v <;> simp [Json.members?]

theorem dateFromSeconds_ok {seconds timestamp : ℤ} {name : String}
    (h : dateFromSeconds seconds name = .ok timestamp) : timestamp = seconds * 1000 := by
  unfold dateFromSeconds at h
  split at h
  · cases h
    rfl
  · cases h

/-- The two kinds of lifecycle key: public signing keys of Ed25519 or P-256. -/
def SupportedJwk (key : DnsIdJWK) : Prop :=
  key ≠ .null ∧ (key.get? "use" = none ∨ key.get? "use" = some (.str "sig")) ∧ key.get? "d" = none ∧
    ((key.get? "alg" = some (.str "EdDSA") ∧ key.get? "kty" = some (.str "OKP") ∧
        key.get? "crv" = some (.str "Ed25519") ∧ (key.text? "x").getD "" ≠ "") ∨
      (key.get? "alg" = some (.str "ES256") ∧ key.get? "kty" = some (.str "EC") ∧
        key.get? "crv" = some (.str "P-256") ∧ (key.text? "x").getD "" ≠ "" ∧
        (key.text? "y").getD "" ≠ ""))

section Parser
variable {Bytes : Type} {P : Platform Bytes}

/-- The verdict on a key does not depend on the name that a message gives it. -/
theorem assertSupportedLifecycleJwk_ok {key key' : DnsIdJWK} {name : String} :
    assertSupportedLifecycleJwk P key name = .ok key' ↔ key' = key ∧ SupportedJwk key := by
  unfold assertSupportedLifecycleJwk SupportedJwk
  constructor
  · intro h
    obtain ⟨_, hnull, h⟩ := bind_eq_ok.mp h
    obtain ⟨_, huse, h⟩ := bind_eq_ok.mp h
    obtain ⟨_, hd, h⟩ := bind_eq_ok.mp h
    rw [throwIf_eq_ok] at hnull
    rw [throwIf_eq_ok, not_and_or, not_not, not_not] at huse
    rw [throwIf_eq_ok, not_not] at hd
    split at h
    · next halg =>
      obtain ⟨_, hm, h⟩ := bind_eq_ok.mp h
      obtain rfl := pure_eq_ok.mp h
      simp only [throwIf_eq_ok, not_or, not_not] at hm
      exact ⟨rfl, hnull, huse, hd, .inl ⟨halg, hm⟩⟩
    · split at h
      · next halg =>
        obtain ⟨_, hm, h⟩ := bind_eq_ok.mp h
        obtain rfl := pure_eq_ok.mp h
        simp only [throwIf_eq_ok, not_or, not_not] at hm
        exact ⟨rfl, hnull, huse, hd, .inr ⟨halg, hm⟩⟩
      · cases h
  · rintro ⟨rfl, hnull, huse, hd, hkind⟩
    refine bind_eq_ok.mpr ⟨(), throwIf_eq_ok.mpr hnull, bind_eq_ok.mpr ⟨(), throwIf_eq_ok.mpr ?_,
      bind_eq_ok.mpr ⟨(), throwIf_eq_ok.mpr (not_not.mpr hd), ?_⟩⟩⟩
    · rw [not_and_or, not_not, not_not]
      exact huse
    · obtain ⟨halg, hm⟩ | ⟨halg, hm⟩ := hkind
      · rw [if_pos halg]
        refine bind_eq_ok.mpr ⟨(), throwIf_eq_ok.mpr ?_, rfl⟩
        simpa only [not_or, not_not] using hm
      · rw [if_neg (by rw [halg]; decide), if_pos halg]
        refine bind_eq_ok.mpr ⟨(), throwIf_eq_ok.mpr ?_, rfl⟩
        simpa only [not_or, not_not] using hm

theorem asJwk_ok {value : Option Json} {name : String} {key : DnsIdJWK}
    (h : asJwk P value name = .ok key) :
    value = some key ∧ SupportedJwk key ∧ ∃ kid, key.text? "kid" = some kid := by
  unfold asJwk at h
  obtain ⟨members, hvalue, h⟩ := bind_eq_ok.mp h
  obtain ⟨_, _, h⟩ := bind_eq_ok.mp h
  obtain ⟨kid, hkid, h⟩ := bind_eq_ok.mp h
  obtain ⟨_, _, h⟩ := bind_eq_ok.mp h
  obtain ⟨rfl, hsupported⟩ := assertSupportedLifecycleJwk_ok.mp h
  exact ⟨asObject_ok.mp hvalue, hsupported, kid, text?_eq.mpr (asString_ok.mp hkid).1⟩

/-! ## Signatures -/

theorem SignatureRole.name_injective : Function.Injective SignatureRole.name := by
  intro a b h
  cases a <;> cases b <;> first | rfl | simp [SignatureRole.name] at h

theorem parseRole_some {raw : List (String × Json)} {role : SignatureRole} {value : C2spSignatureValue}
    (h : parseRole raw role = .ok (some value)) : ∃ json, (role.name, json) ∈ raw := by
  unfold parseRole at h
  split at h
  · cases h
  · next json hlookup =>
    obtain ⟨before, after, hraw, -⟩ := List.lookup_eq_some_iff.mp hlookup
    exact ⟨json, by rw [hraw]; simp⟩

theorem assertAllowedRoles_ok {raw : List (String × Json)} {allowed : List SignatureRole} {u : Unit}
    (h : assertAllowedRoles raw allowed = .ok u) {role : SignatureRole} {json : Json}
    (hmem : (role.name, json) ∈ raw) : role ∈ allowed := by
  unfold assertAllowedRoles at h
  split at h
  · cases h
  · next hnone =>
    have hrole := List.find?_eq_none.mp hnone _ hmem
    simp only [decide_eq_true_eq, not_not] at hrole
    obtain ⟨role', hmem', heq⟩ := List.mem_map.mp hrole
    rwa [← SignatureRole.name_injective heq]

theorem assertAllRoles_ok {parsed : C2spSignatures} {allowed : List SignatureRole} {u : Unit}
    (h : assertAllRoles parsed allowed = .ok u) {role : SignatureRole} (hmem : role ∈ allowed) :
    ∃ value, parsed.get role = some value := by
  unfold assertAllRoles at h
  split at h
  · cases h
  · next hnone =>
    have hrole := List.find?_eq_none.mp hnone role hmem
    exact Option.ne_none_iff_exists'.mp (by simpa using hrole)

/-- Accepted signatures are those of the required roles and no others. -/
theorem parseC2spSignatures_ok {value : Option Json} {type : String} {sigs : C2spSignatures}
    (h : parseC2spSignatures value type = .ok sigs) :
    ∃ required, requiredC2spSignatureNames type = .ok required ∧
      ∀ role, role ∈ required ↔ ∃ signature, sigs.get role = some signature := by
  unfold parseC2spSignatures at h
  obtain ⟨raw, _, h⟩ := bind_eq_ok.mp h
  obtain ⟨ae, hae, h⟩ := bind_eq_ok.mp h
  obtain ⟨op, hop, h⟩ := bind_eq_ok.mp h
  obtain ⟨prevOp, hprev, h⟩ := bind_eq_ok.mp h
  obtain ⟨newOp, hnew, h⟩ := bind_eq_ok.mp h
  obtain ⟨required, hrequired, h⟩ := bind_eq_ok.mp h
  obtain ⟨_, hallowed, h⟩ := bind_eq_ok.mp h
  obtain ⟨_, hall, h⟩ := bind_eq_ok.mp h
  obtain rfl := pure_eq_ok.mp h
  refine ⟨required, hrequired, fun role => ⟨assertAllRoles_ok hall, ?_⟩⟩
  rintro ⟨signature, hget⟩
  have hparsed : parseRole raw role = .ok (some signature) := by
    cases role <;> simp only [C2spSignatures.get] at hget <;> subst hget <;> assumption
  obtain ⟨json, hmem⟩ := parseRole_some hparsed
  exact assertAllowedRoles_ok hallowed hmem

theorem requiredC2spSignatureNames_type (type : LogEventType) :
    requiredC2spSignatureNames type.name = .ok (match type with
      | .issuance => [.ae, .op]
      | .keyRotation => [.prevOp, .newOp]
      | _ => [.ae]) := by
  cases type <;> decide

/-! ## Events -/

/-- The keys that an ISSUANCE records, with the kids that its signatures name. -/
structure IssuanceRecorded (obj : Json) (sigs : C2spSignatures) (event : LogEvent)
    (fields : IssuanceEvent) : Prop where
  entityKey : fields.initialEntityPublicKey = obj.get? "ek"
  operationalKey : fields.initialOperationalPublicKey = obj.get? "ku"
  countersig : event.operationalCountersig = sigs.op.map C2spSignatureValue.sig
  entityKid : sigs.ae.map C2spSignatureValue.kid = (obj.get? "ek").bind (·.text? "kid")
  operationalKid : sigs.op.map C2spSignatureValue.kid = (obj.get? "ku").bind (·.text? "kid")
  noSlots : fields.entityKey = none ∧ fields.operationalKey = none

structure RotationRecorded (obj : Json) (sigs : C2spSignatures) (event : LogEvent)
    (fields : KeyRotationEvent) : Prop where
  newKey : obj.get? "new_ku" = some fields.newOperationalPublicKey
  proof : event.newOperationalProof = sigs.newOp.map C2spSignatureValue.sig
  newKid : sigs.newOp.map C2spSignatureValue.kid = fields.newOperationalPublicKey.text? "kid"
  previousKid : (sigs.prevOp.map C2spSignatureValue.kid).getD "" = fields.previousOperationalKid
  named : fields.newOperationalThumbprint ≠ ""

/-- The members of an event that authority and chaining rest on, from its envelope. -/
structure Recorded (obj : Json) (sigs : C2spSignatures) (event : LogEvent) : Prop where
  sig : event.sig = (sigs.get (authorizingRole event.type)).map C2spSignatureValue.sig
  kid : event.signingKid = (sigs.get (authorizingRole event.type)).map C2spSignatureValue.kid
  chain : event.chain = parseChainFields obj
  issuance : ∀ fields, event.body = .issuance fields → IssuanceRecorded obj sigs event fields
  rotation : ∀ fields, event.body = .keyRotation fields → RotationRecorded obj sigs event fields

theorem recorded_entity {obj : Json} {sigs : C2spSignatures} {timestamp : ℤ} {domain : String}
    {body : EventBody} (hi : body.type ≠ .issuance) (hr : body.type ≠ .keyRotation) :
    Recorded obj sigs (envelopeEvent timestamp domain sigs.ae (parseChainFields obj) body) := by
  have hrole : authorizingRole body.type = .ae := by
    cases h : body.type <;> simp_all [authorizingRole]
  refine ⟨?_, ?_, rfl, ?_, ?_⟩
  · show sigs.ae.map C2spSignatureValue.sig = _
    rw [LogEvent.type, envelopeEvent, hrole]
    rfl
  · show sigs.ae.map C2spSignatureValue.kid = _
    rw [LogEvent.type, envelopeEvent, hrole]
    rfl
  · rintro fields rfl
    exact absurd rfl hi
  · rintro fields rfl
    exact absurd rfl hr

/-- What the `switch` over the event type returns. -/
structure FromEnvelope (type : LogEventType) (obj : Json) (timestamp : ℤ) (domain : String)
    (sigs : C2spSignatures) (event : LogEvent) : Prop where
  type : event.type = type
  domain : event.domain = domain
  timestamp : event.timestamp = some timestamp
  recorded : Recorded obj sigs event

theorem issuanceFromEnvelope_ok {obj : Json} {timestamp : ℤ} {domain : String} {sigs : C2spSignatures}
    {event : LogEvent} (h : issuanceFromEnvelope P obj timestamp domain sigs = .ok event) :
    FromEnvelope .issuance obj timestamp domain sigs event := by
  unfold issuanceFromEnvelope at h
  obtain ⟨ek, hek, h⟩ := bind_eq_ok.mp h
  obtain ⟨ku, hku, h⟩ := bind_eq_ok.mp h
  obtain ⟨_, _, h⟩ := bind_eq_ok.mp h
  obtain ⟨_, _, h⟩ := bind_eq_ok.mp h
  obtain ⟨_, _, h⟩ := bind_eq_ok.mp h
  obtain ⟨_, hkids, h⟩ := bind_eq_ok.mp h
  obtain ⟨_, _, h⟩ := bind_eq_ok.mp h
  obtain ⟨_, _, h⟩ := bind_eq_ok.mp h
  obtain ⟨_, _, h⟩ := bind_eq_ok.mp h
  obtain rfl := pure_eq_ok.mp h
  obtain ⟨hae, hop⟩ : _ ∧ _ := by simpa only [not_or, not_not] using throwIf_eq_ok.mp hkids
  refine ⟨rfl, rfl, rfl, ⟨rfl, rfl, rfl, ?_, nofun⟩⟩
  intro fields hbody
  obtain rfl := EventBody.issuance.inj hbody
  refine ⟨(asJwk_ok hek).1.symm, (asJwk_ok hku).1.symm, rfl, ?_, ?_, rfl, rfl⟩
  · rw [(asJwk_ok hek).1, hae]
    rfl
  · rw [(asJwk_ok hku).1, hop]
    rfl

theorem keyRotationFromEnvelope_ok {obj : Json} {timestamp : ℤ} {domain : String}
    {sigs : C2spSignatures} {event : LogEvent}
    (h : keyRotationFromEnvelope P obj timestamp domain sigs = .ok event) :
    FromEnvelope .keyRotation obj timestamp domain sigs event := by
  unfold keyRotationFromEnvelope at h
  obtain ⟨newKey, hnew, h⟩ := bind_eq_ok.mp h
  obtain ⟨_, hkid, h⟩ := bind_eq_ok.mp h
  have hkid' := throwIf_eq_ok.mp hkid
  obtain ⟨_, _, h⟩ := bind_eq_ok.mp h
  obtain ⟨_, _, h⟩ := bind_eq_ok.mp h
  obtain ⟨_, hthumb, h⟩ := bind_eq_ok.mp h
  obtain rfl := pure_eq_ok.mp h
  refine ⟨rfl, rfl, rfl, ⟨rfl, rfl, rfl, ?_, ?_⟩⟩
  · intro fields hbody
    cases hbody
  · intro fields hbody
    obtain rfl := EventBody.keyRotation.inj hbody
    exact ⟨(asJwk_ok hnew).1, rfl, Decidable.of_not_not hkid', rfl, (asString_ok.mp hthumb).2⟩

theorem bodyFromEnvelope_ok {type : LogEventType} {obj : Json} {timestamp : ℤ} {domain : String}
    {sigs : C2spSignatures} {event : LogEvent}
    (h : bodyFromEnvelope P type obj timestamp domain sigs = .ok event) :
    FromEnvelope type obj timestamp domain sigs event := by
  cases type with
  | issuance => exact issuanceFromEnvelope_ok h
  | keyRotation => exact keyRotationFromEnvelope_ok h
  | retirement =>
    cases h
    exact ⟨rfl, rfl, rfl, recorded_entity (by simp [EventBody.type]) (by simp [EventBody.type])⟩
  | revocation =>
    obtain ⟨reason, _, h⟩ := bind_eq_ok.mp h
    cases h
    exact ⟨rfl, rfl, rfl, recorded_entity (by simp [EventBody.type]) (by simp [EventBody.type])⟩
  | migration =>
    obtain ⟨_, _, h⟩ := bind_eq_ok.mp h
    obtain ⟨_, _, h⟩ := bind_eq_ok.mp h
    obtain ⟨_, _, h⟩ := bind_eq_ok.mp h
    cases h
    exact ⟨rfl, rfl, rfl, recorded_entity (by simp [EventBody.type]) (by simp [EventBody.type])⟩
  | delegation =>
    obtain ⟨_, _, h⟩ := bind_eq_ok.mp h
    obtain ⟨_, _, h⟩ := bind_eq_ok.mp h
    obtain ⟨_, _, h⟩ := bind_eq_ok.mp h
    obtain ⟨_, _, h⟩ := bind_eq_ok.mp h
    cases h
    exact ⟨rfl, rfl, rfl, recorded_entity (by simp [EventBody.type]) (by simp [EventBody.type])⟩

theorem LogEventType.name_injective : Function.Injective LogEventType.name := by
  intro a b h
  cases a <;> cases b <;> first | rfl | simp [LogEventType.name] at h

theorem ofName?_eq {text : String} {type : LogEventType} (h : LogEventType.ofName? text = some type) :
    text = type.name := by
  unfold LogEventType.ofName? at h
  have hname := List.find?_some h
  exact (of_decide_eq_true hname).symm

/-- The envelope behind a parsed event. -/
structure Parsed [DecidableEq Bytes] (P : Platform Bytes) (bytes : Bytes) (event : LogEvent)
    (obj : Json) (sigs : C2spSignatures) : Prop where
  read : readEntry P bytes = .ok obj
  domain : obj.get? "fqdn" = some (.str event.domain)
  type : obj.get? "type" = some (.str event.type.name)
  signatures : parseC2spSignatures (obj.get? "sigs") event.type.name = .ok sigs
  timestamp : ∃ seconds, asSafeInt (obj.get? "ts") "ts" = .ok seconds ∧
    event.timestamp = some (seconds * 1000)
  recorded : Recorded obj sigs event

variable [DecidableEq Bytes]

theorem parseC2spEventEntry_ok {bytes : Bytes} {context : C2spEventContext} {event : LogEvent}
    (h : parseC2spEventEntry P bytes context = .ok event) : ∃ obj sigs, Parsed P bytes event obj sigs := by
  unfold parseC2spEventEntry at h
  obtain ⟨obj, hread, h⟩ := bind_eq_ok.mp h
  obtain ⟨_, _, h⟩ := bind_eq_ok.mp h
  unfold c2spEnvelopeToEvent at h
  obtain ⟨_, _, h⟩ := bind_eq_ok.mp h
  obtain ⟨_, _, h⟩ := bind_eq_ok.mp h
  obtain ⟨_, _, h⟩ := bind_eq_ok.mp h
  obtain ⟨typeName, htype, h⟩ := bind_eq_ok.mp h
  obtain ⟨type, hname, h⟩ := bind_eq_ok.mp h
  obtain ⟨seconds, hseconds, h⟩ := bind_eq_ok.mp h
  obtain ⟨timestamp, htimestamp, h⟩ := bind_eq_ok.mp h
  obtain ⟨domain, hdomain, h⟩ := bind_eq_ok.mp h
  obtain ⟨sigs, hsigs, hbody⟩ := bind_eq_ok.mp h
  obtain rfl := ofName?_eq (orThrow_eq_ok.mp hname)
  obtain ⟨rfl, rfl, htime, hrecorded⟩ := bodyFromEnvelope_ok hbody
  refine ⟨obj, sigs, hread, (asString_ok.mp hdomain).1, (asString_ok.mp htype).1, hsigs, ?_, hrecorded⟩
  rw [dateFromSeconds_ok htimestamp] at htime
  exact ⟨seconds, hseconds, htime⟩

/-- Both readers take the domain from the same member. -/
theorem parseC2spAuthorization_domain {bytes : Bytes} {context : C2spEventContext} {event : LogEvent}
    {authorization : C2spAuthorization} (hauth : parseC2spAuthorization P bytes context = .ok authorization)
    (hevent : parseC2spEventEntry P bytes context = .ok event) :
    event.domain = authorization.domain := by
  obtain ⟨obj, sigs, hparsed⟩ := parseC2spEventEntry_ok hevent
  unfold parseC2spAuthorization at hauth
  obtain ⟨obj', hread, hauth⟩ := bind_eq_ok.mp hauth
  obtain ⟨_, _, hauth⟩ := bind_eq_ok.mp hauth
  obtain ⟨_, _, hauth⟩ := bind_eq_ok.mp hauth
  obtain ⟨_, _, hauth⟩ := bind_eq_ok.mp hauth
  obtain ⟨_, _, hauth⟩ := bind_eq_ok.mp hauth
  obtain ⟨_, _, hauth⟩ := bind_eq_ok.mp hauth
  obtain ⟨_, _, hauth⟩ := bind_eq_ok.mp hauth
  obtain ⟨_, _, hauth⟩ := bind_eq_ok.mp hauth
  obtain ⟨domain, hdomain, hauth⟩ := bind_eq_ok.mp hauth
  obtain rfl := pure_eq_ok.mp hauth
  obtain rfl : obj' = obj := Except.ok.inj (hread.symm.trans hparsed.read)
  have hmember := hparsed.domain.symm.trans (asString_ok.mp hdomain).1
  cases hmember
  rfl

end Parser

end Dnsid.Events

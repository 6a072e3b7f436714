import Dnsid.Events.ParsedEvents
import Dnsid.Writer.PreparedEvent

/-! # Envelopes of prepared events

What the writer reads of an envelope does not depend on the order of its members, and replacing `sigs` changes
no other member and no signed byte.
-/
namespace Dnsid.Writer
open Dnsid.Foundations Dnsid.Events
set_option autoImplicit false

/-! ## Replacing a member -/

theorem lookup_setMember (name other : String) (value : Json) (envelope : C2spJsonEvent) :
    (setMember name value envelope).lookup other =
      if other = name then some value else envelope.lookup other := by
  induction envelope with
  | nil => exact lookup_cons_ite name other value []
  | cons m rest ih =>
    obtain ⟨key, first⟩ := m
    unfold setMember
    split
    case isTrue hkey =>
      rw [lookup_cons_ite, lookup_cons_ite, show key = name from hkey]
      split <;> rfl
    case isFalse hkey =>
      rw [lookup_cons_ite, lookup_cons_ite, ih]
      by_cases hother : other = key
      · rw [if_pos hother, if_pos hother, if_neg]
        rw [hother]
        exact hkey
      · rw [if_neg hother, if_neg hother]

theorem withoutSigs_setMember (value : Json) (envelope : C2spJsonEvent) :
    withoutSigs (.obj (setMember "sigs" value envelope)) = withoutSigs (.obj envelope) := by
  induction envelope with
  | nil => rfl
  | cons m rest ih =>
    unfold setMember
    split
    case isTrue hkey => simp [withoutSigs, hkey]
    case isFalse hkey =>
      simp only [withoutSigs, Json.obj.injEq] at ih ⊢
      rw [List.filter_cons, List.filter_cons, ih]

/-! ## Signature values -/

theorem parseSignatureValue_ok {value : Json} {name : String} {x : C2spSignatureValue} :
    parseSignatureValue (some value) name = .ok x ↔
      ∃ members, value = .obj members ∧ (∀ m ∈ members, m.1 = "kid" ∨ m.1 = "sig") ∧
        members.lookup "kid" = some (.str x.kid) ∧ x.kid ≠ "" ∧
        members.lookup "sig" = some (.str x.sig) ∧ x.sig ≠ "" ∧ isBase64UrlText x.sig = true := by
  unfold parseSignatureValue
  simp only [bind_eq_ok, throwIf_eq_ok, pure_eq_ok, asObject_ok, asString_ok, Option.some.injEq]
  constructor
  · rintro ⟨members, rfl, -, hnames, kid, hkid, sig, hsig, -, htext, rfl⟩
    refine ⟨members, rfl, fun m hm => ?_, hkid.1, hkid.2, hsig.1, hsig.2, by simpa using htext⟩
    have := fun h => hnames (List.any_eq_true.mpr ⟨m, hm, h⟩)
    by_cases hm' : m.1 = "kid" <;> simp_all
  · rintro ⟨members, rfl, hnames, hkid, hkid', hsig, hsig', htext⟩
    refine ⟨members, rfl, (), ?_, x.kid, ⟨hkid, hkid'⟩, x.sig, ⟨hsig, hsig'⟩, (), by simpa using htext, rfl⟩
    rw [Bool.not_eq_true, List.any_eq_false]
    intro m hm
    rcases hnames m hm with h | h <;> simp [h]

theorem parseSignatureValue_sorted {value value' : Json} {name : String} {x : C2spSignatureValue}
    (hsorted : value.sorted = value'.sorted) (h : parseSignatureValue (some value) name = .ok x) :
    parseSignatureValue (some value') name = .ok x := by
  obtain ⟨members, rfl, hnames, hkid, hkid', hsig, hsig', htext⟩ := parseSignatureValue_ok.mp h
  obtain ⟨members', rfl⟩ := Json.eq_obj_of_sorted hsorted rfl
  exact parseSignatureValue_ok.mpr ⟨members', rfl,
    Json.names_of_sorted (p := fun name => name = "kid" ∨ name = "sig") hsorted hnames,
    Json.eq_str_of_sorted (Json.get?_eq_of_sorted hsorted "kid") hkid, hkid',
    Json.eq_str_of_sorted (Json.get?_eq_of_sorted hsorted "sig") hsig, hsig', htext⟩

/-- A written signature is read as it was written. -/
theorem parseSignatureValue_signatureJson {signature x : C2spSignatureValue} {name : String}
    (h : parseSignatureValue (some (signatureJson signature)) name = .ok x) : x = signature := by
  obtain ⟨members, hmembers, -, hkid, -, hsig, -⟩ := parseSignatureValue_ok.mp h
  cases hmembers
  obtain ⟨kid, sig⟩ := signature
  cases x
  simp_all [List.lookup_cons]

/-! ## The object `sigs` -/

theorem parseRole_sorted {raw raw' : List (String × Json)} {role : SignatureRole}
    {x : Option C2spSignatureValue} (hsorted : (Json.obj raw).sorted = (Json.obj raw').sorted)
    (h : parseRole raw role = .ok x) : parseRole raw' role = .ok x := by
  have hlookup : (raw.lookup role.name).map Json.sorted = (raw'.lookup role.name).map Json.sorted :=
    Json.get?_eq_of_sorted hsorted role.name
  unfold parseRole at h ⊢
  cases hvalue : raw.lookup role.name with
  | none =>
    rw [Json.eq_none_of_sorted hlookup hvalue]
    rwa [hvalue] at h
  | some value =>
    cases hvalue' : raw'.lookup role.name with
    | none => simp [hvalue, hvalue'] at hlookup
    | some value' =>
      rw [hvalue, hvalue'] at hlookup
      simp only [hvalue] at h
      cases hparsed : parseSignatureValue (some value) s!"sigs.{role.name}" with
      | error e =>
        rw [hparsed] at h
        cases h
      | ok signature =>
        rw [hparsed] at h
        simp only [parseSignatureValue_sorted (Option.some.inj hlookup) hparsed]
        exact h

theorem assertAllowedRoles_iff {raw : List (String × Json)} {allowed : List SignatureRole} {u : Unit} :
    assertAllowedRoles raw allowed = .ok u ↔ ∀ m ∈ raw, m.1 ∈ allowed.map SignatureRole.name := by
  unfold assertAllowedRoles
  split
  case h_1 m hfind =>
    have hmem := List.mem_of_find?_eq_some hfind
    have hrefused := List.find?_some hfind
    simp only [decide_eq_true_eq] at hrefused
    simp only [reduceCtorEq, false_iff]
    intro hall
    exact hrefused (hall m hmem)
  case h_2 hnone =>
    simp only [true_iff]
    intro m hm
    simpa using List.find?_eq_none.mp hnone m hm

/-- A parse of signatures that are there. -/
theorem parsePartialC2spSignatures_some {value : Json} {type : String} {sigs : C2spSignatures} :
    parsePartialC2spSignatures (some value) type = .ok sigs ↔
      ∃ raw allowed, value = .obj raw ∧ (∀ role, parseRole raw role = .ok (sigs.get role)) ∧
        requiredC2spSignatureNames type = .ok allowed ∧
        ∀ m ∈ raw, m.1 ∈ allowed.map SignatureRole.name := by
  unfold parsePartialC2spSignatures
  simp only [bind_eq_ok, pure_eq_ok, asObject_ok, Option.some.injEq, assertAllowedRoles_iff]
  constructor
  · rintro ⟨raw, rfl, ae, hae, op, hop, prevOp, hprevOp, newOp, hnewOp, allowed, hallowed, -, hnames, rfl⟩
    refine ⟨raw, allowed, rfl, fun role => ?_, hallowed, hnames⟩
    cases role
    · exact hae
    · exact hop
    · exact hprevOp
    · exact hnewOp
  · rintro ⟨raw, allowed, rfl, hroles, hallowed, hnames⟩
    exact ⟨raw, rfl, _, hroles .ae, _, hroles .op, _, hroles .prevOp, _, hroles .newOp, allowed, hallowed,
      (), hnames, rfl⟩

theorem parsePartialC2spSignatures_sorted {value value' : Option Json} {type : String}
    {sigs : C2spSignatures} (hsorted : value.map Json.sorted = value'.map Json.sorted)
    (h : parsePartialC2spSignatures value type = .ok sigs) :
    parsePartialC2spSignatures value' type = .ok sigs := by
  cases value with
  | none => rwa [Json.eq_none_of_sorted hsorted rfl]
  | some value =>
    cases value' with
    | none => cases hsorted
    | some value' =>
      have hvalues := Option.some.inj hsorted
      obtain ⟨raw, allowed, rfl, hroles, hallowed, hnames⟩ := parsePartialC2spSignatures_some.mp h
      obtain ⟨raw', rfl⟩ := Json.eq_obj_of_sorted hvalues rfl
      exact parsePartialC2spSignatures_some.mpr ⟨raw', allowed, rfl,
        fun role => parseRole_sorted hvalues (hroles role), hallowed,
        Json.names_of_sorted (p := (· ∈ allowed.map SignatureRole.name)) hvalues hnames⟩

theorem lookup_signaturesMembers (sigs : C2spSignatures) (role : SignatureRole) :
    (signaturesMembers sigs).lookup role.name = (sigs.get role).map signatureJson := by
  obtain ⟨ae, op, prevOp, newOp⟩ := sigs
  cases ae <;> cases op <;> cases prevOp <;> cases newOp <;> cases role <;> rfl

/-! ## Accepted envelopes -/

/-- What `assertPublicChainShape` lets pass. -/
structure ChainShape (envelope : C2spJsonEvent) : Prop where
  seq : isSafeNatural (envelope.lookup "seq") = true
  prevIndex : envelope.lookup "prev_index" = none
  prevLeafHash : envelope.lookup "prev_leaf_hash" = none
  eventId : envelope.lookup "event_id" = none
  genesis : envelope.lookup "seq" = some (.num 0) →
    envelope.lookup "prev_event_id" = none ∧ envelope.lookup "prev_state_hash" = none
  chained : envelope.lookup "seq" ≠ some (.num 0) →
    isSha256Base64Url (envelope.lookup "prev_event_id") = true ∧
      isSha256Base64Url (envelope.lookup "prev_state_hash") = true

theorem assertPriorFields_ok {envelope : C2spJsonEvent} {u : Unit} :
    assertPriorFields envelope = .ok u ↔
      (envelope.lookup "seq" = some (.num 0) →
        envelope.lookup "prev_event_id" = none ∧ envelope.lookup "prev_state_hash" = none) ∧
      (envelope.lookup "seq" ≠ some (.num 0) →
        isSha256Base64Url (envelope.lookup "prev_event_id") = true ∧
          isSha256Base64Url (envelope.lookup "prev_state_hash") = true) := by
  unfold assertPriorFields
  split
  case isTrue hseq =>
    simp only [throwIf_eq_ok, not_or, not_not, hseq, forall_const, ne_eq, not_true_eq_false,
      false_implies, and_true]
  case isFalse hseq => simp [hseq, bind_eq_ok, throwIf_eq_ok, assertPriorField]

theorem assertPublicChainShape_ok {envelope : C2spJsonEvent} {u : Unit} :
    assertPublicChainShape envelope = .ok u ↔ ChainShape envelope := by
  unfold assertPublicChainShape
  simp only [bind_eq_ok, throwIf_eq_ok, assertPriorFields_ok, not_or, not_not]
  constructor
  · rintro ⟨-, hseq, -, ⟨hindex, hleaf, hid⟩, hgenesis, hchained⟩
    exact ⟨by simpa using hseq, hindex, hleaf, hid, hgenesis, hchained⟩
  · intro h
    exact ⟨(), by simpa using h.seq, (), ⟨h.prevIndex, h.prevLeafHash, h.eventId⟩, h.genesis, h.chained⟩

/-- What `assertPreparedEnvelope` lets pass. -/
structure EnvelopeAccepted {Bytes : Type} (W : WriterPlatform Bytes) (reference : ParsedC2spTlogLr)
    (envelope : C2spJsonEvent) (type : String) : Prop where
  version : envelope.lookup "v" = some (.num 1)
  kind : envelope.lookup "kind" = some (.str "dnsid.lifecycle")
  typed : envelope.lookup "type" = some (.str type)
  required : ∃ names, requiredC2spSignatureNames type = .ok names
  fqdn : ∃ fqdn normalized, envelope.lookup "fqdn" = some (.str fqdn) ∧ fqdn ≠ "" ∧
    W.normalizeFQDN fqdn = some normalized ∧ reference.streamId ≠ normalized
  ts : isSafeNatural (envelope.lookup "ts") = true
  method : envelope.lookup "method" = some (.str "c2sp-tlog")
  logOrigin : envelope.lookup "log_origin" = some (.str reference.origin)
  streamId : envelope.lookup "stream_id" = some (.str reference.streamId)
  lr : envelope.lookup "lr" = some (.str reference.lr)
  chain : ChainShape envelope
  genesisType : envelope.lookup "seq" = some (.num 0) → type = "ISSUANCE" ∨ type = "MIGRATION"
  migration : type = "MIGRATION" → envelope.lookup "new_lr" = some (.str reference.lr) ∧
    envelope.lookup "prev_lr" ≠ envelope.lookup "new_lr" ∧ envelope.lookup "seq" = some (.num 0)
  signatures : ∃ sigs, parsePartialC2spSignatures (envelope.lookup "sigs") type = .ok sigs

theorem assertInboundMigration_ok {envelope : C2spJsonEvent} {reference : ParsedC2spTlogLr} {type : String}
    {u : Unit} : assertInboundMigration envelope reference type = .ok u ↔
      (type = "MIGRATION" → envelope.lookup "new_lr" = some (.str reference.lr) ∧
        envelope.lookup "prev_lr" ≠ envelope.lookup "new_lr" ∧
        envelope.lookup "seq" = some (.num 0)) := by
  unfold assertInboundMigration
  split
  case isTrue htype => simp [htype, bind_eq_ok, throwIf_eq_ok]
  case isFalse htype => simp [htype]

theorem bind_str?_eq {value : Option Json} {text : String} :
    value.bind Json.str? = some text ↔ value = some (.str text) := by
  cases value with
  | none => simp
  | some v => cases v <;> simp [Json.str?]

theorem filter_eq_some {value : Option String} {text : String} :
    value.filter (· ≠ "") = some text ↔ value = some text ∧ text ≠ "" := by
  rw [Option.filter_eq_some_iff]
  simp

theorem assertPreparedEnvelope_ok {Bytes : Type} {W : WriterPlatform Bytes} {value : Json}
    {reference : ParsedC2spTlogLr} {envelope : C2spJsonEvent} :
    assertPreparedEnvelope W value reference = .ok envelope ↔
      value = .obj envelope ∧ ∃ type, EnvelopeAccepted W reference envelope type := by
  unfold assertPreparedEnvelope
  simp only [bind_eq_ok, throwIf_eq_ok, orThrow_eq_ok, pure_eq_ok, asObject_ok, Option.some.injEq,
    assertBinding, not_or, not_not, bind_str?_eq, filter_eq_some, assertPublicChainShape_ok,
    assertInboundMigration_ok, exists_const]
  constructor
  · rintro ⟨env, rfl, ⟨hv, hkind⟩, type, htype, names, hnames, fqdn, ⟨hfqdn, hne⟩, normalized, hnorm,
      hstream, hts, hmethod, horigin, hid, hlr, hchain, hgenesis, hmigration, sigs, hsigs, rfl⟩
    refine ⟨rfl, type, hv, hkind, htype, ⟨names, hnames⟩, ⟨fqdn, normalized, hfqdn, hne, hnorm, hstream⟩,
      by simpa using hts, hmethod, horigin, hid, hlr, hchain, fun hseq => ?_, hmigration, ⟨sigs, hsigs⟩⟩
    by_contra hcontra
    exact hgenesis ⟨hseq, not_or.mp hcontra⟩
  · rintro ⟨rfl, type, h⟩
    obtain ⟨names, hnames⟩ := h.required
    obtain ⟨fqdn, normalized, hfqdn, hne, hnorm, hstream⟩ := h.fqdn
    obtain ⟨sigs, hsigs⟩ := h.signatures
    refine ⟨envelope, rfl, ⟨h.version, h.kind⟩, type, h.typed, names, hnames, fqdn, ⟨hfqdn, hne⟩,
      normalized, hnorm, hstream, by simpa using h.ts, h.method, h.logOrigin, h.streamId, h.lr, h.chain,
      ?_, h.migration, sigs, hsigs, rfl⟩
    rintro ⟨hseq, hissuance, hmigration⟩
    exact (h.genesisType hseq).elim hissuance hmigration

/-! ## Prepared events -/

section Prepared
variable {Bytes : Type} {W : WriterPlatform Bytes}

/-- The signatures that a prepared event carries. -/
def signaturesOf (W : WriterPlatform Bytes) (envelope : C2spJsonEvent) : Except Thrown C2spSignatures :=
  parsePartialC2spSignatures (envelope.lookup "sigs") (typeText W envelope)

/-- The signed bytes and the id are those of the envelope, and its signatures can be read. -/
structure Sealed (W : WriterPlatform Bytes) (prepared : PreparedC2spTlogEvent Bytes) : Prop where
  signedBytes : W.canonicalBytes (withoutSigs (.obj prepared.envelope)) = .ok prepared.signedBytes
  eventId : prepared.eventId = c2spEventId W.toPlatform prepared.signedBytes
  signatures : ∃ sigs, signaturesOf W prepared.envelope = .ok sigs

theorem makePrepared_ok {reference : ParsedC2spTlogLr} {envelope : C2spJsonEvent}
    {prepared : PreparedC2spTlogEvent Bytes} (h : makePrepared W reference envelope = .ok prepared) :
    prepared.reference = reference ∧ prepared.envelope = envelope ∧ Sealed W prepared := by
  unfold makePrepared at h
  obtain ⟨sigs, hsigs, h⟩ := bind_eq_ok.mp h
  obtain ⟨signed, hsigned, h⟩ := bind_eq_ok.mp h
  obtain ⟨names, hnames, h⟩ := bind_eq_ok.mp h
  obtain rfl := pure_eq_ok.mp h
  exact ⟨rfl, rfl, hsigned, rfl, sigs, hsigs⟩

theorem typeText_congr {envelope envelope' : C2spJsonEvent} {type : String}
    (h : envelope.lookup "type" = some (.str type)) (h' : envelope'.lookup "type" = some (.str type)) :
    typeText W envelope = typeText W envelope' := by
  simp [typeText, h, h']

end Prepared

end Dnsid.Writer

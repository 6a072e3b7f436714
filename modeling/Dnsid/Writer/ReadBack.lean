import Dnsid.Writer.Finalized

/-! # Reading a finished entry back

The bytes of a finished entry hold the members of its envelope in canonical order. The checks of the writer do not
depend on that order, so a finished entry is read back as a prepared event, and finalizing that one gives the same
bytes (`readBack`).
-/
namespace Dnsid.Writer
open Dnsid.Foundations Dnsid.Events Dnsid.Stream
set_option autoImplicit false

section Keys
variable {Bytes : Type} {W : WriterPlatform Bytes}

/-! ## Keys up to the order of their members -/

/-- `kid` and `alg` are compared as they stand. -/
structure SameKey (key key' : DnsIdJWK) : Prop where
  sorted : key.sorted = key'.sorted
  kid : key.get? "kid" = key'.get? "kid"
  alg : key.get? "alg" = key'.get? "alg"

theorem SameKey.refl (key : DnsIdJWK) : SameKey key key := ⟨rfl, rfl, rfl⟩

theorem eq_of_sorted_str {a b : Option Json} {text : String} (h : a.map Json.sorted = b.map Json.sorted)
    (ha : a = some (.str text)) : a = b :=
  ha.trans (Json.eq_str_of_sorted h ha).symm

theorem get?_str_congr {key key' : Json} (h : key.sorted = key'.sorted) {name text : String}
    (hget : key.get? name = some (.str text)) : key'.get? name = some (.str text) :=
  Json.eq_str_of_sorted (Json.get?_eq_of_sorted h name) hget

theorem supportedJwk_congr {key key' : DnsIdJWK} (h : key.sorted = key'.sorted) (hkey : SupportedJwk key) :
    SupportedJwk key' := by
  obtain ⟨hnull, huse, hd, halg⟩ := hkey
  refine ⟨?_, ?_, Json.eq_none_of_sorted (Json.get?_eq_of_sorted h "d") hd, ?_⟩
  · rintro rfl
    cases key <;> simp [Json.sorted] at h hnull
  · rcases huse with huse | huse
    · exact .inl (Json.eq_none_of_sorted (Json.get?_eq_of_sorted h "use") huse)
    · exact .inr (get?_str_congr h huse)
  · rw [← text?_eq_of_sorted h "x", ← text?_eq_of_sorted h "y"]
    rcases halg with ⟨halg, hkty, hcrv, hx⟩ | ⟨halg, hkty, hcrv, hx, hy⟩
    · exact .inl ⟨get?_str_congr h halg, get?_str_congr h hkty, get?_str_congr h hcrv, hx⟩
    · exact .inr ⟨get?_str_congr h halg, get?_str_congr h hkty, get?_str_congr h hcrv, hx, hy⟩

theorem asJwk_ok {value : Option Json} {name : String} {key : DnsIdJWK} :
    asJwk W value name = .ok key ↔ value = some key ∧ (∃ members, key = .obj members) ∧ SupportedJwk key ∧
      (key.text? "kty").isSome ∧ (key.text? "kid").getD "" ≠ "" ∧ (key.text? "alg").getD "" ≠ "" := by
  unfold asJwk
  simp only [bind_eq_ok, throwIf_eq_ok, asObject_ok, assertSupportedLifecycleJwk_ok, not_or, exists_const]
  constructor
  · rintro ⟨members, rfl, ⟨hkty, hkid, halg⟩, rfl, hsupported⟩
    rw [Bool.not_eq_true, Option.isNone_eq_false_iff] at hkty
    exact ⟨rfl, ⟨members, rfl⟩, hsupported, hkty, hkid, halg⟩
  · rintro ⟨rfl, ⟨members, rfl⟩, hsupported, hkty, hkid, halg⟩
    refine ⟨members, rfl, ⟨?_, hkid, halg⟩, rfl, hsupported⟩
    rw [Bool.not_eq_true, Option.isNone_eq_false_iff]
    exact hkty

theorem asJwk_congr {value value' : Option Json} {name : String} {key : DnsIdJWK}
    (h : value.map Json.sorted = value'.map Json.sorted) (hkey : asJwk W value name = .ok key) :
    ∃ key', asJwk W value' name = .ok key' ∧ SameKey key key' := by
  obtain ⟨rfl, ⟨members, rfl⟩, hsupported, hkty, hkid, halg⟩ := asJwk_ok.mp hkey
  cases value' with
  | none => cases h
  | some key' =>
    have hsorted : (Json.obj members).sorted = key'.sorted := by simpa using h
    obtain ⟨members', rfl⟩ := Json.eq_obj_of_sorted hsorted rfl
    have htext := text?_eq_of_sorted hsorted
    refine ⟨.obj members', asJwk_ok.mpr ⟨rfl, ⟨members', rfl⟩, supportedJwk_congr hsorted hsupported, ?_, ?_, ?_⟩,
      hsorted, ?_, ?_⟩
    · rwa [← htext]
    · rwa [← htext]
    · rwa [← htext]
    · cases hkid' : (Json.obj members).text? "kid" with
      | none => simp [hkid'] at hkid
      | some kid => exact eq_of_sorted_str (Json.get?_eq_of_sorted hsorted "kid") (text?_eq.mp hkid')
    · cases halg' : (Json.obj members).text? "alg" with
      | none => simp [halg'] at halg
      | some alg => exact eq_of_sorted_str (Json.get?_eq_of_sorted hsorted "alg") (text?_eq.mp halg')

theorem thumbprintOf_congr {key key' : DnsIdJWK} (h : SameKey key key') :
    thumbprintOf W.toPlatform key = thumbprintOf W.toPlatform key' := by
  unfold thumbprintOf
  rw [W.jwkThumbprint_sorted key key' h.sorted]

theorem assertTrustedKey_congr {key key' : DnsIdJWK} (h : SameKey key key') (trusted : Option DnsIdJWK)
    (name : String) : assertTrustedKey W key trusted name = assertTrustedKey W key' trusted name := by
  cases trusted with
  | none => rfl
  | some expected => simp only [assertTrustedKey, assertExpectedKey, keysDiffer, h.kid, h.alg, thumbprintOf_congr h]

end Keys

/-! ## Envelopes up to the order of their members -/

section Envelopes
variable {Bytes : Type} {W : WriterPlatform Bytes} {envelope envelope' : C2spJsonEvent}

theorem lookup_str_congr (h : (Json.obj envelope).sorted = (Json.obj envelope').sorted) (name text : String) :
    envelope.lookup name = some (.str text) ↔ envelope'.lookup name = some (.str text) :=
  ⟨Json.eq_str_of_sorted (Json.get?_eq_of_sorted h name), Json.eq_str_of_sorted (Json.get?_eq_of_sorted h name).symm⟩

theorem lookup_num_congr (h : (Json.obj envelope).sorted = (Json.obj envelope').sorted) (name : String) (q : ℚ) :
    envelope.lookup name = some (.num q) ↔ envelope'.lookup name = some (.num q) :=
  ⟨Json.eq_num_of_sorted (Json.get?_eq_of_sorted h name), Json.eq_num_of_sorted (Json.get?_eq_of_sorted h name).symm⟩

theorem lookup_none_congr (h : (Json.obj envelope).sorted = (Json.obj envelope').sorted) {name : String}
    (hnone : envelope.lookup name = none) : envelope'.lookup name = none :=
  Json.eq_none_of_sorted (Json.get?_eq_of_sorted h name) hnone

theorem isSafeNatural_congr (h : (Json.obj envelope).sorted = (Json.obj envelope').sorted) {name : String}
    (hsafe : isSafeNatural (envelope.lookup name) = true) : isSafeNatural (envelope'.lookup name) = true := by
  unfold isSafeNatural at hsafe
  split at hsafe
  next q hq =>
    rw [(lookup_num_congr h name q).mp hq]
    exact hsafe
  next => cases hsafe

theorem isSha256Base64Url_congr (h : (Json.obj envelope).sorted = (Json.obj envelope').sorted) {name : String}
    (hhash : isSha256Base64Url (envelope.lookup name) = true) :
    isSha256Base64Url (envelope'.lookup name) = true := by
  unfold isSha256Base64Url at hhash
  split at hhash
  next text htext =>
    rw [(lookup_str_congr h name text).mp htext]
    exact hhash
  next => cases hhash

theorem ChainShape.congr (h : (Json.obj envelope).sorted = (Json.obj envelope').sorted)
    (hshape : ChainShape envelope) : ChainShape envelope' where
  seq := isSafeNatural_congr h hshape.seq
  prevIndex := lookup_none_congr h hshape.prevIndex
  prevLeafHash := lookup_none_congr h hshape.prevLeafHash
  eventId := lookup_none_congr h hshape.eventId
  genesis hseq := by
    obtain ⟨hid, hstate⟩ := hshape.genesis ((lookup_num_congr h "seq" 0).mpr hseq)
    exact ⟨lookup_none_congr h hid, lookup_none_congr h hstate⟩
  chained hseq := by
    obtain ⟨hid, hstate⟩ := hshape.chained fun hzero => hseq ((lookup_num_congr h "seq" 0).mp hzero)
    exact ⟨isSha256Base64Url_congr h hid, isSha256Base64Url_congr h hstate⟩

theorem EnvelopeAccepted.congr {reference : ParsedC2spTlogLr} {type : String}
    (h : (Json.obj envelope).sorted = (Json.obj envelope').sorted)
    (haccepted : EnvelopeAccepted W reference envelope type) : EnvelopeAccepted W reference envelope' type where
  version := (lookup_num_congr h "v" 1).mp haccepted.version
  kind := (lookup_str_congr h "kind" _).mp haccepted.kind
  typed := (lookup_str_congr h "type" _).mp haccepted.typed
  required := haccepted.required
  fqdn := by
    obtain ⟨fqdn, normalized, hfqdn, hrest⟩ := haccepted.fqdn
    exact ⟨fqdn, normalized, (lookup_str_congr h "fqdn" _).mp hfqdn, hrest⟩
  ts := isSafeNatural_congr h haccepted.ts
  method := (lookup_str_congr h "method" _).mp haccepted.method
  logOrigin := (lookup_str_congr h "log_origin" _).mp haccepted.logOrigin
  streamId := (lookup_str_congr h "stream_id" _).mp haccepted.streamId
  lr := (lookup_str_congr h "lr" _).mp haccepted.lr
  chain := haccepted.chain.congr h
  genesisType hseq := haccepted.genesisType ((lookup_num_congr h "seq" 0).mpr hseq)
  migration htype := by
    obtain ⟨hnew, hprev, hseq⟩ := haccepted.migration htype
    refine ⟨(lookup_str_congr h "new_lr" _).mp hnew, fun heq => hprev ?_, (lookup_num_congr h "seq" 0).mp hseq⟩
    rw [hnew]
    exact (lookup_str_congr h "prev_lr" _).mpr (heq.trans ((lookup_str_congr h "new_lr" _).mp hnew))
  signatures := by
    obtain ⟨sigs, hsigs⟩ := haccepted.signatures
    exact ⟨sigs, parsePartialC2spSignatures_sorted (Json.get?_eq_of_sorted h "sigs") hsigs⟩

theorem assertIssuanceExpectations_congr {context : PreparedC2spVerificationContext} {complete : Bool}
    (h : (Json.obj envelope).sorted = (Json.obj envelope').sorted)
    (hexpected : assertIssuanceExpectations W envelope context complete = .ok ()) :
    assertIssuanceExpectations W envelope' context complete = .ok () := by
  unfold assertIssuanceExpectations at hexpected ⊢
  simp only [ne_eq, lookup_str_congr h] at hexpected
  split at hexpected
  next htype => rw [if_pos htype]
  next htype =>
    rw [if_neg htype]
    obtain ⟨entityKey, hentityKey, hexpected⟩ := bind_eq_ok.mp hexpected
    obtain ⟨operationalKey, hoperationalKey, hexpected⟩ := bind_eq_ok.mp hexpected
    obtain ⟨entityKey', hentityKey', hsameEntity⟩ := asJwk_congr (Json.get?_eq_of_sorted h "ek") hentityKey
    obtain ⟨operationalKey', hoperationalKey', hsameOperational⟩ :=
      asJwk_congr (Json.get?_eq_of_sorted h "ku") hoperationalKey
    refine bind_eq_ok.mpr ⟨entityKey', hentityKey', bind_eq_ok.mpr ⟨operationalKey', hoperationalKey', ?_⟩⟩
    have hmap : ∀ (name : String) (expected : Option String), expected ≠ none →
        (envelope.lookup name = expected.map Json.str ↔ envelope'.lookup name = expected.map Json.str) := by
      intro name expected hsome
      obtain ⟨text, rfl⟩ := Option.ne_none_iff_exists'.mp hsome
      exact lookup_str_congr h name text
    simp only [thumbprintOf_congr hsameEntity, thumbprintOf_congr hsameOperational,
      assertTrustedKey_congr hsameEntity, assertTrustedKey_congr hsameOperational] at hexpected
    simp only [bind_eq_ok, throwIf_eq_ok, not_and, not_not] at hexpected ⊢
    obtain ⟨te, hte, tk, htk, u₁, hdistinct, u₂, hcomplete, u₃, hfqdn, u₄, hgi, hkeys⟩ := hexpected
    exact ⟨te, hte, tk, htk, u₁, hdistinct, u₂, hcomplete, u₃, fun hne => (hmap "fqdn" _ hne).mp (hfqdn hne), u₄,
      fun hne => (hmap "gi" _ hne).mp (hgi hne), hkeys⟩

/-- What is checked with every expectation present holds when some may be missing. -/
theorem assertIssuanceExpectations_partial {context : PreparedC2spVerificationContext}
    (h : assertIssuanceExpectations W envelope context true = .ok ()) :
    assertIssuanceExpectations W envelope context false = .ok () := by
  unfold assertIssuanceExpectations at h ⊢
  split at h
  next htype => rw [if_pos htype]
  next htype =>
    rw [if_neg htype]
    simp only [bind_eq_ok, throwIf_eq_ok] at h ⊢
    obtain ⟨ek, hek, ku, hku, te, hte, tk, htk, u₁, hdistinct, u₂, -, hrest⟩ := h
    exact ⟨ek, hek, ku, hku, te, hte, tk, htk, u₁, hdistinct, u₂, by simp, hrest⟩

theorem keyForRole_congr {role : C2spSignerRole} {context : PreparedC2spVerificationContext} {key : DnsIdJWK}
    (h : (Json.obj envelope).sorted = (Json.obj envelope').sorted)
    (hkey : keyForRole W envelope role context = .ok key) :
    ∃ key', keyForRole W envelope' role context = .ok key' ∧ SameKey key key' := by
  have hembedded : ∀ (name message : String) (trusted : Option DnsIdJWK),
      (do
        let embedded ← asJwk W (envelope.lookup name) name
        assertTrustedKey W embedded trusted message
        return trusted.getD embedded) = Except.ok key →
      ∃ key', (do
        let embedded ← asJwk W (envelope'.lookup name) name
        assertTrustedKey W embedded trusted message
        return trusted.getD embedded) = Except.ok key' ∧ SameKey key key' := by
    intro name message trusted hok
    obtain ⟨embedded, hembedded, hok⟩ := bind_eq_ok.mp hok
    obtain ⟨u, htrusted, hok⟩ := bind_eq_ok.mp hok
    obtain ⟨embedded', hembedded', hsame⟩ := asJwk_congr (Json.get?_eq_of_sorted h name) hembedded
    obtain rfl := pure_eq_ok.mp hok
    refine ⟨trusted.getD embedded', bind_eq_ok.mpr ⟨embedded', hembedded', bind_eq_ok.mpr ⟨u, ?_, rfl⟩⟩, ?_⟩
    · rw [← assertTrustedKey_congr hsame]
      exact htrusted
    · cases trusted with
      | none => exact hsame
      | some expected => exact SameKey.refl expected
  cases role with
  | entity =>
    simp only [keyForRole, lookup_str_congr h] at hkey ⊢
    split at hkey
    next htype =>
      simp only [if_pos htype]
      exact hembedded "ek" "entity key" context.entityKey hkey
    next htype =>
      simp only [if_neg htype]
      exact ⟨key, hkey, SameKey.refl key⟩
  | operationalCountersignature => exact hembedded "ku" "operational key" context.operationalKey hkey
  | newOperational => exact asJwk_congr (Json.get?_eq_of_sorted h "new_ku") hkey
  | previousOperational => exact ⟨key, hkey, SameKey.refl key⟩

end Envelopes

/-! ## Prepared events up to the order of members -/

section ReadBack
variable {Bytes : Type} [DecidableEq Bytes] {W : WriterPlatform Bytes}
variable {p p' : PreparedC2spTlogEvent Bytes} {context : PreparedC2spVerificationContext} {bytes : Bytes}

theorem forM_of_ok {α : Type} {f : α → Except Thrown Unit} {l : List α} (h : ∀ a ∈ l, f a = .ok ()) :
    l.forM f = .ok () := by
  induction l with
  | nil => rfl
  | cons a l ih =>
    obtain ⟨ha, hl⟩ := List.forall_mem_cons.mp h
    exact bind_eq_ok.mpr ⟨(), ha, ih hl⟩

omit [DecidableEq Bytes] in
theorem verifyExistingSignatures_congr (h : (Json.obj p.envelope).sorted = (Json.obj p'.envelope).sorted)
    (hsigned : p.signedBytes = p'.signedBytes) (htype : typeText W p.envelope = typeText W p'.envelope)
    (hverified : verifyExistingSignatures W p context = .ok ()) :
    verifyExistingSignatures W p' context = .ok () := by
  unfold verifyExistingSignatures at hverified ⊢
  obtain ⟨sigs, hsigs, hverified⟩ := bind_eq_ok.mp hverified
  refine bind_eq_ok.mpr ⟨sigs, ?_, ?_⟩
  · rw [← htype]
    exact parsePartialC2spSignatures_sorted (Json.get?_eq_of_sorted h "sigs") hsigs
  · refine forM_of_ok fun entry hmem => ?_
    have hentry := forM_ok hverified entry hmem
    unfold verifyExistingSignature at hentry ⊢
    obtain ⟨key, hkey, hentry⟩ := bind_eq_ok.mp hentry
    obtain ⟨key', hkey', hsame⟩ := keyForRole_congr h hkey
    refine bind_eq_ok.mpr ⟨key', hkey', ?_⟩
    rw [← hsame.kid, ← hsigned]
    obtain ⟨u, hkid, hentry⟩ := bind_eq_ok.mp hentry
    obtain ⟨signature, hsignature, hentry⟩ := bind_eq_ok.mp hentry
    refine bind_eq_ok.mpr ⟨u, hkid, bind_eq_ok.mpr ⟨signature, hsignature, ?_⟩⟩
    rw [← W.verifyWithKey_sorted _ _ _ _ hsame.sorted]
    exact hentry

/-- The log reference of a finished entry is signed, and not empty. -/
theorem c2spTlogEntryBytes_lr (h : c2spTlogEntryBytes W p context = .ok bytes) : p.reference.lr ≠ "" := by
  obtain ⟨event, obj, sigs, hevent, hwritten⟩ := c2spTlogEntryBytes_ok h
  unfold parseC2spEventEntry at hevent
  obtain ⟨obj', hread, hevent⟩ := bind_eq_ok.mp hevent
  obtain rfl := Except.ok.inj (hread.symm.trans hwritten.parsed.read)
  obtain ⟨_, hpublic, -⟩ := bind_eq_ok.mp hevent
  unfold validatePublicFields at hpublic
  obtain ⟨_, -, hpublic⟩ := bind_eq_ok.mp hpublic
  obtain ⟨_, -, hpublic⟩ := bind_eq_ok.mp hpublic
  obtain ⟨_, -, hpublic⟩ := bind_eq_ok.mp hpublic
  obtain ⟨_, -, hpublic⟩ := bind_eq_ok.mp hpublic
  obtain ⟨_, -, hpublic⟩ := bind_eq_ok.mp hpublic
  obtain ⟨_, -, hpublic⟩ := bind_eq_ok.mp hpublic
  obtain ⟨_, -, hpublic⟩ := bind_eq_ok.mp hpublic
  obtain ⟨_, hne, -⟩ := bind_eq_ok.mp hpublic
  have hlr : obj'.text? "lr" = some p.reference.lr :=
    text?_eq.mpr (Json.eq_str_of_sorted (hwritten.member "lr") hwritten.accepted.lr)
  rw [throwIf_eq_ok, hlr] at hne
  exact hne

/-- Reading back gives the reference that was finalized with and the members that were written. -/
theorem readBack {lr : String} (hreference : boundReference W lr = .ok p.reference)
    (h : c2spTlogEntryBytes W p context = .ok bytes) :
    ∃ p', parsePreparedC2spTlogEvent W bytes lr context = .ok p' ∧ p'.reference = p.reference ∧
      (Json.obj p.envelope).sorted = (Json.obj p'.envelope).sorted ∧
      c2spTlogEntryBytes W p' context = .ok bytes := by
  obtain ⟨event, obj, sigs, -, hwrittenEvent⟩ := c2spTlogEntryBytes_ok h
  obtain ⟨hwritten, -⟩ := c2spTlogEntryBytes_written h
  obtain ⟨members, rfl⟩ := Json.eq_obj_of_sorted hwrittenEvent.sorted rfl
  have hsorted : (Json.obj p.envelope).sorted = (Json.obj members).sorted := hwrittenEvent.sorted
  have haccepted := hwrittenEvent.accepted.congr hsorted
  have htype : typeText W p.envelope = event.type.name := by simp [typeText, hwrittenEvent.accepted.typed]
  have htype' : typeText W members = event.type.name := by simp [typeText, haccepted.typed]
  unfold c2spTlogEntryBytes at h
  obtain ⟨_, hintegrity, h⟩ := bind_eq_ok.mp h
  obtain ⟨_, hexpected, h⟩ := bind_eq_ok.mp h
  obtain ⟨signatures, -, h⟩ := bind_eq_ok.mp h
  obtain ⟨_, -, h⟩ := bind_eq_ok.mp h
  obtain ⟨_, hverified, h⟩ := bind_eq_ok.mp h
  obtain ⟨bytes', hbytes', h⟩ := bind_eq_ok.mp h
  obtain ⟨_, hsize, h⟩ := bind_eq_ok.mp h
  obtain ⟨event', hevent, h⟩ := bind_eq_ok.mp h
  obtain rfl := pure_eq_ok.mp h
  obtain ⟨hsigned, -⟩ := assertPreparedIntegrity_ok hintegrity
  have hsigned' : W.canonicalBytes (withoutSigs (.obj members)) = .ok p.signedBytes := by
    rw [← canonicalBytes_withoutSigs hsorted]
    exact hsigned
  obtain ⟨names, hnames⟩ := haccepted.required
  let p' : PreparedC2spTlogEvent Bytes := ⟨p.reference, members, p.signedBytes,
    c2spEventId W.toPlatform p.signedBytes, names.map C2spSignerRole.ofSignature⟩
  have hmade : makePrepared W p.reference members = .ok p' := by
    obtain ⟨sigs', hsigs'⟩ := haccepted.signatures
    unfold makePrepared
    rw [htype', hsigs', hsigned', hnames]
    rfl
  have hchecked : assertPreparedEnvelope W (.obj members) p.reference = .ok members :=
    assertPreparedEnvelope_ok.mpr ⟨rfl, _, haccepted⟩
  have hexpected' := assertIssuanceExpectations_congr hsorted hexpected
  have hverified' : verifyExistingSignatures W p' context = .ok () :=
    verifyExistingSignatures_congr hsorted rfl (htype.trans htype'.symm) hverified
  refine ⟨p', ?_, rfl, hsorted, ?_⟩
  · unfold parsePreparedC2spTlogEvent
    refine bind_eq_ok.mpr ⟨_, hwrittenEvent.parsed.read, bind_eq_ok.mpr ⟨_, hreference, ?_⟩⟩
    refine bind_eq_ok.mpr ⟨_, hchecked, bind_eq_ok.mpr ⟨p', hmade, bind_eq_ok.mpr ⟨(), ?_, ?_⟩⟩⟩
    · exact assertIssuanceExpectations_partial hexpected'
    · exact bind_eq_ok.mpr ⟨(), hverified', rfl⟩
  · have hintegrity' : assertPreparedIntegrity W p' = .ok () := by
      unfold assertPreparedIntegrity
      refine bind_eq_ok.mpr ⟨p.signedBytes, hsigned', bind_eq_ok.mpr ⟨(), throwIf_eq_ok.mpr ?_, ?_⟩⟩
      · simp [p']
      · exact bind_eq_ok.mpr ⟨members, hchecked, rfl⟩
    have hrequired : (names.map C2spSignerRole.ofSignature).forM (assertRequiredSignature sigs) = .ok () := by
      refine forM_of_ok fun role hrole => throwIf_eq_ok.mpr ?_
      obtain ⟨name, hname, rfl⟩ := List.mem_map.mp hrole
      obtain ⟨signature, hsignature⟩ := hwrittenEvent.required hnames hname
      have hback : (C2spSignerRole.ofSignature name).toSignature = name := by cases name <;> rfl
      simp [hback, hsignature]
    have hwritten' : W.canonicalBytes (.obj members) = .ok bytes' := by
      rw [W.canonicalBytes_eq, ← W.text.canonicalBytes_congr hsorted, ← W.canonicalBytes_eq]
      exact hbytes'
    unfold c2spTlogEntryBytes
    refine bind_eq_ok.mpr ⟨(), hintegrity', bind_eq_ok.mpr ⟨(), hexpected', bind_eq_ok.mpr ⟨sigs, ?_, ?_⟩⟩⟩
    · show parseC2spSignatures (members.lookup "sigs") (typeText W members) = .ok sigs
      rw [htype']
      exact hwrittenEvent.parsed.signatures
    · refine bind_eq_ok.mpr ⟨(), hrequired, bind_eq_ok.mpr ⟨(), hverified', bind_eq_ok.mpr ⟨bytes', hwritten', ?_⟩⟩⟩
      exact bind_eq_ok.mpr ⟨_, hsize, bind_eq_ok.mpr ⟨event', hevent, rfl⟩⟩

end ReadBack

end Dnsid.Writer

import Dnsid.Stream.Growth
import Dnsid.Writer.SplitSigning

/-! # What the writer finalizes and the reader accepts

`c2spTlogEntryBytes` checks the shape, the signatures and that the entry can be parsed. Of the rules of a stream
it leaves some to the reader (`ReaderRules`): an entry that follows a verified history is accepted exactly when
these hold too.
-/
namespace Dnsid.Writer
open Dnsid.Foundations Dnsid.Events Dnsid.Stream
set_option autoImplicit false

section Written
variable {Bytes : Type} [DecidableEq Bytes] {W : WriterPlatform Bytes}

/-! ## The entry behind a prepared event -/

theorem forM_ok {α : Type} {f : α → Except Thrown Unit} {l : List α} {u : Unit} (h : l.forM f = .ok u) :
    ∀ a ∈ l, f a = .ok () := by
  induction l with
  | nil => simp
  | cons a l ih =>
    have h' : (f a >>= fun _ => l.forM f) = .ok u := h
    obtain ⟨⟨⟩, ha, hl⟩ := bind_eq_ok.mp h'
    exact List.forall_mem_cons.mpr ⟨ha, ih hl⟩

/-- A complete set of signatures is read the same by the reader of unfinished ones. -/
theorem parsePartial_of_complete {value : Option Json} {type : String} {sigs : C2spSignatures}
    (h : parseC2spSignatures value type = .ok sigs) : parsePartialC2spSignatures value type = .ok sigs := by
  unfold parseC2spSignatures at h
  obtain ⟨raw, hraw, h⟩ := bind_eq_ok.mp h
  obtain ⟨ae, hae, h⟩ := bind_eq_ok.mp h
  obtain ⟨op, hop, h⟩ := bind_eq_ok.mp h
  obtain ⟨prevOp, hprevOp, h⟩ := bind_eq_ok.mp h
  obtain ⟨newOp, hnewOp, h⟩ := bind_eq_ok.mp h
  obtain ⟨allowed, hallowed, h⟩ := bind_eq_ok.mp h
  obtain ⟨_, hnames, h⟩ := bind_eq_ok.mp h
  obtain ⟨_, -, h⟩ := bind_eq_ok.mp h
  obtain rfl := pure_eq_ok.mp h
  rw [asObject_ok.mp hraw]
  refine parsePartialC2spSignatures_some.mpr ⟨raw, allowed, rfl, fun role => ?_, hallowed,
    assertAllowedRoles_iff.mp hnames⟩
  cases role
  · exact hae
  · exact hop
  · exact hprevOp
  · exact hnewOp

/-- What finalizing says of the entry: the event that its bytes parse to, with the signatures that were
checked. -/
structure Written (W : WriterPlatform Bytes) (p : PreparedC2spTlogEvent Bytes)
    (context : PreparedC2spVerificationContext) (bytes : Bytes) (event : LogEvent) (obj : Json)
    (sigs : C2spSignatures) : Prop where
  accepted : EnvelopeAccepted W p.reference p.envelope event.type.name
  parsed : Parsed W.toPlatform bytes event obj sigs
  body : ∃ timestamp domain, bodyFromEnvelope W.toPlatform event.type obj timestamp domain sigs = .ok event
  sorted : (Json.obj p.envelope).sorted = obj.sorted
  roles : ∀ role signature, sigs.get role = some signature →
    ∃ key, keyForRole W p.envelope (.ofSignature role) context = .ok key ∧
      some (.str signature.kid) = key.get? "kid" ∧ SignedBy W.toPlatform bytes signature.sig key

theorem Written.member {p : PreparedC2spTlogEvent Bytes} {context : PreparedC2spVerificationContext}
    {bytes : Bytes} {event : LogEvent} {obj : Json} {sigs : C2spSignatures}
    (h : Written W p context bytes event obj sigs) (name : String) :
    (p.envelope.lookup name).map Json.sorted = (obj.get? name).map Json.sorted :=
  Json.get?_eq_of_sorted h.sorted name

theorem assertPreparedIntegrity_ok {p : PreparedC2spTlogEvent Bytes} {u : Unit}
    (h : assertPreparedIntegrity W p = .ok u) :
    W.canonicalBytes (withoutSigs (.obj p.envelope)) = .ok p.signedBytes ∧
      ∃ type, EnvelopeAccepted W p.reference p.envelope type := by
  unfold assertPreparedIntegrity at h
  obtain ⟨expected, hexpected, h⟩ := bind_eq_ok.mp h
  obtain ⟨_, hsame, h⟩ := bind_eq_ok.mp h
  obtain ⟨envelope, henvelope, -⟩ := bind_eq_ok.mp h
  obtain ⟨heq, type, haccepted⟩ := assertPreparedEnvelope_ok.mp henvelope
  cases heq
  rw [throwIf_eq_ok, not_or, not_not, not_not] at hsame
  exact ⟨by rw [hexpected, hsame.2], type, haccepted⟩

/-- The call of the `switch` that made a parsed event. -/
theorem Parsed.body {bytes : Bytes} {context : C2spEventContext} {event : LogEvent} {obj : Json}
    {sigs : C2spSignatures} (hparsed : Parsed W.toPlatform bytes event obj sigs)
    (h : parseC2spEventEntry W.toPlatform bytes context = .ok event) :
    ∃ timestamp domain, bodyFromEnvelope W.toPlatform event.type obj timestamp domain sigs = .ok event := by
  unfold parseC2spEventEntry at h
  obtain ⟨obj', hread, h⟩ := bind_eq_ok.mp h
  obtain rfl := Except.ok.inj (hread.symm.trans hparsed.read)
  obtain ⟨_, -, h⟩ := bind_eq_ok.mp h
  unfold c2spEnvelopeToEvent at h
  obtain ⟨_, -, h⟩ := bind_eq_ok.mp h
  obtain ⟨_, -, h⟩ := bind_eq_ok.mp h
  obtain ⟨_, -, h⟩ := bind_eq_ok.mp h
  obtain ⟨typeName, -, h⟩ := bind_eq_ok.mp h
  obtain ⟨type, hname, h⟩ := bind_eq_ok.mp h
  obtain ⟨seconds, -, h⟩ := bind_eq_ok.mp h
  obtain ⟨timestamp, -, h⟩ := bind_eq_ok.mp h
  obtain ⟨domain, -, h⟩ := bind_eq_ok.mp h
  obtain ⟨sigs', hsigs, hbody⟩ := bind_eq_ok.mp h
  obtain rfl := ofName?_eq (orThrow_eq_ok.mp hname)
  obtain ⟨rfl, -, -, -⟩ := bodyFromEnvelope_ok hbody
  obtain rfl := Except.ok.inj (hsigs.symm.trans hparsed.signatures)
  exact ⟨timestamp, domain, hbody⟩

theorem c2spTlogEntryBytes_ok {p : PreparedC2spTlogEvent Bytes} {context : PreparedC2spVerificationContext}
    {bytes : Bytes} (h : c2spTlogEntryBytes W p context = .ok bytes) :
    ∃ event obj sigs, parseC2spEventEntry W.toPlatform bytes (entryContext p.reference) = .ok event ∧
      Written W p context bytes event obj sigs := by
  obtain ⟨hwritten, -⟩ := c2spTlogEntryBytes_written h
  unfold c2spTlogEntryBytes at h
  obtain ⟨_, hintegrity, h⟩ := bind_eq_ok.mp h
  obtain ⟨_, -, h⟩ := bind_eq_ok.mp h
  obtain ⟨signatures, hsignatures, h⟩ := bind_eq_ok.mp h
  obtain ⟨_, -, h⟩ := bind_eq_ok.mp h
  obtain ⟨_, hverified, h⟩ := bind_eq_ok.mp h
  obtain ⟨bytes', -, h⟩ := bind_eq_ok.mp h
  obtain ⟨_, -, h⟩ := bind_eq_ok.mp h
  obtain ⟨event, hevent, h⟩ := bind_eq_ok.mp h
  obtain rfl := pure_eq_ok.mp h
  obtain ⟨obj, sigs, hparsed⟩ := parseC2spEventEntry_ok hevent
  obtain ⟨hsigned, type, haccepted⟩ := assertPreparedIntegrity_ok hintegrity
  have hsorted := sorted_of_readEntry hwritten hparsed.read
  have hmember := Json.get?_eq_of_sorted hsorted
  obtain ⟨members, rfl⟩ := Json.eq_obj_of_sorted hsorted rfl
  have hbytes : signedC2spEntryBytes W.toPlatform bytes' = .ok p.signedBytes :=
    bind_eq_ok.mpr ⟨_, hparsed.read, by rw [← canonicalBytes_withoutSigs hsorted]; exact hsigned⟩
  have htype : type = event.type.name := by
    have := Json.eq_str_of_sorted (hmember "type") haccepted.typed
    rw [hparsed.type] at this
    simpa using this.symm
  subst htype
  have htext : typeText W p.envelope = event.type.name := by simp [typeText, haccepted.typed]
  rw [htext] at hsignatures
  have hsigs : signatures = sigs := by
    have hpartial := parsePartialC2spSignatures_sorted (hmember "sigs") (parsePartial_of_complete hsignatures)
    rw [parsePartial_of_complete hparsed.signatures] at hpartial
    exact (Except.ok.inj hpartial).symm
  subst hsigs
  refine ⟨event, .obj members, signatures, hevent, haccepted, hparsed, Parsed.body hparsed hevent, hsorted,
    fun role signature hrole => ?_⟩
  unfold verifyExistingSignatures at hverified
  obtain ⟨signatures', hsignatures', hverified⟩ := bind_eq_ok.mp hverified
  rw [htext, parsePartial_of_complete hsignatures] at hsignatures'
  cases hsignatures'
  have hrole' := forM_ok hverified (role, signature) (mem_entries.mpr hrole)
  unfold verifyExistingSignature at hrole'
  obtain ⟨key, hkey, hrole'⟩ := bind_eq_ok.mp hrole'
  obtain ⟨_, hkid, hrole'⟩ := bind_eq_ok.mp hrole'
  obtain ⟨signatureBytes, hsignature, hrole'⟩ := bind_eq_ok.mp hrole'
  rw [throwIf_eq_ok, not_not] at hkid
  exact ⟨key, hkey, hkid, p.signedBytes, signatureBytes, hbytes, orThrow_eq_ok.mp hsignature,
    by simpa using throwIf_eq_ok.mp hrole'⟩

end Written

/-! ## Metadata of parsed keys -/

section Metadata
variable {Bytes : Type} {P : Platform Bytes}

theorem asJwk_named {value : Option Json} {name : String} {key : DnsIdJWK}
    (h : Events.asJwk P value name = .ok key) :
    (∃ kid, key.get? "kid" = some (.str kid) ∧ kid ≠ "") ∧ ∃ alg, key.get? "alg" = some (.str alg) ∧ alg ≠ "" := by
  unfold Events.asJwk at h
  obtain ⟨members, -, h⟩ := bind_eq_ok.mp h
  obtain ⟨_, -, h⟩ := bind_eq_ok.mp h
  obtain ⟨kid, hkid, h⟩ := bind_eq_ok.mp h
  obtain ⟨alg, halg, h⟩ := bind_eq_ok.mp h
  obtain ⟨rfl, -⟩ := assertSupportedLifecycleJwk_ok.mp h
  exact ⟨⟨kid, asString_ok.mp hkid⟩, alg, asString_ok.mp halg⟩

theorem supported_truthy {key : DnsIdJWK} (h : SupportedJwk key) : key.truthy = true := by
  obtain ⟨-, -, -, hkind⟩ := h
  cases key with
  | obj members => rfl
  | _ => simp [Json.get?] at hkind

/-- The reader's checks of a recorded issuance that its parse has already made. -/
structure IssuanceReadable (P : Platform Bytes) (event : LogEvent) (fields : IssuanceEvent)
    (issuance : C2spIssuanceEvent) : Prop where
  body : event.body = .issuance fields
  present : assertC2spIssuanceEvent fields = .ok issuance
  metadata : assertIssuanceKeyMetadata P issuance = .ok ()
  distinct : assertDistinctLifecycleKeys P issuance.initialEntityPublicKey
    issuance.initialOperationalPublicKey .issuance = .ok ()
  entityThumbprint : P.jwkThumbprint issuance.initialEntityPublicKey = some issuance.initialEntityThumbprint

theorem nonEmpty_some {text : String} (h : text ≠ "") : nonEmpty (some text) = some text := by
  simp [nonEmpty, h]

theorem issuanceFromEnvelope_readable {obj : Json} {timestamp : ℤ} {domain : String} {sigs : C2spSignatures}
    {event : LogEvent} (hthumbprint : ∀ key, P.jwkThumbprint key ≠ some "")
    (h : issuanceFromEnvelope P obj timestamp domain sigs = .ok event) :
    ∃ fields issuance, IssuanceReadable P event fields issuance := by
  unfold issuanceFromEnvelope at h
  obtain ⟨ek, hek, h⟩ := bind_eq_ok.mp h
  obtain ⟨ku, hku, h⟩ := bind_eq_ok.mp h
  obtain ⟨et, het, h⟩ := bind_eq_ok.mp h
  obtain ⟨ot, hot, h⟩ := bind_eq_ok.mp h
  obtain ⟨_, hne, h⟩ := bind_eq_ok.mp h
  obtain ⟨_, -, h⟩ := bind_eq_ok.mp h
  obtain ⟨gi, -, h⟩ := bind_eq_ok.mp h
  obtain ⟨entityAlg, hentityAlg, h⟩ := bind_eq_ok.mp h
  obtain ⟨operationalAlg, hoperationalAlg, h⟩ := bind_eq_ok.mp h
  obtain rfl := pure_eq_ok.mp h
  obtain ⟨⟨ekid, hekid, hekid'⟩, -⟩ := asJwk_named hek
  obtain ⟨⟨okid, hokid, hokid'⟩, -⟩ := asJwk_named hku
  have hentity := (asJwk_ok hek).2.1
  have hoperational := (asJwk_ok hku).2.1
  have hentityAlg' := asString_ok.mp hentityAlg
  have hoperationalAlg' := asString_ok.mp hoperationalAlg
  have het' := thumbprintOf_ok.mp het
  have hot' := thumbprintOf_ok.mp hot
  have hetne : et ≠ "" := fun heq => hthumbprint ek (heq ▸ het')
  have hotne : ot ≠ "" := fun heq => hthumbprint ku (heq ▸ hot')
  refine ⟨_, ⟨okid, operationalAlg, ku, ot, ekid, entityAlg, ek, et⟩, rfl, ?_, ?_, ?_, het'⟩
  · simp [assertC2spIssuanceEvent, text?_eq.mpr hekid, text?_eq.mpr hokid, nonEmpty_some, hekid', hokid',
      hentityAlg'.2, hoperationalAlg'.2, hetne, hotne, supported_truthy hentity,
      supported_truthy hoperational, orThrow, Option.filter]
    rfl
  · simp only [assertIssuanceKeyMetadata, bind_eq_ok, throwIf_eq_ok]
    exact ⟨ku, assertSupportedLifecycleJwk_ok.mpr ⟨rfl, hoperational⟩, ek,
      assertSupportedLifecycleJwk_ok.mpr ⟨rfl, hentity⟩, ot, hot, (), by simp, et, het, (), by simp, (),
      by simp [hokid, hoperationalAlg'.1], by simp [hekid, hentityAlg'.1]⟩
  · exact bind_eq_ok.mpr ⟨et, het, bind_eq_ok.mpr ⟨ot, hot, throwIf_eq_ok.mpr (throwIf_eq_ok.mp hne)⟩⟩

theorem keyRotationFromEnvelope_metadata {obj : Json} {timestamp : ℤ} {domain : String}
    {sigs : C2spSignatures} {event : LogEvent} {rotation : KeyRotationEvent}
    (h : keyRotationFromEnvelope P obj timestamp domain sigs = .ok event)
    (hbody : event.body = .keyRotation rotation) :
    assertRotationKeyMetadata P rotation = .ok () ↔
      P.jwkThumbprint rotation.newOperationalPublicKey = some rotation.newOperationalThumbprint := by
  unfold keyRotationFromEnvelope at h
  obtain ⟨newKey, hnew, h⟩ := bind_eq_ok.mp h
  obtain ⟨_, -, h⟩ := bind_eq_ok.mp h
  obtain ⟨previous, -, h⟩ := bind_eq_ok.mp h
  obtain ⟨alg, halg, h⟩ := bind_eq_ok.mp h
  obtain ⟨thumbprint, -, h⟩ := bind_eq_ok.mp h
  obtain rfl := pure_eq_ok.mp h
  obtain rfl := EventBody.keyRotation.inj hbody
  obtain ⟨⟨kid, hkid, -⟩, -⟩ := asJwk_named hnew
  refine ⟨fun hmetadata => (assertRotationKeyMetadata_ok hmetadata).2, fun hthumbprint => ?_⟩
  simp only [assertRotationKeyMetadata, bind_eq_ok, throwIf_eq_ok]
  exact ⟨newKey, assertSupportedLifecycleJwk_ok.mpr ⟨rfl, (asJwk_ok hnew).2.1⟩, thumbprint,
    thumbprintOf_ok.mpr hthumbprint, (), by simp, by simp [text?_eq.mpr hkid, hkid, (asString_ok.mp halg).1]⟩

theorem bodyFromEnvelope_listed {type : LogEventType} {obj : Json} {timestamp : ℤ} {domain : String}
    {sigs : C2spSignatures} {event : LogEvent}
    (h : bodyFromEnvelope P type obj timestamp domain sigs = .ok event) :
    listedReason event.body = true := by
  have htype := (bodyFromEnvelope_ok h).type
  cases hbody : event.body with
  | revocation reason =>
    rw [LogEvent.type, hbody] at htype
    subst htype
    obtain ⟨reason', hreason, h⟩ := bind_eq_ok.mp h
    cases h
    cases hbody
    unfold asRevocationReason at hreason
    split at hreason <;> cases hreason <;> rfl
  | _ => rfl

end Metadata

/-! ## The rules left to the reader -/

section Rules
variable {Bytes : Type} [DecidableEq Bytes] (W : WriterPlatform Bytes)

/-- `seq`, `prev_event_id` and `prev_state_hash` are the ones that the replayed history requires. -/
def ChainFollows (st : Replay Bytes) (envelope : C2spJsonEvent) : Prop :=
  match st.previous with
  | none => envelope.lookup "seq" = some (.num 0) ∧ envelope.lookup "prev_event_id" = none ∧
      envelope.lookup "prev_state_hash" = none
  | some prev => ∃ seq signed hash, nextSeq prev.event.chain.seq = some seq ∧
      envelope.lookup "seq" = some seq ∧ signedC2spEntryBytes W.toPlatform prev.bytes = .ok signed ∧
      envelope.lookup "prev_event_id" = some (.str (c2spEventId W.toPlatform signed)) ∧
      stateHash W.toPlatform st.prevState = .ok hash ∧
      envelope.lookup "prev_state_hash" = some (.str hash)

/-- A prepared event finalized after the history `H`, which replays to `st`, with the keys of `H`. -/
structure FinalizedAfter (options : StreamVerifierOptions) (time : ℤ)
    (verifyMigration : Option (LogEvent → Except Thrown MigrationVerificationResult))
    (H : List (VerifiedLifecycleEvent Bytes)) (st : Replay Bytes) (p : PreparedC2spTlogEvent Bytes)
    (context : PreparedC2spVerificationContext) (bytes : Bytes) : Prop where
  verified : H = [] ∧ p.envelope.lookup "type" = some (.str "ISSUANCE") ∨
    verifyLifecycle W.toPlatform (options.atTime time) verifyMigration H = .ok ()
  replayed : replay W.toPlatform (options.atTime time) verifyMigration H = .ok st
  nonterminal : st.terminal = false
  bound : options.context = entryContext p.reference
  domain : ∀ item ∈ H, p.envelope.lookup "fqdn" = some (.str item.event.domain)
  chained : ChainFollows W st p.envelope
  entityKey : H ≠ [] → context.entityKey = st.entityKey
  previousOperationalKey : H ≠ [] → context.previousOperationalKey = st.activeOperationalKey
  finalized : c2spTlogEntryBytes W p context = .ok bytes

/-- The entry with its event, as the reader sees it at an index. -/
def entryItem (index : ℕ) (bytes : Bytes) (event : LogEvent) : VerifiedLifecycleEvent Bytes :=
  ⟨index, W.leafHash bytes, bytes, event⟩

/-- An ISSUANCE records the trusted entity key, and its signatures verify under the keys it records. -/
def IssuanceRules (options : StreamVerifierOptions) (bytes : Bytes) (event : LogEvent)
    (fields : IssuanceEvent) : Prop :=
  ∃ entityKey operationalKey sig countersig, fields.initialEntityPublicKey = some entityKey ∧
    fields.initialOperationalPublicKey = some operationalKey ∧
    TrustedEntity W.toPlatform options.signerKey entityKey ∧
    event.sig = some sig ∧ SignedBy W.toPlatform bytes sig entityKey ∧
    event.operationalCountersig = some countersig ∧ SignedBy W.toPlatform bytes countersig operationalKey

/-- A KEY_ROTATION names the thumbprints of the active and of the new key, and the new key is neither the
active nor the entity key. -/
def RotationRules (entityKey operationalKey : DnsIdJWK) (rotation : KeyRotationEvent) : Prop :=
  W.jwkThumbprint operationalKey = some rotation.previousOperationalThumbprint ∧
    W.jwkThumbprint rotation.newOperationalPublicKey = some rotation.newOperationalThumbprint ∧
    rotation.newOperationalThumbprint ≠ rotation.previousOperationalThumbprint ∧
    DistinctKeys W.toPlatform entityKey rotation.newOperationalPublicKey

structure ReaderRules (options : StreamVerifierOptions) (H : List (VerifiedLifecycleEvent Bytes))
    (st : Replay Bytes) (bytes : Bytes) (event : LogEvent) : Prop where
  room : H.length < 10000
  genesis : H ≠ [] → event.type ≠ .issuance
  issuance : ∀ fields, event.body = .issuance fields → IssuanceRules W options bytes event fields
  rotation : ∀ rotation entityKey operationalKey, event.body = .keyRotation rotation →
    st.entityKey = some entityKey → st.activeOperationalKey = some operationalKey →
    RotationRules W entityKey operationalKey rotation

end Rules

section Steps
variable {Bytes : Type} [DecidableEq Bytes] {W : WriterPlatform Bytes}

/-! ## Checks made of every event -/

omit [DecidableEq Bytes] in
theorem assertPosition_intro {st : Replay Bytes} {type : LogEventType} (hterminal : st.terminal = false)
    (hfirst : st.first = true → type = .issuance)
    (hlater : st.first = false → type ≠ .issuance ∧ type ≠ .migration) : assertPosition st type = .ok () := by
  unfold assertPosition
  cases h : st.first with
  | true =>
    rw [hfirst h, hterminal]
    rfl
  | false =>
    obtain ⟨hissuance, hmigration⟩ := hlater h
    simp [bind_eq_ok, throwIf_eq_ok, hterminal, hissuance, hmigration]

theorem assertEvent_intro {options : StreamVerifierOptions} {time : ℤ} {st : Replay Bytes} {event : LogEvent}
    {sig : String} (hposition : assertPosition st event.type = .ok ()) (htime : NotLater time event)
    (hmigration : validMigrationFields event.body = true)
    (hprohibited : event.chain.eventId = none ∧ event.chain.prevIndex = none ∧ event.chain.prevLeafHash = none)
    (hchain : assertChain W.toPlatform st event = .ok ()) (hsig : event.sig = some sig) (hne : sig ≠ "") :
    assertEvent W.toPlatform (options.atTime time) st event = .ok sig := by
  obtain ⟨timestamp, htimestamp, hle⟩ := htime
  unfold assertEvent
  refine bind_eq_ok.mpr ⟨(), hposition, bind_eq_ok.mpr ⟨timestamp, orThrow_eq_ok.mpr htimestamp, ?_⟩⟩
  refine bind_eq_ok.mpr ⟨(), throwIf_eq_ok.mpr (by simp [hmigration]), bind_eq_ok.mpr ⟨time, rfl, ?_⟩⟩
  refine bind_eq_ok.mpr ⟨(), throwIf_eq_ok.mpr (not_lt.mpr hle), ?_⟩
  refine bind_eq_ok.mpr ⟨(), throwIf_eq_ok.mpr (by simp [hprohibited]), bind_eq_ok.mpr ⟨(), hchain, ?_⟩⟩
  rw [hsig, nonEmpty_some hne]
  rfl

theorem nextSeq_num {value : Option Json} {seq : Json} (h : nextSeq value = some seq) :
    ∃ q, seq = .num q := by
  unfold nextSeq at h
  split at h
  · split at h
    · exact ⟨_, (Option.some.inj h).symm⟩
    · cases h
  · cases h

section Facts
variable {p : PreparedC2spTlogEvent Bytes} {context : PreparedC2spVerificationContext} {bytes : Bytes}
  {event : LogEvent} {obj : Json} {sigs : C2spSignatures}

theorem Written.chain {st : Replay Bytes} (h : Written W p context bytes event obj sigs)
    (hchain : ChainFollows W st p.envelope) : assertChain W.toPlatform st event = .ok () := by
  have hfields := h.parsed.recorded.chain
  unfold ChainFollows at hchain
  unfold assertChain
  cases hprevious : st.previous with
  | none =>
    rw [hprevious] at hchain
    obtain ⟨hseq, hid, hstate⟩ := hchain
    have hseq' := Json.eq_num_of_sorted (h.member "seq") hseq
    have hid' := Json.eq_none_of_sorted (h.member "prev_event_id") hid
    have hstate' := Json.eq_none_of_sorted (h.member "prev_state_hash") hstate
    simp [assertFirstChainFields, hfields, parseChainFields, hseq', hid', hstate', bind_eq_ok, throwIf_eq_ok]
  | some prev =>
    rw [hprevious] at hchain
    obtain ⟨seq, signed, hash, hnext, hseq, hsigned, hid, hhash, hstate⟩ := hchain
    obtain ⟨q, rfl⟩ := nextSeq_num hnext
    have hseq' := Json.eq_num_of_sorted (h.member "seq") hseq
    have hid' := Json.eq_str_of_sorted (h.member "prev_event_id") hid
    have hstate' := Json.eq_str_of_sorted (h.member "prev_state_hash") hstate
    simp only [assertChainFields, hfields, parseChainFields, hseq', hid', hstate', hnext, bind_eq_ok,
      throwIf_eq_ok, orThrow_eq_ok]
    exact ⟨_, rfl, (), by simp, signed, hsigned, (), by simp, hash, hhash, by simp⟩

theorem Written.prohibited (h : Written W p context bytes event obj sigs) :
    event.chain.eventId = none ∧ event.chain.prevIndex = none ∧ event.chain.prevLeafHash = none := by
  rw [h.parsed.recorded.chain]
  exact ⟨Json.eq_none_of_sorted (h.member "event_id") h.accepted.chain.eventId,
    Json.eq_none_of_sorted (h.member "prev_index") h.accepted.chain.prevIndex,
    Json.eq_none_of_sorted (h.member "prev_leaf_hash") h.accepted.chain.prevLeafHash⟩

/-- A parsed signature is not empty. -/
theorem Written.signature_nonempty (h : Written W p context bytes event obj sigs) {role : SignatureRole}
    {signature : C2spSignatureValue} (hrole : sigs.get role = some signature) : signature.sig ≠ "" := by
  have hparsed := parsePartial_of_complete h.parsed.signatures
  cases hvalue : obj.get? "sigs" with
  | none =>
    rw [hvalue] at hparsed
    cases hparsed
    cases role <;> cases hrole
  | some value =>
    rw [hvalue] at hparsed
    obtain ⟨raw, allowed, -, hroles, -, -⟩ := parsePartialC2spSignatures_some.mp hparsed
    have hparsedRole := hroles role
    rw [hrole] at hparsedRole
    unfold parseRole at hparsedRole
    split at hparsedRole
    · cases hparsedRole
    case h_2 json hlookup =>
      cases hsig : parseSignatureValue (some json) s!"sigs.{role.name}" with
      | error e =>
        rw [hsig] at hparsedRole
        cases hparsedRole
      | ok x =>
        rw [hsig] at hparsedRole
        cases hparsedRole
        obtain ⟨members, -, -, -, -, -, hne, -⟩ := parseSignatureValue_ok.mp hsig
        exact hne

/-- The signature under a role that the type of the event requires. -/
theorem Written.required (h : Written W p context bytes event obj sigs) {names : List SignatureRole}
    (hnames : requiredC2spSignatureNames event.type.name = .ok names) {role : SignatureRole}
    (hrole : role ∈ names) : ∃ signature, sigs.get role = some signature := by
  obtain ⟨required, hrequired, hroles⟩ := parseC2spSignatures_ok h.parsed.signatures
  obtain rfl := Except.ok.inj (hnames.symm.trans hrequired)
  exact (hroles role).mp hrole

/-- The authorizing signature, and the key that it was checked under. -/
theorem Written.authorized (h : Written W p context bytes event obj sigs) :
    ∃ signature key, sigs.get (authorizingRole event.type) = some signature ∧
      event.sig = some signature.sig ∧ signature.sig ≠ "" ∧ event.signingKid = some signature.kid ∧
      keyForRole W p.envelope (.ofSignature (authorizingRole event.type)) context = .ok key ∧
      some (.str signature.kid) = key.get? "kid" ∧ SignedBy W.toPlatform bytes signature.sig key := by
  have hmem : ∃ names, requiredC2spSignatureNames event.type.name = .ok names ∧
      authorizingRole event.type ∈ names := by
    rw [requiredC2spSignatureNames_type]
    cases event.type <;> exact ⟨_, rfl, by decide⟩
  obtain ⟨names, hnames, hrole⟩ := hmem
  obtain ⟨signature, hsignature⟩ := h.required hnames hrole
  obtain ⟨key, hkey, hkid, hsigned⟩ := h.roles _ signature hsignature
  refine ⟨signature, key, hsignature, ?_, h.signature_nonempty hsignature, ?_, hkey, hkid, hsigned⟩
  · rw [h.parsed.recorded.sig, hsignature]
    rfl
  · rw [h.parsed.recorded.kid, hsignature]
    rfl

end Facts

/-! ## One step per kind of event -/

section Kinds
variable {options : StreamVerifierOptions} {p : PreparedC2spTlogEvent Bytes}
  {context : PreparedC2spVerificationContext} {bytes : Bytes} {event : LogEvent} {obj : Json}
  {sigs : C2spSignatures} {sig : String} {index : ℕ} {st : Replay Bytes} {entityKey operationalKey : DnsIdJWK}

omit [DecidableEq Bytes] in
theorem assertTrustedEntity_iff {signerKey : Option DnsIdJWK} {thumbprint : String} {type : LogEventType}
    (hentity : W.jwkThumbprint entityKey = some thumbprint) :
    assertTrustedEntity W.toPlatform signerKey thumbprint type = .ok () ↔
      TrustedEntity W.toPlatform signerKey entityKey := by
  refine ⟨fun h => assertTrustedEntity_ok h hentity, fun h => ?_⟩
  unfold assertTrustedEntity
  cases signerKey with
  | none => rfl
  | some key =>
    obtain ⟨trusted, htrusted, hentity'⟩ := h key rfl
    obtain rfl := Option.some.inj (hentity.symm.trans hentity')
    exact bind_eq_ok.mpr ⟨_, thumbprintOf_ok.mpr htrusted, throwIf_eq_ok.mpr (not_not.mpr rfl)⟩

theorem issuanceStep_iff {fields : IssuanceEvent} {issuance : C2spIssuanceEvent} {countersig : String}
    (hreadable : IssuanceReadable W.toPlatform event fields issuance) (hsig : event.sig = some sig)
    (hcountersig : event.operationalCountersig = some countersig) (hne : countersig ≠ "") :
    (∃ st', issuanceStep W.toPlatform options (entryItem W index bytes event) sig fields = .ok st') ↔
      IssuanceRules W options bytes event fields := by
  obtain ⟨hentity, hoperational, -⟩ := assertC2spIssuanceEvent_ok hreadable.present
  constructor
  · rintro ⟨st', h⟩
    unfold issuanceStep at h
    obtain ⟨issuance', hpresent, h⟩ := bind_eq_ok.mp h
    obtain rfl := Except.ok.inj (hpresent.symm.trans hreadable.present)
    obtain ⟨_, -, h⟩ := bind_eq_ok.mp h
    obtain ⟨_, -, h⟩ := bind_eq_ok.mp h
    obtain ⟨⟨⟩, htrusted, h⟩ := bind_eq_ok.mp h
    obtain ⟨_, hsigned, h⟩ := bind_eq_ok.mp h
    obtain ⟨countersig', hcountersig', h⟩ := bind_eq_ok.mp h
    obtain ⟨_, hcountersigned, -⟩ := bind_eq_ok.mp h
    have hcountersig'' : event.operationalCountersig = some countersig' :=
      nonEmpty_eq (orThrow_eq_ok.mp hcountersig')
    exact ⟨_, _, sig, countersig', hentity, hoperational,
      (assertTrustedEntity_iff hreadable.entityThumbprint).mp htrusted, hsig,
      verifyEventSignature_ok.mp hsigned, hcountersig'', verifyEventSignature_ok.mp hcountersigned⟩
  · rintro ⟨ek, ku, sig', countersig', hek, hku, htrusted, hsig', hsigned, hcountersig', hcountersigned⟩
    obtain rfl := Option.some.inj (hentity.symm.trans hek)
    obtain rfl := Option.some.inj (hoperational.symm.trans hku)
    obtain rfl := Option.some.inj (hsig.symm.trans hsig')
    obtain rfl := Option.some.inj (hcountersig.symm.trans hcountersig')
    unfold issuanceStep
    refine exists_bind_eq_ok.mpr ⟨issuance, hreadable.present, exists_bind_eq_ok.mpr ⟨(),
      hreadable.metadata, exists_bind_eq_ok.mpr ⟨(), hreadable.distinct, exists_bind_eq_ok.mpr ⟨(),
        (assertTrustedEntity_iff hreadable.entityThumbprint).mpr htrusted, ?_⟩⟩⟩⟩
    refine exists_bind_eq_ok.mpr ⟨(), verifyEventSignature_ok.mpr hsigned, exists_bind_eq_ok.mpr ⟨countersig,
      ?_, exists_bind_eq_ok.mpr ⟨(), verifyEventSignature_ok.mpr hcountersigned, _, rfl⟩⟩⟩
    rw [orThrow_eq_ok]
    show nonEmpty event.operationalCountersig = some countersig
    rw [hcountersig, nonEmpty_some hne]

theorem rotationStep_iff {rotation : KeyRotationEvent} {proof : String} {timestamp : ℤ} {domain : String}
    (hparsed : keyRotationFromEnvelope W.toPlatform obj timestamp domain sigs = .ok event)
    (hbody : event.body = .keyRotation rotation)
    (hkid : some (.str rotation.previousOperationalKid) = operationalKey.get? "kid")
    (hsigned : SignedBy W.toPlatform bytes sig operationalKey)
    (hproof : event.newOperationalProof = some proof) (hne : proof ≠ "")
    (hproved : SignedBy W.toPlatform bytes proof rotation.newOperationalPublicKey) :
    (∃ st', rotationStep W.toPlatform st (entryItem W index bytes event) sig entityKey operationalKey
      rotation = .ok st') ↔ RotationRules W entityKey operationalKey rotation := by
  have hmetadata := keyRotationFromEnvelope_metadata hparsed hbody
  constructor
  · rintro ⟨st', h⟩
    unfold rotationStep at h
    obtain ⟨active, hactive, h⟩ := bind_eq_ok.mp h
    obtain ⟨_, hprevious, h⟩ := bind_eq_ok.mp h
    obtain ⟨⟨⟩, hmeta, h⟩ := bind_eq_ok.mp h
    obtain ⟨_, hdiffers, h⟩ := bind_eq_ok.mp h
    obtain ⟨_, hdistinct, h⟩ := bind_eq_ok.mp h
    rw [throwIf_eq_ok, not_or, not_not, not_not] at hprevious
    rw [throwIf_eq_ok] at hdiffers
    refine ⟨?_, hmetadata.mp hmeta, ?_, assertDistinctLifecycleKeys_ok hdistinct⟩
    · rw [thumbprintOf_ok.mp hactive, hprevious.1]
    · rw [hprevious.1]
      exact hdiffers
  · rintro ⟨hprevious, hnew, hdiffers, entityThumb, newThumb, hentity, hnew', hdistinct⟩
    unfold rotationStep
    refine exists_bind_eq_ok.mpr ⟨_, thumbprintOf_ok.mpr hprevious, exists_bind_eq_ok.mpr ⟨(), ?_,
      exists_bind_eq_ok.mpr ⟨(), hmetadata.mpr hnew, exists_bind_eq_ok.mpr ⟨(), throwIf_eq_ok.mpr hdiffers,
        ?_⟩⟩⟩⟩
    · rw [throwIf_eq_ok, not_or, not_not, not_not]
      exact ⟨rfl, hkid⟩
    refine exists_bind_eq_ok.mpr ⟨(), bind_eq_ok.mpr ⟨entityThumb, thumbprintOf_ok.mpr hentity,
      bind_eq_ok.mpr ⟨newThumb, thumbprintOf_ok.mpr hnew', throwIf_eq_ok.mpr hdistinct⟩⟩, ?_⟩
    refine exists_bind_eq_ok.mpr ⟨(), verifyEventSignature_ok.mpr hsigned, exists_bind_eq_ok.mpr ⟨proof, ?_,
      exists_bind_eq_ok.mpr ⟨(), verifyEventSignature_ok.mpr hproved, ?_⟩⟩⟩
    · rw [orThrow_eq_ok]
      show nonEmpty event.newOperationalProof = some proof
      rw [hproof, nonEmpty_some hne]
    · refine exists_bind_eq_ok.mpr ⟨lifecycleState event.domain (statusAfter event.type) entityThumb newThumb,
        ?_, _, rfl⟩
      unfold nextState
      rw [if_neg (by simp [entryItem, LogEvent.type, EventBody.type, hbody])]
      exact bind_eq_ok.mpr ⟨entityThumb, thumbprintOf_ok.mpr hentity, bind_eq_ok.mpr ⟨newThumb,
        thumbprintOf_ok.mpr hnew', rfl⟩⟩

theorem entityStep_accepts {entityThumb operationalThumb : String} {kid : String}
    (hkid : event.signingKid = some kid) (hkey : some (.str kid) = entityKey.get? "kid")
    (hsigned : SignedBy W.toPlatform bytes sig entityKey) (hlisted : listedReason event.body = true)
    (hentity : W.jwkThumbprint entityKey = some entityThumb)
    (hoperational : W.jwkThumbprint operationalKey = some operationalThumb) :
    ∃ st', entityStep W.toPlatform st (entryItem W index bytes event) sig entityKey operationalKey =
      .ok st' := by
  have hnext : ∃ state, nextState W.toPlatform st.prevState event entityKey operationalKey = .ok state := by
    unfold nextState
    split
    · exact ⟨_, rfl⟩
    · exact ⟨_, bind_eq_ok.mpr ⟨entityThumb, thumbprintOf_ok.mpr hentity, bind_eq_ok.mpr ⟨operationalThumb,
        thumbprintOf_ok.mpr hoperational, rfl⟩⟩⟩
  obtain ⟨state, hstate⟩ := hnext
  unfold entityStep
  refine exists_bind_eq_ok.mpr ⟨(), throwIf_eq_ok.mpr ?_, exists_bind_eq_ok.mpr ⟨(),
    verifyEventSignature_ok.mpr hsigned, exists_bind_eq_ok.mpr ⟨(), throwIf_eq_ok.mpr ?_,
    exists_bind_eq_ok.mpr ⟨state, hstate, _, rfl⟩⟩⟩⟩
  · rw [not_not]
    show event.signingKid.map Json.str = _
    rw [hkid]
    exact hkey
  · show ¬ (!listedReason event.body) = true
    simp [hlisted]

end Kinds

/-! ## Positions -/

/-- A step that returns leaves its event as the previous one. -/
theorem lifecycleStep_previous {options : StreamVerifierOptions}
    {f : Option (LogEvent → Except Thrown MigrationVerificationResult)} {st st' : Replay Bytes}
    {item : VerifiedLifecycleEvent Bytes} (h : lifecycleStep W.toPlatform options f st item = .ok st') :
    st'.previous = some item := by
  unfold lifecycleStep at h
  obtain ⟨sig, -, h⟩ := bind_eq_ok.mp h
  cases hbody : item.event.body with
  | issuance fields =>
    rw [hbody] at h
    have h' := ownThrow_ok.mp h
    simp only [issuanceStep, bind_eq_ok, pure_eq_ok] at h'
    obtain ⟨_, -, _, -, _, -, _, -, _, -, _, -, _, -, rfl⟩ := h'
    rfl
  | migration fields =>
    rw [hbody] at h
    simp only [migrationStep, bind_eq_ok, ownThrow_ok] at h
    obtain ⟨_, -, _, -, _, -, h⟩ := h
    simp only [migratedStep, bind_eq_ok, pure_eq_ok] at h
    obtain ⟨_, -, _, -, _, -, _, -, _, -, _, -, _, -, _, -, rfl⟩ := h
    rfl
  | keyRotation rotation =>
    rw [hbody] at h
    have h' := ownThrow_ok.mp h
    simp only [continuingStep, hbody, rotationStep, bind_eq_ok, pure_eq_ok] at h'
    obtain ⟨_, -, _, -, _, -, _, -, _, -, _, -, _, -, _, -, _, -, _, -, _, -, rfl⟩ := h'
    rfl
  | _ =>
    rw [hbody] at h
    have h' := ownThrow_ok.mp h
    simp only [continuingStep, hbody, entityStep, bind_eq_ok, pure_eq_ok] at h'
    obtain ⟨_, -, _, -, _, -, _, -, _, -, _, -, rfl⟩ := h'
    rfl

/-- The previous event of a replay has a natural number as its `seq`. -/
def NaturalSeq (st : Replay Bytes) : Prop :=
  ∀ prev, st.previous = some prev → ∃ n : ℕ, prev.event.chain.seq = some (.num n)

theorem lifecycleStep_naturalSeq {options : StreamVerifierOptions}
    {f : Option (LogEvent → Except Thrown MigrationVerificationResult)} {st st' : Replay Bytes}
    {item : VerifiedLifecycleEvent Bytes} (hst : NaturalSeq st)
    (h : lifecycleStep W.toPlatform options f st item = .ok st') : NaturalSeq st' := by
  intro prev' hprev'
  rw [lifecycleStep_previous h] at hprev'
  cases hprev'
  obtain ⟨sig, hsig, -⟩ := bind_eq_ok.mp h
  have hchain := (assertEvent_ok (ownThrow_ok.mp hsig)).chain
  unfold assertChain at hchain
  cases hprevious : st.previous with
  | none =>
    rw [hprevious] at hchain
    exact ⟨0, by simpa using (assertFirstChainFields_ok hchain).1⟩
  | some prev =>
    rw [hprevious] at hchain
    obtain ⟨⟨seq, hnext, hseq⟩, -, -⟩ := assertChainFields_ok hchain
    obtain ⟨n, hn⟩ := hst prev hprevious
    rw [hn] at hnext
    exact ⟨n + 1, by rw [hseq, nextSeq_nat n hnext]⟩

theorem replay_naturalSeq {options : StreamVerifierOptions}
    {f : Option (LogEvent → Except Thrown MigrationVerificationResult)}
    {H : List (VerifiedLifecycleEvent Bytes)} {st : Replay Bytes}
    (h : replay W.toPlatform options f H = .ok st) : NaturalSeq st := by
  refine foldlM_invariant (I := NaturalSeq) H _ st (fun item _ s s' => lifecycleStep_naturalSeq) ?_ h
  intro prev hprev
  cases hprev

/-! ## The step of the new entry -/

section Main
variable {options : StreamVerifierOptions} {time : ℤ}
  {f : Option (LogEvent → Except Thrown MigrationVerificationResult)}
  {H : List (VerifiedLifecycleEvent Bytes)} {st : Replay Bytes} {p : PreparedC2spTlogEvent Bytes}
  {context : PreparedC2spVerificationContext} {bytes : Bytes} {event : LogEvent} {obj : Json}
  {sigs : C2spSignatures}

/-- Without the position, the checks that come before the type all pass. -/
theorem FinalizedAfter.assertEvent (h : FinalizedAfter W options time f H st p context bytes)
    (hwritten : Written W p context bytes event obj sigs) {time' : ℤ} (htime : NotLater time' event)
    (hposition : assertPosition st event.type = .ok ()) (htype : event.type ≠ .migration) {sig : String}
    (hsig : event.sig = some sig) (hne : sig ≠ "") :
    assertEvent W.toPlatform (options.atTime time') st event = .ok sig := by
  refine assertEvent_intro hposition htime ?_ hwritten.prohibited (hwritten.chain h.chained) hsig hne
  cases hbody : event.body with
  | migration fields => simp [LogEvent.type, EventBody.type, hbody] at htype
  | _ => rfl

theorem lifecycleStep_of_assertEvent {item : VerifiedLifecycleEvent Bytes} {sig : String}
    (h : assertEvent W.toPlatform options st item.event = .ok sig) :
    lifecycleStep W.toPlatform options f st item =
      match item.event.body with
      | .issuance fields => ownThrow (issuanceStep W.toPlatform options item sig fields)
      | .migration fields => migrationStep W.toPlatform options f item sig fields
      | _ => ownThrow (continuingStep W.toPlatform st item sig) := by
  unfold lifecycleStep
  rw [h]
  rfl

theorem exists_ownThrow_ok {α : Type} {x : Except Thrown α} : (∃ a, ownThrow x = .ok a) ↔ ∃ a, x = .ok a := by
  simp only [ownThrow_ok]

/-- Before any event only an ISSUANCE is asked for. -/
theorem FinalizedAfter.issuance_of_empty (h : FinalizedAfter W options time f [] st p context bytes)
    (hwritten : Written W p context bytes event obj sigs) : event.type = .issuance := by
  have htype : p.envelope.lookup "type" = some (.str "ISSUANCE") := by
    rcases h.verified with ⟨-, htype⟩ | hverified
    · exact htype
    · exact absurd rfl (verifyLifecycle_ok.mp hverified).2.1
  have hname : event.type.name = LogEventType.issuance.name := by
    simpa [LogEventType.name] using hwritten.accepted.typed.symm.trans htype
  exact LogEventType.name_injective hname

theorem FinalizedAfter.step_genesis (h : FinalizedAfter W options time f [] st p context bytes)
    (hwritten : Written W p context bytes event obj sigs) {time' : ℤ} (htime : NotLater time' event)
    {index : ℕ} :
    (∃ st', lifecycleStep W.toPlatform (options.atTime time') f st (entryItem W index bytes event) = .ok st') ↔
      ∀ fields, event.body = .issuance fields → IssuanceRules W options bytes event fields := by
  have hst : st = .initial := (Except.ok.inj h.replayed).symm
  have htype := h.issuance_of_empty hwritten
  obtain ⟨timestamp, domain, hbody⟩ := hwritten.body
  rw [htype] at hbody
  obtain ⟨fields, issuance, hreadable⟩ := issuanceFromEnvelope_readable W.jwkThumbprint_nonempty hbody
  obtain ⟨signature, key, -, hsig, hne, -⟩ := hwritten.authorized
  have hnames : requiredC2spSignatureNames event.type.name = .ok [.ae, .op] := by
    rw [htype]
    decide
  obtain ⟨countersignature, hcountersignature⟩ := hwritten.required hnames
    (show SignatureRole.op ∈ [SignatureRole.ae, .op] by decide)
  have hcountersig : event.operationalCountersig = some countersignature.sig := by
    rw [(hwritten.parsed.recorded.issuance fields hreadable.body).countersig]
    simpa [C2spSignatures.get] using congrArg (Option.map C2spSignatureValue.sig) hcountersignature
  have hassert := h.assertEvent hwritten htime
    (assertPosition_intro h.nonterminal (fun _ => htype) (by rw [hst]; simp [Replay.first, Replay.initial]))
    (by rw [htype]; decide) hsig hne
  rw [lifecycleStep_of_assertEvent hassert]
  have hstep : (entryItem W index bytes event).event.body = .issuance fields := hreadable.body
  rw [hstep]
  simp only
  rw [exists_ownThrow_ok, issuanceStep_iff hreadable hsig hcountersig
    (hwritten.signature_nonempty hcountersignature)]
  constructor
  · intro hrules fields' hfields'
    obtain rfl := EventBody.issuance.inj (hreadable.body.symm.trans hfields')
    exact hrules
  · intro hrules
    exact hrules fields hreadable.body

/-- The history that comes before is replayed to the identity that it leaves. -/
theorem FinalizedAfter.tracks (h : FinalizedAfter W options time f H st p context bytes)
    (hwritten : Written W p context bytes event obj sigs) (hne : H ≠ []) :
    ∃ last s, Tracks W.toPlatform event.domain last s st := by
  obtain ⟨first, rest, rfl⟩ := List.exists_cons_of_ne_nil hne
  have hdomain : ∀ item ∈ first :: rest, item.event.domain = event.domain := by
    intro item hitem
    have hfqdn := Json.eq_str_of_sorted (hwritten.member "fqdn") (h.domain item hitem)
    rw [hwritten.parsed.domain] at hfqdn
    simpa using hfqdn.symm
  obtain ⟨s, -, -, last, htracks⟩ := replay_genesis hdomain h.replayed
  exact ⟨last, _, htracks⟩

/-- A MIGRATION is written with `seq` 0, which no history asks for. -/
theorem FinalizedAfter.not_migration (h : FinalizedAfter W options time f H st p context bytes)
    (hwritten : Written W p context bytes event obj sigs) {last : VerifiedLifecycleEvent Bytes}
    (hlast : st.previous = some last) : event.type ≠ .migration := by
  intro htype
  have hseq := (hwritten.accepted.migration (by rw [htype]; rfl)).2.2
  have hchained := h.chained
  unfold ChainFollows at hchained
  rw [hlast] at hchained
  obtain ⟨seq, -, -, hnext, hseq', -⟩ := hchained
  obtain ⟨n, hn⟩ := replay_naturalSeq h.replayed last hlast
  rw [hn] at hnext
  rw [hseq, nextSeq_nat n hnext] at hseq'
  have hzero : (0 : ℚ) = ((n + 1 : ℕ) : ℚ) := by simpa using hseq'
  exact absurd (Nat.cast_injective (R := ℚ) (by simpa using hzero)) (Nat.succ_ne_zero n).symm

omit [DecidableEq Bytes] in
theorem asJwk_value {value : Option Json} {name : String} {key : DnsIdJWK}
    (h : asJwk W value name = .ok key) : value = some key := by
  unfold asJwk at h
  obtain ⟨members, hvalue, h⟩ := bind_eq_ok.mp h
  obtain ⟨_, -, h⟩ := bind_eq_ok.mp h
  rw [(assertSupportedLifecycleJwk_ok.mp h).1]
  exact asObject_ok.mp hvalue

/-- A key verifies the same signatures in the envelope and in the entry. -/
theorem signedBy_of_sorted {signature : String} {key key' : DnsIdJWK}
    (h : SignedBy W.toPlatform bytes signature key) (hsorted : key.sorted = key'.sorted) :
    SignedBy W.toPlatform bytes signature key' := by
  obtain ⟨signed, signatureBytes, hsigned, hsignature, hverify⟩ := h
  refine ⟨signed, signatureBytes, hsigned, hsignature, ?_⟩
  rw [← W.verifyWithKey_sorted signed signatureBytes key key' hsorted]
  exact hverify

theorem FinalizedAfter.step_rotation (h : FinalizedAfter W options time f H st p context bytes)
    (hwritten : Written W p context bytes event obj sigs) (hne : H ≠ []) {rotation : KeyRotationEvent}
    (hbody : event.body = .keyRotation rotation) {entityKey operationalKey : DnsIdJWK}
    (hactive : st.activeOperationalKey = some operationalKey) {sig : String} (hsig : event.sig = some sig)
    {index : ℕ} :
    (∃ st', rotationStep W.toPlatform st (entryItem W index bytes event) sig entityKey operationalKey
      rotation = .ok st') ↔ RotationRules W entityKey operationalKey rotation := by
  have htype : event.type = .keyRotation := by rw [LogEvent.type, hbody]; rfl
  have hnames : requiredC2spSignatureNames event.type.name = .ok [.prevOp, .newOp] := by
    rw [htype]
    decide
  have hrecorded := hwritten.parsed.recorded.rotation rotation hbody
  obtain ⟨timestamp, domain, hparsed⟩ := hwritten.body
  rw [htype] at hparsed
  obtain ⟨signature, key, hsignature, hsig', -, -, hkey, hkid, hsigned⟩ := hwritten.authorized
  obtain rfl := Option.some.inj (hsig.symm.trans hsig')
  have hkey' : key = operationalKey := by
    rw [htype] at hkey
    have := orThrow_eq_ok.mp hkey
    rw [h.previousOperationalKey hne, hactive] at this
    exact (Option.some.inj this).symm
  subst hkey'
  obtain ⟨proof, hproof⟩ := hwritten.required hnames
    (show SignatureRole.newOp ∈ [SignatureRole.prevOp, .newOp] by decide)
  obtain ⟨newKey, hnewKey, -, hproved⟩ := hwritten.roles .newOp proof hproof
  have hnew : newKey.sorted = rotation.newOperationalPublicKey.sorted := by
    have hmember := hwritten.member "new_ku"
    rw [asJwk_value hnewKey, hrecorded.newKey] at hmember
    exact Option.some.inj hmember
  refine rotationStep_iff hparsed hbody ?_ hsigned ?_ (hwritten.signature_nonempty hproof)
    (signedBy_of_sorted hproved hnew)
  · rw [← hrecorded.previousKid]
    rw [htype] at hsignature
    have : sigs.prevOp = some signature := hsignature
    rw [this]
    exact hkid
  · rw [hrecorded.proof]
    exact congrArg (Option.map C2spSignatureValue.sig) hproof

theorem continuingStep_rotation {st : Replay Bytes} {item : VerifiedLifecycleEvent Bytes} {sig : String}
    {entityKey operationalKey : DnsIdJWK} {rotation : KeyRotationEvent} (hentity : st.entityKey = some entityKey)
    (hoperational : st.activeOperationalKey = some operationalKey)
    (hbody : item.event.body = .keyRotation rotation) :
    continuingStep W.toPlatform st item sig =
      rotationStep W.toPlatform st item sig entityKey operationalKey rotation := by
  unfold continuingStep
  rw [hentity, hoperational, hbody]
  rfl

theorem continuingStep_other {st : Replay Bytes} {item : VerifiedLifecycleEvent Bytes} {sig : String}
    {entityKey operationalKey : DnsIdJWK} (hentity : st.entityKey = some entityKey)
    (hoperational : st.activeOperationalKey = some operationalKey) (htype : item.event.type ≠ .keyRotation) :
    continuingStep W.toPlatform st item sig = entityStep W.toPlatform st item sig entityKey operationalKey := by
  unfold continuingStep
  rw [hentity, hoperational]
  cases hbody : item.event.body with
  | keyRotation rotation => simp [LogEvent.type, EventBody.type, hbody] at htype
  | _ => rfl

theorem FinalizedAfter.step_later (h : FinalizedAfter W options time f H st p context bytes)
    (hwritten : Written W p context bytes event obj sigs) (hne : H ≠ []) {time' : ℤ}
    (htime : NotLater time' event) {index : ℕ} :
    (∃ st', lifecycleStep W.toPlatform (options.atTime time') f st (entryItem W index bytes event) = .ok st') ↔
      event.type ≠ .issuance ∧ ∀ rotation entityKey operationalKey, event.body = .keyRotation rotation →
        st.entityKey = some entityKey → st.activeOperationalKey = some operationalKey →
        RotationRules W entityKey operationalKey rotation := by
  obtain ⟨last, s, htracks⟩ := h.tracks hwritten hne
  have hmigration := h.not_migration hwritten htracks.previous
  have hlater : st.first = false := by simp [Replay.first, htracks.previous]
  by_cases hissuance : event.type = .issuance
  · refine ⟨?_, fun hrules => absurd hissuance hrules.1⟩
    rintro ⟨st', hstep⟩
    obtain ⟨sig, hsig, -⟩ := bind_eq_ok.mp hstep
    have hposition := (assertEvent_ok (ownThrow_ok.mp hsig)).position
    exact absurd hissuance ((assertPosition_ok hposition).2.2 hlater).1
  obtain ⟨signature, key, hsignature, hsig, hnonempty, hkidOf, hkey, hkid, hsigned⟩ := hwritten.authorized
  have hassert := h.assertEvent hwritten htime
    (assertPosition_intro h.nonterminal (by simp [hlater]) fun _ => ⟨hissuance, hmigration⟩) hmigration hsig
    hnonempty
  rw [lifecycleStep_of_assertEvent hassert]
  have hentity : event.type ≠ .keyRotation → ∃ st', entityStep W.toPlatform st
      (entryItem W index bytes event) signature.sig s.entityKey s.operationalKey = .ok st' := by
    intro hrotation
    have hrole : authorizingRole event.type = .ae := by
      cases htype : event.type <;> simp_all [authorizingRole]
    have hkeyOf : key = s.entityKey := by
      rw [hrole] at hkey
      unfold keyForRole at hkey
      simp only [C2spSignerRole.ofSignature] at hkey
      rw [if_neg, orThrow_eq_ok, h.entityKey hne, htracks.entityKey] at hkey
      · exact (Option.some.inj hkey).symm
      · rw [hwritten.accepted.typed]
        intro htype
        have hname : event.type.name = LogEventType.issuance.name := by
          simpa [LogEventType.name] using htype
        exact hissuance (LogEventType.name_injective hname)
    subst hkeyOf
    obtain ⟨timestamp, domain, hbody⟩ := hwritten.body
    obtain ⟨entityThumb, operationalThumb, hentityThumb, hoperationalThumb, -⟩ := htracks.state
    exact entityStep_accepts hkidOf hkid hsigned (bodyFromEnvelope_listed hbody) hentityThumb
      hoperationalThumb
  have hitem : (entryItem W index bytes event).event = event := rfl
  cases hbody : event.body with
  | issuance fields => simp [LogEvent.type, EventBody.type, hbody] at hissuance
  | migration fields => simp [LogEvent.type, EventBody.type, hbody] at hmigration
  | keyRotation rotation =>
    simp only [hitem, hbody, exists_ownThrow_ok,
      continuingStep_rotation htracks.entityKey htracks.operationalKey (hitem.symm ▸ hbody)]
    rw [h.step_rotation hwritten hne hbody htracks.operationalKey hsig]
    constructor
    · intro hrules
      refine ⟨hissuance, fun rotation' entityKey operationalKey hrotation hentityKey hoperationalKey => ?_⟩
      cases hrotation
      obtain rfl := Option.some.inj (htracks.entityKey.symm.trans hentityKey)
      obtain rfl := Option.some.inj (htracks.operationalKey.symm.trans hoperationalKey)
      exact hrules
    · intro hrules
      exact hrules.2 rotation s.entityKey s.operationalKey rfl htracks.entityKey htracks.operationalKey
  | _ =>
    have hrotation : event.type ≠ .keyRotation := by simp [LogEvent.type, EventBody.type, hbody]
    simp only [hitem, hbody, exists_ownThrow_ok,
      continuingStep_other htracks.entityKey htracks.operationalKey (hitem.symm ▸ hrotation)]
    simp [hentity hrotation, hissuance]

theorem FinalizedAfter.step_iff (h : FinalizedAfter W options time f H st p context bytes)
    (hwritten : Written W p context bytes event obj sigs) {time' : ℤ} (htime : NotLater time' event)
    {index : ℕ} :
    (∃ st', lifecycleStep W.toPlatform (options.atTime time') f st (entryItem W index bytes event) = .ok st') ↔
      (H ≠ [] → event.type ≠ .issuance) ∧
      (∀ fields, event.body = .issuance fields → IssuanceRules W options bytes event fields) ∧
      ∀ rotation entityKey operationalKey, event.body = .keyRotation rotation →
        st.entityKey = some entityKey → st.activeOperationalKey = some operationalKey →
        RotationRules W entityKey operationalKey rotation := by
  by_cases hne : H = []
  · subst hne
    have htype := h.issuance_of_empty hwritten
    rw [h.step_genesis hwritten htime]
    refine ⟨fun hrules => ⟨fun hcontra => absurd rfl hcontra, hrules, ?_⟩, fun hrules => hrules.2.1⟩
    intro rotation entityKey operationalKey hbody
    simp [LogEvent.type, EventBody.type, hbody] at htype
  · rw [h.step_later hwritten hne htime]
    refine ⟨fun hrules => ⟨fun _ => hrules.1, fun fields hbody => ?_, hrules.2⟩,
      fun hrules => ⟨hrules.1 hne, hrules.2.2⟩⟩
    exact absurd (by rw [LogEvent.type, hbody]; rfl) hrules.1

/-- A finalized entry parses, and the reader accepts it after the history, at any time that is not before its
events, exactly when the rules left to the reader hold. -/
theorem finalized_accepted_iff (h : FinalizedAfter W options time f H st p context bytes) :
    ∃ event, parseC2spEventEntry W.toPlatform bytes options.context = .ok event ∧
      ∀ (index : ℕ) (time' : ℤ), (∀ item ∈ H, item.index < index) → NotLater time' event →
        (∀ item ∈ H, NotLater time' item.event) →
        (verifyLifecycle W.toPlatform (options.atTime time') f (H ++ [entryItem W index bytes event]) = .ok () ↔
          ReaderRules W options H st bytes event) := by
  obtain ⟨event, obj, sigs, hparsed, hwritten⟩ := c2spTlogEntryBytes_ok h.finalized
  rw [← h.bound] at hparsed
  refine ⟨event, hparsed, fun index time' _ htime hlater => ?_⟩
  have hreplayed := replay_atTime h.replayed hlater
  have hreplay : (∃ st', replay W.toPlatform (options.atTime time') f
      (H ++ [entryItem W index bytes event]) = .ok st') ↔
      ∃ st', lifecycleStep W.toPlatform (options.atTime time') f st (entryItem W index bytes event) =
        .ok st' := by
    unfold replay at hreplayed ⊢
    simp only [foldlM_append_ok, hreplayed, List.foldlM_cons, List.foldlM_nil, bind_pure]
    simp
  rw [verifyLifecycle_ok, hreplay, h.step_iff hwritten htime]
  simp only [List.length_append, List.length_singleton, ne_eq, List.append_eq_nil_iff, List.cons_ne_nil,
    and_false, not_false_eq_true, true_and]
  constructor
  · rintro ⟨hroom, hgenesis, hissuance, hrotation⟩
    exact ⟨by omega, hgenesis, hissuance, hrotation⟩
  · intro hrules
    have hroom := hrules.room
    exact ⟨by omega, hrules.genesis, hrules.issuance, hrules.rotation⟩

end Main

end Steps

/-! ## A rotation after the sample issuance -/

/-- `O` is replaced by `N`, with `thumbprint` as `new_thumb`. -/
def sampleRotationEntry (thumbprint : String) : Json :=
  sampleEnvelope "KEY_ROTATION" [("prev_thumb", .str "O"), ("new_ku", sampleKey "N" "N"),
    ("new_thumb", .str thumbprint), ("seq", .num 1),
    ("prev_event_id", .str "VVVVVVVVVVVVVVVVVVVVVVVVVVVVVVVVVVVVVVVVVVA"),
    ("prev_state_hash", .str "WWWWWWWWWWWWWWWWWWWWWWWWWWWWWWWWWWWWWWWWWWA")] 'N' [(.prevOp, "O"), (.newOp, "N")]

def sampleRotationWriter : WriterPlatform (List Char) :=
  sampleWriter [sampleIssuanceEntry [(.ae, "E"), (.op, "O")], sampleRotationEntry "N", sampleRotationEntry "X"]

def sampleReference : ParsedC2spTlogLr := ⟨"testnet", "s", "log.example", sampleLr, none⟩

def sampleReaderOptions : StreamVerifierOptions where
  context := entryContext sampleReference
  signerKey := some (sampleKey "E" "E")
  checkpointIntegrationTimeMs := none
  verifyMigration := none

/-- The text of an entry of the sample log. -/
def sampleBytes (entry : Json) : List Char := (sampleText.canonicalBytes entry).toOption.getD []

def sampleEvent (bytes : List Char) : LogEvent :=
  (parseC2spEventEntry sampleRotationWriter.toPlatform bytes (entryContext sampleReference)).toOption.getD
    sampleIssuanceEvent

def sampleFirst : VerifiedLifecycleEvent (List Char) :=
  let bytes := sampleBytes (sampleIssuanceEntry [(.ae, "E"), (.op, "O")])
  entryItem sampleRotationWriter 0 bytes (sampleEvent bytes)

def sampleHistory : List (VerifiedLifecycleEvent (List Char)) := [sampleFirst]

def sampleReplayed : Replay (List Char) :=
  (replay sampleRotationWriter.toPlatform (sampleReaderOptions.atTime 1000) none sampleHistory).toOption.getD
    .initial

/-- The prepared rotation, with both signatures. -/
def sampleRotation (thumbprint : String) : PreparedC2spTlogEvent (List Char) :=
  let signed := sampleBytes (withoutSigs (sampleRotationEntry thumbprint))
  ⟨sampleReference, (sampleRotationEntry thumbprint).members?.getD [], signed,
    c2spEventId sampleRotationWriter.toPlatform signed, [.previousOperational, .newOperational]⟩

def sampleRotationContext : PreparedC2spVerificationContext :=
  ⟨none, none, some (sampleKey "E" "E"), none, some (sampleKey "O" "O")⟩

/-- What the replay of the sample history comes to, evaluated at once: the parts share their entries. -/
theorem sampleHistory_replays :
    (verifyLifecycle sampleRotationWriter.toPlatform (sampleReaderOptions.atTime 1000) none
      sampleHistory).toOption = some () ∧
    (replay sampleRotationWriter.toPlatform (sampleReaderOptions.atTime 1000) none sampleHistory).toOption =
      some sampleReplayed ∧
    sampleReplayed.terminal = false ∧ sampleReplayed.previous = some sampleFirst ∧
    sampleReplayed.entityKey = some (sampleKey "E" "E") ∧
    sampleReplayed.activeOperationalKey = some (sampleKey "O" "O") ∧
    sampleFirst.event.domain = "a.example" ∧ sampleFirst.event.timestamp = some 1000 ∧
    nextSeq sampleFirst.event.chain.seq = some (.num 1) ∧
    (signedC2spEntryBytes sampleRotationWriter.toPlatform sampleFirst.bytes).toOption =
      some (sampleBytes (withoutSigs (sampleIssuanceEntry []))) ∧
    c2spEventId sampleRotationWriter.toPlatform (sampleBytes (withoutSigs (sampleIssuanceEntry []))) =
      "VVVVVVVVVVVVVVVVVVVVVVVVVVVVVVVVVVVVVVVVVVA" ∧
    (stateHash sampleRotationWriter.toPlatform sampleReplayed.prevState).toOption =
      some "WWWWWWWWWWWWWWWWWWWWWWWWWWWWWWWWWWWWWWWWWWA" := by
  decide +kernel

theorem sampleRotation_finalized {thumbprint : String}
    (hfinalized : (c2spTlogEntryBytes sampleRotationWriter (sampleRotation thumbprint)
      sampleRotationContext).toOption = some (sampleBytes (sampleRotationEntry thumbprint))) :
    FinalizedAfter sampleRotationWriter sampleReaderOptions 1000 none sampleHistory sampleReplayed
      (sampleRotation thumbprint) sampleRotationContext (sampleBytes (sampleRotationEntry thumbprint)) := by
  obtain ⟨hverified, hreplayed, hterminal, hprevious, hentity, hoperational, hdomain, -, hseq, hsigned, hid,
    hhash⟩ := sampleHistory_replays
  refine ⟨.inr (toOption_eq_some.mp hverified), toOption_eq_some.mp hreplayed, hterminal, rfl, ?_, ?_,
    fun _ => hentity.symm, fun _ => hoperational.symm, toOption_eq_some.mp hfinalized⟩
  · intro item hitem
    obtain rfl := List.mem_singleton.mp hitem
    show some (Json.str "a.example") = _
    rw [hdomain]
  · rw [ChainFollows, hprevious]
    refine ⟨.num 1, _, _, hseq, rfl, toOption_eq_some.mp hsigned, ?_, toOption_eq_some.mp hhash, rfl⟩
    show some (Json.str "VVVVVVVVVVVVVVVVVVVVVVVVVVVVVVVVVVVVVVVVVVA") = _
    rw [hid]

/-- The event that an entry parses to is the one of the sample log. -/
theorem sampleEvent_eq {bytes : List Char} {event : LogEvent}
    (h : parseC2spEventEntry sampleRotationWriter.toPlatform bytes sampleReaderOptions.context = .ok event) :
    event = sampleEvent bytes := by
  have h' : parseC2spEventEntry sampleRotationWriter.toPlatform bytes (entryContext sampleReference) =
    .ok event := h
  rw [sampleEvent, h']
  rfl

theorem sampleHistory_notLater : ∀ item ∈ sampleHistory, NotLater 1000 item.event := by
  intro item hitem
  obtain rfl := List.mem_singleton.mp hitem
  obtain ⟨-, -, -, -, -, -, -, htimestamp, -⟩ := sampleHistory_replays
  exact ⟨1000, htimestamp, le_rfl⟩

theorem sampleHistory_index : ∀ item ∈ sampleHistory, item.index < 1 := by
  intro item hitem
  obtain rfl := List.mem_singleton.mp hitem
  exact Nat.zero_lt_one

/-- The rotation with the thumbprint of its key is accepted, and keeps the rules left to the reader. -/
theorem finalized_accepted_rotation :
    ∃ event, verifyLifecycle sampleRotationWriter.toPlatform (sampleReaderOptions.atTime 1000) none
        (sampleHistory ++ [entryItem sampleRotationWriter 1 (sampleBytes (sampleRotationEntry "N")) event]) =
          .ok () ∧
      ReaderRules sampleRotationWriter sampleReaderOptions sampleHistory sampleReplayed
        (sampleBytes (sampleRotationEntry "N")) event := by
  have hevaluated : (c2spTlogEntryBytes sampleRotationWriter (sampleRotation "N")
        sampleRotationContext).toOption = some (sampleBytes (sampleRotationEntry "N")) ∧
      (verifyLifecycle sampleRotationWriter.toPlatform (sampleReaderOptions.atTime 1000) none
        (sampleHistory ++ [entryItem sampleRotationWriter 1 (sampleBytes (sampleRotationEntry "N"))
          (sampleEvent (sampleBytes (sampleRotationEntry "N")))])).toOption = some () ∧
      (sampleEvent (sampleBytes (sampleRotationEntry "N"))).timestamp = some 1000 := by decide +kernel
  obtain ⟨hbytes, hverified, htime⟩ := hevaluated
  obtain ⟨event, hevent, haccepted⟩ := finalized_accepted_iff (sampleRotation_finalized hbytes)
  rw [sampleEvent_eq hevent] at haccepted
  rw [toOption_eq_some] at hverified
  exact ⟨_, hverified, (haccepted 1 1000 sampleHistory_index ⟨1000, htime, le_rfl⟩
    sampleHistory_notLater).mp hverified⟩

/-- With another thumbprint the writer finalizes all the same, and the reader refuses the entry. -/
theorem finalized_rotation_rejected :
    ¬ ∀ (W : WriterPlatform (List Char)) (options : StreamVerifierOptions) (time : ℤ)
      (f : Option (LogEvent → Except Thrown MigrationVerificationResult))
      (H : List (VerifiedLifecycleEvent (List Char))) (st : Replay (List Char))
      (p : PreparedC2spTlogEvent (List Char)) (context : PreparedC2spVerificationContext) (bytes : List Char),
      FinalizedAfter W options time f H st p context bytes →
      ∃ event, parseC2spEventEntry W.toPlatform bytes options.context = .ok event ∧
        ∀ (index : ℕ) (time' : ℤ), (∀ item ∈ H, item.index < index) → NotLater time' event →
          (∀ item ∈ H, NotLater time' item.event) →
          verifyLifecycle W.toPlatform (options.atTime time') f (H ++ [entryItem W index bytes event]) =
            .ok () := by
  intro hclaim
  have hevaluated : (c2spTlogEntryBytes sampleRotationWriter (sampleRotation "X")
        sampleRotationContext).toOption = some (sampleBytes (sampleRotationEntry "X")) ∧
      (verifyLifecycle sampleRotationWriter.toPlatform (sampleReaderOptions.atTime 1000) none
        (sampleHistory ++ [entryItem sampleRotationWriter 1 (sampleBytes (sampleRotationEntry "X"))
          (sampleEvent (sampleBytes (sampleRotationEntry "X")))])).toOption = none ∧
      (sampleEvent (sampleBytes (sampleRotationEntry "X"))).timestamp = some 1000 := by decide +kernel
  obtain ⟨hbytes, hrejected, htime⟩ := hevaluated
  obtain ⟨event, hevent, haccepted⟩ := hclaim _ _ _ _ _ _ _ _ _ (sampleRotation_finalized hbytes)
  rw [sampleEvent_eq hevent] at haccepted
  have hverified := haccepted 1 1000 sampleHistory_index ⟨1000, htime, le_rfl⟩ sampleHistory_notLater
  rw [hverified] at hrejected
  cases hrejected

end Dnsid.Writer

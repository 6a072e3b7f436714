import Mathlib.Data.Rat.Encodable
import Dnsid.Foundations.Replay
import Dnsid.Stream.Authority
import Dnsid.Stream.WellFormed
import Dnsid.Writer.Envelopes

/-! # Signing in several hands

A prepared event is signed role by role, in any order, and between two signatures it may be written as canonical
JSON and read back by another process. Across every such run the signed bytes, the event id and the members
other than `sigs` stay, and so do the signatures of the roles that did not sign (`SameEvent`); the finished
entry carries the same signed bytes.
-/
namespace Dnsid.Writer
open Dnsid.Foundations Dnsid.Events
set_option autoImplicit false

inductive SigningStep (Bytes : Type) where
  | sign (role : C2spSignerRole) (keyProvider : KeyProvider Bytes) (options : SignPreparedC2spOptions)
  | handOff (lr : String) (context : PreparedC2spVerificationContext)

/-- The role that a step signs under. -/
def SigningStep.role? {Bytes : Type} : SigningStep Bytes → Option C2spSignerRole
  | .sign role _ _ => some role
  | .handOff _ _ => none

section Definitions
variable {Bytes : Type} [DecidableEq Bytes] (W : WriterPlatform Bytes)

/-- A hand-off writes `canonicalizeUnknownC2spEnvelope(prepared.envelope)`. -/
def signingStep (prepared : PreparedC2spTlogEvent Bytes) :
    SigningStep Bytes → Except Thrown (PreparedC2spTlogEvent Bytes)
  | .sign role keyProvider options => signPreparedC2spTlogEvent W prepared role keyProvider options
  | .handOff lr context => do
    let bytes ← W.canonicalBytes (.obj prepared.envelope)
    parsePreparedC2spTlogEvent W bytes lr context

def signingRun (steps : List (SigningStep Bytes)) (prepared : PreparedC2spTlogEvent Bytes) :
    Except Thrown (PreparedC2spTlogEvent Bytes) :=
  steps.foldlM (signingStep W) prepared

/-- A prepared event as the writer hands it out. -/
def PreparedBy (prepared : PreparedC2spTlogEvent Bytes) : Prop :=
  (∃ event lr chain, prepareC2spTlogEventForSigning W event lr chain = .ok prepared) ∨
    ∃ bytes lr context, parsePreparedC2spTlogEvent W bytes lr context = .ok prepared

/-- Members are compared up to the order of the members inside them. -/
structure SameEvent (signed : List C2spSignerRole) (p p' : PreparedC2spTlogEvent Bytes) : Prop where
  signedBytes : p'.signedBytes = p.signedBytes
  eventId : p'.eventId = p.eventId
  member : ∀ name, name ≠ "sigs" →
    (p'.envelope.lookup name).map Json.sorted = (p.envelope.lookup name).map Json.sorted
  signature : ∃ sigs sigs', signaturesOf W p.envelope = .ok sigs ∧ signaturesOf W p'.envelope = .ok sigs' ∧
    ∀ role, role ∉ signed → sigs'.get role.toSignature = sigs.get role.toSignature

/-- The bytes of a finished entry carry the prepared event. -/
structure CarriedBy (p : PreparedC2spTlogEvent Bytes) (bytes : Bytes) : Prop where
  signedBytes : signedC2spEntryBytes W.toPlatform bytes = .ok p.signedBytes
  eventId : c2spEventId W.toPlatform p.signedBytes = p.eventId
  member : ∃ obj, readEntry W.toPlatform bytes = .ok obj ∧ ∀ name, name ≠ "sigs" →
    (obj.get? name).map Json.sorted = (p.envelope.lookup name).map Json.sorted

end Definitions

section Proof
variable {Bytes : Type} {W : WriterPlatform Bytes}

/-! ## Steps -/

theorem SameEvent.refl {p : PreparedC2spTlogEvent Bytes} (h : Sealed W p) : SameEvent W [] p p := by
  obtain ⟨sigs, hsigs⟩ := h.signatures
  exact ⟨rfl, rfl, fun _ _ => rfl, sigs, sigs, hsigs, hsigs, fun _ _ => rfl⟩

theorem SameEvent.trans {signed signed' : List C2spSignerRole} {p p' p'' : PreparedC2spTlogEvent Bytes}
    (h : SameEvent W signed p p') (h' : SameEvent W signed' p' p'') :
    SameEvent W (signed ++ signed') p p'' := by
  obtain ⟨sigs, sigs₁, hsigs, hsigs₁, hget⟩ := h.signature
  obtain ⟨sigs₁', sigs', hsigs₁', hsigs', hget'⟩ := h'.signature
  obtain rfl := Except.ok.inj (hsigs₁.symm.trans hsigs₁')
  refine ⟨h'.signedBytes.trans h.signedBytes, h'.eventId.trans h.eventId,
    fun name hname => (h'.member name hname).trans (h.member name hname), sigs, sigs', hsigs, hsigs',
    fun role hrole => ?_⟩
  rw [List.mem_append, not_or] at hrole
  rw [hget' role hrole.2, hget role hrole.1]

/-- Envelopes equal up to the order of members have the same signed bytes. -/
theorem canonicalBytes_withoutSigs {envelope envelope' : C2spJsonEvent}
    (h : (Json.obj envelope).sorted = (Json.obj envelope').sorted) :
    W.canonicalBytes (withoutSigs (.obj envelope)) = W.canonicalBytes (withoutSigs (.obj envelope')) := by
  rw [W.canonicalBytes_eq]
  apply W.text.canonicalBytes_congr
  rw [sorted_withoutSigs, sorted_withoutSigs, h]

variable [DecidableEq Bytes]

/-- What is read from canonical bytes is what was written, up to the order of members. -/
theorem sorted_of_readEntry {value obj : Json} {bytes : Bytes} (hwritten : W.canonicalBytes value = .ok bytes)
    (hread : readEntry W.toPlatform bytes = .ok obj) : value.sorted = obj.sorted := by
  have hcanonical : W.canonicalBytes obj = .ok bytes := (Dnsid.Stream.readEntry_ok hread).2
  rw [W.canonicalBytes_eq] at hwritten hcanonical
  exact W.text.sorted_eq_of_canonicalBytes hwritten hcanonical

theorem parsePrepared_sealed {bytes : Bytes} {lr : String} {context : PreparedC2spVerificationContext}
    {p : PreparedC2spTlogEvent Bytes} (h : parsePreparedC2spTlogEvent W bytes lr context = .ok p) :
    readEntry W.toPlatform bytes = .ok (.obj p.envelope) ∧ Sealed W p ∧
      ∃ type, EnvelopeAccepted W p.reference p.envelope type := by
  unfold parsePreparedC2spTlogEvent at h
  obtain ⟨parsed, hread, h⟩ := bind_eq_ok.mp h
  obtain ⟨reference, -, h⟩ := bind_eq_ok.mp h
  obtain ⟨envelope, henvelope, h⟩ := bind_eq_ok.mp h
  obtain ⟨prepared, hprepared, h⟩ := bind_eq_ok.mp h
  obtain ⟨_, -, h⟩ := bind_eq_ok.mp h
  obtain ⟨_, -, h⟩ := bind_eq_ok.mp h
  obtain rfl := pure_eq_ok.mp h
  obtain ⟨rfl, htype⟩ := assertPreparedEnvelope_ok.mp henvelope
  obtain ⟨rfl, rfl, hsealed⟩ := makePrepared_ok hprepared
  exact ⟨hread, hsealed, htype⟩

theorem PreparedBy.sealed {p : PreparedC2spTlogEvent Bytes} (h : PreparedBy W p) : Sealed W p := by
  rcases h with ⟨event, lr, chain, h⟩ | ⟨bytes, lr, context, h⟩
  · unfold prepareC2spTlogEventForSigning at h
    obtain ⟨reference, -, h⟩ := bind_eq_ok.mp h
    obtain ⟨normalizedChain, -, h⟩ := bind_eq_ok.mp h
    obtain ⟨obj, -, h⟩ := bind_eq_ok.mp h
    obtain ⟨envelope, -, h⟩ := bind_eq_ok.mp h
    exact (makePrepared_ok h).2.2
  · exact (parsePrepared_sealed h).2.1

theorem handOff_sameEvent {p p' : PreparedC2spTlogEvent Bytes} {lr : String}
    {context : PreparedC2spVerificationContext} (hsealed : Sealed W p)
    (h : signingStep W p (.handOff lr context) = .ok p') : Sealed W p' ∧ SameEvent W [] p p' := by
  obtain ⟨bytes, hbytes, hparsed⟩ := bind_eq_ok.mp h
  obtain ⟨hread, hsealed', type, haccepted⟩ := parsePrepared_sealed hparsed
  have hsorted := sorted_of_readEntry hbytes hread
  have hmember : ∀ name, (p.envelope.lookup name).map Json.sorted = (p'.envelope.lookup name).map Json.sorted :=
    Json.get?_eq_of_sorted hsorted
  have hsigned : p'.signedBytes = p.signedBytes := by
    have := hsealed.signedBytes
    rw [canonicalBytes_withoutSigs hsorted, hsealed'.signedBytes] at this
    exact Except.ok.inj this
  obtain ⟨sigs, hsigs⟩ := hsealed.signatures
  have htype : typeText W p.envelope = typeText W p'.envelope :=
    typeText_congr (Json.eq_str_of_sorted (hmember "type").symm haccepted.typed) haccepted.typed
  refine ⟨hsealed', hsigned, ?_, fun name _ => (hmember name).symm, sigs, sigs, hsigs, ?_, fun _ _ => rfl⟩
  · rw [hsealed'.eventId, hsealed.eventId, hsigned]
  · unfold signaturesOf at hsigs ⊢
    rw [← htype]
    exact parsePartialC2spSignatures_sorted (hmember "sigs") hsigs

/-- The envelope after a signature: only `sigs` is replaced. -/
theorem signPrepared_ok {p p' : PreparedC2spTlogEvent Bytes} {role : C2spSignerRole}
    {keyProvider : KeyProvider Bytes} {options : SignPreparedC2spOptions}
    (h : signPreparedC2spTlogEvent W p role keyProvider options = .ok p') :
    Sealed W p' ∧ p'.reference = p.reference ∧ ∃ sigs signature, signaturesOf W p.envelope = .ok sigs ∧
      p'.envelope = setMember "sigs" (.obj (setMember role.toSignature.name (signatureJson signature)
        (signaturesMembers sigs))) p.envelope := by
  unfold signPreparedC2spTlogEvent at h
  obtain ⟨_, -, h⟩ := bind_eq_ok.mp h
  obtain ⟨_, -, h⟩ := bind_eq_ok.mp h
  obtain ⟨_, -, h⟩ := bind_eq_ok.mp h
  obtain ⟨_, -, h⟩ := bind_eq_ok.mp h
  obtain ⟨sigs, hsigs, h⟩ := bind_eq_ok.mp h
  obtain ⟨_, -, h⟩ := bind_eq_ok.mp h
  obtain ⟨key, -, h⟩ := bind_eq_ok.mp h
  obtain ⟨providerKey, -, h⟩ := bind_eq_ok.mp h
  obtain ⟨_, -, h⟩ := bind_eq_ok.mp h
  obtain ⟨signature, -, h⟩ := bind_eq_ok.mp h
  obtain ⟨hreference, henvelope, hsealed⟩ := makePrepared_ok h
  exact ⟨hsealed, hreference, sigs, _, hsigs, henvelope⟩

theorem toSignature_injective : Function.Injective C2spSignerRole.toSignature := by
  intro a b h
  cases a <;> cases b <;> first | rfl | simp [C2spSignerRole.toSignature] at h

/-- A role that keeps its written signature reads it back. -/
theorem get_of_written {raw : List (String × Json)} {sigs sigs' : C2spSignatures} {type : String}
    {role : SignatureRole} (h : parsePartialC2spSignatures (some (.obj raw)) type = .ok sigs')
    (hlookup : raw.lookup role.name = (sigs.get role).map signatureJson) : sigs'.get role = sigs.get role := by
  obtain ⟨raw', allowed, hraw, hroles, -, -⟩ := parsePartialC2spSignatures_some.mp h
  cases hraw
  have hrole := hroles role
  unfold parseRole at hrole
  rw [hlookup] at hrole
  cases hget : sigs.get role with
  | none =>
    rw [hget] at hrole
    exact (Except.ok.inj hrole).symm
  | some signature =>
    simp only [hget, Option.map_some] at hrole
    cases hparsed : parseSignatureValue (some (signatureJson signature)) s!"sigs.{role.name}" with
    | error e =>
      rw [hparsed] at hrole
      cases hrole
    | ok x =>
      rw [hparsed, parseSignatureValue_signatureJson hparsed] at hrole
      exact (Except.ok.inj hrole).symm

theorem sign_sameEvent {p p' : PreparedC2spTlogEvent Bytes} {role : C2spSignerRole}
    {keyProvider : KeyProvider Bytes} {options : SignPreparedC2spOptions} (hsealed : Sealed W p)
    (h : signingStep W p (.sign role keyProvider options) = .ok p') :
    Sealed W p' ∧ SameEvent W [role] p p' := by
  obtain ⟨hsealed', -, sigs, signature, hsigs, henvelope⟩ := signPrepared_ok h
  have hmember : ∀ name, name ≠ "sigs" → p'.envelope.lookup name = p.envelope.lookup name := by
    intro name hname
    rw [henvelope, lookup_setMember, if_neg hname]
  have hsigned : p'.signedBytes = p.signedBytes := by
    have := hsealed'.signedBytes
    rw [henvelope, withoutSigs_setMember, hsealed.signedBytes] at this
    exact (Except.ok.inj this).symm
  obtain ⟨sigs', hsigs'⟩ := hsealed'.signatures
  refine ⟨hsealed', hsigned, ?_, fun name hname => by rw [hmember name hname], sigs, sigs', hsigs, hsigs',
    fun other hother => ?_⟩
  · rw [hsealed'.eventId, hsealed.eventId, hsigned]
  · have hne : other ≠ role := by simpa using hother
    have hraw := hsigs'
    unfold signaturesOf at hraw
    rw [henvelope, lookup_setMember, if_pos rfl] at hraw
    refine get_of_written hraw ?_
    rw [lookup_setMember, if_neg, lookup_signaturesMembers]
    intro hname
    exact hne (toSignature_injective (SignatureRole.name_injective hname))

theorem signingStep_sameEvent {p p' : PreparedC2spTlogEvent Bytes} {step : SigningStep Bytes}
    (hsealed : Sealed W p) (h : signingStep W p step = .ok p') :
    Sealed W p' ∧ SameEvent W step.role?.toList p p' := by
  cases step with
  | sign role keyProvider options => exact sign_sameEvent hsealed h
  | handOff lr context => exact handOff_sameEvent hsealed h

/-! ## Runs -/

theorem signingRun_sameEvent {p p' : PreparedC2spTlogEvent Bytes} {steps : List (SigningStep Bytes)}
    (hsealed : Sealed W p) (h : signingRun W steps p = .ok p') :
    Sealed W p' ∧ SameEvent W (steps.filterMap SigningStep.role?) p p' := by
  refine foldlM_run_invariant
    (I := fun done q => Sealed W q ∧ SameEvent W (done.filterMap SigningStep.role?) p q)
    (fun done step q q' hq hstep => ?_) steps [] p p' ⟨hsealed, SameEvent.refl hsealed⟩ h
  obtain ⟨hsealed', hsame⟩ := signingStep_sameEvent hq.1 hstep
  refine ⟨hsealed', ?_⟩
  rw [List.filterMap_append]
  have hlast : [step].filterMap SigningStep.role? = step.role?.toList := by
    cases step <;> rfl
  rw [hlast]
  exact hq.2.trans hsame

theorem c2spTlogEntryBytes_written {p : PreparedC2spTlogEvent Bytes}
    {context : PreparedC2spVerificationContext} {bytes : Bytes}
    (h : c2spTlogEntryBytes W p context = .ok bytes) :
    W.canonicalBytes (.obj p.envelope) = .ok bytes ∧
      ∃ event, parseC2spEventEntry W.toPlatform bytes (entryContext p.reference) = .ok event := by
  unfold c2spTlogEntryBytes at h
  obtain ⟨_, -, h⟩ := bind_eq_ok.mp h
  obtain ⟨_, -, h⟩ := bind_eq_ok.mp h
  obtain ⟨_, -, h⟩ := bind_eq_ok.mp h
  obtain ⟨_, -, h⟩ := bind_eq_ok.mp h
  obtain ⟨_, -, h⟩ := bind_eq_ok.mp h
  obtain ⟨bytes', hbytes, h⟩ := bind_eq_ok.mp h
  obtain ⟨_, -, h⟩ := bind_eq_ok.mp h
  obtain ⟨event, hevent, h⟩ := bind_eq_ok.mp h
  obtain rfl := pure_eq_ok.mp h
  exact ⟨hbytes, event, hevent⟩

theorem parseC2spEventEntry_read {bytes : Bytes} {context : C2spEventContext} {event : LogEvent}
    (h : parseC2spEventEntry W.toPlatform bytes context = .ok event) :
    ∃ members, readEntry W.toPlatform bytes = .ok (.obj members) := by
  unfold parseC2spEventEntry at h
  obtain ⟨obj, hread, h⟩ := bind_eq_ok.mp h
  obtain ⟨_, hpublic, -⟩ := bind_eq_ok.mp h
  unfold validatePublicFields at hpublic
  obtain ⟨members, hmembers, -⟩ := bind_eq_ok.mp hpublic
  obtain rfl := Option.some.inj (asObject_ok.mp hmembers)
  exact ⟨members, hread⟩

theorem c2spTlogEntryBytes_carries {p : PreparedC2spTlogEvent Bytes}
    {context : PreparedC2spVerificationContext} {bytes : Bytes} (hsealed : Sealed W p)
    (h : c2spTlogEntryBytes W p context = .ok bytes) : CarriedBy W p bytes := by
  obtain ⟨hwritten, event, hevent⟩ := c2spTlogEntryBytes_written h
  obtain ⟨members, hread⟩ := parseC2spEventEntry_read hevent
  have hsorted := sorted_of_readEntry hwritten hread
  refine ⟨?_, hsealed.eventId.symm, .obj members, hread, fun name _ =>
    (Json.get?_eq_of_sorted hsorted name).symm⟩
  unfold signedC2spEntryBytes
  refine bind_eq_ok.mpr ⟨_, hread, ?_⟩
  rw [← canonicalBytes_withoutSigs hsorted]
  exact hsealed.signedBytes

theorem split_signing_preserves_event {p p' : PreparedC2spTlogEvent Bytes}
    {steps : List (SigningStep Bytes)} (hprepared : PreparedBy W p)
    (hrun : signingRun W steps p = .ok p') :
    SameEvent W (steps.filterMap SigningStep.role?) p p' ∧
      ∀ context bytes, c2spTlogEntryBytes W p' context = .ok bytes → CarriedBy W p bytes := by
  obtain ⟨hsealed', hsame⟩ := signingRun_sameEvent hprepared.sealed hrun
  refine ⟨hsame, fun context bytes hbytes => ?_⟩
  obtain ⟨hsigned, hid, obj, hread, hmember⟩ := c2spTlogEntryBytes_carries hsealed' hbytes
  rw [hsame.signedBytes] at hsigned hid
  rw [hsame.eventId] at hid
  exact ⟨hsigned, hid, obj, hread, fun name hname => (hmember name hname).trans (hsame.member name hname)⟩

end Proof

/-! ## A sample platform

Bytes are texts. A text is read by looking for the value of `table` that it is canonical for; the numbers of the
samples are 0 and 1. -/

def sampleNumber (q : ℚ) : List Char :=
  if q = 0 then ['0'] else if q = 1 then ['1'] else 'e' :: List.replicate (Encodable.encode q) '1'

def sampleText : CanonicalText (List Char) where
  numberText := sampleNumber
  encode := id
  numberText_ne_nil q := by
    unfold sampleNumber
    split_ifs <;> simp
  numberText_chars q c hc := by
    unfold sampleNumber at hc
    split_ifs at hc
    · obtain rfl := List.mem_singleton.mp hc
      decide
    · obtain rfl := List.mem_singleton.mp hc
      decide
    · rcases List.mem_cons.mp hc with rfl | hc
      · decide
      · obtain rfl := List.eq_of_mem_replicate hc
        decide
  numberText_injective p q h := by
    unfold sampleNumber at h
    split_ifs at h <;> simp_all
  encode_injective := Function.injective_id

def lookupText (table : List Json) (text : List Char) : Option Json :=
  (table.find? fun value => (sampleText.canonicalBytes value).toOption = some text).map Json.sorted

theorem lookupText_of_mem {table : List Json} {value : Json} {text : List Char} (hmem : value ∈ table)
    (htext : sampleText.canonicalBytes value = .ok text) : lookupText table text = some value.sorted := by
  unfold lookupText
  cases hfind : table.find? fun value => (sampleText.canonicalBytes value).toOption = some text with
  | none =>
    have := List.find?_eq_none.mp hfind value hmem
    simp [htext, Except.toOption] at this
  | some found =>
    have hfound := List.find?_some hfind
    rw [decide_eq_true_eq, toOption_eq_some] at hfound
    rw [Option.map_some, sampleText.sorted_eq_of_canonicalBytes hfound htext]

theorem lookupText_some {table : List Json} {value : Json} {text : List Char}
    (h : lookupText table text = some value) :
    ∃ found ∈ table, value = found.sorted ∧ sampleText.canonicalBytes found = .ok text := by
  obtain ⟨found, hfind, rfl⟩ := Option.map_eq_some_iff.mp h
  have hfound := List.find?_some hfind
  rw [decide_eq_true_eq, toOption_eq_some] at hfound
  exact ⟨found, List.mem_of_find?_eq_some hfind, rfl, hfound⟩

theorem text?_eq_of_sorted {key key' : Json} (h : key.sorted = key'.sorted) (name : String) :
    key.text? name = key'.text? name := by
  have hget := Json.get?_eq_of_sorted h name
  ext text
  constructor <;> intro htext
  · exact text?_eq.mpr (Json.eq_str_of_sorted hget (text?_eq.mp htext))
  · exact text?_eq.mpr (Json.eq_str_of_sorted hget.symm (text?_eq.mp htext))

/-- A letter for a text. -/
def sampleTag (text : List Char) : Char := Char.ofNat (0x41 + text.length % 26)

/-- A key signs with its `x` and the letter of the text. -/
def sampleSignature (x : String) (signed : List Char) : List Char := x.toList ++ ['-', sampleTag signed]

def sampleWriter (table : List Json) : WriterPlatform (List Char) where
  byteLength := List.length
  parseJsonNoDuplicateMembers text := orThrow (.parseError "malformed UTF-8 JSON") (lookupText table text)
  canonicalBytes := sampleText.canonicalBytes
  jsonParse := lookupText (table ++ table.map withoutSigs)
  normalizeFQDN := some
  fromBase64Url text := some text.toList
  labelledHash label text :=
    String.ofList (List.replicate 42 (sampleTag (label.toList ++ text)) ++ ['A'])
  leafHash := id
  verifyWithKey signed signature key := signature = sampleSignature ((key.text? "x").getD "") signed
  jwkThumbprint key := (key.text? "x").filter (· ≠ "")
  materialHash members := (members.lookup "x").getD ""
  stringOf _ := ""
  jsonParse_of_strict h := by
    obtain ⟨found, hmem, rfl, hfound⟩ := lookupText_some (orThrow_eq_ok.mp h)
    exact lookupText_of_mem (List.mem_append_left _ hmem) hfound
  signed_envelope := by
    intro bytes members h hbytes
    obtain ⟨found, hmem, hmembers, hfound⟩ := lookupText_some (orThrow_eq_ok.mp h)
    have hsorted := sampleText.sorted_eq_of_canonicalBytes hbytes hfound
    obtain ⟨members', rfl⟩ := Json.eq_obj_of_sorted hsorted rfl
    obtain ⟨signed, hsigned⟩ := sampleText.canonicalBytes_withoutSigs_ok hfound
    refine ⟨signed, (withoutSigs (.obj members')).sorted, ?_, ?_, fun name hname => ?_⟩
    · rw [← hsigned]
      apply sampleText.canonicalBytes_congr
      rw [sorted_withoutSigs, sorted_withoutSigs, hsorted]
    · exact lookupText_of_mem (List.mem_append_right _ (List.mem_map_of_mem hmem)) hsigned
    · rw [hmembers, Json.sorted_get?, Json.sorted_get?]
      congr 1
      exact withoutSigs_get? members' hname
  text := sampleText
  canonicalBytes_eq := rfl
  toBase64Url := String.ofList
  parseC2spTlogLr lr :=
    if lr = "c2sp-tlog:testnet:https://log.example#s" then
      .ok ⟨"testnet", "s", "log.example", "c2sp-tlog:testnet:https://log.example#s", none⟩
    else .error (.parseError "lr must start with c2sp-tlog:")
  jwkThumbprint_nonempty key h := (filter_eq_some.mp h).2 rfl
  jwkThumbprint_sorted key key' h := by rw [text?_eq_of_sorted h "x"]
  verifyWithKey_sorted signed signature key key' h := by
    simp only [text?_eq_of_sorted h "x"]

/-! ### A sample issuance -/

def sampleLr : String := "c2sp-tlog:testnet:https://log.example#s"

/-- Entity key `E`, operational key `O`. -/
def sampleIssuanceEvent : LogEvent where
  domain := "a.example"
  timestamp := some 1000
  signingKid := none
  sig := none
  operationalCountersig := none
  newOperationalProof := none
  chain := ⟨none, none, none, none, none, none⟩
  body := .issuance
    { governanceId := "gi"
      initialOperationalKid := some "O"
      initialOperationalAlg := some "EdDSA"
      initialOperationalPublicKey := some (Dnsid.Stream.sampleKey "O" "O")
      initialOperationalThumbprint := some "O"
      initialEntityKid := some "E"
      initialEntityAlg := some "EdDSA"
      initialEntityPublicKey := some (Dnsid.Stream.sampleKey "E" "E")
      initialEntityThumbprint := some "E"
      entityKey := none
      operationalKey := none
      publicKey := none
      thumbprint := none }

/-- The binding and the members of `payload`, signed by the listed roles under the letter `tag`. -/
def sampleEnvelope (type : String) (payload : List (String × Json)) (tag : Char)
    (signers : List (SignatureRole × String)) : Json :=
  .obj ([("v", .num 1), ("kind", .str "dnsid.lifecycle"), ("type", .str type),
    ("fqdn", .str "a.example"), ("ts", .num 1), ("method", .str "c2sp-tlog"),
    ("log_origin", .str "log.example"), ("stream_id", .str "s"), ("lr", .str sampleLr)] ++ payload ++
    [("sigs", .obj (signers.map fun signer => (signer.1.name,
      signatureJson ⟨signer.2, String.ofList (signer.2.toList ++ ['-', tag])⟩)))])

def sampleIssuanceEntry (signers : List (SignatureRole × String)) : Json :=
  sampleEnvelope "ISSUANCE" [("gi", .str "gi"), ("ek", Dnsid.Stream.sampleKey "E" "E"),
    ("ku", Dnsid.Stream.sampleKey "O" "O"), ("seq", .num 0)] 'B' signers

/-- Holds every key under its own name. -/
def sampleProvider : KeyProvider (List Char) where
  jwk kid := .ok (Dnsid.Stream.sampleKey kid kid)
  signKey kid signed := .ok (sampleSignature kid signed)

def sampleContext : PreparedC2spVerificationContext where
  expectedFqdn := some "a.example"
  expectedGovernanceId := some "gi"
  entityKey := some (Dnsid.Stream.sampleKey "E" "E")
  operationalKey := some (Dnsid.Stream.sampleKey "O" "O")
  previousOperationalKey := none

def sampleIssuanceWriter : WriterPlatform (List Char) :=
  sampleWriter [sampleIssuanceEntry [(.ae, "E")], sampleIssuanceEntry [(.ae, "E"), (.op, "O")]]

/-- The entity signs, the event is handed off, and the operational key countersigns. -/
def sampleSigning : List (SigningStep (List Char)) :=
  [.sign .entity sampleProvider ⟨sampleContext, false⟩, .handOff sampleLr sampleContext,
    .sign .operationalCountersignature sampleProvider ⟨sampleContext, false⟩]

/-- The sample issuance is signed in two processes and finalized. -/
theorem split_signing_preserves_event_issuance :
    ∃ p p' bytes, prepareC2spTlogEventForSigning sampleIssuanceWriter sampleIssuanceEvent sampleLr none = .ok p ∧
      signingRun sampleIssuanceWriter sampleSigning p = .ok p' ∧
      c2spTlogEntryBytes sampleIssuanceWriter p' sampleContext = .ok bytes ∧
      SameEvent sampleIssuanceWriter [.entity, .operationalCountersignature] p p' ∧
      CarriedBy sampleIssuanceWriter p bytes := by
  have hdone : ((prepareC2spTlogEventForSigning sampleIssuanceWriter sampleIssuanceEvent sampleLr none).toOption.bind
      fun p => (signingRun sampleIssuanceWriter sampleSigning p).toOption.bind
        fun p' => (c2spTlogEntryBytes sampleIssuanceWriter p' sampleContext).toOption).isSome = true := by
    decide +kernel
  obtain ⟨bytes, hbytes⟩ := Option.isSome_iff_exists.mp hdone
  obtain ⟨p, hp, hbytes⟩ := Option.bind_eq_some_iff.mp hbytes
  obtain ⟨p', hp', hbytes⟩ := Option.bind_eq_some_iff.mp hbytes
  rw [toOption_eq_some] at hp hp' hbytes
  obtain ⟨hsame, hcarried⟩ :=
    split_signing_preserves_event (.inl ⟨sampleIssuanceEvent, sampleLr, none, hp⟩) hp'
  exact ⟨p, p', bytes, hp, hp', hbytes, hsame, hcarried sampleContext bytes hbytes⟩

end Dnsid.Writer

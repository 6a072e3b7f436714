import Dnsid.Stream.WellFormed

/-! # Who may sign the next event

`hasAllRoleSignatures` in plain terms (`hasAllRoleSignatures_true`), the payload of an entry, and the authority
that the loop assigns to an entry: the identity after the selected event that its `prev_event_id` names, or
the latest identity when it names none.
-/
namespace Dnsid.Stream
open Dnsid.Foundations Dnsid.Events
open Dnsid.Checkpoint (IndexedEntry sortByIndex)
open scoped List
set_option autoImplicit false

section Definitions
variable {Bytes : Type} [DecidableEq Bytes] (P : Platform Bytes)

/-- Each signature verifies, under its own kid, with the supported key of its role. -/
def RolesVerify (bytes : Bytes) (key : SignatureRole → Option DnsIdJWK) (sigs : C2spSignatures) : Prop :=
  ∀ role signature, sigs.get role = some signature → ∃ k, key role = some k ∧ SupportedJwk k ∧
    k.get? "kid" = some (.str signature.kid) ∧ SignedBy P bytes signature.sig k

/-- The logical ID of a stored entry. -/
def eventIdOf (bytes : Bytes) : Option String :=
  (signedC2spEntryBytes P bytes).toOption.map (c2spEventId P)

/-- The position of the event that `id` names. -/
def namedPosition (events : List (VerifiedLifecycleEvent Bytes)) (id : String) : Option ℕ :=
  events.findIdx? fun item => eventIdOf P item.bytes = some id

/-- The keys that an entry after `events` has to be signed with, by the `prev_event_id` it carries. -/
def authorityOf (genesis : Identity) (events : List (VerifiedLifecycleEvent Bytes))
    (prevEventId : Option String) : Identity :=
  match prevEventId.bind (namedPosition P events) with
  | some k => identityAt genesis events (k + 1)
  | none => genesis.after (eventsOf events)

end Definitions

section Proof
variable {Bytes : Type} [DecidableEq Bytes] {P : Platform Bytes}

/-! ## Role signatures -/

theorem roleVerifies_true {bytes : Bytes} {key : Option DnsIdJWK} {signature : C2spSignatureValue} :
    roleVerifies P bytes key signature = .ok true ↔ ∃ k, key = some k ∧ SupportedJwk k ∧
      k.get? "kid" = some (.str signature.kid) ∧ SignedBy P bytes signature.sig k := by
  unfold roleVerifies SignedBy
  constructor
  · intro h
    obtain ⟨k, hk, h⟩ := bind_eq_ok.mp h
    obtain ⟨_, hsupported, h⟩ := bind_eq_ok.mp h
    split at h
    · cases h
    · next hkid =>
      obtain ⟨signed, hsigned, h⟩ := bind_eq_ok.mp h
      obtain ⟨signatureBytes, hbytes, h⟩ := bind_eq_ok.mp h
      exact ⟨k, orThrow_eq_ok.mp hk, (assertSupportedLifecycleJwk_ok.mp hsupported).2,
        (not_not.mp hkid).symm, signed, signatureBytes, hsigned, orThrow_eq_ok.mp hbytes,
        pure_eq_ok.mp h⟩
  · rintro ⟨k, rfl, hsupported, hkid, signed, signatureBytes, hsigned, hbytes, hverify⟩
    refine bind_eq_ok.mpr ⟨k, rfl, bind_eq_ok.mpr
      ⟨k, assertSupportedLifecycleJwk_ok.mpr ⟨rfl, hsupported⟩, ?_⟩⟩
    rw [if_neg (not_not.mpr hkid.symm)]
    exact bind_eq_ok.mpr ⟨signed, hsigned, bind_eq_ok.mpr
      ⟨signatureBytes, orThrow_eq_ok.mpr hbytes, by rw [hverify]; rfl⟩⟩

theorem rolesVerify_true {bytes : Bytes} {key : SignatureRole → Option DnsIdJWK} :
    ∀ {signatures : List (SignatureRole × C2spSignatureValue)},
      rolesVerify P bytes key signatures = .ok true ↔
        ∀ p ∈ signatures, roleVerifies P bytes (key p.1) p.2 = .ok true := by
  intro signatures
  induction signatures with
  | nil => simp [rolesVerify]
  | cons p rest ih =>
    obtain ⟨role, signature⟩ := p
    rw [List.forall_mem_cons, ← ih]
    show (roleVerifies P bytes (key role) signature >>= fun ok =>
      if ok then rolesVerify P bytes key rest else return false) = _ ↔ _
    constructor
    · intro h
      obtain ⟨ok, hok, h⟩ := bind_eq_ok.mp h
      cases ok with
      | false => cases h
      | true => exact ⟨hok, h⟩
    · rintro ⟨hok, hrest⟩
      exact bind_eq_ok.mpr ⟨true, hok, hrest⟩

theorem mem_entries {sigs : C2spSignatures} {role : SignatureRole} {signature : C2spSignatureValue} :
    (role, signature) ∈ sigs.entries ↔ sigs.get role = some signature := by
  unfold C2spSignatures.entries
  rw [List.mem_filterMap]
  constructor
  · rintro ⟨role', -, h⟩
    obtain ⟨value, hvalue, heq⟩ := Option.map_eq_some_iff.mp h
    cases heq
    exact hvalue
  · intro h
    exact ⟨role, by cases role <;> simp, by rw [h]; rfl⟩

theorem hasAllRoleSignatures_true {bytes : Bytes} {entityKey operationalKey : Option DnsIdJWK} :
    hasAllRoleSignatures P bytes entityKey operationalKey = .ok true ↔
      ∃ envelope sigs, P.jsonParse bytes = some envelope ∧
        parseC2spSignatures (envelope.get? "sigs") ((envelope.text? "type").getD "") = .ok sigs ∧
        RolesVerify P bytes (roleKey envelope entityKey operationalKey) sigs := by
  unfold hasAllRoleSignatures
  constructor
  · intro h
    obtain h | h := catchUnlessResource_ok h
    · unfold checkRoleSignatures at h
      obtain ⟨envelope, henvelope, h⟩ := bind_eq_ok.mp h
      obtain ⟨sigs, hsigs, h⟩ := bind_eq_ok.mp h
      refine ⟨envelope, sigs, orThrow_eq_ok.mp henvelope, hsigs, fun role signature hget => ?_⟩
      exact roleVerifies_true.mp (rolesVerify_true.mp h (role, signature) (mem_entries.mpr hget))
    · cases h
  · rintro ⟨envelope, sigs, henvelope, hsigs, hverify⟩
    have hcheck : checkRoleSignatures P bytes entityKey operationalKey = .ok true := by
      refine bind_eq_ok.mpr ⟨envelope, orThrow_eq_ok.mpr henvelope, bind_eq_ok.mpr ⟨sigs, hsigs, ?_⟩⟩
      apply rolesVerify_true.mpr
      rintro ⟨role, signature⟩ hmem
      exact roleVerifies_true.mpr (hverify role signature (mem_entries.mp hmem))
    rw [hcheck]
    rfl

/-! ## Reading -/

theorem readEntry_ok {bytes : Bytes} {obj : Json} (h : readEntry P bytes = .ok obj) :
    P.parseJsonNoDuplicateMembers bytes = .ok obj ∧ P.canonicalBytes obj = .ok bytes := by
  unfold readEntry at h
  obtain ⟨_, _, h⟩ := bind_eq_ok.mp h
  obtain ⟨obj', hparse, h⟩ := bind_eq_ok.mp h
  obtain ⟨_, hcanonical, h⟩ := bind_eq_ok.mp h
  obtain rfl := pure_eq_ok.mp h
  unfold assertCanonicalJsonBytes at hcanonical
  obtain ⟨want, hwant, hcanonical⟩ := bind_eq_ok.mp hcanonical
  rw [throwIf_eq_ok, not_not] at hcanonical
  exact ⟨hparse, by rw [hcanonical]; exact hwant⟩

/-- An envelope that names a domain. -/
structure Envelope (P : Platform Bytes) (bytes : Bytes) (obj : Json) (authorization : C2spAuthorization) :
    Prop where
  read : readEntry P bytes = .ok obj
  object : ∃ members, obj = .obj members
  type : obj.get? "type" = some (.str authorization.type.name)

theorem parseC2spAuthorization_ok {bytes : Bytes} {context : C2spEventContext}
    {authorization : C2spAuthorization}
    (h : parseC2spAuthorization P bytes context = .ok authorization) :
    ∃ obj, Envelope P bytes obj authorization := by
  unfold parseC2spAuthorization at h
  obtain ⟨obj, hread, h⟩ := bind_eq_ok.mp h
  obtain ⟨_, _, h⟩ := bind_eq_ok.mp h
  obtain ⟨members, hobject, h⟩ := bind_eq_ok.mp h
  obtain ⟨_, _, h⟩ := bind_eq_ok.mp h
  obtain ⟨typeName, htype, h⟩ := bind_eq_ok.mp h
  obtain ⟨type, hname, h⟩ := bind_eq_ok.mp h
  obtain ⟨_, _, h⟩ := bind_eq_ok.mp h
  obtain ⟨_, _, h⟩ := bind_eq_ok.mp h
  obtain ⟨_, _, hresult⟩ := bind_eq_ok.mp h
  obtain rfl := pure_eq_ok.mp hresult
  have hobj := Option.some.inj (asObject_ok.mp hobject)
  refine ⟨obj, hread, ⟨members, hobj⟩, ?_⟩
  rw [(asString_ok.mp htype).1, ofName?_eq (orThrow_eq_ok.mp hname)]

/-- Every entry that names the domain is looked at, with the members of its own envelope. -/
theorem prepare_of_authorization {domain : String} {context : C2spEventContext} {bytes : Bytes}
    {authorization : C2spAuthorization}
    (h : parseC2spAuthorization P bytes context = .ok authorization) (hdomain : authorization.domain = domain) :
    ∃ obj prepared, Envelope P bytes obj authorization ∧
      prepare P domain context bytes = .ok (some prepared) ∧
      ∀ name, name ≠ "sigs" → prepared.envelope.get? name = obj.get? name := by
  obtain ⟨obj, henvelope⟩ := parseC2spAuthorization_ok h
  obtain ⟨members, rfl⟩ := henvelope.object
  obtain ⟨hparse, hcanonical⟩ := readEntry_ok henvelope.read
  obtain ⟨signed, envelope, hsigned, hjson, hmembers⟩ := P.signed_envelope hparse hcanonical
  refine ⟨.obj members, ⟨signed, envelope⟩, henvelope, ?_, hmembers⟩
  have hread : readCandidate P domain context bytes = .ok (some ⟨signed, envelope⟩) := by
    refine bind_eq_ok.mpr ⟨authorization, h, ?_⟩
    rw [if_neg (not_not.mpr hdomain)]
    refine bind_eq_ok.mpr ⟨signed, bind_eq_ok.mpr ⟨.obj members, henvelope.read, hsigned⟩, ?_⟩
    exact bind_eq_ok.mpr ⟨envelope, orThrow_eq_ok.mpr hjson, rfl⟩
  rw [prepare, hread]
  rfl

/-- Two entries with one payload have the same members other than `sigs`. -/
theorem same_payload_members {bytes bytes' signed : Bytes} {members members' : List (String × Json)}
    (h : readEntry P bytes = .ok (.obj members)) (h' : readEntry P bytes' = .ok (.obj members'))
    (hsigned : signedC2spEntryBytes P bytes = .ok signed)
    (hsigned' : signedC2spEntryBytes P bytes' = .ok signed) {name : String} (hname : name ≠ "sigs") :
    (Json.obj members).get? name = (Json.obj members').get? name := by
  obtain ⟨hparse, hcanonical⟩ := readEntry_ok h
  obtain ⟨hparse', hcanonical'⟩ := readEntry_ok h'
  obtain ⟨payload, envelope, hpayload, hjson, hmembers⟩ := P.signed_envelope hparse hcanonical
  obtain ⟨payload', envelope', hpayload', hjson', hmembers'⟩ := P.signed_envelope hparse' hcanonical'
  have heq : signedC2spEntryBytes P bytes = .ok payload := bind_eq_ok.mpr ⟨_, h, hpayload⟩
  have heq' : signedC2spEntryBytes P bytes' = .ok payload' := bind_eq_ok.mpr ⟨_, h', hpayload'⟩
  obtain rfl := Except.ok.inj (hsigned.symm.trans heq)
  obtain rfl := Except.ok.inj (hsigned'.symm.trans heq')
  obtain rfl := Option.some.inj (hjson.symm.trans hjson')
  rw [← hmembers name hname, ← hmembers' name hname]

/-! ## Authority -/

theorem eventIdOf_eq {bytes signed : Bytes} (h : signedC2spEntryBytes P bytes = .ok signed) :
    eventIdOf P bytes = some (c2spEventId P signed) := by
  rw [eventIdOf, h]
  rfl

/-- The map of applied entries answers with the keys after the event that the ID names. -/
theorem AppliedFor.lookup {s : Identity} {events : List (VerifiedLifecycleEvent Bytes)}
    {applied : List (String × AppliedEntry Bytes)} (h : AppliedFor P s events applied) (id : String) :
    (applied.lookup id).map (fun a => (a.entityKey, a.operationalKey)) =
      (namedPosition P events id).map fun k =>
        (some s.entityKey, some (identityAt s events (k + 1)).operationalKey) := by
  induction h with
  | nil s => rfl
  | @cons s item signed rest applied hsigned _ ih =>
    unfold namedPosition at ih ⊢
    rw [List.lookup_cons, List.findIdx?_cons]
    by_cases hid : id = c2spEventId P signed
    · subst hid
      rw [eventIdOf_eq hsigned]
      simp [identityAt, eventsOf, Identity.after]
    · have hne : ¬ some (c2spEventId P signed) = some id := fun heq => hid (Option.some.inj heq).symm
      rw [eventIdOf_eq hsigned, beq_false_of_ne hid, decide_eq_false hne]
      simp only [Bool.false_eq_true, ↓reduceIte, ih, Option.map_map]
      rw [Identity.apply_entityKey]
      rfl

end Proof

end Dnsid.Stream

import Dnsid.Events.ParseErrors
import Dnsid.Stream.Cutoff

/-! # Unauthenticated entries have no veto

Anyone can append an entry that names the domain. An entry of which one role signature verifies under no key
of the stream is passed over wherever it stands, so verification answers as if it were not there. The one
exception is a MIGRATION before genesis whose prior history cannot be verified, which ends verification.
-/
namespace Dnsid.Stream
open Dnsid.Foundations Dnsid.Events
open Dnsid.Checkpoint (IndexedEntry sortByIndex)
open scoped List
set_option autoImplicit false

section Definitions
variable {Bytes : Type} [DecidableEq Bytes] (P : Platform Bytes)

/-- The keys that the loop has recorded: the entity key and every operational key so far. -/
def Selection.keys (st : Selection Bytes) : List DnsIdJWK :=
  st.entityKey.toList ++ st.activeOperationalKey.toList ++
    st.appliedEntries.flatMap fun a => a.2.entityKey.toList ++ a.2.operationalKey.toList

/-- The keys that an envelope carries. -/
def embeddedKeys (envelope : Json) : List DnsIdJWK :=
  ["ek", "ku", "new_ku"].filterMap envelope.get?

/-- The entity key that the verified prior history of a MIGRATION gives. -/
def importedKeys (options : StreamVerifierOptions) (bytes : Bytes) : List DnsIdJWK :=
  match parseC2spEventEntry P bytes options.context with
  | .ok event => (genesisMigration options 0 event).toList.map MigrationVerificationResult.entityKey
  | .error _ => []

/-- A role signature of the entry verifies, under its own kid, with none of `keys` and none of the keys that
the entry embeds. An entry whose `sigs` are not those of its type is not signed at all. -/
def Unauthenticated (bytes : Bytes) (keys : List DnsIdJWK) : Prop :=
  ∀ obj typeName sigs, readEntry P bytes = .ok obj → obj.get? "type" = some (.str typeName) →
    parseC2spSignatures (obj.get? "sigs") typeName = .ok sigs →
    ∃ role signature, sigs.get role = some signature ∧ ∀ key ∈ keys ++ embeddedKeys obj,
      key.get? "kid" = some (.str signature.kid) → ¬ SignedBy P bytes signature.sig key

/-- The loop's variables when it comes to index `i`. -/
def selectBelow (domain : String) (options : StreamVerifierOptions)
    (entries : List (IndexedEntry Bytes)) (i : ℕ) : Except Thrown (Selection Bytes) :=
  ((sortByIndex entries).filter fun e => e.index < i).zipIdx.foldlM (streamStep P domain options) .initial

/-- A MIGRATION for the domain, to be taken as genesis, without a way to verify its prior history: there is no
callback, or the callback is asked and throws. -/
def HistoryUnverified (domain : String) (options : StreamVerifierOptions) (x : IndexedEntry Bytes) : Prop :=
  ∃ event, parseC2spEventEntry P x.bytes options.context = .ok event ∧ event.domain = domain ∧
    event.type = .migration ∧ (options.verifyMigration = none ∨ ∃ failure,
      verifyLifecycle P options (options.verifyMigration.map fun callback => callback 0)
        [candidateOf P x event] = .error failure ∧ failure.migrationVerificationFailed = true)

/-- The payload of the entry shares its logical ID with no other payload of the entries. -/
def CollisionFree (entries : List (IndexedEntry Bytes)) (x : IndexedEntry Bytes) : Prop :=
  ∀ e ∈ entries, ∀ signed signed', signedC2spEntryBytes P e.bytes = .ok signed →
    signedC2spEntryBytes P x.bytes = .ok signed' → c2spEventId P signed = c2spEventId P signed' →
    signed = signed'

end Definitions

section Proof
variable {Bytes : Type} [DecidableEq Bytes] {P : Platform Bytes}

/-! ## What the check of a genesis throws -/

/-- Only the callback, which is asked when `c` holds, can end verification by the class of its error. -/
def OwnHarmless {α : Type} (c : Prop) (x : Except LifecycleFailure α) : Prop :=
  ErrorsIn (fun failure => (failure.migrationVerificationFailed = true ∧ c) ∨
    failure.thrown.isResourceFailure = false) x

theorem OwnHarmless.ownThrow {α : Type} {c : Prop} {x : Except Thrown α} (h : Harmless x) :
    OwnHarmless c (ownThrow x) := by
  intro failure heq
  cases x with
  | ok a => cases heq
  | error thrown =>
    cases heq
    exact .inr (h thrown rfl)

theorem OwnHarmless.callbackThrow {α : Type} {c : Prop} (hc : c) (x : Except Thrown α) :
    OwnHarmless c (callbackThrow x) := by
  intro failure heq
  cases x with
  | ok a => cases heq
  | error thrown =>
    cases heq
    exact .inl ⟨rfl, hc⟩

theorem OwnHarmless.bind {α β : Type} {c : Prop} {x : Except LifecycleFailure α}
    {f : α → Except LifecycleFailure β} (hx : OwnHarmless c x) (hf : ∀ a, OwnHarmless c (f a)) :
    OwnHarmless c (x >>= f) := ErrorsIn.bind hx fun a _ => hf a

theorem verifyEventSignature_harmless {item : VerifiedLifecycleEvent Bytes} {signed : Bytes}
    (hsigned : signedC2spEntryBytes P item.bytes = .ok signed) (signature : String) (key : DnsIdJWK)
    (message : String) : Harmless (verifyEventSignature P item signature key message) := by
  unfold verifyEventSignature
  refine .bind (.of_eq_ok hsigned) fun _ => .bind (.orThrow rfl _) fun _ => ?_
  exact .throwIf rfl

theorem assertC2spIssuanceEvent_harmless (event : IssuanceEvent) :
    Harmless (assertC2spIssuanceEvent event) := by
  unfold assertC2spIssuanceEvent
  refine .bind (.orThrow rfl _) fun _ => .bind (.orThrow rfl _) fun _ => ?_
  refine .bind (.orThrow rfl _) fun _ => .bind (.orThrow rfl _) fun _ => ?_
  refine .bind (.orThrow rfl _) fun _ => .bind (.orThrow rfl _) fun _ => ?_
  exact .bind (.orThrow rfl _) fun _ => .bind (.orThrow rfl _) fun _ => .of_pure _

omit [DecidableEq Bytes] in
theorem assertIssuanceKeyMetadata_harmless (event : C2spIssuanceEvent) :
    Harmless (assertIssuanceKeyMetadata P event) := by
  unfold assertIssuanceKeyMetadata
  refine .bind (assertSupportedLifecycleJwk_harmless _ _) fun _ => ?_
  refine .bind (assertSupportedLifecycleJwk_harmless _ _) fun _ => ?_
  refine .bind (thumbprintOf_harmless _) fun _ => .bind (.throwIf rfl) fun _ => ?_
  refine .bind (thumbprintOf_harmless _) fun _ => .bind (.throwIf rfl) fun _ => ?_
  exact .bind (.throwIf rfl) fun _ => .throwIf rfl

omit [DecidableEq Bytes] in
theorem assertDistinctLifecycleKeys_harmless (entityKey operationalKey : DnsIdJWK) (type : LogEventType) :
    Harmless (assertDistinctLifecycleKeys P entityKey operationalKey type) :=
  .bind (thumbprintOf_harmless _) fun _ => .bind (thumbprintOf_harmless _) fun _ => .throwIf rfl

omit [DecidableEq Bytes] in
theorem assertTrustedEntity_harmless (signerKey : Option DnsIdJWK) (thumbprint : String)
    (type : LogEventType) : Harmless (assertTrustedEntity P signerKey thumbprint type) := by
  unfold assertTrustedEntity
  split
  · exact .of_ok _
  · exact .bind (thumbprintOf_harmless _) fun _ => .throwIf rfl

theorem assertEvent_harmless (options : StreamVerifierOptions) (event : LogEvent) :
    Harmless (assertEvent P options .initial event) := by
  unfold assertEvent
  refine .bind ?_ fun _ => .bind (.orThrow rfl _) fun _ => .bind (.throwIf rfl) fun _ => ?_
  · refine .bind (.throwIf rfl) fun _ => .bind (.throwIf rfl) fun _ => ?_
    exact .bind (.throwIf rfl) fun _ => .throwIf rfl
  · refine .bind (.orThrow rfl _) fun _ => .bind (.throwIf rfl) fun _ => .bind (.throwIf rfl) fun _ => ?_
    exact .bind (.bind (.throwIf rfl) fun _ => .throwIf rfl) fun _ => .orThrow rfl _

theorem issuanceStep_harmless {item : VerifiedLifecycleEvent Bytes} {signed : Bytes}
    (hsigned : signedC2spEntryBytes P item.bytes = .ok signed) (options : StreamVerifierOptions)
    (sig : String) (fields : IssuanceEvent) : Harmless (issuanceStep P options item sig fields) := by
  unfold issuanceStep
  refine .bind (assertC2spIssuanceEvent_harmless _) fun event => ?_
  refine .bind (assertIssuanceKeyMetadata_harmless _) fun _ => ?_
  refine .bind (assertDistinctLifecycleKeys_harmless _ _ _) fun _ => ?_
  refine .bind (assertTrustedEntity_harmless _ _ _) fun _ => ?_
  refine .bind (verifyEventSignature_harmless hsigned _ _ _) fun _ => .bind (.orThrow rfl _) fun _ => ?_
  exact .bind (verifyEventSignature_harmless hsigned _ _ _) fun _ => .of_pure _

theorem migratedStep_harmless {item : VerifiedLifecycleEvent Bytes} {signed : Bytes}
    (hsigned : signedC2spEntryBytes P item.bytes = .ok signed) (options : StreamVerifierOptions)
    (sig : String) (migrated : MigrationVerificationResult) :
    Harmless (migratedStep P options item sig migrated) := by
  unfold migratedStep
  refine .bind (assertSupportedLifecycleJwk_harmless _ _) fun _ => ?_
  refine .bind (assertSupportedLifecycleJwk_harmless _ _) fun _ => ?_
  refine .bind (assertDistinctLifecycleKeys_harmless _ _ _) fun _ => ?_
  refine .bind (thumbprintOf_harmless _) fun _ => .bind (assertTrustedEntity_harmless _ _ _) fun _ => ?_
  refine .bind (.throwIf rfl) fun _ => .bind (verifyEventSignature_harmless hsigned _ _ _) fun _ => ?_
  refine .bind ?_ fun _ => .of_pure _
  exact .bind (thumbprintOf_harmless _) fun _ => .bind (thumbprintOf_harmless _) fun _ => .of_pure _

theorem lifecycleStep_harmless {item : VerifiedLifecycleEvent Bytes} {signed : Bytes}
    (hsigned : signedC2spEntryBytes P item.bytes = .ok signed) (options : StreamVerifierOptions)
    (f : Option (LogEvent → Except Thrown MigrationVerificationResult)) :
    OwnHarmless (item.event.type = .migration) (lifecycleStep P options f .initial item) := by
  unfold lifecycleStep
  refine .bind (.ownThrow (assertEvent_harmless options _)) fun sig => ?_
  split
  · exact .ownThrow (issuanceStep_harmless hsigned options sig _)
  · next fields hb =>
    have htype : item.event.type = .migration := by
      rw [LogEvent.type, hb]
      rfl
    refine .bind (.ownThrow (.orThrow rfl _)) fun callback => .bind (.ownThrow (.throwIf rfl)) fun _ => ?_
    refine .bind (.callbackThrow htype _) fun migrated => ?_
    exact .ownThrow (migratedStep_harmless hsigned options sig migrated)
  · -- No key is established before the first event.
    exact .ownThrow (ErrorsIn.of_error rfl)

theorem verifyLifecycle_harmless {item : VerifiedLifecycleEvent Bytes} {signed : Bytes}
    (hsigned : signedC2spEntryBytes P item.bytes = .ok signed) (options : StreamVerifierOptions)
    (f : Option (LogEvent → Except Thrown MigrationVerificationResult)) :
    OwnHarmless (item.event.type = .migration) (verifyLifecycle P options f [item]) := by
  unfold verifyLifecycle
  refine .bind (.ownThrow (.throwIf rfl)) fun _ => .bind (.ownThrow (.throwIf rfl)) fun _ => ?_
  refine .bind ?_ fun _ => ErrorsIn.of_ok _
  rw [replay_singleton]
  exact lifecycleStep_harmless hsigned options f

/-! ## Reading and authenticating -/

theorem catchUnlessResource_harmless {α : Type} {fallback : α} {x : Except Thrown α} (h : Harmless x) :
    ∃ a, catchUnlessResource fallback x = .ok a := by
  cases x with
  | ok a => exact ⟨a, rfl⟩
  | error thrown =>
    refine ⟨fallback, ?_⟩
    rw [catchUnlessResource, if_neg (by rw [h thrown rfl]; decide)]

/-- Reading an entry never ends verification, unless by a limit of JSON parsing. -/
theorem prepare_harmless (domain : String) (context : C2spEventContext) {bytes : Bytes}
    (hread : Harmless (readEntry P bytes)) : ∃ prepared, prepare P domain context bytes = .ok prepared := by
  cases hauth : parseC2spAuthorization P bytes context with
  | error thrown =>
    apply catchUnlessResource_harmless
    have hthrown := parseC2spAuthorization_harmless hread context
    rw [hauth] at hthrown
    unfold readCandidate
    rw [hauth]
    intro thrown' heq
    cases heq
    exact hthrown thrown rfl
  | ok authorization =>
    by_cases hdomain : authorization.domain = domain
    · obtain ⟨obj, prepared, -, hprepared, -⟩ := prepare_of_authorization hauth hdomain
      exact ⟨some prepared, hprepared⟩
    · refine ⟨none, ?_⟩
      have hnone : readCandidate P domain context bytes = .ok none := by
        refine bind_eq_ok.mpr ⟨authorization, hauth, ?_⟩
        rw [if_pos hdomain]
        rfl
      rw [prepare, hnone]
      rfl

theorem rolesVerify_harmless {bytes signed : Bytes} (hsigned : signedC2spEntryBytes P bytes = .ok signed)
    (key : SignatureRole → Option DnsIdJWK) (signatures : List (SignatureRole × C2spSignatureValue)) :
    Harmless (rolesVerify P bytes key signatures) := by
  induction signatures with
  | nil => exact .of_ok _
  | cons p rest ih =>
    unfold rolesVerify
    refine .bind ?_ fun ok => ?_
    · unfold roleVerifies
      refine .bind (.orThrow rfl _) fun k => .bind (assertSupportedLifecycleJwk_harmless _ _) fun _ => ?_
      split
      · exact .of_pure _
      · exact .bind (.of_eq_ok hsigned) fun _ => .bind (.orThrow rfl _) fun _ => .of_pure _
    · split
      · exact ih
      · exact .of_pure _

theorem hasAllRoleSignatures_harmless {bytes signed : Bytes}
    (hsigned : signedC2spEntryBytes P bytes = .ok signed) (entityKey operationalKey : Option DnsIdJWK) :
    ∃ b, hasAllRoleSignatures P bytes entityKey operationalKey = .ok b := by
  apply catchUnlessResource_harmless
  refine .bind (.orThrow rfl _) fun envelope => .bind (parseC2spSignatures_harmless _ _) fun sigs => ?_
  exact rolesVerify_harmless hsigned _ _

omit [DecidableEq Bytes] in
theorem priorEntry_mem {st : Selection Bytes} {prepared : Prepared Bytes} {a : AppliedEntry Bytes}
    (h : priorEntry st prepared = some a) : ∃ id, (id, a) ∈ st.appliedEntries := by
  obtain ⟨id, -, hlookup⟩ := Option.bind_eq_some_iff.mp h
  obtain ⟨l₁, l₂, hsplit, -⟩ := List.lookup_eq_some_iff.mp hlookup
  exact ⟨id, by rw [hsplit]; simp⟩

omit [DecidableEq Bytes] in
/-- The authority of an entry is a recorded key. -/
theorem authority_mem {st : Selection Bytes} {prepared : Prepared Bytes} {key : DnsIdJWK}
    {field : AppliedEntry Bytes → Option DnsIdJWK} {current : Option DnsIdJWK}
    (h : ((priorEntry st prepared).bind field).or current = some key)
    (hfield : ∀ a, field a = some key → key ∈ a.entityKey.toList ++ a.operationalKey.toList)
    (hcurrent : current = some key → key ∈ st.entityKey.toList ++ st.activeOperationalKey.toList) :
    key ∈ st.keys := by
  unfold Selection.keys
  obtain hprior | ⟨-, hkey⟩ := Option.or_eq_some_iff.mp h
  · obtain ⟨a, ha, hkey⟩ := Option.bind_eq_some_iff.mp hprior
    obtain ⟨id, hmem⟩ := priorEntry_mem ha
    exact List.mem_append_right _ (List.mem_flatMap.mpr ⟨(id, a), hmem, hfield a hkey⟩)
  · exact List.mem_append_left _ (hcurrent hkey)

theorem mem_embeddedKeys {obj : Json} {name : String} {key : DnsIdJWK} (h : obj.get? name = some key)
    (hname : name = "ek" ∨ name = "ku" ∨ name = "new_ku") : key ∈ embeddedKeys obj := by
  unfold embeddedKeys
  rw [List.mem_filterMap]
  exact ⟨name, by simpa using hname, h⟩

/-- After genesis the loop does not take an unauthenticated entry for authenticated. -/
theorem Unauthenticated.not_all {bytes : Bytes} {keys : List DnsIdJWK} {st : Selection Bytes}
    {prepared : Prepared Bytes} {obj : Json} {authorization : C2spAuthorization}
    (h : Unauthenticated P bytes keys) (hkeys : ∀ key ∈ st.keys, key ∈ keys)
    (henvelope : Envelope P bytes obj authorization) :
    hasAllRoleSignatures P bytes (entityAuthority st prepared) (operationalAuthority st prepared) ≠
      .ok true := by
  intro htrue
  obtain ⟨envelope, sigs, hjson, hsigs, hverify⟩ := hasAllRoleSignatures_true.mp htrue
  obtain rfl := Option.some.inj (hjson.symm.trans (P.jsonParse_of_strict (readEntry_ok henvelope.read).1))
  rw [text?_eq.mpr henvelope.type] at hsigs
  obtain ⟨role, signature, hget, hnone⟩ := h envelope _ sigs henvelope.read henvelope.type hsigs
  obtain ⟨key, hkey, -, hkid, hsigned⟩ := hverify role signature hget
  refine hnone key (List.mem_append.mpr ?_) hkid hsigned
  cases role with
  | ae => exact .inl (hkeys key (authority_mem hkey (fun a ha => by simp [ha]) fun hst => by simp [hst]))
  | prevOp => exact .inl (hkeys key (authority_mem hkey (fun a ha => by simp [ha]) fun hst => by simp [hst]))
  | op => exact .inr (mem_embeddedKeys hkey (.inr (.inl rfl)))
  | newOp => exact .inr (mem_embeddedKeys hkey (.inr (.inr rfl)))

/-- An unauthenticated entry is no genesis. -/
theorem Unauthenticated.not_genesis {options : StreamVerifierOptions} {x : IndexedEntry Bytes}
    {keys : List DnsIdJWK} {event : LogEvent}
    (h : Unauthenticated P x.bytes keys) (hkeys : ∀ key ∈ importedKeys P options x.bytes, key ∈ keys)
    (hevent : parseC2spEventEntry P x.bytes options.context = .ok event) :
    verifyLifecycle P options (options.verifyMigration.map fun f => f 0) [candidateOf P x event] ≠
      .ok () := by
  intro hverify
  obtain ⟨-, -, replayed, hreplay⟩ := verifyLifecycle_ok.mp hverify
  rw [replay_singleton] at hreplay
  obtain ⟨s, hgenesis, -⟩ := lifecycleStep_genesis hreplay
  obtain ⟨obj, sigs, hparsed⟩ := parseC2spEventEntry_ok hevent
  have hgenesisKeys : GenesisKeys _ event s := hgenesis.keys
  have hroles : RolesSigned P (candidateOf P x event) s s := by
    apply rolesSigned_of_event hparsed hgenesis.signed
    · intro fields hb
      have hb' : event.body = .issuance fields := hb
      rwa [GenesisKeys, hb'] at hgenesisKeys
    · intro fields hb
      have htype := hgenesis.keys.type
      rw [LogEvent.type, hb] at htype
      exact absurd htype (by simp [EventBody.type])
  obtain ⟨obj', sigs', required, hread, hsigs, hrequired, hrole, hverified⟩ := hroles
  obtain rfl : obj' = obj := Except.ok.inj (hread.symm.trans hparsed.read)
  obtain rfl : sigs' = sigs := Except.ok.inj (hsigs.symm.trans hparsed.signatures)
  obtain ⟨role, signature, hget, hnone⟩ := h obj' _ sigs' hparsed.read hparsed.type hparsed.signatures
  obtain ⟨hkid, hsigned⟩ := hverified role signature hget
  refine hnone (roleAuthority s s role) (List.mem_append.mpr ?_) hkid hsigned
  cases hb : event.body with
  | issuance fields =>
    rw [GenesisKeys, hb] at hgenesisKeys
    have hissued := hparsed.recorded.issuance fields hb
    have hek := hissued.entityKey.symm.trans hgenesisKeys.1
    have hku := hissued.operationalKey.symm.trans hgenesisKeys.2
    cases role with
    | ae => exact .inr (mem_embeddedKeys hek (.inl rfl))
    | _ => exact .inr (mem_embeddedKeys hku (.inr (.inl rfl)))
  | migration fields =>
    have hae : role ∈ required := (hrole role).mpr ⟨signature, hget⟩
    rw [requiredC2spSignatureNames_type, show (candidateOf P x event).event.type = .migration by
      rw [LogEvent.type, candidateOf, hb]; rfl] at hrequired
    cases hrequired
    obtain rfl := List.mem_singleton.mp hae
    have hentity := (genesis_keys hgenesisKeys).1
    rw [genesisEntityKey, hb] at hentity
    obtain ⟨result, hresult, hkey⟩ := Option.map_eq_some_iff.mp hentity
    refine .inl (hkeys _ ?_)
    simp [importedKeys, hevent, hresult, roleAuthority, hkey]
  | _ =>
    rw [GenesisKeys, hb] at hgenesisKeys
    exact hgenesisKeys.elim

/-! ## One turn -/

/-- A candidate that fails as genesis does not end verification. -/
theorem genesisFailure_none {domain : String} {options : StreamVerifierOptions} {x : IndexedEntry Bytes}
    {event : LogEvent} {signed : Bytes} {failure : LifecycleFailure}
    (hevent : parseC2spEventEntry P x.bytes options.context = .ok event) (hdomain : event.domain = domain)
    (hsigned : signedC2spEntryBytes P x.bytes = .ok signed)
    (hmigration : ¬ HistoryUnverified P domain options x)
    (hfailure : verifyLifecycle P options (options.verifyMigration.map fun f => f 0)
      [candidateOf P x event] = .error failure) : genesisFailure options event.type failure = none := by
  have hcallback : event.type = .migration → failure.migrationVerificationFailed ≠ true :=
    fun htype hfailed => hmigration ⟨event, hevent, hdomain, htype, .inr ⟨failure, hfailure, hfailed⟩⟩
  unfold genesisFailure
  have hitem : signedC2spEntryBytes P (candidateOf P x event).bytes = .ok signed := hsigned
  obtain ⟨hfailed, htype⟩ | hresource := verifyLifecycle_harmless hitem options _ failure hfailure
  · exact absurd hfailed (hcallback htype)
  · rw [if_neg (by rw [hresource]; decide), if_neg]
    rintro ⟨htype, hnone | hfailed⟩
    · exact hmigration ⟨event, hevent, hdomain, htype, .inl (Option.isNone_iff_eq_none.mp hnone)⟩
    · exact hcallback htype hfailed

/-- An unauthenticated entry is passed over. -/
theorem streamStep_unauthenticated {domain : String} {options : StreamVerifierOptions}
    {st : Selection Bytes} {x : IndexedEntry Bytes} (hread : Harmless (readEntry P x.bytes))
    (hcollision : ∀ id a signed, st.appliedEntries.lookup id = some a →
      signedC2spEntryBytes P x.bytes = .ok signed → id = c2spEventId P signed → a.signed = signed)
    (hunauthenticated : Unauthenticated P x.bytes (st.keys ++ importedKeys P options x.bytes))
    (hmigration : st.selected = [] → ¬ HistoryUnverified P domain options x) :
    streamStep P domain options st (x, 0) = .ok st := by
  obtain ⟨prepared, hprepared⟩ := prepare_harmless domain options.context hread
  unfold streamStep
  rw [hprepared]
  cases prepared with
  | none => rfl
  | some prepared =>
    have hentry := prepare_some hprepared
    obtain ⟨authorization, hauth, hdomain⟩ := hentry.authorization
    obtain ⟨obj, henvelope⟩ := parseC2spAuthorization_ok hauth
    simp only [candidateStep]
    split
    · next a hlookup =>
      rw [if_neg (not_not.mpr (hcollision _ a _ hlookup hentry.signed rfl))]
    · split
      · next hempty =>
        unfold genesisStep
        split
        · next thrown hthrown =>
          rw [if_neg (by rw [parseC2spEventEntry_harmless hread options.context thrown hthrown]; decide)]
        · next event hevent =>
          rw [if_neg (not_not.mpr (hentry.event_domain hevent))]
          unfold tryGenesis
          split
          · next hverify =>
            refine absurd hverify (hunauthenticated.not_genesis ?_ hevent)
            exact fun key hkey => List.mem_append_right _ hkey
          · next failure hfailure =>
            rw [genesisFailure_none hevent (hentry.event_domain hevent) hentry.signed (hmigration hempty)
              hfailure]
      · unfold continueStep
        obtain ⟨b, hb⟩ := hasAllRoleSignatures_harmless hentry.signed (entityAuthority st prepared)
          (operationalAuthority st prepared)
        cases b with
        | false => rw [hb]
        | true =>
          refine absurd hb (hunauthenticated.not_all ?_ henvelope)
          exact fun key hkey => List.mem_append_left _ hkey

/-! ## The theorem -/

theorem CollisionFree.applied {domain : String} {options : StreamVerifierOptions}
    {entries turns : List (IndexedEntry Bytes)} {st : Selection Bytes} {x : IndexedEntry Bytes}
    (h : CollisionFree P entries x) (hsub : ∀ e ∈ turns, e ∈ entries)
    (hrun : turns.zipIdx.foldlM (streamStep P domain options) .initial = .ok st) (id : String)
    (a : AppliedEntry Bytes) (signed : Bytes) (hlookup : st.appliedEntries.lookup id = some a)
    (hsigned : signedC2spEntryBytes P x.bytes = .ok signed) (hid : id = c2spEventId P signed) :
    a.signed = signed := by
  have hinv : SelectionInv P domain options st :=
    foldlM_invariant _ _ _ (fun e _ st st' hst hstep => hst.step hstep) (.inl rfl) hrun
  obtain rfl | ⟨s, hselected⟩ := hinv
  · cases hlookup
  · obtain ⟨item, hitem, hpayload, rfl⟩ := hselected.applied.signed hlookup
    obtain ⟨more, heq, hmore⟩ := selected_grows hrun
    rw [List.zipIdx_map_fst] at hmore
    rw [heq] at hitem
    have hentry : entryOf item ∈ turns := hmore.subset (List.mem_map_of_mem hitem)
    exact h _ (hsub _ hentry) a.signed signed hpayload hsigned hid

theorem CollisionFree.of_ids {entries : List (IndexedEntry Bytes)} {x : IndexedEntry Bytes}
    (h : ∀ e ∈ entries, eventIdOf P e.bytes ≠ eventIdOf P x.bytes) : CollisionFree P entries x := by
  intro e he signed signed' hsigned hsigned' hid
  refine absurd ?_ (h e he)
  rw [eventIdOf_eq hsigned, eventIdOf_eq hsigned', hid]

/-- An unauthenticated entry at an unused index does not change the answer of verification. -/
theorem verifyStreamLifecycle_ignores_unauthenticated (before after : List (IndexedEntry Bytes))
    (x : IndexedEntry Bytes) {domain : String} {options : StreamVerifierOptions}
    (hdet : Deterministic options) (hunused : ∀ e ∈ before ++ after, e.index ≠ x.index)
    (hlimits : withinInputLimits P (before ++ after) = true →
      withinInputLimits P (before ++ x :: after) = true)
    (hdepth : ∀ thrown, readEntry P x.bytes = .error thrown → thrown.isResourceFailure = false)
    (hcollision : CollisionFree P (before ++ after) x)
    (hunauthenticated : ∀ st, selectBelow P domain options (before ++ after) x.index = .ok st →
      Unauthenticated P x.bytes (st.keys ++ importedKeys P options x.bytes))
    (hmigration : ∀ st, selectBelow P domain options (before ++ after) x.index = .ok st →
      st.selected = [] → ¬ HistoryUnverified P domain options x) :
    verifyStreamLifecycle P (before ++ x :: after) domain options =
      verifyStreamLifecycle P (before ++ after) domain options := by
  obtain ⟨l₁, l₂, hwith, hwithout, hlow, hhigh⟩ :=
    sortByKey_insert IndexedEntry.index before after x hunused
  have hbelow : (sortByIndex (before ++ after)).filter (fun e => e.index < x.index) = l₁ := by
    rw [show sortByIndex (before ++ after) = l₁ ++ l₂ from hwithout, List.filter_append,
      List.filter_eq_self.mpr fun e he => decide_eq_true (hlow e he),
      List.filter_eq_nil_iff.mpr fun e he => by simpa using (hhigh e he).le, List.append_nil]
  have hmem : ∀ e ∈ l₁, e ∈ before ++ after := by
    intro e he
    have hsorted : e ∈ sortByKey IndexedEntry.index (before ++ after) := by
      rw [hwithout]
      exact List.mem_append_left l₂ he
    exact List.mem_mergeSort.mp hsorted
  have hselect : selectLifecycle P domain options (before ++ x :: after) =
      selectLifecycle P domain options (before ++ after) := by
    unfold selectLifecycle
    rw [foldlM_zipIdx hdet, foldlM_zipIdx hdet, show sortByIndex (before ++ after) = _ from hwithout,
      show sortByIndex (before ++ x :: after) = _ from hwith]
    -- The turn of `x` changes nothing in the state that the entries below it give.
    apply foldlM_insert
    intro st hrun
    rw [← foldlM_zipIdx hdet _ 0] at hrun
    have hreached : selectBelow P domain options (before ++ after) x.index = .ok st := by
      rw [selectBelow, hbelow]
      exact hrun
    exact streamStep_unauthenticated hdepth (hcollision.applied hmem hrun)
      (hunauthenticated st hreached) (hmigration st hreached)
  have hwithin : withinInputLimits P (before ++ x :: after) = withinInputLimits P (before ++ after) := by
    rw [Bool.eq_iff_iff]
    refine ⟨withinInputLimits_subperm (List.Sublist.subperm ?_), hlimits⟩
    exact (List.Sublist.refl before).append (List.sublist_cons_self x after)
  unfold verifyStreamLifecycle
  rw [hselect, hwithin]

end Proof

/-! ## Forged sample entries -/

/-- A revocation that names the entity's kid and is signed with another key. -/
def sampleForgedRevocation : Json :=
  sampleEntry "REVOCATION" 1 (("reason", .str "superseded") ::
    sampleChain 1 "/ISSUANCE///" "//ACTIVE/O/") [("ae", "E", "M")]

def sampleForgedMigration : Json :=
  sampleEntry "MIGRATION" 1 [("prev_lr", .str "old"), ("new_lr", .str "lr"), ("prev_ref", .str "old@1"),
    ("seq", .num 0)] [("ae", "E", "M")]

/-- The keys recorded by the sample issuance did not sign the entry. -/
theorem sampleForged_unauthenticated (entry : Json) (type : String) (signature : C2spSignatureValue)
    (hread : (readEntry samplePlatform entry).toOption = some entry)
    (htype : entry.get? "type" = some (.str type))
    (hsigs : (parseC2spSignatures (entry.get? "sigs") type).toOption = some ⟨some signature, none, none, none⟩)
    (hembedded : embeddedKeys entry = [])
    (hforged : ∀ key ∈ [sampleKey "E" "E", sampleKey "O" "O"], samplePlatform.verifyWithKey
      (withoutSigs entry) (.str signature.sig) key = false)
    {keys : List DnsIdJWK} (hkeys : ∀ key ∈ keys, key ∈ [sampleKey "E" "E", sampleKey "O" "O"]) :
    Unauthenticated samplePlatform entry keys := by
  intro obj typeName sigs hobj htypeName hparsed
  obtain rfl : obj = entry := Except.ok.inj (hobj.symm.trans (toOption_eq_some.mp hread))
  obtain rfl : typeName = type := Json.str.inj (Option.some.inj (htypeName.symm.trans htype))
  obtain rfl := Except.ok.inj (hparsed.symm.trans (toOption_eq_some.mp hsigs))
  refine ⟨.ae, signature, rfl, fun key hkey _ hsigned => ?_⟩
  rw [hembedded, List.append_nil] at hkey
  obtain ⟨signed, bytes, hpayload, hbytes, hverify⟩ := hsigned
  have hpayload' : signedC2spEntryBytes samplePlatform obj = .ok (withoutSigs obj) :=
    bind_eq_ok.mpr ⟨obj, hobj, rfl⟩
  obtain rfl := Except.ok.inj (hpayload.symm.trans hpayload')
  cases hbytes
  rw [hforged key (hkeys key hkey)] at hverify
  cases hverify

theorem sampleIssuance_recorded {rest : List (IndexedEntry Json)} {i : ℕ} {st : Selection Json}
    (hsorted : (⟨1, sampleIssuance⟩ :: rest).Pairwise fun a b => a.index ≤ b.index)
    (hrest : ∀ e ∈ rest, i ≤ e.index)
    (h : selectBelow samplePlatform "a.example" sampleOptions (⟨1, sampleIssuance⟩ :: rest) i = .ok st) :
    ∀ key ∈ st.keys, key ∈ [sampleKey "E" "E", sampleKey "O" "O"] := by
  have hnone : rest.filter (fun e => e.index < i) = [] :=
    List.filter_eq_nil_iff.mpr fun e he => by simpa using hrest e he
  rw [selectBelow, sortByIndex_of_sorted hsorted, List.filter_cons, hnone] at h
  split at h
  · have hkeys : (List.foldlM (streamStep samplePlatform "a.example" sampleOptions) .initial
        (List.zipIdx [⟨1, sampleIssuance⟩])).toOption.map Selection.keys =
          some [sampleKey "E" "E", sampleKey "O" "O", sampleKey "E" "E", sampleKey "O" "O"] := by
      decide
    rw [h] at hkeys
    rw [Option.some.inj hkeys]
    simp
  · cases h
    simp [Selection.keys, Selection.initial]

/-- A forged revocation between two events of the sample stream is passed over. -/
theorem verifyStreamLifecycle_ignores_forged :
    verifyStreamLifecycle samplePlatform
      [⟨1, sampleIssuance⟩, ⟨4, sampleForgedRevocation⟩, ⟨5, sampleRotation⟩] "a.example" sampleOptions =
      .ok [sampleItem 1 sampleIssuance, sampleItem 5 sampleRotation] := by
  have hverified : verifyStreamLifecycle samplePlatform [⟨1, sampleIssuance⟩, ⟨5, sampleRotation⟩]
      "a.example" sampleOptions = .ok [sampleItem 1 sampleIssuance, sampleItem 5 sampleRotation] :=
    verifyStreamLifecycle_sorted (by decide) (by decide) (by decide +kernel)
  have himported : importedKeys samplePlatform sampleOptions sampleForgedRevocation = [] := by
    decide
  rw [← hverified]
  refine verifyStreamLifecycle_ignores_unauthenticated [⟨1, sampleIssuance⟩] [⟨5, sampleRotation⟩]
    ⟨4, sampleForgedRevocation⟩ (fun _ h => by cases h) (by decide) (by decide) ?_ ?_ ?_ ?_
  · intro thrown hthrown
    cases hthrown
  · exact CollisionFree.of_ids (by decide)
  · intro st hst
    rw [himported, List.append_nil]
    exact sampleForged_unauthenticated _ "REVOCATION" ⟨"E", "M-REVOCATION"⟩ (by decide)
      (by decide) (by decide) (by decide) (by decide)
      (sampleIssuance_recorded (by decide) (by decide) hst)
  · rintro st - - ⟨event, hevent, -, htype, -⟩
    have hrevocation : (parseC2spEventEntry samplePlatform sampleForgedRevocation
      sampleOptions.context).toOption.map LogEvent.type = some .revocation := by decide
    rw [hevent] at hrevocation
    rw [show event.type = .revocation from Option.some.inj hrevocation] at htype
    cases htype

-- The replay itself would refuse it.
example : (verifyLifecycle samplePlatform sampleOptions none
    [sampleItem 1 sampleIssuance, sampleItem 4 sampleForgedRevocation]).toOption = none := by
  decide +kernel

/-- A forged MIGRATION in front of the genesis ends verification when prior history cannot be verified. -/
theorem verifyStreamLifecycle_vetoed_by_migration :
    ¬ ∀ (before after : List (IndexedEntry Json)) (x : IndexedEntry Json),
      (∀ e ∈ before ++ after, e.index ≠ x.index) →
      (withinInputLimits samplePlatform (before ++ after) = true →
        withinInputLimits samplePlatform (before ++ x :: after) = true) →
      (∀ thrown, readEntry samplePlatform x.bytes = .error thrown → thrown.isResourceFailure = false) →
      CollisionFree samplePlatform (before ++ after) x →
      (∀ i st, selectBelow samplePlatform "a.example" sampleOptions (before ++ after) i = .ok st →
        Unauthenticated samplePlatform x.bytes st.keys) →
      ∀ events, verifyStreamLifecycle samplePlatform (before ++ x :: after) "a.example" sampleOptions =
        .ok events ↔
          verifyStreamLifecycle samplePlatform (before ++ after) "a.example" sampleOptions = .ok events := by
  intro hclaim
  have hverified : verifyStreamLifecycle samplePlatform [⟨1, sampleIssuance⟩] "a.example" sampleOptions =
      .ok [sampleItem 1 sampleIssuance] :=
    verifyStreamLifecycle_sorted (by decide) (by decide) (by decide)
  have hforged := (hclaim [] [⟨1, sampleIssuance⟩] ⟨0, sampleForgedMigration⟩ (by decide) (by decide)
    (fun thrown hthrown => by cases hthrown) (CollisionFree.of_ids (by decide)) ?_ _).mpr hverified
  · obtain ⟨-, st, s, hselect, -⟩ := verifyStreamLifecycle_ok hforged
    have hthrows : (List.foldlM (streamStep samplePlatform "a.example" sampleOptions) .initial
        (List.zipIdx [⟨0, sampleForgedMigration⟩, ⟨1, sampleIssuance⟩])).toOption = none := by
      decide
    rw [selectLifecycle, List.nil_append, sortByIndex_of_sorted (by decide)] at hselect
    rw [hselect] at hthrows
    cases hthrows
  · intro i st hst
    exact sampleForged_unauthenticated _ "MIGRATION" ⟨"E", "M-MIGRATION"⟩ (by decide)
      (by decide) (by decide) (by decide) (by decide)
      (sampleIssuance_recorded (by decide) (by simp) hst)

end Dnsid.Stream

import Dnsid.Events.CanonicalJson
import Dnsid.Foundations.StableSort
import Dnsid.Stream.SelectionInvariant

/-! # Accepted lifecycles are well formed

`WellFormedLifecycle` is the shape of a lifecycle in the terms of the identity alone: positions, chain, times
and the authority behind every role signature, against the identity that the earlier events give.
-/
namespace Dnsid.Stream
open Dnsid.Foundations Dnsid.Events
open Dnsid.Checkpoint (IndexedEntry sortByIndex)
open scoped List
set_option autoImplicit false

section Specification
variable {Bytes : Type} [DecidableEq Bytes] (P : Platform Bytes)

/-- The identity after the first `k` events. -/
def identityAt (genesis : Identity) (events : List (VerifiedLifecycleEvent Bytes)) (k : ℕ) : Identity :=
  genesis.after (eventsOf (events.take k))

/-- The key that a role has to sign with, given the identities before and after the event. -/
def roleAuthority (before after : Identity) : SignatureRole → DnsIdJWK
  | .ae => after.entityKey
  | .op => after.operationalKey
  | .prevOp => before.operationalKey
  | .newOp => after.operationalKey

/-- The entry carries a signature for exactly the roles that its type requires, and each verifies, under its
own kid, with the key of that role. -/
def RolesSigned (item : VerifiedLifecycleEvent Bytes) (before after : Identity) : Prop :=
  ∃ obj sigs required, readEntry P item.bytes = .ok obj ∧
    parseC2spSignatures (obj.get? "sigs") item.event.type.name = .ok sigs ∧
    requiredC2spSignatureNames item.event.type.name = .ok required ∧
    (∀ role, role ∈ required ↔ ∃ signature, sigs.get role = some signature) ∧
    ∀ role signature, sigs.get role = some signature →
      (roleAuthority before after role).get? "kid" = some (.str signature.kid) ∧
        SignedBy P item.bytes signature.sig (roleAuthority before after role)

structure WellFormedLifecycle (domain : String) (options : StreamVerifierOptions) (genesis : Identity)
    (events : List (VerifiedLifecycleEvent Bytes)) : Prop where
  nonempty : events ≠ []
  ordered : events.Pairwise fun a b => a.index ≤ b.index
  domains : ∀ item ∈ events, item.event.domain = domain
  seq : ∀ (k : ℕ) item, events[k]? = some item → item.event.chain.seq = some (.num k)
  genesisFirst : ∀ (k : ℕ) item, events[k]? = some item →
    ((item.event.type = .issuance ∨ item.event.type = .migration) ↔ k = 0)
  genesisKeys : ∃ first pos, events[0]? = some first ∧ genesis.status = .active ∧
    GenesisKeys (options.verifyMigration.map fun callback => callback pos) first.event genesis
  chained : ∀ (k : ℕ) prev item, events[k]? = some prev → events[k + 1]? = some item →
    (∃ signed, signedC2spEntryBytes P prev.bytes = .ok signed ∧
      item.event.chain.prevEventId = some (.str (c2spEventId P signed))) ∧
    ∃ hash, (identityAt genesis events (k + 1)).HasStateHash P domain hash ∧
      item.event.chain.prevStateHash = some (.str hash)
  terminal : ∀ (k : ℕ) item, events[k]? = some item → isTerminal item.event.type = true →
    events.length = k + 1
  timely : ∀ item ∈ events, Timely options item.event
  signed : ∀ (k : ℕ) item, events[k]? = some item →
    RolesSigned P item (identityAt genesis events k) (identityAt genesis events (k + 1))
  entityKey : ∀ k, (identityAt genesis events k).entityKey = genesis.entityKey
  keysDistinct : DistinctKeys P genesis.entityKey genesis.operationalKey
  rotation : ∀ (k : ℕ) item, events[k]? = some item →
    ((identityAt genesis events (k + 1)).operationalKey ≠ (identityAt genesis events k).operationalKey →
      item.event.type = .keyRotation) ∧
    (item.event.type = .keyRotation →
      DistinctKeys P (identityAt genesis events k).operationalKey
          (identityAt genesis events (k + 1)).operationalKey ∧
        DistinctKeys P genesis.entityKey (identityAt genesis events (k + 1)).operationalKey)

end Specification

section Proof
variable {Bytes : Type} [DecidableEq Bytes] {P : Platform Bytes}

/-! ## Role signatures -/

theorem map_some_of_get {sigs : C2spSignatures} {role : SignatureRole} {signature : C2spSignatureValue}
    (h : sigs.get role = some signature) :
    (sigs.get role).map C2spSignatureValue.sig = some signature.sig ∧
      (sigs.get role).map C2spSignatureValue.kid = some signature.kid := by
  rw [h]
  exact ⟨rfl, rfl⟩

/-- The signatures that the replay checked are the signatures of the envelope. -/
theorem rolesSigned_of_event {item : VerifiedLifecycleEvent Bytes} {obj : Json} {sigs : C2spSignatures}
    {before after : Identity} (hparsed : Parsed P item.bytes item.event obj sigs)
    (hsigned : EventSigned P item.bytes item.event before after)
    (hissuance : ∀ fields, item.event.body = .issuance fields →
      fields.initialEntityPublicKey = some after.entityKey ∧
        fields.initialOperationalPublicKey = some after.operationalKey)
    (hrotation : ∀ fields, item.event.body = .keyRotation fields →
      fields.newOperationalPublicKey = after.operationalKey) :
    RolesSigned P item before after := by
  obtain ⟨required, hrequired, hroles⟩ := parseC2spSignatures_ok hparsed.signatures
  refine ⟨obj, sigs, required, hparsed.read, hparsed.signatures, hrequired, hroles, ?_⟩
  intro role signature hget
  have hrecorded := hparsed.recorded
  have hrole := (hroles role).mpr ⟨signature, hget⟩
  rw [requiredC2spSignatureNames_type] at hrequired
  obtain ⟨hsig, hkid⟩ := map_some_of_get hget
  unfold EventSigned at hsigned
  -- One case per kind of event; each role is compared with the member that the event keeps of it.
  cases hb : item.event.body with
  | issuance fields =>
    have htype : item.event.type = .issuance := by rw [LogEvent.type, hb]; rfl
    rw [hb] at hsigned
    rw [htype] at hrequired
    cases hrequired
    obtain ⟨⟨sig, hsigEq, hby⟩, counter, hcounterEq, hcounterBy⟩ := hsigned
    obtain ⟨hentity, hop⟩ := hissuance fields hb
    have hissued := hrecorded.issuance fields hb
    obtain rfl | rfl : role = .ae ∨ role = .op := by simpa using hrole
    · have heq := hrecorded.sig
      rw [htype, hsigEq] at heq
      have hsame := heq.trans hsig
      cases hsame
      refine ⟨text?_eq.mp ?_, hby⟩
      have hk := hissued.entityKid
      rw [← hissued.entityKey, hentity] at hk
      exact hk.symm.trans hkid
    · have hsame := hcounterEq.symm.trans (hissued.countersig.trans hsig)
      cases hsame
      refine ⟨text?_eq.mp ?_, hcounterBy⟩
      have hk := hissued.operationalKid
      rw [← hissued.operationalKey, hop] at hk
      exact hk.symm.trans hkid
  | keyRotation fields =>
    have htype : item.event.type = .keyRotation := by rw [LogEvent.type, hb]; rfl
    rw [hb] at hsigned
    rw [htype] at hrequired
    cases hrequired
    obtain ⟨⟨sig, hsigEq, hby⟩, ⟨proof, hproofEq, hproofBy⟩, hpreviousKid⟩ := hsigned
    have hrotated := hrecorded.rotation fields hb
    obtain rfl | rfl : role = .prevOp ∨ role = .newOp := by simpa using hrole
    · have heq := hrecorded.sig
      rw [htype, hsigEq] at heq
      have hsame := heq.trans hsig
      cases hsame
      refine ⟨?_, hby⟩
      show before.operationalKey.get? "kid" = _
      have hk := hrotated.previousKid
      rw [show sigs.prevOp.map C2spSignatureValue.kid = some signature.kid from hkid] at hk
      rw [← hpreviousKid, ← hk]
      rfl
    · have hsame := hproofEq.symm.trans (hrotated.proof.trans hsig)
      cases hsame
      refine ⟨text?_eq.mp ?_, hproofBy⟩
      have hk := hrotated.newKid
      rw [hrotation fields hb] at hk
      exact hk.symm.trans hkid
  | _ =>
    rw [hb] at hsigned
    obtain ⟨⟨sig, hsigEq, hby⟩, hkidEq⟩ := hsigned
    have hauthorizing : authorizingRole item.event.type = .ae := by
      rw [LogEvent.type, hb]
      rfl
    obtain rfl : role = .ae := by
      rw [LogEvent.type, hb] at hrequired
      cases hrequired
      exact List.mem_singleton.mp hrole
    have heq := hrecorded.sig
    rw [hauthorizing, hsigEq] at heq
    have hsame := heq.trans hsig
    cases hsame
    refine ⟨?_, hby⟩
    show after.entityKey.get? "kid" = _
    rw [← hkidEq, hrecorded.kid, hauthorizing, hkid]
    rfl

/-! ## Positions -/

/-- The event at position `k` of a continuation, with the event before it. -/
theorem Continues.getElem {options : StreamVerifierOptions} {domain : String}
    {prev : VerifiedLifecycleEvent Bytes} {s : Identity} {rest : List (VerifiedLifecycleEvent Bytes)}
    (h : Continues P options domain prev s rest) :
    ∀ (k : ℕ) item, rest[k]? = some item → ∃ before, (prev :: rest)[k]? = some before ∧
      Accepted P options domain before (s.after (eventsOf (rest.take k))) item := by
  induction h with
  | nil prev s =>
    intro k item hitem
    cases hitem
  | @cons prev item' s rest hhead _ ih =>
    intro k item hitem
    cases k with
    | zero =>
      cases hitem
      exact ⟨prev, rfl, hhead⟩
    | succ k =>
      obtain ⟨before, hbefore, haccepted⟩ := ih k item hitem
      exact ⟨before, hbefore, haccepted⟩

omit [DecidableEq Bytes] in
theorem identityAt_succ (genesis : Identity) {events : List (VerifiedLifecycleEvent Bytes)} {k : ℕ}
    {item : VerifiedLifecycleEvent Bytes} (h : events[k]? = some item) :
    identityAt genesis events (k + 1) = (identityAt genesis events k).apply item.event := by
  unfold identityAt
  rw [List.take_add_one, h, eventsOf_append, Identity.after_append]
  rfl

theorem nextSeq_nat (k : ℕ) {seq : Json} (h : nextSeq (some (.num k)) = some seq) :
    seq = .num ((k + 1 : ℕ) : ℚ) := by
  simp only [nextSeq] at h
  split at h
  · cases h
    push_cast
    rfl
  · cases h

theorem GenesisKeys.type {f : Option (LogEvent → Except Thrown MigrationVerificationResult)}
    {event : LogEvent} {s : Identity} (h : GenesisKeys f event s) :
    event.type = .issuance ∨ event.type = .migration := by
  unfold GenesisKeys at h
  cases hb : event.body <;> simp_all [LogEvent.type, EventBody.type]

/-- What a started selection says about each position: the genesis and the continuation in one place. -/
structure Positions (P : Platform Bytes) (domain : String) (options : StreamVerifierOptions)
    (s : Identity) (first : VerifiedLifecycleEvent Bytes) (rest : List (VerifiedLifecycleEvent Bytes)) :
    Prop where
  genesis : ∃ pos, GenesisAccepted P options (options.verifyMigration.map fun f => f pos) first s
  later : ∀ (k : ℕ) item, rest[k]? = some item → ∃ before, (first :: rest)[k]? = some before ∧
    Accepted P options domain before (identityAt s (first :: rest) (k + 1)) item

/-- The final replay of a started selection: the identity it begins with is that of the selection loop. -/
theorem Selected.replayed {domain : String} {options : StreamVerifierOptions} {s : Identity}
    {st : Selection Bytes} (h : Selected P domain options s st) :
    ∃ first rest replayed last, st.selected = first :: rest ∧
      GenesisAccepted P options (cachedMigration options st.migrationResult) first s ∧
      Continues P options domain first s rest ∧
      replay P options (cachedMigration options st.migrationResult) st.selected = .ok replayed ∧
      Tracks P domain last (s.after (eventsOf rest)) replayed := by
  obtain ⟨first, rest, pos, heq, hgenesis, hkeys⟩ := h.genesis
  obtain ⟨-, -, replayed, hreplay⟩ := verifyLifecycle_ok.mp h.verified
  have hdomain : ∀ item ∈ st.selected, item.event.domain = domain := fun item hitem =>
    (h.items item hitem).domain
  rw [heq] at hreplay hdomain
  obtain ⟨s', hgenesis', hcontinues, last, htracks⟩ := replay_genesis hdomain hreplay
  obtain rfl : s' = s := hgenesis'.keys.unique hkeys (hgenesis'.status.trans hgenesis.status.symm)
  exact ⟨first, rest, replayed, last, heq, hgenesis', hcontinues, by rw [heq]; exact hreplay, htracks⟩

theorem Selected.positions {domain : String} {options : StreamVerifierOptions} {s : Identity}
    {st : Selection Bytes} (h : Selected P domain options s st) :
    ∃ first rest, st.selected = first :: rest ∧ Positions P domain options s first rest := by
  obtain ⟨first, rest, pos, heq, hgenesis, hkeys⟩ := h.genesis
  obtain ⟨first', rest', -, -, heq', -, hcontinues, -, -⟩ := h.replayed
  obtain ⟨rfl, rfl⟩ := List.cons.inj (heq.symm.trans heq')
  refine ⟨first, rest, heq, ⟨pos, hgenesis⟩, ?_⟩
  intro k item hitem
  have hidentity : identityAt s (first :: rest) (k + 1) = s.after (eventsOf (rest.take k)) := by
    show (s.apply first.event).after (eventsOf (rest.take k)) = _
    rw [s.apply_genesis hkeys.type]
  rw [hidentity]
  exact hcontinues.getElem k item hitem

section Shape
variable {domain : String} {options : StreamVerifierOptions} {s : Identity}
  {first : VerifiedLifecycleEvent Bytes} {rest : List (VerifiedLifecycleEvent Bytes)}

theorem Positions.seq (h : Positions P domain options s first rest) :
    ∀ (k : ℕ) item, (first :: rest)[k]? = some item → item.event.chain.seq = some (.num k) := by
  intro k
  induction k with
  | zero =>
    intro item hitem
    cases hitem
    obtain ⟨pos, hgenesis⟩ := h.genesis
    exact hgenesis.seq
  | succ k ih =>
    intro item hitem
    obtain ⟨before, hbefore, haccepted⟩ := h.later k item hitem
    obtain ⟨seq, hnext, hseq⟩ := haccepted.seq
    rw [ih before hbefore] at hnext
    rw [hseq, nextSeq_nat k hnext]

theorem Positions.genesisFirst (h : Positions P domain options s first rest) (k : ℕ)
    {item : VerifiedLifecycleEvent Bytes} (hitem : (first :: rest)[k]? = some item) :
    (item.event.type = .issuance ∨ item.event.type = .migration) ↔ k = 0 := by
  cases k with
  | zero =>
    cases hitem
    obtain ⟨pos, hgenesis⟩ := h.genesis
    exact ⟨fun _ => rfl, fun _ => hgenesis.keys.type⟩
  | succ k =>
    obtain ⟨before, -, haccepted⟩ := h.later k item hitem
    constructor
    · intro htype
      exact absurd htype (not_or.mpr haccepted.type)
    · intro hk
      cases hk

theorem Positions.timely (h : Positions P domain options s first rest)
    {item : VerifiedLifecycleEvent Bytes} (hitem : item ∈ first :: rest) :
    Timely options item.event := by
  obtain ⟨k, hk⟩ := List.mem_iff_getElem?.mp hitem
  cases k with
  | zero =>
    cases hk
    obtain ⟨pos, hgenesis⟩ := h.genesis
    exact hgenesis.timely
  | succ k =>
    obtain ⟨before, -, haccepted⟩ := h.later k item hk
    exact haccepted.timely

theorem apply_terminal (s : Identity) {event : LogEvent} (h : isTerminal event.type = true) :
    (s.apply event).status ≠ .active := by
  unfold Identity.apply
  cases hb : event.body <;> simp_all [LogEvent.type, EventBody.type, isTerminal]

theorem Positions.terminal (h : Positions P domain options s first rest) (k : ℕ)
    {item : VerifiedLifecycleEvent Bytes} (hitem : (first :: rest)[k]? = some item)
    (hterminal : isTerminal item.event.type = true) : (first :: rest).length = k + 1 := by
  have hlt : k < (first :: rest).length := (List.getElem?_eq_some_iff.mp hitem).1
  by_contra hne
  have hnext : k < rest.length := by
    rw [List.length_cons] at hlt hne
    omega
  obtain ⟨before, -, haccepted⟩ := h.later k rest[k] (List.getElem?_eq_getElem hnext)
  rw [identityAt_succ s hitem] at haccepted
  exact apply_terminal _ hterminal haccepted.status

theorem Positions.signed (h : Positions P domain options s first rest)
    (hparsed : ∀ item ∈ first :: rest, SelectedItem P domain options item) (k : ℕ)
    {item : VerifiedLifecycleEvent Bytes} (hitem : (first :: rest)[k]? = some item) :
    RolesSigned P item (identityAt s (first :: rest) k) (identityAt s (first :: rest) (k + 1)) := by
  obtain ⟨obj, sigs, hp⟩ := parseC2spEventEntry_ok (hparsed item (List.mem_of_getElem? hitem)).parsed
  rw [identityAt_succ s hitem]
  cases k with
  | zero =>
    cases hitem
    obtain ⟨pos, hgenesis⟩ := h.genesis
    rw [show identityAt s (first :: rest) 0 = s from rfl, s.apply_genesis hgenesis.keys.type]
    apply rolesSigned_of_event hp hgenesis.signed
    · intro fields hb
      have hkeys := hgenesis.keys
      rw [GenesisKeys, hb] at hkeys
      exact hkeys
    · intro fields hb
      have htype := hgenesis.keys.type
      rw [LogEvent.type, hb] at htype
      exact absurd htype (by simp [EventBody.type])
  | succ k =>
    obtain ⟨before, -, haccepted⟩ := h.later k item hitem
    apply rolesSigned_of_event hp haccepted.signed
    · intro fields hb
      exact absurd (by rw [LogEvent.type, hb]; rfl) haccepted.type.1
    · intro fields hb
      rw [Identity.apply, hb]

theorem Positions.rotation (h : Positions P domain options s first rest) (k : ℕ)
    {item : VerifiedLifecycleEvent Bytes} (hitem : (first :: rest)[k]? = some item)
    (htype : item.event.type = .keyRotation) :
    DistinctKeys P (identityAt s (first :: rest) k).operationalKey
        (identityAt s (first :: rest) (k + 1)).operationalKey ∧
      DistinctKeys P s.entityKey (identityAt s (first :: rest) (k + 1)).operationalKey := by
  cases k with
  | zero =>
    have hgenesis := (h.genesisFirst 0 hitem).mpr rfl
    rw [htype] at hgenesis
    exact absurd hgenesis (by decide)
  | succ k =>
    obtain ⟨before, -, haccepted⟩ := h.later k item hitem
    rw [identityAt_succ s hitem]
    cases hb : item.event.body with
    | keyRotation fields =>
      have hrotation := haccepted.rotation fields hb
      have hentity : (identityAt s (first :: rest) (k + 1)).entityKey = s.entityKey :=
        Identity.after_entityKey s _
      rw [Identity.apply, hb]
      refine ⟨⟨_, _, hrotation.previous, hrotation.thumbprint, hrotation.notActive.symm⟩, ?_⟩
      rw [← hentity]
      exact hrotation.notEntity
    | _ =>
      rw [LogEvent.type, hb] at htype
      cases htype

end Shape

/-! ## Indexes -/

omit [DecidableEq Bytes] in
theorem sortByIndex_pairwise (entries : List (IndexedEntry Bytes)) :
    (sortByIndex entries).Pairwise fun a b => a.index ≤ b.index :=
  sortByKey_pairwise IndexedEntry.index entries

omit [DecidableEq Bytes] in
theorem sortByIndex_map_perm (entries : List (IndexedEntry Bytes)) :
    ((sortByIndex entries).map IndexedEntry.index).Perm (entries.map IndexedEntry.index) :=
  (List.mergeSort_perm entries _).map _

omit [DecidableEq Bytes] in
theorem sortByIndex_strict {entries : List (IndexedEntry Bytes)}
    (hnodup : (entries.map IndexedEntry.index).Nodup) :
    (sortByIndex entries).Pairwise fun a b => a.index < b.index := by
  have hne := (sortByIndex_map_perm entries).nodup_iff.mpr hnodup
  rw [List.Nodup, List.pairwise_map] at hne
  exact ((sortByIndex_pairwise entries).and hne).imp fun hab => lt_of_le_of_ne hab.1 hab.2

theorem selected_indexes {domain : String} {options : StreamVerifierOptions}
    {entries : List (IndexedEntry Bytes)} {st : Selection Bytes}
    (h : selectLifecycle P domain options entries = .ok st) :
    (st.selected.Pairwise fun a b => a.index ≤ b.index) ∧
      ((entries.map IndexedEntry.index).Nodup → st.selected.Pairwise fun a b => a.index < b.index) := by
  have hsub := selected_sublist h
  have hle := (sortByIndex_pairwise entries).sublist hsub
  rw [List.pairwise_map] at hle
  refine ⟨hle, fun hnodup => ?_⟩
  have hnodup' := ((sortByIndex_map_perm entries).nodup_iff.mpr hnodup).sublist
    (hsub.map IndexedEntry.index)
  rw [List.map_map, List.Nodup, List.pairwise_map] at hnodup'
  exact (hle.and hnodup').imp fun hab => lt_of_le_of_ne hab.1 hab.2

theorem selected_wellFormed {entries : List (IndexedEntry Bytes)} {domain : String} {options : StreamVerifierOptions}
    {st : Selection Bytes} {s : Identity} (hselect : selectLifecycle P domain options entries = .ok st)
    (hselected : Selected P domain options s st) : WellFormedLifecycle P domain options s st.selected := by
  obtain ⟨hordered, -⟩ := selected_indexes hselect
  obtain ⟨first, rest, heq, hpositions⟩ := hselected.positions
  have hitems := hselected.items
  rw [heq] at hordered hitems ⊢
  obtain ⟨pos, hgenesis⟩ := hpositions.genesis
  refine
    { nonempty := List.cons_ne_nil _ _
      ordered := hordered
      domains := fun item hitem => (hitems item hitem).domain
      seq := hpositions.seq
      genesisFirst := fun k item hitem => hpositions.genesisFirst k hitem
      genesisKeys := ⟨first, pos, rfl, hgenesis.status, hgenesis.keys⟩
      chained := ?_
      terminal := fun k item hitem => hpositions.terminal k hitem
      timely := fun item hitem => hpositions.timely hitem
      signed := fun k item hitem => hpositions.signed hitems k hitem
      entityKey := fun k => Identity.after_entityKey s _
      keysDistinct := hgenesis.distinct
      rotation := ?_ }
  · intro k prev item hprev hitem
    obtain ⟨before, hbefore, haccepted⟩ := hpositions.later k item hitem
    obtain rfl := Option.some.inj (hbefore.symm.trans hprev)
    exact ⟨haccepted.prevEventId, haccepted.prevStateHash⟩
  · intro k item hitem
    refine ⟨?_, hpositions.rotation k hitem⟩
    intro hchanged
    by_contra htype
    rw [identityAt_succ s hitem] at hchanged
    exact hchanged (Identity.apply_operationalKey _ htype)

/-- Every lifecycle that `verifyStreamLifecycle` returns is well formed. Entries with distinct indexes give
strictly increasing indexes; entries that share an index are applied in input order. -/
theorem verifyStreamLifecycle_wellFormed {entries : List (IndexedEntry Bytes)} {domain : String}
    {options : StreamVerifierOptions} {events : List (VerifiedLifecycleEvent Bytes)}
    (h : verifyStreamLifecycle P entries domain options = .ok events) :
    (∃ genesis, WellFormedLifecycle P domain options genesis events) ∧
      ((entries.map IndexedEntry.index).Nodup → events.Pairwise fun a b => a.index < b.index) := by
  obtain ⟨-, st, s, hselect, rfl, hselected⟩ := verifyStreamLifecycle_ok h
  exact ⟨⟨s, selected_wellFormed hselect hselected⟩, (selected_indexes hselect).2⟩

end Proof

/-! ## A sample platform and stream

Bytes are JSON values, a signature is the signing key's `x` with the type it signs, a digest keeps the
members in which the sample payloads and states differ.
-/

def sampleDigest (value : Json) : String :=
  ["type", "status", "operational_thumb", "note"].foldl
    (fun text name => text ++ "/" ++ (value.text? name).getD "") ""

def samplePlatform : Platform Json where
  byteLength _ := 1
  parseJsonNoDuplicateMembers := .ok
  canonicalBytes := .ok
  jsonParse := some
  normalizeFQDN := some
  fromBase64Url text := some (.str text)
  labelledHash label value := label ++ sampleDigest value
  leafHash := id
  verifyWithKey signed signature key :=
    signature = .str ((key.text? "x").getD "" ++ "-" ++ (signed.text? "type").getD "")
  jwkThumbprint key := key.text? "x"
  materialHash members := (members.lookup "x").getD ""
  stringOf _ := ""
  jsonParse_of_strict h := by
    cases h
    rfl
  signed_envelope := by
    intro bytes members _ _
    refine ⟨_, _, rfl, rfl, fun name hname => ?_⟩
    exact withoutSigs_get? members hname

def sampleKey (x kid : String) : DnsIdJWK :=
  .obj [("alg", .str "EdDSA"), ("crv", .str "Ed25519"), ("kid", .str kid), ("kty", .str "OKP"),
    ("x", .str x)]

/-- An envelope with the sample binding; `signers` lists role, kid and key. -/
def sampleEntry (type : String) (ts : ℚ) (members : List (String × Json))
    (signers : List (String × String × String)) : Json :=
  .obj ([("v", .num 1), ("kind", .str "dnsid.lifecycle"), ("type", .str type),
    ("fqdn", .str "a.example"), ("ts", .num ts), ("method", .str "c2sp-tlog"),
    ("log_origin", .str "log"), ("stream_id", .str "s"), ("lr", .str "lr")] ++ members ++
    [("sigs", .obj (signers.map fun signer =>
      (signer.1, .obj [("kid", .str signer.2.1), ("sig", .str (signer.2.2 ++ "-" ++ type))])))])

/-- Entity key `E`, operational key `O`. -/
def sampleIssuance : Json :=
  sampleEntry "ISSUANCE" 1 [("gi", .str "gi"), ("ek", sampleKey "E" "E"), ("ku", sampleKey "O" "O"),
    ("seq", .num 0)] [("ae", "E", "E"), ("op", "O", "O")]

def sampleChain (seq : ℚ) (previous state : String) : List (String × Json) :=
  [("seq", .num seq), ("prev_event_id", .str ("dnsid-c2sp-event-v1\x00" ++ previous)),
    ("prev_state_hash", .str ("dnsid-c2sp-state-v1" ++ state))]

/-- `O` is replaced by `N`. -/
def sampleRotation : Json :=
  sampleEntry "KEY_ROTATION" 1 ([("prev_thumb", .str "O"), ("new_ku", sampleKey "N" "N"),
    ("new_thumb", .str "N")] ++ sampleChain 1 "/ISSUANCE///" "//ACTIVE/O/")
    [("prev_op", "O", "O"), ("new_op", "N", "N")]

def sampleRevocation : Json :=
  sampleEntry "REVOCATION" 1 (("reason", .str "superseded") ::
    sampleChain 1 "/ISSUANCE///" "//ACTIVE/O/") [("ae", "E", "E")]

def sampleOptions : StreamVerifierOptions :=
  ⟨⟨some "log", some "s", some "lr"⟩, none, some 1000, none⟩

theorem sortByIndex_of_sorted {Bytes : Type} {entries : List (IndexedEntry Bytes)}
    (h : entries.Pairwise fun a b => a.index ≤ b.index) : sortByIndex entries = entries :=
  List.mergeSort_of_pairwise (h.imp fun hab => by simpa using hab)

/-- The verdict on entries in index order, with the sorting done. -/
theorem verifyStreamLifecycle_sorted {entries : List (IndexedEntry Json)} {domain : String}
    {options : StreamVerifierOptions} {events : List (VerifiedLifecycleEvent Json)}
    (hsorted : entries.Pairwise fun a b => a.index ≤ b.index)
    (hlimits : withinInputLimits samplePlatform entries = true)
    (h : (entries.zipIdx.foldlM (streamStep samplePlatform domain options) .initial >>= fun st => do
      thrownOf (verifyLifecycle samplePlatform options (cachedMigration options st.migrationResult)
        st.selected)
      return st.selected).toOption = some events) :
    verifyStreamLifecycle samplePlatform entries domain options = .ok events := by
  rw [verifyStreamLifecycle, selectLifecycle, sortByIndex_of_sorted hsorted, hlimits]
  exact toOption_eq_some.mp h

def sampleItem (index : ℕ) (entry : Json) : VerifiedLifecycleEvent Json :=
  ⟨index, entry, entry, ((parseC2spEventEntry samplePlatform entry sampleOptions.context).toOption).getD
    (envelopeEvent 0 "" none (parseChainFields .null) .retirement)⟩

theorem verifyStreamLifecycle_wellFormed_rotation :
    (∃ genesis, WellFormedLifecycle samplePlatform "a.example" sampleOptions genesis
      [sampleItem 3 sampleIssuance, sampleItem 5 sampleRotation]) ∧
    [sampleItem 3 sampleIssuance, sampleItem 5 sampleRotation].Pairwise fun a b => a.index < b.index := by
  have hverified : verifyStreamLifecycle samplePlatform [⟨3, sampleIssuance⟩, ⟨5, sampleRotation⟩]
      "a.example" sampleOptions = .ok [sampleItem 3 sampleIssuance, sampleItem 5 sampleRotation] :=
    verifyStreamLifecycle_sorted (by decide) (by decide) (by decide +kernel)
  obtain ⟨hwellFormed, hstrict⟩ := verifyStreamLifecycle_wellFormed hverified
  exact ⟨hwellFormed, hstrict (by decide)⟩

/-- Two entries that share index 0 are both applied. -/
theorem verifyStreamLifecycle_shared_index :
    ¬ ∀ (entries : List (IndexedEntry Json)) (events : List (VerifiedLifecycleEvent Json)),
      verifyStreamLifecycle samplePlatform entries "a.example" sampleOptions = .ok events →
        events.Pairwise fun a b => a.index < b.index := by
  intro hstrict
  have hverified : verifyStreamLifecycle samplePlatform [⟨0, sampleIssuance⟩, ⟨0, sampleRotation⟩]
      "a.example" sampleOptions = .ok [sampleItem 0 sampleIssuance, sampleItem 0 sampleRotation] :=
    verifyStreamLifecycle_sorted (by decide) (by decide) (by decide +kernel)
  exact absurd (hstrict _ _ hverified) (by decide)

end Dnsid.Stream

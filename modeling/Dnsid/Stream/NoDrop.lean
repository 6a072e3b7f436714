import Dnsid.Stream.Authority
import Mathlib.Data.List.Nodup

/-! # No authenticated event is dropped

Once a lifecycle has started, an entry for the domain that is signed for every role by its authority either is
in the verified history or makes verification throw. So a revocation that the entity signed cannot be
missing from a history that verification returns, and a fork cannot pass unnoticed.
-/
namespace Dnsid.Stream
open Dnsid.Foundations Dnsid.Events
open Dnsid.Checkpoint (IndexedEntry sortByIndex)
open scoped List
set_option autoImplicit false

section Definitions
variable {Bytes : Type} [DecidableEq Bytes] (P : Platform Bytes)

/-- The entry is signed for every role by `authority`: its `sigs` are those that the type requires and no
others, and each verifies, under its own kid, with the key of its role. Keys that the entry embeds (`ku`,
`new_ku`) are supported lifecycle keys. -/
def Authenticated (bytes : Bytes) (authority : Identity) : Prop :=
  ∃ obj typeName sigs, readEntry P bytes = .ok obj ∧ obj.get? "type" = some (.str typeName) ∧
    parseC2spSignatures (obj.get? "sigs") typeName = .ok sigs ∧
    ∀ role signature, sigs.get role = some signature → ∃ key,
      roleKey obj (some authority.entityKey) (some authority.operationalKey) role = some key ∧
      (role = .op ∨ role = .newOp → SupportedJwk key) ∧
      key.get? "kid" = some (.str signature.kid) ∧ SignedBy P bytes signature.sig key

/-- Only the required roles are looked at: further members of `sigs` and the kind of the keys are not. -/
def RequiredRolesVerify (bytes : Bytes) (authority : Identity) : Prop :=
  ∃ obj typeName required, readEntry P bytes = .ok obj ∧ obj.get? "type" = some (.str typeName) ∧
    requiredC2spSignatureNames typeName = .ok required ∧
    ∀ role ∈ required, ∃ signature key,
      parseSignatureValue ((obj.get? "sigs").bind (·.get? role.name)) ("sigs." ++ role.name) =
        .ok signature ∧
      roleKey obj (some authority.entityKey) (some authority.operationalKey) role = some key ∧
      key.get? "kid" = some (.str signature.kid) ∧ SignedBy P bytes signature.sig key

/-- The `prev_event_id` of an entry, when it is a string. -/
def prevEventIdOf (bytes : Bytes) : Option String :=
  (readEntry P bytes).toOption.bind fun obj => obj.text? "prev_event_id"

end Definitions

section Proof
variable {Bytes : Type} [DecidableEq Bytes] {P : Platform Bytes}

/-! ## Authority in the loop -/

theorem Positions.supported {domain : String} {options : StreamVerifierOptions} {s : Identity}
    {first : VerifiedLifecycleEvent Bytes} {rest : List (VerifiedLifecycleEvent Bytes)}
    (h : Positions P domain options s first rest) (k : ℕ) :
    SupportedJwk (identityAt s (first :: rest) k).operationalKey := by
  obtain ⟨pos, hgenesis⟩ := h.genesis
  induction k with
  | zero => exact hgenesis.supported.2
  | succ k ih =>
    cases hitem : (first :: rest)[k]? with
    | none =>
      have hlength := List.getElem?_eq_none_iff.mp hitem
      rw [identityAt, List.take_of_length_le (by omega)]
      rwa [identityAt, List.take_of_length_le hlength] at ih
    | some item =>
      rw [identityAt_succ s hitem]
      by_cases htype : item.event.type = .keyRotation
      · cases k with
        | zero =>
          have hfirst := (h.genesisFirst 0 hitem).mpr rfl
          rw [htype] at hfirst
          exact absurd hfirst (by decide)
        | succ k =>
          obtain ⟨before, -, haccepted⟩ := h.later k item hitem
          cases hb : item.event.body with
          | keyRotation fields =>
            rw [Identity.apply, hb]
            exact (haccepted.rotation fields hb).supported
          | _ =>
            rw [LogEvent.type, hb] at htype
            cases htype
      · rw [Identity.apply_operationalKey _ htype]
        exact ih

theorem Selected.supported {domain : String} {options : StreamVerifierOptions} {s : Identity}
    {st : Selection Bytes} (h : Selected P domain options s st) (k : ℕ) :
    SupportedJwk s.entityKey ∧ SupportedJwk (identityAt s st.selected k).operationalKey := by
  obtain ⟨first, rest, heq, hpositions⟩ := h.positions
  obtain ⟨pos, hgenesis⟩ := hpositions.genesis
  rw [heq]
  exact ⟨hgenesis.supported.1, hpositions.supported k⟩

theorem authorityOf_entityKey (s : Identity) (events : List (VerifiedLifecycleEvent Bytes))
    (prevEventId : Option String) : (authorityOf P s events prevEventId).entityKey = s.entityKey := by
  unfold authorityOf
  split <;> exact Identity.after_entityKey s _

/-- The keys that the loop asks for are those of `authorityOf`. -/
theorem Selected.authority {domain : String} {options : StreamVerifierOptions} {s : Identity}
    {st : Selection Bytes} (h : Selected P domain options s st) (prepared : Prepared Bytes) :
    let a := authorityOf P s st.selected (prepared.envelope.text? "prev_event_id")
    entityAuthority st prepared = some a.entityKey ∧
      operationalAuthority st prepared = some a.operationalKey ∧
      SupportedJwk a.entityKey ∧ SupportedJwk a.operationalKey := by
  intro a
  have hentity : a.entityKey = s.entityKey := authorityOf_entityKey s st.selected _
  have hlatest : s.after (eventsOf st.selected) = identityAt s st.selected st.selected.length := by
    rw [identityAt, List.take_length]
  unfold entityAuthority operationalAuthority priorEntry
  rw [h.entityKey, h.operationalKey, hentity]
  cases hid : prepared.envelope.text? "prev_event_id" with
  | none =>
    have ha : a = s.after (eventsOf st.selected) := by
      show authorityOf P s st.selected _ = _
      rw [hid]
      rfl
    rw [ha, hlatest]
    exact ⟨rfl, rfl, h.supported _⟩
  | some id =>
    have hlookup := h.applied.lookup id
    cases hposition : namedPosition P st.selected id with
    | none =>
      rw [hposition] at hlookup
      have hnone : st.appliedEntries.lookup id = none := Option.map_eq_none_iff.mp hlookup
      have ha : a = s.after (eventsOf st.selected) := by
        show authorityOf P s st.selected _ = _
        rw [hid, authorityOf, Option.bind_some, hposition]
      rw [ha, Option.bind_some, hnone, hlatest]
      exact ⟨rfl, rfl, h.supported _⟩
    | some k =>
      rw [hposition] at hlookup
      obtain ⟨entry, hentry, heq⟩ := Option.map_eq_some_iff.mp hlookup
      have ha : a = identityAt s st.selected (k + 1) := by
        show authorityOf P s st.selected _ = _
        rw [hid, authorityOf, Option.bind_some, hposition]
      obtain ⟨he, ho⟩ := Prod.mk.inj heq
      rw [ha, Option.bind_some, hentry, Option.bind_some, Option.bind_some, he, ho]
      exact ⟨rfl, rfl, h.supported _⟩

theorem hasAllRoleSignatures_of_authenticated {bytes : Bytes} {authority : Identity}
    (hentity : SupportedJwk authority.entityKey) (hop : SupportedJwk authority.operationalKey)
    (h : Authenticated P bytes authority) :
    hasAllRoleSignatures P bytes (some authority.entityKey) (some authority.operationalKey) =
      .ok true := by
  obtain ⟨obj, typeName, sigs, hread, htype, hsigs, hverify⟩ := h
  have hjson := P.jsonParse_of_strict (readEntry_ok hread).1
  apply hasAllRoleSignatures_true.mpr
  refine ⟨obj, sigs, hjson, ?_, ?_⟩
  · rw [text?_eq.mpr htype]
    exact hsigs
  · intro role signature hget
    obtain ⟨key, hkey, hsupported, hkid, hsigned⟩ := hverify role signature hget
    refine ⟨key, hkey, ?_, hkid, hsigned⟩
    cases role with
    | ae =>
      cases hkey
      exact hentity
    | prevOp =>
      cases hkey
      exact hop
    | op => exact hsupported (.inl rfl)
    | newOp => exact hsupported (.inr rfl)

/-! ## One entry -/

theorem AppliedFor.signed {s : Identity} {events : List (VerifiedLifecycleEvent Bytes)}
    {applied : List (String × AppliedEntry Bytes)} (h : AppliedFor P s events applied) {id : String}
    {entry : AppliedEntry Bytes} (hlookup : applied.lookup id = some entry) :
    ∃ item ∈ events, signedC2spEntryBytes P item.bytes = .ok entry.signed ∧
      id = c2spEventId P entry.signed := by
  induction h with
  | nil s => cases hlookup
  | @cons s item signed rest applied hsigned _ ih =>
    rw [List.lookup_cons] at hlookup
    split at hlookup
    · next hid =>
      cases hlookup
      exact ⟨item, List.mem_cons_self, hsigned, eq_of_beq hid⟩
    · obtain ⟨item', hitem', hsigned'⟩ := ih hlookup
      exact ⟨item', List.mem_cons_of_mem item hitem', hsigned'⟩

/-- A turn over an authenticated entry that returns leaves its payload in the selection. -/
theorem streamStep_keeps {domain : String} {options : StreamVerifierOptions} {s : Identity}
    {st st' : Selection Bytes} {turn : IndexedEntry Bytes × ℕ} {prepared : Prepared Bytes}
    (hselected : Selected P domain options s st)
    (hprepared : prepare P domain options.context turn.1.bytes = .ok (some prepared))
    (hauthenticated : Authenticated P turn.1.bytes
      (authorityOf P s st.selected (prepared.envelope.text? "prev_event_id")))
    (h : streamStep P domain options st turn = .ok st') :
    ∃ item ∈ st'.selected, signedC2spEntryBytes P item.bytes = .ok prepared.signedBytes := by
  have hread := prepare_some hprepared
  obtain ⟨hentity, hop, hentityOk, hopOk⟩ := hselected.authority prepared
  have hnonempty : st.selected ≠ [] := by
    obtain ⟨first, rest, pos, heq, -⟩ := hselected.genesis
    rw [heq]
    exact List.cons_ne_nil _ _
  unfold streamStep at h
  rw [hprepared] at h
  simp only [candidateStep] at h
  split at h
  · next applied hlookup =>
    split at h
    · cases h
    · next hsame =>
      cases h
      obtain ⟨item, hitem, hsigned, -⟩ := hselected.applied.signed hlookup
      rw [not_not.mp hsame] at hsigned
      exact ⟨item, hitem, hsigned⟩
  · rw [if_neg hnonempty, continueStep, hentity, hop,
      hasAllRoleSignatures_of_authenticated hentityOk hopOk hauthenticated] at h
    simp only [authenticatedStep] at h
    split at h
    · cases h
    · next event hparsed =>
      rw [if_neg (not_not.mpr (hread.event_domain hparsed))] at h
      rw [extendSelection_selected h]
      exact ⟨candidateOf P turn.1 event, by simp, hread.signed⟩

/-! ## The run around one entry -/

theorem Selected.run {domain : String} {options : StreamVerifierOptions} {s : Identity}
    {st st' : Selection Bytes} {turns : List (IndexedEntry Bytes × ℕ)}
    (hselected : Selected P domain options s st)
    (h : turns.foldlM (streamStep P domain options) st = .ok st') : Selected P domain options s st' := by
  refine foldlM_invariant turns st st' ?_ hselected h
  intro turn _ st st' hst hstep
  cases streamStep_cases hstep with
  | skip => exact hst
  | start _ hempty _ =>
    obtain ⟨first, rest, pos, heq, -⟩ := hst.genesis
    rw [heq] at hempty
    cases hempty
  | extend henters _ _ hextended => exact hst.extend henters hextended

theorem Selected.unique {domain : String} {options : StreamVerifierOptions} {s s' : Identity}
    {st : Selection Bytes} (h : Selected P domain options s st) (h' : Selected P domain options s' st) :
    s = s' := by
  obtain ⟨first, rest, pos, heq, hgenesis, hkeys⟩ := h.genesis
  obtain ⟨first', rest', pos', heq', hgenesis', hkeys'⟩ := h'.genesis
  obtain ⟨rfl, -⟩ := List.cons.inj (heq.symm.trans heq')
  exact hkeys.unique hkeys' (hgenesis.status.trans hgenesis'.status.symm)

omit [DecidableEq Bytes] in
/-- The entries before and after one entry, when no two share an index. -/
theorem sortByIndex_split {entries : List (IndexedEntry Bytes)} {e : IndexedEntry Bytes}
    (hnodup : (entries.map IndexedEntry.index).Nodup) (he : e ∈ entries) :
    ∃ l₁ l₂ pos, (sortByIndex entries).zipIdx = l₁ ++ (e, pos) :: l₂ ∧
      (∀ turn ∈ l₁, turn.1.index < e.index) ∧ ∀ turn ∈ l₂, e.index < turn.1.index := by
  have hmem : e ∈ (sortByIndex entries).zipIdx.map Prod.fst := by
    rw [List.zipIdx_map_fst]
    exact List.mem_mergeSort.mpr he
  obtain ⟨⟨e', pos⟩, hturn, rfl⟩ := List.mem_map.mp hmem
  obtain ⟨l₁, l₂, hsplit⟩ := List.append_of_mem hturn
  have hsorted : ((sortByIndex entries).zipIdx.map Prod.fst).Pairwise fun a b => a.index < b.index := by
    rw [List.zipIdx_map_fst]
    exact sortByIndex_strict hnodup
  rw [List.pairwise_map, hsplit, List.pairwise_append] at hsorted
  refine ⟨l₁, l₂, pos, hsplit, fun turn hturn => hsorted.2.2 turn hturn _ List.mem_cons_self, ?_⟩
  exact (List.pairwise_cons.mp hsorted.2.1).1

/-- The run up to one entry, its turn and the rest of the run. -/
structure RunAround (P : Platform Bytes) (domain : String) (options : StreamVerifierOptions)
    (st : Selection Bytes) (e : IndexedEntry Bytes) (st₁ st₂ : Selection Bytes) : Prop where
  before : ∃ turns : List (IndexedEntry Bytes × ℕ),
    turns.foldlM (streamStep P domain options) .initial = .ok st₁
  turn : ∃ pos, streamStep P domain options st₁ (e, pos) = .ok st₂
  after : ∃ turns : List (IndexedEntry Bytes × ℕ),
    turns.foldlM (streamStep P domain options) st₂ = .ok st
  selected : st₁.selected = st.selected.filter fun item => item.index < e.index
  upTo : st₂.selected = st.selected.filter fun item => item.index ≤ e.index

omit [DecidableEq Bytes] in
theorem index_of_sublist {items : List (VerifiedLifecycleEvent Bytes)} {entries : List (IndexedEntry Bytes)}
    (h : items.map entryOf <+ entries) {item : VerifiedLifecycleEvent Bytes} (hitem : item ∈ items) :
    ∃ entry ∈ entries, entry.index = item.index :=
  ⟨entryOf item, h.subset (List.mem_map_of_mem hitem), rfl⟩

theorem selectLifecycle_around {domain : String} {options : StreamVerifierOptions}
    {entries : List (IndexedEntry Bytes)} {st : Selection Bytes} {e : IndexedEntry Bytes}
    (hnodup : (entries.map IndexedEntry.index).Nodup)
    (h : selectLifecycle P domain options entries = .ok st) (he : e ∈ entries) :
    ∃ st₁ st₂, RunAround P domain options st e st₁ st₂ := by
  obtain ⟨l₁, l₂, pos, hsplit, hbefore, hafter⟩ := sortByIndex_split hnodup he
  rw [selectLifecycle, hsplit] at h
  obtain ⟨st₁, h₁, h⟩ := foldlM_append_ok.mp h
  obtain ⟨st₂, h₂, h⟩ := foldlM_cons_ok h
  obtain ⟨more₁, heq₁, hsub₁⟩ := selected_grows h₁
  have h₂' : [(e, pos)].foldlM (streamStep P domain options) st₁ = .ok st₂ := by
    rw [List.foldlM_cons, h₂]
    rfl
  obtain ⟨more₂, heq₂, hsub₂⟩ := selected_grows h₂'
  obtain ⟨more, heq, hsub⟩ := selected_grows h
  have hlow : ∀ item ∈ st₁.selected, item.index < e.index := by
    rw [heq₁]
    intro item hitem
    obtain ⟨entry, hentry, hindex⟩ := index_of_sublist hsub₁ hitem
    obtain ⟨turn, hturn, rfl⟩ := List.mem_map.mp hentry
    exact hindex ▸ hbefore turn hturn
  have hmid : ∀ item ∈ more₂, item.index = e.index := by
    intro item hitem
    obtain ⟨entry, hentry, hindex⟩ := index_of_sublist hsub₂ hitem
    rw [List.mem_singleton.mp hentry] at hindex
    exact hindex.symm
  have hhigh : ∀ item ∈ more, e.index < item.index := by
    intro item hitem
    obtain ⟨entry, hentry, hindex⟩ := index_of_sublist hsub hitem
    obtain ⟨turn, hturn, rfl⟩ := List.mem_map.mp hentry
    exact hindex ▸ hafter turn hturn
  refine ⟨st₁, st₂, ⟨l₁, h₁⟩, ⟨pos, h₂⟩, ⟨l₂, h⟩, ?_, ?_⟩
  · rw [heq, heq₂, List.filter_append, List.filter_append,
      List.filter_eq_self.mpr fun item hitem => decide_eq_true (hlow item hitem),
      List.filter_eq_nil_iff.mpr fun item hitem => by simp [hmid item hitem],
      List.filter_eq_nil_iff.mpr fun item hitem => by simp [(hhigh item hitem).le],
      List.append_nil, List.append_nil]
  · rw [heq, heq₂, List.filter_append, List.filter_append,
      List.filter_eq_self.mpr fun item hitem => decide_eq_true (hlow item hitem).le,
      List.filter_eq_self.mpr fun item hitem => decide_eq_true (hmid item hitem).le,
      List.filter_eq_nil_iff.mpr fun item hitem => by simp [hhigh item hitem],
      List.append_nil]

/-! ## Payloads in the history -/

theorem AppliedFor.ids {s : Identity} {events : List (VerifiedLifecycleEvent Bytes)}
    {applied : List (String × AppliedEntry Bytes)} (h : AppliedFor P s events applied) :
    events.map (fun item => eventIdOf P item.bytes) = applied.map fun a => some a.1 := by
  induction h with
  | nil s => rfl
  | cons hsigned _ ih =>
    rw [List.map_cons, List.map_cons, ih, eventIdOf_eq hsigned]

/-- No two selected events have the same logical ID. -/
theorem Selected.ids_nodup {domain : String} {options : StreamVerifierOptions} {s : Identity}
    {st : Selection Bytes} (h : Selected P domain options s st) :
    (st.selected.map fun item => eventIdOf P item.bytes).Nodup := by
  have hmap : st.appliedEntries.map (fun a => some a.1) =
      (st.appliedEntries.map Prod.fst).map some := by
    rw [List.map_map]
    rfl
  rw [h.applied.ids, hmap]
  exact List.Nodup.map (Option.some_injective _) h.fresh

theorem object_of_get? {obj value : Json} {name : String} (h : obj.get? name = some value) :
    ∃ members, obj = .obj members := by
  cases obj <;> first | exact ⟨_, rfl⟩ | cases h

/-- A selected event with the payload of an entry has its type and predecessor. -/
theorem SelectedItem.same_payload {domain : String} {options : StreamVerifierOptions}
    {item : VerifiedLifecycleEvent Bytes} (hitem : SelectedItem P domain options item)
    {bytes signed : Bytes} {obj : Json} {authorization : C2spAuthorization}
    (henvelope : Envelope P bytes obj authorization)
    (hsigned : signedC2spEntryBytes P item.bytes = .ok signed)
    (hsigned' : signedC2spEntryBytes P bytes = .ok signed) :
    item.event.type = authorization.type ∧
      item.event.chain.prevEventId = obj.get? "prev_event_id" := by
  obtain ⟨obj', sigs, hparsed⟩ := parseC2spEventEntry_ok hitem.parsed
  obtain ⟨members, rfl⟩ := henvelope.object
  obtain ⟨members', rfl⟩ := object_of_get? hparsed.type
  have hmembers := fun name (hname : name ≠ "sigs") =>
    same_payload_members hparsed.read henvelope.read hsigned hsigned' hname
  constructor
  · have htype := hmembers "type" (by decide)
    rw [hparsed.type, henvelope.type] at htype
    exact LogEventType.name_injective (Json.str.inj (Option.some.inj htype))
  · rw [hparsed.recorded.chain]
    exact hmembers "prev_event_id" (by decide)

/-! ## The theorem -/

/-- What a returned history holds of an authenticated entry: its payload, at its own position in the chain
when it names a selected predecessor, and at the end when it is terminal. -/
structure Kept (P : Platform Bytes) (events : List (VerifiedLifecycleEvent Bytes)) (e : IndexedEntry Bytes)
    (type : LogEventType) : Prop where
  payload : ∃ item ∈ events, item.index ≤ e.index ∧
    signedC2spEntryBytes P item.bytes = signedC2spEntryBytes P e.bytes
  noFork : ∀ (k : ℕ) prev id, events[k]? = some prev → eventIdOf P prev.bytes = some id →
    prevEventIdOf P e.bytes = some id → ∃ next, events[k + 1]? = some next ∧
      signedC2spEntryBytes P next.bytes = signedC2spEntryBytes P e.bytes
  terminal : isTerminal type = true → ∃ last, events.getLast? = some last ∧
    signedC2spEntryBytes P last.bytes = signedC2spEntryBytes P e.bytes

/-- Position of a payload in a started selection, from the authorization of the entry that carries it. -/
theorem Selected.kept {domain : String} {options : StreamVerifierOptions} {s : Identity}
    {st : Selection Bytes} (hselected : Selected P domain options s st) {e : IndexedEntry Bytes}
    {obj : Json} {authorization : C2spAuthorization} {signed : Bytes}
    (henvelope : Envelope P e.bytes obj authorization)
    (hsigned : signedC2spEntryBytes P e.bytes = .ok signed) {item : VerifiedLifecycleEvent Bytes}
    (hitem : item ∈ st.selected) (hindex : item.index ≤ e.index)
    (hpayload : signedC2spEntryBytes P item.bytes = .ok signed) :
    Kept P st.selected e authorization.type := by
  obtain ⟨htype, hprev⟩ := (hselected.items item hitem).same_payload henvelope hpayload hsigned
  have hids := hselected.ids_nodup
  obtain ⟨first, rest, heq, hpositions⟩ := hselected.positions
  rw [heq] at hitem hids ⊢
  obtain ⟨j, hj⟩ := List.mem_iff_getElem?.mp hitem
  refine ⟨⟨item, hitem, hindex, hpayload.trans hsigned.symm⟩, ?_, ?_⟩
  · intro k prev id hk hprevId hnamed
    have hobj : obj.get? "prev_event_id" = some (.str id) := by
      rw [prevEventIdOf, henvelope.read] at hnamed
      exact text?_eq.mp hnamed
    rw [hobj] at hprev
    cases j with
    | zero =>
      cases hj
      obtain ⟨pos, hgenesis⟩ := hpositions.genesis
      rw [hgenesis.noPrevious.1] at hprev
      cases hprev
    | succ j =>
      -- The chain puts the event behind the one that its `prev_event_id` names, and IDs are distinct.
      obtain ⟨before, hbefore, haccepted⟩ := hpositions.later j item hj
      obtain ⟨signed', hsigned', hid⟩ := haccepted.prevEventId
      have hsame : eventIdOf P before.bytes = eventIdOf P prev.bytes := by
        rw [eventIdOf_eq hsigned', hprevId]
        exact congrArg some (Json.str.inj (Option.some.inj (hid.symm.trans hprev)))
      have hjlt : j < (first :: rest).length := (List.getElem?_eq_some_iff.mp hbefore).1
      have hklt : k < (first :: rest).length := (List.getElem?_eq_some_iff.mp hk).1
      have hjk : j = k := by
        apply (List.getElem?_inj (by rw [List.length_map]; exact hjlt) hids).mp
        rw [List.getElem?_map, List.getElem?_map, hbefore, hk]
        exact congrArg some hsame
      subst hjk
      exact ⟨item, hj, hpayload.trans hsigned.symm⟩
  · intro hterminal
    rw [← htype] at hterminal
    have hlength := hpositions.terminal j hj hterminal
    refine ⟨item, ?_, hpayload.trans hsigned.symm⟩
    rw [List.getLast?_eq_getElem?, hlength]
    exact hj

/-- No authenticated event is dropped: when verification returns, every entry after genesis that names the
domain and is signed for every role by its authority is in the history. -/
theorem verifyStreamLifecycle_keeps_authenticated {entries : List (IndexedEntry Bytes)} {domain : String}
    {options : StreamVerifierOptions} {events : List (VerifiedLifecycleEvent Bytes)}
    (hnodup : (entries.map IndexedEntry.index).Nodup)
    (h : verifyStreamLifecycle P entries domain options = .ok events) :
    ∃ genesis first pos, events.head? = some first ∧
      GenesisKeys (options.verifyMigration.map fun callback => callback pos) first.event genesis ∧
      ∀ e ∈ entries, first.index < e.index → ∀ authorization,
        parseC2spAuthorization P e.bytes options.context = .ok authorization →
        authorization.domain = domain →
        Authenticated P e.bytes (authorityOf P genesis
          (events.filter fun item => item.index < e.index) (prevEventIdOf P e.bytes)) →
        Kept P events e authorization.type := by
  obtain ⟨-, st, s, hselect, rfl, hselected⟩ := verifyStreamLifecycle_ok h
  obtain ⟨first, rest, pos, heq, hgenesis, -⟩ := hselected.genesis
  refine ⟨s, first, pos, by rw [heq]; rfl, hgenesis.keys, ?_⟩
  intro e he hindex authorization hauth hdomain hauthenticated
  obtain ⟨obj, prepared, henvelope, hprepared, hmembers⟩ := prepare_of_authorization hauth hdomain
  obtain ⟨st₁, st₂, hrun⟩ := selectLifecycle_around hnodup hselect he
  -- The selection has started when the entry is met: its genesis has a smaller index.
  have hfirst : first ∈ st₁.selected := by
    rw [hrun.selected, heq]
    exact List.mem_filter.mpr ⟨List.mem_cons_self, decide_eq_true hindex⟩
  obtain ⟨turns, hbefore⟩ := hrun.before
  obtain ⟨turn, hturn⟩ := hrun.turn
  obtain ⟨turns', hafter⟩ := hrun.after
  have hinv : SelectionInv P domain options st₁ :=
    foldlM_invariant _ _ _ (fun turn _ st st' hst hstep => hst.step hstep) (.inl rfl) hbefore
  obtain rfl | ⟨s₁, hselected₁⟩ := hinv
  · cases hfirst
  have hone : [(e, turn)].foldlM (streamStep P domain options) st₁ = .ok st₂ := by
    rw [List.foldlM_cons, hturn]
    rfl
  have hselected₂ := hselected₁.run hone
  obtain rfl : s₁ = s := (hselected₂.run hafter).unique hselected
  have hprev : prepared.envelope.text? "prev_event_id" = prevEventIdOf P e.bytes := by
    rw [prevEventIdOf, henvelope.read, Json.text?, hmembers "prev_event_id" (by decide)]
    rfl
  rw [← hrun.selected, ← hprev] at hauthenticated
  obtain ⟨item, hitem, hpayload⟩ := streamStep_keeps hselected₁ hprepared hauthenticated hturn
  rw [hrun.upTo] at hitem
  obtain ⟨hitem, hle⟩ := List.mem_filter.mp hitem
  exact hselected.kept henvelope (prepare_some hprepared).signed hitem (of_decide_eq_true hle) hpayload

end Proof

theorem GenesisKeys.issuance {f : Option (LogEvent → Except Thrown MigrationVerificationResult)}
    {event : LogEvent} {s : Identity} (h : GenesisKeys f event s) (htype : event.type = .issuance) :
    genesisEntityKey event none = some s.entityKey ∧
      genesisOperationalKey event none = some s.operationalKey := by
  unfold GenesisKeys at h
  unfold genesisEntityKey genesisOperationalKey
  cases hb : event.body <;> simp_all [LogEvent.type, EventBody.type]

theorem sampleIssuance_keys {f : Option (LogEvent → Except Thrown MigrationVerificationResult)} {k : ℕ}
    {s : Identity} (h : GenesisKeys f (sampleItem k sampleIssuance).event s) :
    s.entityKey = sampleKey "E" "E" ∧ s.operationalKey = sampleKey "O" "O" := by
  have htype : (sampleItem 0 sampleIssuance).event.type = .issuance := by decide
  obtain ⟨hentity, hop⟩ := GenesisKeys.issuance h htype
  have hentity' : genesisEntityKey (sampleItem 0 sampleIssuance).event none =
    some (sampleKey "E" "E") := by decide
  have hop' : genesisOperationalKey (sampleItem 0 sampleIssuance).event none =
    some (sampleKey "O" "O") := by decide
  exact ⟨Option.some.inj (hentity.symm.trans hentity'), Option.some.inj (hop.symm.trans hop')⟩

theorem sampleEntity_signed : SignedBy samplePlatform sampleRevocation "E-REVOCATION"
    (sampleKey "E" "E") :=
  ⟨withoutSigs sampleRevocation, .str "E-REVOCATION", toOption_eq_some.mp (by decide), rfl,
    by decide⟩

/-- The entity's revocation of the sample identity is kept. -/
theorem verifyStreamLifecycle_keeps_revocation :
    Kept samplePlatform [sampleItem 3 sampleIssuance, sampleItem 5 sampleRevocation]
      ⟨5, sampleRevocation⟩ .revocation := by
  have hverified : verifyStreamLifecycle samplePlatform [⟨3, sampleIssuance⟩, ⟨5, sampleRevocation⟩]
      "a.example" sampleOptions = .ok [sampleItem 3 sampleIssuance, sampleItem 5 sampleRevocation] :=
    verifyStreamLifecycle_sorted (by decide) (by decide) (by decide +kernel)
  obtain ⟨genesis, first, pos, hfirst, hkeys, hkept⟩ :=
    verifyStreamLifecycle_keeps_authenticated (by decide) hverified
  cases hfirst
  have hentity := (sampleIssuance_keys hkeys).1
  refine hkept ⟨5, sampleRevocation⟩ (by simp) (by decide) ⟨.revocation, "a.example", "E", "E-REVOCATION"⟩
    (toOption_eq_some.mp (by decide)) rfl ?_
  refine ⟨sampleRevocation, "REVOCATION", ⟨some ⟨"E", "E-REVOCATION"⟩, none, none, none⟩,
    toOption_eq_some.mp (by decide), by decide,
    toOption_eq_some.mp (by decide), ?_⟩
  intro role signature hget
  cases role <;> cases hget
  refine ⟨sampleKey "E" "E", ?_, nofun, by decide, sampleEntity_signed⟩
  show some _ = _
  rw [authorityOf_entityKey, hentity]

-- Nothing follows a revocation.
example : (verifyLifecycle samplePlatform sampleOptions none
    [sampleItem 3 sampleIssuance, sampleItem 5 sampleRevocation, sampleItem 7 sampleRotation]).toOption = none := by
  decide +kernel

/-- The entity's revocation with one more member in `sigs`. -/
def sampleOversigned : Json :=
  sampleEntry "REVOCATION" 1 (("reason", .str "superseded") ::
    sampleChain 1 "/ISSUANCE///" "//ACTIVE/O/") [("ae", "E", "E"), ("op", "O", "O")]

/-- An entry whose required signatures all verify is dropped when its `sigs` name a role too many. -/
theorem verifyStreamLifecycle_drops_oversigned :
    ¬ ∀ (entries : List (IndexedEntry Json)) (events : List (VerifiedLifecycleEvent Json))
      (first : VerifiedLifecycleEvent Json) (genesis : Identity) (e : IndexedEntry Json)
      (authorization : C2spAuthorization),
      (entries.map IndexedEntry.index).Nodup →
      verifyStreamLifecycle samplePlatform entries "a.example" sampleOptions = .ok events →
      events.head? = some first → GenesisKeys none first.event genesis → e ∈ entries →
      first.index < e.index →
      parseC2spAuthorization samplePlatform e.bytes sampleOptions.context = .ok authorization →
      authorization.domain = "a.example" →
      RequiredRolesVerify samplePlatform e.bytes (authorityOf samplePlatform genesis
        (events.filter fun item => item.index < e.index) (prevEventIdOf samplePlatform e.bytes)) →
      ∃ item ∈ events, signedC2spEntryBytes samplePlatform item.bytes =
        signedC2spEntryBytes samplePlatform e.bytes := by
  intro hclaim
  have hverified : verifyStreamLifecycle samplePlatform [⟨3, sampleIssuance⟩, ⟨5, sampleOversigned⟩]
      "a.example" sampleOptions = .ok [sampleItem 3 sampleIssuance] :=
    verifyStreamLifecycle_sorted (by decide) (by decide) (by decide)
  have hroles : ∀ events prevEventId, RequiredRolesVerify samplePlatform sampleOversigned
      (authorityOf samplePlatform ⟨.active, sampleKey "E" "E", sampleKey "O" "O"⟩ events prevEventId) := by
    intro events prevEventId
    refine ⟨sampleOversigned, "REVOCATION", [.ae], toOption_eq_some.mp (by decide),
      by decide, rfl, ?_⟩
    intro role hrole
    obtain rfl := List.mem_singleton.mp hrole
    refine ⟨⟨"E", "E-REVOCATION"⟩, sampleKey "E" "E", toOption_eq_some.mp (by decide), ?_,
      by decide, withoutSigs sampleOversigned, .str "E-REVOCATION",
      toOption_eq_some.mp (by decide), rfl, by decide⟩
    show some _ = _
    rw [authorityOf_entityKey]
  obtain ⟨item, hitem, hsame⟩ := hclaim _ _ (sampleItem 3 sampleIssuance)
    ⟨.active, sampleKey "E" "E", sampleKey "O" "O"⟩ ⟨5, sampleOversigned⟩
    ⟨.revocation, "a.example", "E", "E-REVOCATION"⟩ (by decide) hverified rfl
    ⟨by decide, by decide⟩ (by simp) (by decide)
    (toOption_eq_some.mp (by decide)) rfl (hroles _ _)
  obtain rfl := List.mem_singleton.mp hitem
  have hne : (signedC2spEntryBytes samplePlatform sampleIssuance).toOption ≠
    (signedC2spEntryBytes samplePlatform sampleOversigned).toOption := by decide
  exact hne (congrArg Except.toOption hsame)

end Dnsid.Stream

import Dnsid.Stream.ReplayTracks
import Dnsid.Stream.Selection

/-! # The invariant of the selection loop

A turn of the loop that returns leaves the selection alone, starts it or extends it (`streamStep_cases`). Once
started, the selection belongs to one genesis identity: the events selected are a lifecycle that
`verifyLifecycle` accepts, and the keys in the loop's variables are those of the identity after them.
-/
namespace Dnsid.Stream
open Dnsid.Foundations Dnsid.Events
open Dnsid.Checkpoint (IndexedEntry sortByIndex)
open scoped List
set_option autoImplicit false

section Invariant
variable {Bytes : Type} [DecidableEq Bytes] {P : Platform Bytes}

/-! ## One turn -/

theorem catchUnlessResource_ok {α : Type} {fallback a : α} {x : Except Thrown α}
    (h : catchUnlessResource fallback x = .ok a) : x = .ok a ∨ a = fallback := by
  cases x with
  | ok b =>
    cases h
    exact .inl rfl
  | error thrown =>
    simp only [catchUnlessResource] at h
    split at h
    · cases h
    · cases h
      exact .inr rfl

theorem thrownOf_ok {α : Type} {x : Except LifecycleFailure α} {a : α} :
    thrownOf x = .ok a ↔ x = .ok a := by
  cases x <;> simp [thrownOf]

/-- What the loop has read of an entry that names the domain. -/
structure Read (P : Platform Bytes) (domain : String) (context : C2spEventContext) (bytes : Bytes)
    (prepared : Prepared Bytes) : Prop where
  authorization : ∃ a, parseC2spAuthorization P bytes context = .ok a ∧ a.domain = domain
  signed : signedC2spEntryBytes P bytes = .ok prepared.signedBytes
  envelope : P.jsonParse prepared.signedBytes = some prepared.envelope

theorem prepare_some {domain : String} {context : C2spEventContext} {bytes : Bytes}
    {prepared : Prepared Bytes} (h : prepare P domain context bytes = .ok (some prepared)) :
    Read P domain context bytes prepared := by
  obtain hread | hnone := catchUnlessResource_ok h
  · unfold readCandidate at hread
    obtain ⟨authorization, hauth, hread⟩ := bind_eq_ok.mp hread
    split at hread
    · cases hread
    · next hdomain =>
      obtain ⟨signedBytes, hsigned, hread⟩ := bind_eq_ok.mp hread
      obtain ⟨envelope, henvelope, hread⟩ := bind_eq_ok.mp hread
      cases hread
      exact ⟨⟨authorization, hauth, not_not.mp hdomain⟩, hsigned, orThrow_eq_ok.mp henvelope⟩
  · cases hnone

/-- The event parser agrees with `parseC2spAuthorization` on the domain, so the loop's second domain check
never fails. -/
theorem Read.event_domain {domain : String} {context : C2spEventContext} {bytes : Bytes}
    {prepared : Prepared Bytes} {event : LogEvent} (hread : Read P domain context bytes prepared)
    (h : parseC2spEventEntry P bytes context = .ok event) : event.domain = domain := by
  obtain ⟨authorization, hauth, rfl⟩ := hread.authorization
  exact parseC2spAuthorization_domain hauth h

/-- An entry that enters the selection. -/
structure Enters (P : Platform Bytes) (domain : String) (options : StreamVerifierOptions)
    (st : Selection Bytes) (entry : IndexedEntry Bytes) (prepared : Prepared Bytes) (event : LogEvent) :
    Prop where
  read : prepare P domain options.context entry.bytes = .ok (some prepared)
  fresh : st.appliedEntries.lookup (c2spEventId P prepared.signedBytes) = none
  parsed : parseC2spEventEntry P entry.bytes options.context = .ok event
  domain : event.domain = domain

/-- What one turn does. -/
inductive Turn (P : Platform Bytes) (domain : String) (options : StreamVerifierOptions)
    (st : Selection Bytes) (turn : IndexedEntry Bytes × ℕ) : Selection Bytes → Prop
  | skip : Turn P domain options st turn st
  | start {prepared : Prepared Bytes} {event : LogEvent}
      (enters : Enters P domain options st turn.1 prepared event) (empty : st.selected = [])
      (verified : verifyLifecycle P options (options.verifyMigration.map fun f => f turn.2)
        [candidateOf P turn.1 event] = .ok ()) :
      Turn P domain options st turn (genesisSelection P options turn.2 turn.1 prepared event)
  | extend {prepared : Prepared Bytes} {event : LogEvent} {st' : Selection Bytes}
      (enters : Enters P domain options st turn.1 prepared event) (nonempty : st.selected ≠ [])
      (authenticated : hasAllRoleSignatures P turn.1.bytes (entityAuthority st prepared)
        (operationalAuthority st prepared) = .ok true)
      (extended : extendSelection P options st turn.1 prepared event = .ok st') :
      Turn P domain options st turn st'

theorem tryGenesis_ok {options : StreamVerifierOptions} {pos : ℕ} {st st' : Selection Bytes}
    {entry : IndexedEntry Bytes} {prepared : Prepared Bytes} {event : LogEvent}
    (h : tryGenesis P options pos st entry prepared event = .ok st') :
    st' = st ∨ (verifyLifecycle P options (options.verifyMigration.map fun f => f pos)
      [candidateOf P entry event] = .ok () ∧
        st' = genesisSelection P options pos entry prepared event) := by
  unfold tryGenesis at h
  split at h
  · next hverify =>
    cases h
    exact .inr ⟨hverify, rfl⟩
  · split at h
    · cases h
    · cases h
      exact .inl rfl

theorem streamStep_cases {domain : String} {options : StreamVerifierOptions} {st st' : Selection Bytes}
    {turn : IndexedEntry Bytes × ℕ} (h : streamStep P domain options st turn = .ok st') :
    Turn P domain options st turn st' := by
  unfold streamStep at h
  split at h
  · cases h
  · cases h
    exact .skip
  · next prepared hprepared =>
    unfold candidateStep at h
    split at h
    · split at h
      · cases h
      · cases h
        exact .skip
    · next hfresh =>
      split at h
      · next hempty =>
        unfold genesisStep at h
        split at h
        · split at h
          · cases h
          · cases h
            exact .skip
        · next event hparsed =>
          split at h
          · cases h
            exact .skip
          · next hdomain =>
            obtain rfl | ⟨hverify, rfl⟩ := tryGenesis_ok h
            · exact .skip
            · exact .start ⟨hprepared, hfresh, hparsed, not_not.mp hdomain⟩ hempty hverify
      · next hnonempty =>
        unfold continueStep at h
        split at h
        · cases h
        · cases h
          exact .skip
        · next hauthenticated =>
          unfold authenticatedStep at h
          split at h
          · cases h
          · next event hparsed =>
            split at h
            · cases h
              exact .skip
            · next hdomain =>
              exact .extend ⟨hprepared, hfresh, hparsed, not_not.mp hdomain⟩ hnonempty hauthenticated h

/-! ## Applied entries -/

/-- The map of applied entries, for events that follow the identity `s`: each selected event with its
payload and the keys of the identity after it. -/
inductive AppliedFor (P : Platform Bytes) :
    Identity → List (VerifiedLifecycleEvent Bytes) → List (String × AppliedEntry Bytes) → Prop
  | nil (s : Identity) : AppliedFor P s [] []
  | cons {s : Identity} {item : VerifiedLifecycleEvent Bytes} {signed : Bytes}
      {rest : List (VerifiedLifecycleEvent Bytes)} {applied : List (String × AppliedEntry Bytes)}
      (head : signedC2spEntryBytes P item.bytes = .ok signed)
      (tail : AppliedFor P (s.apply item.event) rest applied) :
      AppliedFor P s (item :: rest) ((c2spEventId P signed,
        ⟨signed, some s.entityKey, some (s.apply item.event).operationalKey⟩) :: applied)

def eventsOf (items : List (VerifiedLifecycleEvent Bytes)) : List LogEvent :=
  items.map VerifiedLifecycleEvent.event

omit [DecidableEq Bytes] in
theorem eventsOf_append (items more : List (VerifiedLifecycleEvent Bytes)) :
    eventsOf (items ++ more) = eventsOf items ++ eventsOf more := List.map_append

theorem AppliedFor.concat {s : Identity} {items : List (VerifiedLifecycleEvent Bytes)}
    {applied : List (String × AppliedEntry Bytes)} (h : AppliedFor P s items applied)
    {item : VerifiedLifecycleEvent Bytes} {signed : Bytes}
    (hsigned : signedC2spEntryBytes P item.bytes = .ok signed) :
    AppliedFor P s (items ++ [item]) (applied ++ [(c2spEventId P signed,
      ⟨signed, some s.entityKey,
        some ((s.after (eventsOf items)).apply item.event).operationalKey⟩)]) := by
  induction h with
  | nil s => exact .cons hsigned (.nil _)
  | @cons s head _ _ _ hhead _ ih =>
    rw [Identity.apply_entityKey] at ih
    exact .cons hhead ih

/-! ## The callback -/

theorem verifyLifecycle_ok {options : StreamVerifierOptions}
    {verifyMigration : Option (LogEvent → Except Thrown MigrationVerificationResult)}
    {events : List (VerifiedLifecycleEvent Bytes)} {u : Unit} :
    verifyLifecycle P options verifyMigration events = .ok u ↔
      events.length ≤ 10000 ∧ events ≠ [] ∧ ∃ st, replay P options verifyMigration events = .ok st := by
  unfold verifyLifecycle
  constructor
  · intro h
    obtain ⟨_, hmax, h⟩ := bind_eq_ok.mp h
    obtain ⟨_, hempty, h⟩ := bind_eq_ok.mp h
    obtain ⟨st, hst, _⟩ := bind_eq_ok.mp h
    rw [ownThrow_ok, throwIf_eq_ok] at hmax hempty
    exact ⟨not_lt.mp hmax, fun hnil => hempty (by rw [hnil]; rfl), st, hst⟩
  · rintro ⟨hmax, hnonempty, st, hst⟩
    apply bind_eq_ok.mpr
    refine ⟨(), ownThrow_ok.mpr (throwIf_eq_ok.mpr (not_lt.mpr hmax)), ?_⟩
    apply bind_eq_ok.mpr
    refine ⟨(), ownThrow_ok.mpr (throwIf_eq_ok.mpr ?_), bind_eq_ok.mpr ⟨st, hst, rfl⟩⟩
    rwa [List.length_eq_zero_iff]

/-- A turn asks the callback about its own event only. -/
theorem lifecycleStep_callback {options : StreamVerifierOptions}
    {f g : Option (LogEvent → Except Thrown MigrationVerificationResult)} {st : Replay Bytes}
    {item : VerifiedLifecycleEvent Bytes}
    (h : item.event.type = .migration → (f.map fun c => c item.event) = g.map fun c => c item.event) :
    lifecycleStep P options f st item = lifecycleStep P options g st item := by
  unfold lifecycleStep
  cases hb : item.event.body with
  | migration fields =>
    have hfg := h (by rw [LogEvent.type, hb]; rfl)
    cases f with
    | none =>
      cases g with
      | none => rfl
      | some g => cases hfg
    | some f =>
      cases g with
      | none => cases hfg
      | some g =>
        have hanswer : f item.event = g item.event := Option.some.inj hfg
        unfold migrationStep
        simp only [orThrow, ownThrow]
        show (_ >>= fun sig => (_ >>= fun _ => callbackThrow (f item.event) >>= _)) = _
        rw [hanswer]
        rfl
  | _ => rfl

theorem GenesisKeys.unique {f : Option (LogEvent → Except Thrown MigrationVerificationResult)}
    {event : LogEvent} {s s' : Identity} (h : GenesisKeys f event s) (h' : GenesisKeys f event s')
    (hstatus : s.status = s'.status) : s = s' := by
  unfold GenesisKeys at h h'
  cases hb : event.body with
  | issuance fields =>
    rw [hb] at h h'
    have he := Option.some.inj (h.1.symm.trans h'.1)
    have ho := Option.some.inj (h.2.symm.trans h'.2)
    cases s
    cases s'
    simp_all
  | migration fields =>
    rw [hb] at h h'
    obtain ⟨callback, result, rfl, hanswer, he, ho⟩ := h
    obtain ⟨callback', result', hcallback, hanswer', he', ho'⟩ := h'
    cases hcallback
    obtain rfl := Except.ok.inj (hanswer.symm.trans hanswer')
    cases s
    cases s'
    simp_all
  | _ =>
    rw [hb] at h
    exact h.elim

/-! ## The invariant -/

/-- An event as it stands in the selection. -/
structure SelectedItem (P : Platform Bytes) (domain : String) (options : StreamVerifierOptions)
    (item : VerifiedLifecycleEvent Bytes) : Prop where
  leafHash : item.leafHash = P.leafHash item.bytes
  parsed : parseC2spEventEntry P item.bytes options.context = .ok item.event
  domain : item.event.domain = domain

/-- A selection that has started, with the identity of its genesis. -/
structure Selected (P : Platform Bytes) (domain : String) (options : StreamVerifierOptions)
    (s : Identity) (st : Selection Bytes) : Prop where
  items : ∀ item ∈ st.selected, SelectedItem P domain options item
  verified : verifyLifecycle P options (cachedMigration options st.migrationResult) st.selected = .ok ()
  genesis : ∃ first rest pos, st.selected = first :: rest ∧
    GenesisAccepted P options (options.verifyMigration.map fun f => f pos) first s ∧
    GenesisKeys (cachedMigration options st.migrationResult) first.event s
  applied : AppliedFor P s st.selected st.appliedEntries
  fresh : (st.appliedEntries.map Prod.fst).Nodup
  entityKey : st.entityKey = some s.entityKey
  operationalKey : st.activeOperationalKey = some (s.after (eventsOf st.selected)).operationalKey

/-- The selection is untouched or belongs to one genesis. -/
def SelectionInv (P : Platform Bytes) (domain : String) (options : StreamVerifierOptions)
    (st : Selection Bytes) : Prop :=
  st = .initial ∨ ∃ s, Selected P domain options s st

theorem candidateOf_selectedItem {domain : String} {options : StreamVerifierOptions}
    {st : Selection Bytes} {entry : IndexedEntry Bytes} {prepared : Prepared Bytes} {event : LogEvent}
    (h : Enters P domain options st entry prepared event) :
    SelectedItem P domain options (candidateOf P entry event) :=
  ⟨rfl, h.parsed, h.domain⟩

/-- The loop's variables after genesis hold the identity that the genesis event establishes. -/
theorem genesis_keys {options : StreamVerifierOptions} {pos : ℕ} {event : LogEvent} {s : Identity}
    (h : GenesisKeys (options.verifyMigration.map fun f => f pos) event s) :
    genesisEntityKey event (genesisMigration options pos event) = some s.entityKey ∧
      genesisOperationalKey event (genesisMigration options pos event) = some s.operationalKey ∧
      GenesisKeys (cachedMigration options (genesisMigration options pos event)) event s ∧
      (event.type = .migration →
        ((options.verifyMigration.map fun f => f pos).map fun f => f event) =
          (cachedMigration options (genesisMigration options pos event)).map fun f => f event) := by
  unfold GenesisKeys at h ⊢
  cases hb : event.body with
  | issuance fields =>
    rw [hb] at h
    refine ⟨?_, ?_, h, ?_⟩
    · rw [genesisEntityKey, hb]
      exact h.1
    · rw [genesisOperationalKey, hb]
      exact h.2
    · intro htype
      rw [LogEvent.type, hb] at htype
      cases htype
  | migration fields =>
    rw [hb] at h
    obtain ⟨callback, result, hcallback, hanswer, he, ho⟩ := h
    obtain ⟨f, hf, rfl⟩ := Option.map_eq_some_iff.mp hcallback
    have hresult : genesisMigration options pos event = some result := by
      rw [genesisMigration, hb, hf]
      show (f pos event).toOption = some result
      rw [hanswer]
      rfl
    refine ⟨?_, ?_, ?_, ?_⟩
    · rw [genesisEntityKey, hb, hresult, ← he]
      rfl
    · rw [genesisOperationalKey, hb, hresult, ← ho]
      rfl
    · exact ⟨fun _ => .ok result, result, by rw [cachedMigration, hf, hresult]; rfl, rfl, he, ho⟩
    · intro _
      rw [cachedMigration, hf, hresult]
      show some (f pos event) = some (.ok result)
      rw [hanswer]
  | _ =>
    rw [hb] at h
    exact h.elim

theorem replay_singleton {options : StreamVerifierOptions}
    {f : Option (LogEvent → Except Thrown MigrationVerificationResult)}
    {item : VerifiedLifecycleEvent Bytes} :
    replay P options f [item] = lifecycleStep P options f .initial item := by
  show (lifecycleStep P options f .initial item >>= pure) = _
  exact bind_pure _

theorem Selected.start {domain : String} {options : StreamVerifierOptions} {st : Selection Bytes}
    {entry : IndexedEntry Bytes} {pos : ℕ} {prepared : Prepared Bytes} {event : LogEvent}
    (henters : Enters P domain options st entry prepared event)
    (hverify : verifyLifecycle P options (options.verifyMigration.map fun f => f pos)
      [candidateOf P entry event] = .ok ()) :
    ∃ s, Selected P domain options s (genesisSelection P options pos entry prepared event) := by
  obtain ⟨-, -, replayed, hreplay⟩ := verifyLifecycle_ok.mp hverify
  rw [replay_singleton] at hreplay
  obtain ⟨s, hgenesis, -⟩ := lifecycleStep_genesis hreplay
  have hkeys : GenesisKeys _ event s := hgenesis.keys
  obtain ⟨hentity, hop, hcached, hanswers⟩ := genesis_keys hkeys
  have happly : s.apply event = s := by
    apply s.apply_genesis
    unfold GenesisKeys at hkeys
    cases hb : event.body <;> simp_all [LogEvent.type, EventBody.type]
  refine ⟨s, ?_, ?_, ?_, ?_, by simp [genesisSelection], hentity, ?_⟩
  · intro item hitem
    obtain rfl := List.mem_singleton.mp hitem
    exact candidateOf_selectedItem henters
  · apply verifyLifecycle_ok.mpr
    refine ⟨by simp [genesisSelection], by simp [genesisSelection], replayed, ?_⟩
    rw [genesisSelection, replay_singleton, ← hreplay]
    exact (lifecycleStep_callback hanswers).symm
  · exact ⟨candidateOf P entry event, [], pos, rfl, hgenesis, hcached⟩
  · have hsigned := (prepare_some henters.read).signed
    have happlied : AppliedFor P s [candidateOf P entry event] _ := .cons hsigned (.nil _)
    rw [show s.apply (candidateOf P entry event).event = s from happly] at happlied
    simp only [genesisSelection, hentity, hop]
    exact happlied
  · show genesisOperationalKey event _ = some (s.after [event]).operationalKey
    rw [hop, Identity.after_cons, happly, Identity.after_nil]

theorem Selected.extend {domain : String} {options : StreamVerifierOptions} {s : Identity}
    {st st' : Selection Bytes} {entry : IndexedEntry Bytes} {prepared : Prepared Bytes} {event : LogEvent}
    (hselected : Selected P domain options s st)
    (henters : Enters P domain options st entry prepared event)
    (h : extendSelection P options st entry prepared event = .ok st') :
    Selected P domain options s st' := by
  unfold extendSelection at h
  obtain ⟨_, _, h⟩ := bind_eq_ok.mp h
  obtain ⟨_, hverify, h⟩ := bind_eq_ok.mp h
  obtain rfl := pure_eq_ok.mp h
  have hafter : operationalKeyAfter st.activeOperationalKey event =
      some ((s.after (eventsOf st.selected)).apply event).operationalKey := by
    rw [hselected.operationalKey, operationalKeyAfter, Identity.apply]
    cases event.body <;> rfl
  refine ⟨?_, thrownOf_ok.mp hverify, ?_, ?_, ?_, hselected.entityKey, ?_⟩
  · intro item hitem
    obtain hold | hnew := List.mem_append.mp hitem
    · exact hselected.items item hold
    · obtain rfl := List.mem_singleton.mp hnew
      exact candidateOf_selectedItem henters
  · obtain ⟨first, rest, pos, heq, hgenesis, hkeys⟩ := hselected.genesis
    exact ⟨first, rest ++ [candidateOf P entry event], pos, by rw [heq]; rfl, hgenesis, hkeys⟩
  · have hsigned := (prepare_some henters.read).signed
    have happlied := AppliedFor.concat hselected.applied (show signedC2spEntryBytes P
      (candidateOf P entry event).bytes = _ from hsigned)
    rw [hselected.entityKey, hafter]
    exact happlied
  · have hfresh := List.lookup_eq_none_iff.mp henters.fresh
    show ((st.appliedEntries ++ _).map Prod.fst).Nodup
    rw [List.map_append, List.nodup_append]
    refine ⟨hselected.fresh, by simp, ?_⟩
    intro id hid id' hid' heq
    obtain ⟨applied, hmem, rfl⟩ := List.mem_map.mp hid
    have hid := List.mem_singleton.mp hid'
    exact absurd (hfresh applied hmem) (by simp [heq, hid])
  · show operationalKeyAfter st.activeOperationalKey event =
      some (s.after (eventsOf (st.selected ++ [candidateOf P entry event]))).operationalKey
    rw [hafter, eventsOf_append, Identity.after_append]
    rfl

theorem extendSelection_selected {options : StreamVerifierOptions} {st st' : Selection Bytes}
    {entry : IndexedEntry Bytes} {prepared : Prepared Bytes} {event : LogEvent}
    (h : extendSelection P options st entry prepared event = .ok st') :
    st'.selected = st.selected ++ [candidateOf P entry event] := by
  unfold extendSelection at h
  obtain ⟨_, _, h⟩ := bind_eq_ok.mp h
  obtain ⟨_, _, h⟩ := bind_eq_ok.mp h
  obtain rfl := pure_eq_ok.mp h
  rfl

theorem SelectionInv.step {domain : String} {options : StreamVerifierOptions} {st st' : Selection Bytes}
    {turn : IndexedEntry Bytes × ℕ} (hinv : SelectionInv P domain options st)
    (h : streamStep P domain options st turn = .ok st') : SelectionInv P domain options st' := by
  cases streamStep_cases h with
  | skip => exact hinv
  | start henters _ hverify => exact .inr (Selected.start henters hverify)
  | extend henters hnonempty _ hextended =>
    obtain rfl | ⟨s, hselected⟩ := hinv
    · exact absurd rfl hnonempty
    · exact .inr ⟨s, hselected.extend henters hextended⟩

def entryOf (item : VerifiedLifecycleEvent Bytes) : IndexedEntry Bytes := ⟨item.index, item.bytes⟩

/-- The selection only grows, in the order in which the entries are met. -/
theorem selected_grows {domain : String} {options : StreamVerifierOptions} {st st' : Selection Bytes}
    {turns : List (IndexedEntry Bytes × ℕ)}
    (h : turns.foldlM (streamStep P domain options) st = .ok st') :
    ∃ more, st'.selected = st.selected ++ more ∧ more.map entryOf <+ turns.map Prod.fst := by
  have hrun := foldlM_run_invariant (I := fun done st' => ∃ more, st'.selected = st.selected ++ more ∧
    more.map entryOf <+ done.map Prod.fst) ?_ turns [] st st' ⟨[], by simp, List.Sublist.refl _⟩ h
  · exact hrun
  · rintro done turn st₁ st₂ ⟨more, heq, hsub⟩ hstep
    rw [List.map_append, List.map_singleton]
    cases streamStep_cases hstep with
    | skip => exact ⟨more, heq, hsub.trans (List.sublist_append_left _ _)⟩
    | @start _ event _ hempty _ =>
      rw [hempty] at heq
      obtain ⟨hst, -⟩ := List.append_eq_nil_iff.mp heq.symm
      refine ⟨[candidateOf P turn.1 event], by rw [hst]; rfl, ?_⟩
      exact List.sublist_append_right _ _
    | @extend _ event _ _ _ _ hextended =>
      refine ⟨more ++ [candidateOf P turn.1 event], ?_, ?_⟩
      · rw [extendSelection_selected hextended, heq, List.append_assoc]
      · rw [List.map_append]
        exact hsub.append (List.Sublist.refl _)

theorem selected_sublist {domain : String} {options : StreamVerifierOptions} {st : Selection Bytes}
    {entries : List (IndexedEntry Bytes)} (h : selectLifecycle P domain options entries = .ok st) :
    st.selected.map entryOf <+ sortByIndex entries := by
  obtain ⟨more, heq, hsub⟩ := selected_grows h
  rw [List.zipIdx_map_fst] at hsub
  rw [heq]
  exact hsub

/-- A verified stream is a started selection. -/
theorem verifyStreamLifecycle_ok {entries : List (IndexedEntry Bytes)} {domain : String}
    {options : StreamVerifierOptions} {events : List (VerifiedLifecycleEvent Bytes)}
    (h : verifyStreamLifecycle P entries domain options = .ok events) :
    withinInputLimits P entries = true ∧ ∃ st s, selectLifecycle P domain options entries = .ok st ∧
      st.selected = events ∧ Selected P domain options s st := by
  unfold verifyStreamLifecycle at h
  obtain ⟨_, hlimits, h⟩ := bind_eq_ok.mp h
  obtain ⟨st, hselect, h⟩ := bind_eq_ok.mp h
  obtain ⟨_, hverify, h⟩ := bind_eq_ok.mp h
  obtain rfl := pure_eq_ok.mp h
  rw [throwIf_eq_ok] at hlimits
  refine ⟨by simpa using hlimits, st, ?_⟩
  have hinv : SelectionInv P domain options st :=
    foldlM_invariant _ _ _ (fun turn _ st st' hst hstep => hst.step hstep) (.inl rfl) hselect
  obtain rfl | ⟨s, hselected⟩ := hinv
  · exact absurd rfl (verifyLifecycle_ok.mp (thrownOf_ok.mp hverify)).2.1
  · exact ⟨s, hselect, rfl, hselected⟩

end Invariant

end Dnsid.Stream

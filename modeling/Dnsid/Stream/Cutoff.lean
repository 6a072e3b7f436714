import Dnsid.Stream.NoDrop
import Mathlib.Data.List.Perm.Subperm
import Mathlib.Algebra.Order.BigOperators.Group.List

/-! # Bundles, scans and cutoffs agree

The history that a scan gives up to a cutoff is the history that any part of those entries gives which contains
it: a bundle without the noise, the scan itself, or the scan truncated at a migration's final entry.
-/
namespace Dnsid.Stream
open Dnsid.Foundations Dnsid.Events
open Dnsid.Checkpoint (IndexedEntry sortByIndex)
open scoped List
set_option autoImplicit false

/-- The migration callback gives the same answer for the same event. -/
def Deterministic (options : StreamVerifierOptions) : Prop :=
  ∀ callback, options.verifyMigration = some callback → ∀ i j event, callback i event = callback j event

section Proof
variable {Bytes : Type} [DecidableEq Bytes] {P : Platform Bytes}

/-! ## Turns without their number -/

theorem streamStep_position {domain : String} {options : StreamVerifierOptions}
    (hdet : Deterministic options) (st : Selection Bytes) (entry : IndexedEntry Bytes) (i j : ℕ) :
    streamStep P domain options st (entry, i) = streamStep P domain options st (entry, j) := by
  have hcallback : (options.verifyMigration.map fun f => f i) = options.verifyMigration.map fun f => f j := by
    cases hf : options.verifyMigration with
    | none => rfl
    | some f =>
      have hij : f i = f j := by
        funext event
        exact hdet f hf i j event
      rw [Option.map_some, Option.map_some, hij]
  have hmigration : ∀ event, genesisMigration options i event = genesisMigration options j event := by
    intro event
    unfold genesisMigration
    cases hf : options.verifyMigration with
    | none => rfl
    | some f =>
      cases event.body with
      | migration _ =>
        show (f i event).toOption = (f j event).toOption
        rw [hdet f hf i j event]
      | _ => rfl
  unfold streamStep candidateStep genesisStep tryGenesis genesisSelection
  simp only [hcallback, hmigration]

/-- The fold over the entries alone. -/
theorem foldlM_zipIdx {domain : String} {options : StreamVerifierOptions} (hdet : Deterministic options)
    (entries : List (IndexedEntry Bytes)) (k : ℕ) (st : Selection Bytes) :
    (entries.zipIdx k).foldlM (streamStep P domain options) st =
      entries.foldlM (fun st entry => streamStep P domain options st (entry, 0)) st := by
  induction entries generalizing k st with
  | nil => rfl
  | cons entry entries ih =>
    rw [List.zipIdx_cons, List.foldlM_cons, List.foldlM_cons, streamStep_position hdet st entry k 0]
    cases streamStep P domain options st (entry, 0) with
    | error thrown => rfl
    | ok st' => exact ih (k + 1) st'

/-! ## Repetition -/

theorem lookup_concat {α : Type} {l : List (String × α)} {id : String} {a : α}
    (h : l.lookup id = none) : (l ++ [(id, a)]).lookup id = some a := by
  rw [List.lookup_append, h]
  simp

/-- An entry whose payload is applied is passed over. -/
theorem streamStep_applied {domain : String} {options : StreamVerifierOptions} {st : Selection Bytes}
    {turn : IndexedEntry Bytes × ℕ} {prepared : Prepared Bytes} {applied : AppliedEntry Bytes}
    (hprepared : prepare P domain options.context turn.1.bytes = .ok (some prepared))
    (hlookup : st.appliedEntries.lookup (c2spEventId P prepared.signedBytes) = some applied)
    (hsigned : applied.signed = prepared.signedBytes) : streamStep P domain options st turn = .ok st := by
  unfold streamStep
  rw [hprepared]
  simp only [candidateStep, hlookup]
  rw [if_neg (not_not.mpr hsigned)]

/-- An entry that has had its turn changes nothing when it comes again. -/
theorem streamStep_again {domain : String} {options : StreamVerifierOptions} {st st' : Selection Bytes}
    {turn : IndexedEntry Bytes × ℕ} (h : streamStep P domain options st turn = .ok st') :
    streamStep P domain options st' turn = .ok st' := by
  cases streamStep_cases h with
  | skip => exact h
  | start henters _ _ => exact streamStep_applied henters.read List.lookup_cons_self rfl
  | extend henters _ _ hextended =>
    unfold extendSelection at hextended
    obtain ⟨_, _, hextended⟩ := bind_eq_ok.mp hextended
    obtain ⟨_, _, hextended⟩ := bind_eq_ok.mp hextended
    obtain rfl := pure_eq_ok.mp hextended
    exact streamStep_applied henters.read (lookup_concat henters.fresh) rfl

/-! ## Cutting a run -/

omit [DecidableEq Bytes] in
theorem withinInputLimits_subperm {entries part : List (IndexedEntry Bytes)} (hsubperm : part <+~ entries)
    (h : withinInputLimits P entries = true) : withinInputLimits P part = true := by
  unfold withinInputLimits at h ⊢
  rw [Bool.and_eq_true, decide_eq_true_eq, decide_eq_true_eq] at h ⊢
  refine ⟨hsubperm.length_le.trans h.1, le_trans ?_ h.2⟩
  obtain ⟨part', hperm, hsublist⟩ := hsubperm
  rw [← (hperm.map fun e => P.byteLength e.bytes).sum_eq]
  exact (hsublist.map _).sum_le_sum fun _ _ => Nat.zero_le _

/-- The run up to a cutoff. -/
theorem selectLifecycle_cut {domain : String} {options : StreamVerifierOptions}
    {entries : List (IndexedEntry Bytes)} {st : Selection Bytes} (hdet : Deterministic options)
    (h : selectLifecycle P domain options entries = .ok st) (c : ℕ) :
    ∃ st₁, ((sortByIndex entries).filter fun e => e.index ≤ c).foldlM
        (fun st entry => streamStep P domain options st (entry, 0)) .initial = .ok st₁ ∧
      st₁.selected = st.selected.filter fun item => item.index ≤ c := by
  have hcut := ordered_cut (sortByIndex_pairwise entries) (fun e => e.index ≤ c)
    (fun a b hab hb => by simp only [decide_eq_true_eq] at *; omega)
  rw [selectLifecycle, foldlM_zipIdx hdet, hcut] at h
  obtain ⟨st₁, h₁, h₂⟩ := foldlM_append_ok.mp h
  refine ⟨st₁, h₁, ?_⟩
  rw [← foldlM_zipIdx hdet _ 0] at h₁ h₂
  obtain ⟨more₁, heq₁, hsub₁⟩ := selected_grows h₁
  obtain ⟨more, heq, hsub⟩ := selected_grows h₂
  rw [List.zipIdx_map_fst] at hsub₁ hsub
  have hlow : ∀ item ∈ st₁.selected, item.index ≤ c := by
    rw [heq₁]
    intro item hitem
    obtain ⟨entry, hentry, hindex⟩ := index_of_sublist hsub₁ hitem
    rw [← hindex]
    exact of_decide_eq_true (List.mem_filter.mp hentry).2
  have hhigh : ∀ item ∈ more, c < item.index := by
    intro item hitem
    obtain ⟨entry, hentry, hindex⟩ := index_of_sublist hsub hitem
    rw [← hindex]
    simpa using (List.mem_filter.mp hentry).2
  rw [heq, List.filter_append, List.filter_eq_self.mpr fun item hitem => decide_eq_true (hlow item hitem),
    List.filter_eq_nil_iff.mpr fun item hitem => by simpa using hhigh item hitem, List.append_nil]

/-- Any part of the entries up to a cutoff that contains the verified events up to it, in any array order, gives
exactly these events. -/
theorem verifyStreamLifecycle_part {entries part : List (IndexedEntry Bytes)} {domain : String}
    {options : StreamVerifierOptions} {events : List (VerifiedLifecycleEvent Bytes)}
    {first : VerifiedLifecycleEvent Bytes} {c : ℕ} (hdet : Deterministic options)
    (hnodup : (entries.map IndexedEntry.index).Nodup)
    (h : verifyStreamLifecycle P entries domain options = .ok events)
    (hfirst : events.head? = some first) (hc : first.index ≤ c)
    (hcontains : ∀ item ∈ events, item.index ≤ c → entryOf item ∈ part)
    (hcontained : ∀ e ∈ part, e ∈ entries ∧ e.index ≤ c)
    (hlimits : part.Nodup ∨ withinInputLimits P part = true) :
    verifyStreamLifecycle P part domain options = .ok (events.filter fun item => item.index ≤ c) := by
  obtain ⟨hwithin, st, s, hselect, rfl, hselected⟩ := verifyStreamLifecycle_ok h
  obtain ⟨st₁, hrun, hcut⟩ := selectLifecycle_cut hdet hselect c
  -- The part is replayed to the same state: what it leaves out was passed over.
  have hpart : (sortByIndex part).foldlM (fun st entry => streamStep P domain options st (entry, 0))
      .initial = .ok st₁ := by
    refine foldlM_part IndexedEntry.index (fun st => st.selected.map entryOf) ?_ ?_ ?_
      _ _ _ _ ((sortByIndex_strict hnodup).filter _) (sortByIndex_pairwise part) ?_ hrun ?_
    · intro st e st' hstep
      cases streamStep_cases hstep with
      | skip => exact .inl rfl
      | start _ _ _ => exact .inr List.mem_cons_self
      | extend _ _ _ hextended =>
        rw [extendSelection_selected hextended]
        exact .inr (by simp [entryOf, candidateOf])
    · intro st e st' hstep b hb
      have hone : [(e, 0)].foldlM (streamStep P domain options) st = .ok st' := by
        rw [List.foldlM_cons, hstep]
        rfl
      obtain ⟨more, heq, -⟩ := selected_grows hone
      rw [heq, List.map_append]
      exact List.mem_append_left _ hb
    · exact fun st e st' hstep => streamStep_again hstep
    · intro e he
      obtain ⟨hmem, hle⟩ := hcontained e (List.mem_mergeSort.mp he)
      exact List.mem_filter.mpr ⟨List.mem_mergeSort.mpr hmem, decide_eq_true hle⟩
    · intro e _ he
      rw [hcut] at he
      obtain ⟨item, hitem, rfl⟩ := List.mem_map.mp he
      obtain ⟨hmem, hle⟩ := List.mem_filter.mp hitem
      exact List.mem_mergeSort.mpr (hcontains item hmem (of_decide_eq_true hle))
  have hinv : SelectionInv P domain options st₁ :=
    foldlM_invariant _ _ _ (fun e _ st st' hst hstep => hst.step hstep) (.inl rfl) hrun
  have hstarted : first ∈ st₁.selected := by
    rw [hcut]
    exact List.mem_filter.mpr ⟨List.mem_of_mem_head? hfirst, decide_eq_true hc⟩
  obtain rfl | ⟨s₁, hselected₁⟩ := hinv
  · cases hstarted
  have hlimits' : withinInputLimits P part = true :=
    hlimits.elim (fun hnodup' => withinInputLimits_subperm
      (hnodup'.subperm fun e he => (hcontained e he).1) hwithin) id
  unfold verifyStreamLifecycle
  refine bind_eq_ok.mpr ⟨(), throwIf_eq_ok.mpr (by simp [hlimits']), bind_eq_ok.mpr ⟨st₁, ?_, ?_⟩⟩
  · rw [selectLifecycle, foldlM_zipIdx hdet]
    exact hpart
  · exact bind_eq_ok.mpr ⟨(), thrownOf_ok.mpr hselected₁.verified, by rw [hcut]; rfl⟩

end Proof

/-- A bundle without the noise, in another order, gives the history of the scan. -/
theorem verifyStreamLifecycle_part_bundle :
    verifyStreamLifecycle samplePlatform [⟨5, sampleRotation⟩, ⟨3, sampleIssuance⟩] "a.example"
      sampleOptions = .ok [sampleItem 3 sampleIssuance, sampleItem 5 sampleRotation] := by
  have hverified : verifyStreamLifecycle samplePlatform
      [⟨3, sampleIssuance⟩, ⟨4, sampleOversigned⟩, ⟨5, sampleRotation⟩, ⟨7, sampleRotation⟩] "a.example"
      sampleOptions = .ok [sampleItem 3 sampleIssuance, sampleItem 5 sampleRotation] :=
    verifyStreamLifecycle_sorted (by decide) (by decide) (by decide +kernel)
  refine verifyStreamLifecycle_part (c := 6) (fun _ h => by cases h) (by decide) hverified rfl (by decide) ?_ ?_ (.inl ?_)
  · intro item hitem _
    obtain rfl | rfl : item = sampleItem 3 sampleIssuance ∨ item = sampleItem 5 sampleRotation := by
      simpa using hitem
    · exact List.mem_cons_of_mem _ List.mem_cons_self
    · exact List.mem_cons_self
  · intro e he
    obtain rfl | rfl : e = ⟨5, sampleRotation⟩ ∨ e = ⟨3, sampleIssuance⟩ := by simpa using he
    · exact ⟨by simp, by decide⟩
    · exact ⟨by simp, by decide⟩
  · simp

end Dnsid.Stream

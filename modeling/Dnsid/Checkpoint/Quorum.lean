import Dnsid.Checkpoint.Policy
import Mathlib.Data.List.Perm.Basic

/-! # What a checkpoint quorum means

`evaluateQuorum` keeps at every threshold the members with the latest minimum. Whatever accepted witnesses satisfy a
rule, their earliest timestamp is at most that of the result (`evaluateQuorum_of_satisfied`), and the result is the
timestamps of witnesses that satisfy the rule themselves (`evaluateQuorum_witnesses`).
-/
namespace Dnsid.Checkpoint
open Dnsid.Foundations Dnsid.Protocol List
set_option autoImplicit false

section Subperm
variable {A B : Type} {l l' : List A}

theorem flatMap_subperm (f : A → List B) (h : l <+~ l') : l.flatMap f <+~ l'.flatMap f := by
  obtain ⟨m, hperm, hsub⟩ := h
  exact ⟨m.flatMap f, hperm.flatMap_right f, hsub.flatMap f⟩

theorem filterMap_subperm (f : A → Option B) (h : l <+~ l') : l.filterMap f <+~ l'.filterMap f := by
  obtain ⟨m, hperm, hsub⟩ := h
  exact ⟨m.filterMap f, hperm.filterMap f, hsub.filterMap f⟩

theorem exists_of_forall₂_mem {r : A → B → Prop} {l : List A} {m : List B} (h : Forall₂ r l m) {a : A} (ha : a ∈ l) :
    ∃ b ∈ m, r a b := by
  induction h with
  | nil => cases ha
  | cons hab _ ih =>
    rcases List.mem_cons.mp ha with rfl | ha
    · exact ⟨_, List.mem_cons_self, hab⟩
    · obtain ⟨b, hb, hr⟩ := ih ha
      exact ⟨b, List.mem_cons_of_mem _ hb, hr⟩

theorem sublist_of_forall₂ {r : A → B → Prop} {l : List A} {m sub : List B} (h : Forall₂ r l m) (hsub : sub <+ m) :
    ∃ sub', sub' <+ l ∧ Forall₂ r sub' sub := by
  induction hsub generalizing l with
  | slnil => exact ⟨[], List.nil_sublist _, .nil⟩
  | cons b _ ih =>
    cases h with
    | cons _ hrest =>
      obtain ⟨sub', hsub', hr⟩ := ih hrest
      exact ⟨sub', hsub'.cons _, hr⟩
  | cons_cons b _ ih =>
    cases h with
    | cons hab hrest =>
      obtain ⟨sub', hsub', hr⟩ := ih hrest
      exact ⟨_ :: sub', hsub'.cons_cons _, .cons hab hr⟩

/-- What is picked from the right of a relation comes from the left. -/
theorem subperm_of_forall₂ {r : A → B → Prop} {l : List A} {m chosen : List B} (h : Forall₂ r l m)
    (hsub : chosen <+~ m) : ∃ chosen', chosen' <+~ l ∧ Forall₂ r chosen' chosen := by
  obtain ⟨sub, hperm, hsub⟩ := hsub
  obtain ⟨sub', hsub', hr⟩ := sublist_of_forall₂ h hsub
  obtain ⟨chosen', hchosen, hperm'⟩ := perm_comp_forall₂ hperm.symm hr.flip
  exact ⟨chosen', hperm'.subperm.trans hsub'.subperm, hchosen.flip⟩

end Subperm

theorem collectMembersKeys_eq (members : List NormalizedQuorumRule) :
    collectMembersKeys members = members.flatMap collectWitnessKeys := by
  induction members with
  | nil => rfl
  | cons member members ih => rw [collectMembersKeys, ih, List.flatMap_cons]

section Evaluate
variable {P : NotePlatform} {checkpoint : NoteCheckpoint} {nowMs : ℤ} {maxClockSkewMs : ℕ}

theorem evaluateMembers_eq (members : List NormalizedQuorumRule) :
    evaluateMembers P checkpoint nowMs maxClockSkewMs members =
      members.filterMap (evaluateQuorum P checkpoint nowMs maxClockSkewMs) := by
  induction members with
  | nil => rfl
  | cons member members ih =>
    rw [evaluateMembers, ih]
    cases h : evaluateQuorum P checkpoint nowMs maxClockSkewMs member with
    | none => simp [h]
    | some timestamps => simp [h]

/-- A threshold takes the timestamps of its best members, if there are enough. -/
theorem evaluateQuorum_threshold {threshold : ℕ} {members : List NormalizedQuorumRule} {timestamps : List ℕ} :
    evaluateQuorum P checkpoint nowMs maxClockSkewMs (.threshold threshold members) = some timestamps ↔
      threshold ≤ (members.filterMap (evaluateQuorum P checkpoint nowMs maxClockSkewMs)).length ∧
      ((sortDescending listMin (members.filterMap (evaluateQuorum P checkpoint nowMs maxClockSkewMs))).take
        threshold).flatten = timestamps := by
  rw [evaluateQuorum, evaluateMembers_eq, (sortDescending_perm listMin _).length_eq]
  by_cases h : (members.filterMap (evaluateQuorum P checkpoint nowMs maxClockSkewMs)).length < threshold
  · simp [h]
  · simp [h, Nat.le_of_not_lt h]

/-! ## The result comes from witnesses -/

/-- The witness lists of the chosen members, one after the other. -/
theorem witnesses_of_chosen (chosen : List (NormalizedQuorumRule × List ℕ))
    (h : ∀ p ∈ chosen, ∃ witnesses, witnesses <+~ collectWitnessKeys p.1 ∧
      Forall₂ (fun key timestamp => acceptedTimestamp P checkpoint nowMs maxClockSkewMs key = some timestamp)
        witnesses p.2 ∧ p.1.Satisfied (· ∈ witnesses) id) :
    ∃ witnesses, witnesses <+~ (chosen.map Prod.fst).flatMap collectWitnessKeys ∧
      Forall₂ (fun key timestamp => acceptedTimestamp P checkpoint nowMs maxClockSkewMs key = some timestamp)
        witnesses (chosen.map Prod.snd).flatten ∧ ∀ p ∈ chosen, p.1.Satisfied (· ∈ witnesses) id := by
  induction chosen with
  | nil => exact ⟨[], by simp, by simp, by simp⟩
  | cons p chosen ih =>
    obtain ⟨first, hsub, htimes, hsat⟩ := h p List.mem_cons_self
    obtain ⟨rest, hsub', htimes', hsat'⟩ := ih fun q hq => h q (List.mem_cons_of_mem p hq)
    refine ⟨first ++ rest, ?_, ?_, ?_⟩
    · rw [List.map_cons, List.flatMap_cons]
      exact hsub.append hsub'
    · rw [List.map_cons, List.flatten_cons]
      exact List.rel_append htimes htimes'
    · intro q hq
      rcases List.mem_cons.mp hq with rfl | hq
      · exact hsat.mono fun key hkey => List.mem_append_left _ hkey
      · exact (hsat' q hq).mono fun key hkey => List.mem_append_right _ hkey

theorem evaluateQuorum_witnesses (rule : NormalizedQuorumRule) :
    ∀ timestamps, evaluateQuorum P checkpoint nowMs maxClockSkewMs rule = some timestamps →
      ∃ witnesses, witnesses <+~ collectWitnessKeys rule ∧
        Forall₂ (fun key timestamp => acceptedTimestamp P checkpoint nowMs maxClockSkewMs key = some timestamp)
          witnesses timestamps ∧ rule.Satisfied (· ∈ witnesses) id := by
  induction rule using ThresholdRule.memberInduction with
  | none =>
    intro timestamps h
    rw [evaluateQuorum, Option.some.injEq] at h
    subst h
    exact ⟨[], by simp, by simp, .none⟩
  | witness key =>
    intro timestamps h
    rw [evaluateQuorum] at h
    obtain ⟨timestamp, htime, rfl⟩ := Option.map_eq_some_iff.mp h
    exact ⟨[key], by simp [collectWitnessKeys], by simpa using htime, .witness (by simp)⟩
  | threshold threshold members ih =>
    intro timestamps h
    obtain ⟨hcount, rfl⟩ := evaluateQuorum_threshold.mp h
    obtain ⟨chosen, hsnd, hfst, hchosen⟩ :=
      exists_chosen (evaluateQuorum P checkpoint nowMs maxClockSkewMs) listMin members threshold
    have hmember : ∀ p ∈ chosen, p.1 ∈ members := fun p hp => hfst.subset (List.mem_map_of_mem hp)
    obtain ⟨witnesses, hsub, htimes, hsat⟩ :=
      witnesses_of_chosen chosen fun p hp => ih p.1 (hmember p hp) p.2 (hchosen p hp)
    have hlen : chosen.length = threshold := by
      have := congrArg List.length hsnd
      rw [List.length_map, List.length_take, (sortDescending_perm listMin _).length_eq] at this
      omega
    refine ⟨witnesses, ?_, ?_, ?_⟩
    · rw [collectWitnessKeys, collectMembersKeys_eq]
      exact hsub.trans (flatMap_subperm _ hfst)
    · rw [← hsnd]
      exact htimes
    · refine .threshold (chosen.map Prod.fst) hfst (by rw [List.length_map, hlen]; exact le_rfl) ?_
      intro member hmem
      obtain ⟨p, hp, rfl⟩ := List.mem_map.mp hmem
      exact hsat p hp

/-! ## No witnesses do better -/

theorem evaluateQuorum_of_satisfied {holds : SignedNoteKey → Prop} {m : WithTop ℕ} {rule : NormalizedQuorumRule}
    (h : rule.Satisfied holds id)
    (haccepted : ∀ key, holds key → ∃ timestamp, acceptedTimestamp P checkpoint nowMs maxClockSkewMs key =
      some timestamp ∧ m ≤ WithTop.some timestamp) :
    ∃ timestamps, evaluateQuorum P checkpoint nowMs maxClockSkewMs rule = some timestamps ∧ m ≤ listMin timestamps := by
  induction h with
  | none => exact ⟨[], by rw [evaluateQuorum], by simp [listMin]⟩
  | witness hkey =>
    obtain ⟨timestamp, htime, hle⟩ := haccepted _ hkey
    exact ⟨[timestamp], by rw [evaluateQuorum, htime, Option.map_some], by simpa [listMin] using hle⟩
  | @threshold threshold members chosen hsub hcount hchosen ih =>
    have hall : ∀ timestamps ∈ chosen.filterMap (evaluateQuorum P checkpoint nowMs maxClockSkewMs),
        decide (m ≤ listMin timestamps) = true := by
      intro timestamps hmem
      obtain ⟨member, hmember, hresult⟩ := List.mem_filterMap.mp hmem
      obtain ⟨timestamps', hresult', hle⟩ := ih member hmember
      rw [hresult', Option.some.injEq] at hresult
      rw [← hresult, decide_eq_true_eq]
      exact hle
    have hlen : (chosen.filterMap (evaluateQuorum P checkpoint nowMs maxClockSkewMs)).length = chosen.length := by
      refine List.filterMap_length_eq_length.mpr fun member hmember => ?_
      obtain ⟨timestamps, hresult, _⟩ := ih member hmember
      rw [hresult]
      rfl
    have henough : threshold ≤ (members.filterMap (evaluateQuorum P checkpoint nowMs maxClockSkewMs)).countP
        (fun timestamps => m ≤ listMin timestamps) := by
      have hcountP := (filterMap_subperm (evaluateQuorum P checkpoint nowMs maxClockSkewMs) hsub).countP_le
        fun timestamps => decide (m ≤ listMin timestamps)
      rw [List.countP_eq_length.mpr hall, hlen] at hcountP
      exact hcount.trans hcountP
    refine ⟨_, evaluateQuorum_threshold.mpr ⟨henough.trans List.countP_le_length, rfl⟩, ?_⟩
    refine le_listMin.mpr fun timestamp hmem => ?_
    obtain ⟨timestamps, htimestamps, hmem⟩ := List.mem_flatten.mp hmem
    exact le_listMin.mp (take_sortDescending henough timestamps htimestamps) timestamp hmem

/-- The accepted time of a key, infinite when it has none. -/
def acceptedTime (P : NotePlatform) (checkpoint : NoteCheckpoint) (nowMs : ℤ) (maxClockSkewMs : ℕ)
    (key : SignedNoteKey) : WithTop ℕ :=
  (acceptedTimestamp P checkpoint nowMs maxClockSkewMs key).elim ⊤ WithTop.some

/-- The earliest times of the sets of accepted witnesses that satisfy the rule. -/
def quorumTimes (P : NotePlatform) (checkpoint : NoteCheckpoint) (nowMs : ℤ) (maxClockSkewMs : ℕ)
    (rule : NormalizedQuorumRule) : Set (WithTop ℕ) :=
  {m | ∃ S : Set SignedNoteKey, (∀ key ∈ S, (acceptedTimestamp P checkpoint nowMs maxClockSkewMs key).isSome = true) ∧
    rule.Satisfied (· ∈ S) id ∧ m = ⨅ key ∈ S, acceptedTime P checkpoint nowMs maxClockSkewMs key}

theorem iInf_acceptedTime {witnesses : List SignedNoteKey} {timestamps : List ℕ}
    (h : Forall₂ (fun key timestamp => acceptedTimestamp P checkpoint nowMs maxClockSkewMs key = some timestamp)
      witnesses timestamps) :
    listMin timestamps = ⨅ key ∈ {key | key ∈ witnesses}, acceptedTime P checkpoint nowMs maxClockSkewMs key := by
  refine eq_of_forall_le_iff fun m => ?_
  rw [le_listMin, le_iInf₂_iff]
  induction h with
  | nil => simp
  | @cons key timestamp witnesses timestamps hkey _ ih =>
    simp only [List.forall_mem_cons, Set.mem_ofPred_eq] at ih ⊢
    rw [ih, acceptedTime, hkey]
    rfl

/-- **Evaluation is exact**: a list is returned exactly when the accepted witnesses satisfy the rule, and no set of
accepted witnesses that satisfies it has a later minimum. -/
theorem evaluateQuorum_exact (P : NotePlatform) (checkpoint : NoteCheckpoint) (nowMs : ℤ) (maxClockSkewMs : ℕ)
    (rule : NormalizedQuorumRule) :
    ((evaluateQuorum P checkpoint nowMs maxClockSkewMs rule).isSome = true ↔
      rule.Satisfied (fun key => (acceptedTimestamp P checkpoint nowMs maxClockSkewMs key).isSome = true) id) ∧
    ∀ timestamps, evaluateQuorum P checkpoint nowMs maxClockSkewMs rule = some timestamps →
      IsGreatest (quorumTimes P checkpoint nowMs maxClockSkewMs rule) (listMin timestamps) := by
  refine ⟨⟨?_, ?_⟩, ?_⟩
  · intro h
    obtain ⟨timestamps, hresult⟩ := Option.isSome_iff_exists.mp h
    obtain ⟨witnesses, _, htimes, hsat⟩ := evaluateQuorum_witnesses rule timestamps hresult
    refine hsat.mono fun key hkey => ?_
    obtain ⟨timestamp, _, htime⟩ := exists_of_forall₂_mem htimes hkey
    rw [htime]
    rfl
  · intro h
    obtain ⟨timestamps, hresult, _⟩ := evaluateQuorum_of_satisfied (m := WithTop.some 0) h fun key hkey => by
      obtain ⟨timestamp, htime⟩ := Option.isSome_iff_exists.mp hkey
      exact ⟨timestamp, htime, WithTop.coe_le_coe.mpr (Nat.zero_le _)⟩
    rw [hresult]
    rfl
  · intro timestamps hresult
    constructor
    · obtain ⟨witnesses, _, htimes, hsat⟩ := evaluateQuorum_witnesses rule timestamps hresult
      refine ⟨{key | key ∈ witnesses}, ?_, hsat, iInf_acceptedTime htimes⟩
      intro key hkey
      obtain ⟨timestamp, _, htime⟩ := exists_of_forall₂_mem htimes hkey
      rw [htime]
      rfl
    · rintro m ⟨S, haccepted, hsat, rfl⟩
      have htimes : ∀ key ∈ S, ∃ timestamp, acceptedTimestamp P checkpoint nowMs maxClockSkewMs key = some timestamp ∧
          (⨅ key ∈ S, acceptedTime P checkpoint nowMs maxClockSkewMs key) ≤ WithTop.some timestamp := by
        intro key hkey
        obtain ⟨timestamp, htime⟩ := Option.isSome_iff_exists.mp (haccepted key hkey)
        refine ⟨timestamp, htime, (iInf₂_le key hkey).trans ?_⟩
        rw [acceptedTime, htime]
        exact le_rfl
      obtain ⟨timestamps', hresult', hle⟩ := evaluateQuorum_of_satisfied hsat htimes
      rw [hresult', Option.some.injEq] at hresult
      rw [← hresult]
      exact hle

end Evaluate

/-! ## Distinct witnesses -/

theorem keyIdentity_eq_iff {key other : SignedNoteKey} :
    keyIdentity key = keyIdentity other ↔ key.keyBytes = other.keyBytes := by
  rw [keyIdentity, keyIdentity, List.append_right_inj, toHex_injective.eq_iff]

theorem nodup_keyBytes {keys : List SignedNoteKey} (h : (keys.map keyIdentity).Nodup) :
    (keys.map SignedNoteKey.keyBytes).Nodup := by
  rw [List.Nodup, List.pairwise_map] at h ⊢
  exact h.imp fun hne heq => hne (keyIdentity_eq_iff.mpr heq)

theorem keyBytes_ne_of_sharesKey {keys others : List SignedNoteKey} (h : ¬ sharesKey keys others = true) :
    ∀ key ∈ keys, ∀ other ∈ others, key.keyBytes ≠ other.keyBytes := by
  intro key hkey other hother heq
  refine h ?_
  rw [sharesKey, List.any_eq_true]
  refine ⟨key, hkey, ?_⟩
  rw [List.contains_iff_mem, keyIdentity_eq_iff.mpr heq]
  exact List.mem_map_of_mem hother

/-! ## The configured rule -/

def thresholdValue (threshold : Option ℤ) : ℕ := (threshold.getD 0).toNat

/-- The rule as the policy gives it: `quorumRule`, or `quorum` of the `witnessKeys`. -/
def configuredRule (p : C2spTlogOriginPolicy) : C2spTlogQuorumRule :=
  p.quorumRule.getD (if thresholdValue (p.quorum.getD (some 0)) = 0 then .none
    else .threshold (p.quorum.getD (some 0)) ((p.witnessKeys.getD []).map .witness))

/-- The source stands for one of the keys. -/
def NamesOneOf (keys : List SignedNoteKey) (source : KeySource) : Prop := ∃ key ∈ keys, asKey source = .ok key

theorem safeFrom_eq_some {least n : ℕ} {number : Option ℤ} (h : safeFrom least number = some n) :
    thresholdValue number = n := by
  cases number with
  | none => cases h
  | some number =>
    simp only [safeFrom] at h
    split at h
    · exact Option.some.inj h
    · cases h

theorem normalizeMembers_eq_ok {members : List C2spTlogQuorumRule} {normalized : List NormalizedQuorumRule} :
    normalizeMembers members = .ok normalized ↔
      Forall₂ (fun member result => normalizeQuorumRule member = .ok result) members normalized := by
  induction members generalizing normalized with
  | nil => simp [normalizeMembers, eq_comm]
  | cons member members ih =>
    simp only [normalizeMembers, bind_eq_ok, pure_eq_ok, ih, List.forall₂_cons_left_iff]
    constructor
    · rintro ⟨first, hfirst, rest, hrest, rfl⟩
      exact ⟨first, rest, hfirst, hrest, rfl⟩
    · rintro ⟨first, rest, hfirst, hrest, rfl⟩
      exact ⟨first, hfirst, rest, hrest, rfl⟩

/-- A normalized rule is satisfied like the rule it came from. -/
theorem satisfied_of_normalized {keys : List SignedNoteKey} (rule : C2spTlogQuorumRule) :
    ∀ normalized, normalizeQuorumRule rule = .ok normalized → normalized.Satisfied (· ∈ keys) id →
      rule.Satisfied (NamesOneOf keys) thresholdValue := by
  induction rule using ThresholdRule.memberInduction with
  | none =>
    intro normalized _ _
    exact .none
  | witness source =>
    intro normalized h hsat
    simp only [normalizeQuorumRule, bind_eq_ok, pure_eq_ok] at h
    obtain ⟨key, hkey, rfl⟩ := h
    cases hsat with
    | witness hmem => exact .witness ⟨key, hmem, hkey⟩
  | threshold count members ih =>
    intro normalized h hsat
    simp only [normalizeQuorumRule, bind_eq_ok, pure_eq_ok, orThrow_eq_ok, normalizeMembers_eq_ok] at h
    obtain ⟨threshold, hthreshold, _, _, results, hresults, rfl⟩ := h
    cases hsat with
    | threshold chosen hsub hcount hchosen =>
      obtain ⟨sources, hsources, hrel⟩ := subperm_of_forall₂ hresults hsub
      refine .threshold sources hsources ?_ ?_
      · rw [safeFrom_eq_some hthreshold, hrel.length_eq]
        exact hcount
      · intro source hsource
        obtain ⟨member, hmember, hnormalized⟩ := exists_of_forall₂_mem hrel hsource
        exact ih source (hsources.subset hsource) member hnormalized (hchosen member hmember)

/-- The rule made from `quorum` and the parsed witness keys, read back as the policy gives it. -/
theorem configured_of_flat {sources : List KeySource} {witnessKeys keys : List SignedNoteKey} {quorum : ℕ}
    {number : Option ℤ} (hkeys : sources.mapM asKey = .ok witnessKeys) (hquorum : thresholdValue number = quorum)
    (h : (flatQuorumRule witnessKeys quorum).Satisfied (NamesOneOf keys) thresholdValue) :
    ThresholdRule.Satisfied (NamesOneOf keys) thresholdValue
      (if thresholdValue number = 0 then .none else .threshold number (sources.map .witness)) := by
  rw [flatQuorumRule] at h
  rw [hquorum]
  by_cases hzero : quorum = 0
  · rw [if_pos hzero]
    exact .none
  · rw [if_neg hzero] at h ⊢
    have hrel : Forall₂ (fun source rule => rule.Satisfied (NamesOneOf keys) thresholdValue →
        ThresholdRule.Satisfied (NamesOneOf keys) thresholdValue source)
        (sources.map .witness) (witnessKeys.map fun key => (.witness (.key key) : C2spTlogQuorumRule)) := by
      rw [List.forall₂_map_left_iff, List.forall₂_map_right_iff]
      refine (mapM_eq_ok.mp hkeys).imp fun source key hkey hsat => ?_
      cases hsat with
      | witness hone =>
        obtain ⟨other, hmem, hother⟩ := hone
        rw [asKey, Except.ok.injEq] at hother
        exact .witness ⟨key, hother ▸ hmem, hkey⟩
    cases h with
    | threshold chosen hsub hcount hchosen =>
      obtain ⟨members, hmembers, hsat⟩ := subperm_of_forall₂ hrel hsub
      refine .threshold members hmembers ?_ ?_
      · rw [hquorum, hsat.length_eq]
        exact hcount
      · intro member hmember
        obtain ⟨rule, hrule, himp⟩ := exists_of_forall₂_mem hsat hmember
        exact himp (hchosen rule hrule)

/-! ## The policy of an origin -/

/-- What the checks of `normalizedOriginPolicy` leave. -/
structure OriginPolicyOk (p : C2spTlogOriginPolicy) (n : NormalizedOriginPolicy) : Prop where
  logKeys : p.logKeys.mapM asKey = .ok n.logKeys
  logTypes : ∀ key ∈ n.logKeys, unsupportedLogType key = false
  distinct : ((collectWitnessKeys n.quorumRule).map keyIdentity).Nodup
  separate : ¬ sharesKey (collectWitnessKeys n.quorumRule) n.logKeys = true
  rule : ∀ keys, n.quorumRule.Satisfied (· ∈ keys) id → (configuredRule p).Satisfied (NamesOneOf keys) thresholdValue

theorem originPolicyOk_of_ok {policy : C2spTlogPolicy} {origin : String} {n : NormalizedOriginPolicy}
    (h : normalizedOriginPolicy policy origin = .ok n) : ∃ p, policy.origins origin = some p ∧ OriginPolicyOk p n := by
  simp only [normalizedOriginPolicy, assertDistinctUnderlyingKeys, bind_eq_ok, throwIf_eq_ok, orThrow_eq_ok,
    pure_eq_ok] at h
  obtain ⟨p, horigin, logKeys, hlogKeys, witnessKeys, hwitnessKeys, quorum, hquorum, _, _, _, _, _, _, _, htypes,
    _, _, _, _, _, _, _, _, quorumRule, hrule, _, _, _, hdistinct, _, hseparate, rfl⟩ := h
  refine ⟨p, horigin, hlogKeys, ?_, not_not.mp hdistinct, hseparate, ?_⟩
  · intro key hkey
    rw [List.any_eq_true] at htypes
    exact Bool.eq_false_iff.mpr fun htype => htypes ⟨key, hkey, htype⟩
  · intro keys hsat
    have hconfigured := satisfied_of_normalized _ _ hrule hsat
    cases hgiven : p.quorumRule with
    | some rule =>
      rw [hgiven] at hconfigured
      rw [configuredRule, hgiven]
      exact hconfigured
    | none =>
      rw [hgiven] at hconfigured
      rw [configuredRule, hgiven]
      exact configured_of_flat hwitnessKeys (safeFrom_eq_some hquorum) hconfigured

section Enforce
variable {P : NotePlatform}

/-- A log signature of the key over the signed text. -/
structure LogSigned (P : NotePlatform) (checkpoint : NoteCheckpoint) (key : SignedNoteKey) (sig : NoteSignature) :
    Prop where
  mem : sig ∈ checkpoint.signatures
  name : sig.name = key.name
  keyId : keyIdMatches sig key = true
  size : key.keyBytes.length = 32 ∧ sig.signature.length = 64
  verifies : P.cryptoVerify checkpoint.signedText key.keyBytes sig.signature = true

theorem logSigned_of_verified {checkpoint : NoteCheckpoint} {key : SignedNoteKey}
    (htype : unsupportedLogType key = false) (h : verifyCheckpointSignature P checkpoint key = true) :
    ∃ sig, LogSigned P checkpoint key sig := by
  rw [verifyCheckpointSignature, List.any_eq_true] at h
  obtain ⟨sig, hmem, hsig⟩ := h
  simp only [Bool.and_eq_true, decide_eq_true_eq] at hsig
  obtain ⟨⟨hname, hid⟩, hverify⟩ := hsig
  have hbyte : ((key.signatureType.bind fun type => type[0]?).getD 0x01) = 0x01 := by
    cases hkey : key.signatureType with
    | none => rfl
    | some type =>
      obtain rfl : type = [0x01] := by simpa [unsupportedLogType, hkey] using htype
      rfl
  simp only [verifyNoteSignature, hbyte] at hverify
  split at hverify
  · cases hverify
  case isFalse hbytes =>
    split at hverify
    · cases hverify
    · simp only [if_true, Bool.and_eq_true, decide_eq_true_eq] at hverify
      exact ⟨sig, hmem, hname, hid, ⟨by simpa using hbytes, hverify.1⟩, hverify.2⟩

theorem accepted_spec {checkpoint : NoteCheckpoint} {nowMs : ℤ} {maxClockSkewMs timestamp : ℕ} {key : SignedNoteKey}
    (h : acceptedTimestamp P checkpoint nowMs maxClockSkewMs key = some timestamp) :
    (∃ sig, Cosigned P checkpoint key sig timestamp) ∧ (timestamp : ℤ) * 1000 ≤ nowMs + maxClockSkewMs := by
  rw [acceptedTimestamp, Option.filter_eq_some_iff] at h
  exact ⟨cosigned_of_verified h.1, of_decide_eq_true h.2⟩

/-- The accepted timestamps come from distinct witnesses, apart from the log, that satisfy the rule of the policy. -/
def DistinctlyWitnessed (P : NotePlatform) (checkpoint : NoteCheckpoint) (origin : String) (policy : C2spTlogPolicy)
    (scope : String) (nowMs : ℤ) (maxClockSkewMs : Option ℤ) (timestamps : List ℕ) : Prop :=
  ∃ (p : C2spTlogOriginPolicy) (logKeys witnesses : List SignedNoteKey) (skew : ℕ),
    policy.origins origin = some p ∧ p.logKeys.mapM asKey = .ok logKeys ∧ safeFrom 0 maxClockSkewMs = some skew ∧
    (∃ key ∈ acceptedLogKeys scope logKeys, ∃ sig, LogSigned P checkpoint key sig) ∧
    Forall₂ (fun key timestamp => (∃ sig, Cosigned P checkpoint key sig timestamp) ∧
      (timestamp : ℤ) * 1000 ≤ nowMs + skew) witnesses timestamps ∧
    (witnesses.map SignedNoteKey.keyBytes).Nodup ∧
    (∀ witness ∈ witnesses, ∀ key ∈ logKeys, witness.keyBytes ≠ key.keyBytes) ∧
    (configuredRule p).Satisfied (NamesOneOf witnesses) thresholdValue

theorem distinctlyWitnessed_of_accepted {checkpoint : NoteCheckpoint} {origin : String}
    {policy : C2spTlogPolicy} {scope : String} {nowMs : ℤ} {maxClockSkewMs : Option ℤ} {result : CheckpointPolicyResult}
    (h : enforceCheckpointPolicy P checkpoint origin policy scope nowMs maxClockSkewMs = .ok result) :
    DistinctlyWitnessed P checkpoint origin policy scope nowMs maxClockSkewMs result.acceptedWitnessTimestamps := by
  simp only [enforceCheckpointPolicy, bind_eq_ok, throwIf_eq_ok, orThrow_eq_ok, pure_eq_ok] at h
  obtain ⟨skew, hskew, _, _, _, _, _, _, n, hn, _, hlog, _, _, timestamps, hquorum, rfl⟩ := h
  obtain ⟨p, horigin, hok⟩ := originPolicyOk_of_ok hn
  obtain ⟨witnesses, hsub, htimes, hsat⟩ := evaluateQuorum_witnesses n.quorumRule timestamps hquorum
  refine ⟨p, n.logKeys, witnesses, skew, horigin, hok.logKeys, hskew, ?_, ?_, ?_, ?_, hok.rule witnesses hsat⟩
  · rw [Bool.not_eq_true', Bool.not_eq_false, List.any_eq_true] at hlog
    obtain ⟨key, hkey, hverify⟩ := hlog
    have hmem : key ∈ n.logKeys := by
      rw [acceptedLogKeys] at hkey
      split at hkey
      · exact (List.mem_filter.mp hkey).1
      · exact hkey
    exact ⟨key, hkey, logSigned_of_verified (hok.logTypes key hmem) hverify⟩
  · exact htimes.imp fun key timestamp htime => accepted_spec htime
  · obtain ⟨sub, hperm, hsub⟩ := hsub
    have hnodup := (hsub.map SignedNoteKey.keyBytes).nodup (nodup_keyBytes hok.distinct)
    exact (hperm.map SignedNoteKey.keyBytes).nodup_iff.mp hnodup
  · intro witness hwitness
    exact keyBytes_ne_of_sharesKey hok.separate witness (hsub.subset hwitness)

/-- **No witness counts twice.** The accepted timestamps come one each from cosigning witnesses with pairwise
different Ed25519 keys, none of them a log key of the origin, and these witnesses satisfy the configured rule. -/
theorem enforceCheckpointPolicy_distinct_witnesses {checkpoint : NoteCheckpoint} {origin : String}
    {policy : C2spTlogPolicy} {scope : String} {nowMs : ℤ} {maxClockSkewMs : Option ℤ} {result : CheckpointPolicyResult}
    (h : enforceCheckpointPolicy P checkpoint origin policy scope nowMs maxClockSkewMs = .ok result) :
    ∃ (p : C2spTlogOriginPolicy) (logKeys witnesses : List SignedNoteKey) (skew : ℕ),
      policy.origins origin = some p ∧ p.logKeys.mapM asKey = .ok logKeys ∧ safeFrom 0 maxClockSkewMs = some skew ∧
      (∃ key ∈ acceptedLogKeys scope logKeys, ∃ sig, LogSigned P checkpoint key sig) ∧
      Forall₂ (fun key timestamp => (∃ sig, Cosigned P checkpoint key sig timestamp) ∧
        (timestamp : ℤ) * 1000 ≤ nowMs + skew) witnesses result.acceptedWitnessTimestamps ∧
      (witnesses.map SignedNoteKey.keyBytes).Nodup ∧
      (∀ witness ∈ witnesses, ∀ key ∈ logKeys, witness.keyBytes ≠ key.keyBytes) ∧
      (configuredRule p).Satisfied (NamesOneOf witnesses) thresholdValue :=
  distinctlyWitnessed_of_accepted h

end Enforce

/-! ## A log with two witnesses -/

def sampleKey (name : String) (type byte : UInt8) : SignedNoteKey :=
  ⟨name, List.replicate 32 byte, none, some [type]⟩

def sampleLogKey : SignedNoteKey := sampleKey "log" 0x01 1

def sampleWitnessKeys : List SignedNoteKey := [sampleKey "first" 0x04 2, sampleKey "second" 0x04 3]

/-- The signature of a key repeats its first byte. -/
def samplePlatform : NotePlatform where
  emptyRoot := []
  cryptoVerify _ keyBytes signature := signature = List.replicate 64 (keyBytes.headD 0)

def sampleCosignature (name : String) (seconds byte : UInt8) : NoteSignature :=
  ⟨name, none, [0, 0, 0, 0, 0, 0, 0, seconds] ++ List.replicate 64 byte⟩

def sampleCheckpoint : NoteCheckpoint where
  origin := "log"
  treeSize := 1
  rootHash := []
  signatures := [⟨"log", none, List.replicate 64 1⟩, sampleCosignature "second" 3 3, sampleCosignature "first" 4 2]
  signedText := "log"

def samplePolicy : C2spTlogPolicy where
  scope := none
  origins _ := some { logKeys := [.key sampleLogKey], witnessKeys := some (sampleWitnessKeys.map .key), quorum := some (some 2) }

theorem samplePolicy_quorum :
    evaluateQuorum samplePlatform sampleCheckpoint 5000 0 (.threshold 2 (sampleWitnessKeys.map .witness)) =
      some [4, 3] := by
  have hmembers : (sampleWitnessKeys.map ThresholdRule.witness).filterMap
      (evaluateQuorum samplePlatform sampleCheckpoint 5000 0) = [[4], [3]] := by decide
  have hsorted : sortDescending listMin [[4], [3]] = [[4], [3]] := List.mergeSort_of_pairwise (by decide)
  refine evaluateQuorum_threshold.mpr ?_
  rw [hmembers, hsorted]
  exact ⟨by decide, rfl⟩

theorem samplePolicy_accepted :
    enforceCheckpointPolicy samplePlatform sampleCheckpoint "log" samplePolicy "local" 5000 (some 0) =
      .ok ⟨[4, 3], some (some 3000)⟩ := by
  have hpolicy : normalizedOriginPolicy samplePolicy "log" =
      .ok ⟨[sampleLogKey], sampleWitnessKeys, 2, .threshold 2 (sampleWitnessKeys.map .witness)⟩ := by rfl
  simp only [enforceCheckpointPolicy, bind_eq_ok, throwIf_eq_ok, orThrow_eq_ok, pure_eq_ok]
  exact ⟨0, rfl, (), by decide, (), by decide, (), by decide, _, hpolicy, (), by decide, (), by decide,
    [4, 3], samplePolicy_quorum, rfl⟩

theorem samplePolicy_distinct_witnesses :
    enforceCheckpointPolicy samplePlatform sampleCheckpoint "log" samplePolicy "local" 5000 (some 0) =
      .ok ⟨[4, 3], some (some 3000)⟩ ∧
    ∃ witnesses : List SignedNoteKey, (witnesses.map SignedNoteKey.keyBytes).Nodup ∧
      Forall₂ (fun key timestamp => ∃ sig, Cosigned samplePlatform sampleCheckpoint key sig timestamp)
        witnesses [4, 3] := by
  obtain ⟨_, _, witnesses, _, _, _, _, _, htimes, hdistinct, _, _⟩ :=
    enforceCheckpointPolicy_distinct_witnesses samplePolicy_accepted
  exact ⟨samplePolicy_accepted, witnesses, hdistinct, htimes.imp fun _ _ h => h.1⟩

end Dnsid.Checkpoint

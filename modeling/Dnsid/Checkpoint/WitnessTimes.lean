import Dnsid.Checkpoint.Quorum

/-! # When the witness time of a checkpoint is there, and when it is one

A rule that nobody has to satisfy is met by no timestamps, at whatever depth it stands. A witness counts with the first
of its signature lines that verifies. The time of a line is the same for all keys, so one sorting of the note puts the
best line of every witness first, and its reverse the worst: every other order lies between these two.
-/
namespace Dnsid.Checkpoint
open Dnsid.Foundations List
set_option autoImplicit false

variable {P : NotePlatform} {checkpoint : NoteCheckpoint} {origin : String} {policy : C2spTlogPolicy} {scope : String}
  {nowMs : ℤ}

/-! ## Rules without witnesses -/

section Public
variable {maxClockSkewMs : ℕ} {rule : NormalizedQuorumRule}

/-- The quorum is met by no timestamps exactly when the rule asks for no key. -/
theorem evaluateQuorum_eq_nil :
    evaluateQuorum P checkpoint nowMs maxClockSkewMs rule = some [] ↔ rule.Satisfied (fun _ => False) id := by
  constructor
  · intro h
    obtain ⟨witnesses, -, htimes, hsat⟩ := evaluateQuorum_witnesses rule [] h
    obtain rfl := List.forall₂_nil_right_iff.mp htimes
    exact hsat.mono fun key hkey => List.not_mem_nil hkey
  · intro h
    obtain ⟨timestamps, hresult, hmin⟩ : ∃ timestamps,
        evaluateQuorum P checkpoint nowMs maxClockSkewMs rule = some timestamps ∧ ⊤ ≤ listMin timestamps :=
      evaluateQuorum_of_satisfied h fun key hkey => absurd hkey id
    cases timestamps with
    | nil => exact hresult
    | cons timestamp timestamps =>
      have htop := le_listMin.mp hmin timestamp List.mem_cons_self
      exact absurd htop (by simp)

theorem witnessTimeOf_eq_none {timestamps : List ℕ} : witnessTimeOf timestamps = none ↔ timestamps = [] := by
  rw [witnessTimeOf, Option.map_eq_none_iff, List.min?_eq_none_iff]

end Public

/-- A checkpoint accepted in public scope has a witness and a witness time exactly when the rule of its origin cannot be
satisfied without a key. -/
theorem public_witness_iff {maxClockSkewMs : Option ℤ} {result : CheckpointPolicyResult}
    (h : enforceCheckpointPolicy P checkpoint origin policy "public" nowMs maxClockSkewMs = .ok result) :
    ∃ n, normalizedOriginPolicy policy origin = .ok n ∧
      (result.acceptedWitnessTimestamps ≠ [] ∧ result.checkpointWitnessTime ≠ none ↔
        ¬ n.quorumRule.Satisfied (fun _ => False) id) := by
  simp only [enforceCheckpointPolicy, bind_eq_ok, throwIf_eq_ok, orThrow_eq_ok, pure_eq_ok] at h
  obtain ⟨skew, -, _, -, _, -, _, -, n, hn, _, -, _, -, timestamps, hquorum, rfl⟩ := h
  refine ⟨n, hn, ?_⟩
  have hnil : timestamps = [] ↔ n.quorumRule.Satisfied (fun _ => False) id := by
    rw [← evaluateQuorum_eq_nil, hquorum, Option.some.injEq]
  rw [Ne, Ne, witnessTimeOf_eq_none, hnil, and_self]

theorem samplePolicy_accepted_public :
    enforceCheckpointPolicy samplePlatform sampleCheckpoint "log" samplePolicy "public" 5000 (some 0) =
      .ok ⟨[4, 3], some (some 3000)⟩ := by
  have hpolicy : normalizedOriginPolicy samplePolicy "log" =
      .ok ⟨[sampleLogKey], sampleWitnessKeys, 2, .threshold 2 (sampleWitnessKeys.map .witness)⟩ := by rfl
  simp only [enforceCheckpointPolicy, bind_eq_ok, throwIf_eq_ok, orThrow_eq_ok, pure_eq_ok]
  exact ⟨0, rfl, (), by decide, (), by decide, (), by decide, _, hpolicy,
    (), by rw [Bool.not_eq_true]; rfl, (), by decide, [4, 3], samplePolicy_quorum, rfl⟩

theorem samplePolicy_public_witness :
    ∃ n, normalizedOriginPolicy samplePolicy "log" = .ok n ∧
      ([4, 3] ≠ [] ∧ some (some 3000) ≠ none ↔ ¬ n.quorumRule.Satisfied (fun _ => False) id) :=
  public_witness_iff samplePolicy_accepted_public

/-- One of no witnesses. -/
def emptyThresholdPolicy : C2spTlogPolicy where
  scope := none
  origins _ := some { logKeys := [.key sampleLogKey], quorumRule := some (.threshold (some 1) [.none]) }

/-- The nested rule passes for a quorum, and the result has no witness. -/
theorem emptyThresholdPolicy_no_witness :
    enforceCheckpointPolicy samplePlatform sampleCheckpoint "log" emptyThresholdPolicy "public" 5000 (some 0) =
      .ok ⟨[], none⟩ := by
  have hpolicy : normalizedOriginPolicy emptyThresholdPolicy "log" =
      .ok ⟨[sampleLogKey], [], 1, .threshold 1 [.none]⟩ := by rfl
  have hquorum : evaluateQuorum samplePlatform sampleCheckpoint 5000 0 (.threshold 1 [.none]) = some [] :=
    evaluateQuorum_eq_nil.mpr (.threshold [.none] (List.Subperm.refl _) le_rfl fun member hmem =>
      List.mem_singleton.mp hmem ▸ .none)
  simp only [enforceCheckpointPolicy, bind_eq_ok, throwIf_eq_ok, orThrow_eq_ok, pure_eq_ok]
  exact ⟨0, rfl, (), by decide, (), by decide, (), by decide, _, hpolicy,
    (), by rw [Bool.not_eq_true]; rfl, (), by decide, [], hquorum, rfl⟩

/-! ## The order of the signature lines -/

section Order

/-- A search in a sorted list finds a hit that comes before all others. -/
theorem findSome?_first {A B : Type} {r : A → A → Prop} (hrefl : ∀ a, r a a) {f : A → Option B} {b : B} {l : List A}
    (hsorted : l.Pairwise r) (hfound : l.findSome? f = some b) :
    ∃ a ∈ l, f a = some b ∧ ∀ other ∈ l, (f other).isSome = true → r a other := by
  induction l with
  | nil => cases hfound
  | cons first rest ih =>
    rw [List.pairwise_cons] at hsorted
    rw [List.findSome?_cons] at hfound
    cases hfirst : f first with
    | some hit =>
      rw [hfirst] at hfound
      obtain rfl := Option.some.inj hfound
      refine ⟨first, List.mem_cons_self, hfirst, fun other hother _ => ?_⟩
      rcases List.mem_cons.mp hother with rfl | hother
      · exact hrefl _
      · exact hsorted.1 other hother
    | none =>
      rw [hfirst] at hfound
      obtain ⟨a, ha, hb, hbefore⟩ := ih hsorted.2 hfound
      refine ⟨a, List.mem_cons_of_mem _ ha, hb, fun other hother hhit => ?_⟩
      rcases List.mem_cons.mp hother with rfl | hother
      · rw [hfirst] at hhit
        cases hhit
      · exact hbefore other hother hhit

/-- The checkpoint with its signature lines in another order. -/
def reordered (checkpoint : NoteCheckpoint) (signatures : List NoteSignature) : NoteCheckpoint :=
  { checkpoint with signatures := signatures }

/-- A valid cosignature of the witness with this timestamp is on the checkpoint. -/
def CosignedAt (P : NotePlatform) (checkpoint : NoteCheckpoint) (key : SignedNoteKey) (timestamp : ℕ) : Prop :=
  hasSignatureType 0x04 key = true ∧ ∃ sig ∈ checkpoint.signatures, cosignatureTimestamp P checkpoint key sig = some timestamp

/-- The timestamp lies within the clock skew and not before `t`. -/
def InWindow (nowMs : ℤ) (skew t timestamp : ℕ) : Prop := (timestamp : ℤ) * 1000 ≤ nowMs + skew ∧ t ≤ timestamp

/-- One of the valid cosignatures of the witness will do. -/
def SomeLine (P : NotePlatform) (checkpoint : NoteCheckpoint) (nowMs : ℤ) (skew t : ℕ) (key : SignedNoteKey) : Prop :=
  ∃ timestamp, CosignedAt P checkpoint key timestamp ∧ InWindow nowMs skew t timestamp

/-- The witness has valid cosignatures, and each of them will do. -/
def EveryLine (P : NotePlatform) (checkpoint : NoteCheckpoint) (nowMs : ℤ) (skew t : ℕ) (key : SignedNoteKey) : Prop :=
  (∃ timestamp, CosignedAt P checkpoint key timestamp) ∧
    ∀ timestamp, CosignedAt P checkpoint key timestamp → InWindow nowMs skew t timestamp

variable {signatures : List NoteSignature} {skew t timestamp : ℕ} {key : SignedNoteKey}

theorem cosignedAt_reordered (hperm : signatures.Perm checkpoint.signatures) :
    CosignedAt P (reordered checkpoint signatures) key timestamp ↔ CosignedAt P checkpoint key timestamp :=
  and_congr_right fun _ => exists_congr fun _ => and_congr_left fun _ => hperm.mem_iff

theorem verifyCheckpointSignature_perm (hperm : signatures.Perm checkpoint.signatures) (key : SignedNoteKey) :
    verifyCheckpointSignature P (reordered checkpoint signatures) key = verifyCheckpointSignature P checkpoint key := by
  rw [verifyCheckpointSignature, verifyCheckpointSignature, Bool.eq_iff_iff, List.any_eq_true, List.any_eq_true]
  constructor
  · rintro ⟨sig, hmem, h⟩
    exact ⟨sig, hperm.subset hmem, h⟩
  · rintro ⟨sig, hmem, h⟩
    exact ⟨sig, hperm.symm.subset hmem, h⟩

/-- The time of a line stands in it, whatever the key. -/
def lineTime (sig : NoteSignature) : ℕ := readBigUInt64BE (sig.signature.take 8)

theorem lineTime_of_cosigned {sig : NoteSignature} (h : cosignatureTimestamp P checkpoint key sig = some timestamp) :
    lineTime sig = timestamp := by
  simp only [cosignatureTimestamp] at h
  split at h
  · split at h
    · exact Option.some.inj h
    · cases h
  · cases h

/-! ### What an order makes of a witness -/

/-- The witness counts with a timestamp not before `t`. -/
def Reaches (P : NotePlatform) (checkpoint : NoteCheckpoint) (nowMs : ℤ) (skew t : ℕ) (key : SignedNoteKey) : Prop :=
  ∃ timestamp, acceptedTimestamp P checkpoint nowMs skew key = some timestamp ∧ t ≤ timestamp

theorem verified_cosignedAt (h : verifiedCosignatureTimestamp P checkpoint key = some timestamp) :
    CosignedAt P checkpoint key timestamp := by
  unfold verifiedCosignatureTimestamp at h
  split at h
  · cases h
  case isFalse htype =>
    obtain ⟨sig, hmem, hsig⟩ := List.exists_of_findSome?_eq_some h
    exact ⟨by simpa using htype, sig, hmem, hsig⟩

theorem exists_verified (h : CosignedAt P checkpoint key timestamp) :
    ∃ first, verifiedCosignatureTimestamp P checkpoint key = some first := by
  obtain ⟨htype, sig, hmem, hsig⟩ := h
  rw [← Option.isSome_iff_exists, verifiedCosignatureTimestamp, htype, Bool.not_true, if_neg Bool.false_ne_true,
    List.findSome?_isSome_iff]
  exact ⟨sig, hmem, by rw [hsig, Option.isSome_some]⟩

/-- The first line of a sorted note is the one that counts. -/
theorem verified_first {r : NoteSignature → NoteSignature → Prop} (hrefl : ∀ sig, r sig sig)
    (hsorted : checkpoint.signatures.Pairwise r) (h : verifiedCosignatureTimestamp P checkpoint key = some timestamp) :
    ∃ sig, lineTime sig = timestamp ∧ ∀ other, CosignedAt P checkpoint key other →
      ∃ sig', lineTime sig' = other ∧ r sig sig' := by
  unfold verifiedCosignatureTimestamp at h
  split at h
  · cases h
  case isFalse htype =>
    obtain ⟨sig, -, hsig, hfirst⟩ := findSome?_first hrefl hsorted h
    refine ⟨sig, lineTime_of_cosigned hsig, ?_⟩
    rintro other ⟨-, sig', hmem, hsig'⟩
    exact ⟨sig', lineTime_of_cosigned hsig', hfirst sig' hmem (by rw [hsig', Option.isSome_some])⟩

theorem reaches_iff : Reaches P checkpoint nowMs skew t key ↔
    ∃ timestamp, verifiedCosignatureTimestamp P checkpoint key = some timestamp ∧ InWindow nowMs skew t timestamp := by
  simp only [Reaches, acceptedTimestamp, Option.filter_eq_some_iff, decide_eq_true_eq, InWindow, and_assoc]

theorem someLine_of_reaches (h : Reaches P checkpoint nowMs skew t key) : SomeLine P checkpoint nowMs skew t key := by
  obtain ⟨timestamp, hverified, hwindow⟩ := reaches_iff.mp h
  exact ⟨timestamp, verified_cosignedAt hverified, hwindow⟩

theorem reaches_of_everyLine (h : EveryLine P checkpoint nowMs skew t key) : Reaches P checkpoint nowMs skew t key := by
  obtain ⟨⟨timestamp, hcosigned⟩, hevery⟩ := h
  obtain ⟨first, hfirst⟩ := exists_verified hcosigned
  exact reaches_iff.mpr ⟨first, hfirst, hevery first (verified_cosignedAt hfirst)⟩

/-- Lines too far in the future rank lowest, the others by their time. -/
def lineRank (nowMs : ℤ) (skew : ℕ) (sig : NoteSignature) : ℕ :=
  if (lineTime sig : ℤ) * 1000 ≤ nowMs + skew then lineTime sig + 1 else 0

theorem inWindow_iff_rank {sig : NoteSignature} : InWindow nowMs skew t (lineTime sig) ↔ t < lineRank nowMs skew sig := by
  unfold InWindow lineRank
  split <;> omega

/-- The best line of each witness comes first. -/
def bestOrder (nowMs : ℤ) (skew : ℕ) (checkpoint : NoteCheckpoint) : List NoteSignature :=
  sortDescending (lineRank nowMs skew) checkpoint.signatures

theorem bestOrder_perm : (bestOrder nowMs skew checkpoint).Perm checkpoint.signatures := sortDescending_perm _ _

theorem reaches_best (h : SomeLine P checkpoint nowMs skew t key) :
    Reaches P (reordered checkpoint (bestOrder nowMs skew checkpoint)) nowMs skew t key := by
  obtain ⟨timestamp, hcosigned, hwindow⟩ := h
  have hcosigned : CosignedAt P (reordered checkpoint (bestOrder nowMs skew checkpoint)) key timestamp :=
    (cosignedAt_reordered bestOrder_perm).mpr hcosigned
  obtain ⟨first, hfirst⟩ := exists_verified hcosigned
  have hsorted : (bestOrder nowMs skew checkpoint).Pairwise fun a b => lineRank nowMs skew b ≤ lineRank nowMs skew a :=
    sortDescending_pairwise _ _
  obtain ⟨sig, rfl, hbefore⟩ := verified_first (fun sig => le_refl (lineRank nowMs skew sig)) hsorted hfirst
  obtain ⟨sig', rfl, hrank⟩ := hbefore timestamp hcosigned
  exact reaches_iff.mpr ⟨_, hfirst, inWindow_iff_rank.mpr ((inWindow_iff_rank.mp hwindow).trans_le hrank)⟩

theorem worstOrder_perm : (bestOrder nowMs skew checkpoint).reverse.Perm checkpoint.signatures :=
  (List.reverse_perm _).trans bestOrder_perm

theorem everyLine_of_worst (h : Reaches P (reordered checkpoint (bestOrder nowMs skew checkpoint).reverse) nowMs skew t key) :
    EveryLine P checkpoint nowMs skew t key := by
  obtain ⟨first, hfirst, hwindow⟩ := reaches_iff.mp h
  have hsorted : (bestOrder nowMs skew checkpoint).reverse.Pairwise
      fun a b => lineRank nowMs skew a ≤ lineRank nowMs skew b :=
    List.pairwise_reverse.mpr (sortDescending_pairwise _ _)
  obtain ⟨sig, rfl, hbefore⟩ := verified_first (fun sig => le_refl (lineRank nowMs skew sig)) hsorted hfirst
  refine ⟨⟨_, (cosignedAt_reordered worstOrder_perm).mp (verified_cosignedAt hfirst)⟩, ?_⟩
  intro timestamp hcosigned
  obtain ⟨sig', rfl, hrank⟩ := hbefore timestamp ((cosignedAt_reordered worstOrder_perm).mpr hcosigned)
  exact inWindow_iff_rank.mpr ((inWindow_iff_rank.mp hwindow).trans_le hrank)

/-! ### What an order makes of the quorum -/

theorem someLine_reordered (hperm : signatures.Perm checkpoint.signatures) :
    SomeLine P (reordered checkpoint signatures) nowMs skew t key ↔ SomeLine P checkpoint nowMs skew t key :=
  exists_congr fun _ => and_congr_left fun _ => cosignedAt_reordered hperm

theorem everyLine_reordered (hperm : signatures.Perm checkpoint.signatures) :
    EveryLine P (reordered checkpoint signatures) nowMs skew t key ↔ EveryLine P checkpoint nowMs skew t key := by
  simp only [EveryLine, cosignedAt_reordered hperm]

/-- The quorum is met by timestamps not before `t`. -/
def QuorumReaches (found : Option (List ℕ)) (t : ℕ) : Prop :=
  ∃ timestamps, found = some timestamps ∧ WithTop.some t ≤ listMin timestamps

theorem quorumReaches_iff {rule : NormalizedQuorumRule} :
    QuorumReaches (evaluateQuorum P checkpoint nowMs skew rule) t ↔
      rule.Satisfied (Reaches P checkpoint nowMs skew t) id := by
  constructor
  · rintro ⟨timestamps, hfound, hmin⟩
    obtain ⟨witnesses, -, htimes, hsat⟩ := evaluateQuorum_witnesses rule timestamps hfound
    refine hsat.mono fun key hkey => ?_
    obtain ⟨timestamp, hmem, haccepted⟩ := exists_of_forall₂_mem htimes hkey
    exact ⟨timestamp, haccepted, WithTop.coe_le_coe.mp (le_listMin.mp hmin timestamp hmem)⟩
  · intro h
    refine evaluateQuorum_of_satisfied h fun key hkey => ?_
    obtain ⟨timestamp, haccepted, hle⟩ := hkey
    exact ⟨timestamp, haccepted, WithTop.coe_le_coe.mpr hle⟩

theorem exists_min {timestamps : List ℕ} (h : timestamps ≠ []) :
    ∃ m, timestamps.min? = some m ∧ listMin timestamps = WithTop.some m := by
  induction timestamps with
  | nil => exact absurd rfl h
  | cons first rest ih =>
    rcases eq_or_ne rest [] with rfl | hrest
    · exact ⟨first, rfl, by simp [listMin]⟩
    · obtain ⟨m, hmin, hlist⟩ := ih hrest
      refine ⟨min first m, ?_, ?_⟩
      · rw [List.min?_cons, hmin]
        rfl
      · rw [listMin, hlist]
        rfl

/-- A `Date` tells times apart up to the first second it cannot hold. -/
theorem dateOf_eq_iff {m m' : ℕ} :
    (if m * 1000 ≤ 8640000000000000 then some (m * 1000) else none) =
        (if m' * 1000 ≤ 8640000000000000 then some (m' * 1000) else none) ↔
      ∀ t ≤ 8640000000001, (t ≤ m ↔ t ≤ m') := by
  constructor
  · intro h t ht
    split at h <;> split at h <;> simp only [Option.some.injEq, reduceCtorEq] at h <;> omega
  · intro h
    have hm := h (min m 8640000000001) (min_le_right _ _)
    have hm' := h (min m' 8640000000001) (min_le_right _ _)
    split <;> split <;> simp only [Option.some.injEq, reduceCtorEq] <;> omega

theorem witnessTime_eq_iff {found found' : Option (List ℕ)} (hfound : found ≠ some []) (hfound' : found' ≠ some []) :
    found.map witnessTimeOf = found'.map witnessTimeOf ↔
      ∀ t ≤ 8640000000001, (QuorumReaches found t ↔ QuorumReaches found' t) := by
  have hnone : ∀ t, ¬ QuorumReaches none t := by
    rintro t ⟨timestamps, h, -⟩
    cases h
  have hsome : ∀ {timestamps m}, listMin timestamps = WithTop.some m →
      ∀ t, QuorumReaches (some timestamps) t ↔ t ≤ m := by
    intro timestamps m hmin t
    constructor
    · rintro ⟨_, h, hle⟩
      obtain rfl := Option.some.inj h
      rw [hmin] at hle
      exact WithTop.coe_le_coe.mp hle
    · intro hle
      exact ⟨timestamps, rfl, by rw [hmin]; exact WithTop.coe_le_coe.mpr hle⟩
  have hzero : (0 : ℕ) ≤ 8640000000001 := Nat.zero_le _
  cases found with
  | none =>
    cases found' with
    | none => simp
    | some timestamps' =>
      obtain ⟨m', -, hlist'⟩ := exists_min fun h => hfound' (congrArg some h)
      simp only [Option.map_none, Option.map_some, reduceCtorEq, false_iff]
      exact fun h => hnone 0 ((h 0 hzero).mpr ((hsome hlist' 0).mpr (Nat.zero_le _)))
  | some timestamps =>
    obtain ⟨m, hmin, hlist⟩ := exists_min fun h => hfound (congrArg some h)
    cases found' with
    | none =>
      simp only [Option.map_none, Option.map_some, reduceCtorEq, false_iff]
      exact fun h => hnone 0 ((h 0 hzero).mp ((hsome hlist 0).mpr (Nat.zero_le _)))
    | some timestamps' =>
      obtain ⟨m', hmin', hlist'⟩ := exists_min fun h => hfound' (congrArg some h)
      simp only [Option.map_some, Option.some.injEq, witnessTimeOf, hmin, hmin', hsome hlist, hsome hlist']
      exact dateOf_eq_iff

/-! ### What an order makes of the verdict -/

/-- Everything the policy asks for but the quorum. -/
structure ChecksPass (P : NotePlatform) (checkpoint : NoteCheckpoint) (origin : String) (policy : C2spTlogPolicy)
    (scope : String) (maxClockSkewMs : Option ℤ) (skew : ℕ) (n : NormalizedOriginPolicy) : Prop where
  clockSkew : safeFrom 0 maxClockSkewMs = some skew
  policyScope : policy.scope.getD scope = scope
  checkpointOrigin : checkpoint.origin = origin
  emptyRoot : checkpoint.treeSize = 0 → checkpoint.rootHash = P.emptyRoot
  normalized : normalizedOriginPolicy policy origin = .ok n
  signed : ∃ key ∈ acceptedLogKeys scope n.logKeys, verifyCheckpointSignature P checkpoint key = true
  witnessed : scope = "public" → isNone n.quorumRule = false

/-- Whether the checkpoint is accepted, and its witness time. -/
def witnessOutcome (P : NotePlatform) (checkpoint : NoteCheckpoint) (origin : String) (policy : C2spTlogPolicy)
    (scope : String) (nowMs : ℤ) (maxClockSkewMs : Option ℤ) : Option (Option (Option ℕ)) :=
  (enforceCheckpointPolicy P checkpoint origin policy scope nowMs maxClockSkewMs).toOption.map
    CheckpointPolicyResult.checkpointWitnessTime

variable {maxClockSkewMs : Option ℤ} {n : NormalizedOriginPolicy}

theorem enforceCheckpointPolicy_eq_ok {result : CheckpointPolicyResult} :
    enforceCheckpointPolicy P checkpoint origin policy scope nowMs maxClockSkewMs = .ok result ↔
      ∃ skew n timestamps, ChecksPass P checkpoint origin policy scope maxClockSkewMs skew n ∧
        evaluateQuorum P checkpoint nowMs skew n.quorumRule = some timestamps ∧
        result = ⟨timestamps, witnessTimeOf timestamps⟩ := by
  simp only [enforceCheckpointPolicy, bind_eq_ok, throwIf_eq_ok, orThrow_eq_ok, pure_eq_ok]
  constructor
  · rintro ⟨skew, hskew, _, hscope, _, horigin, _, hroot, n, hn, _, hsigned, _, hwitnessed, timestamps, hquorum, rfl⟩
    refine ⟨skew, n, timestamps, ?_, hquorum, rfl⟩
    exact {
      clockSkew := hskew
      policyScope := not_not.mp hscope
      checkpointOrigin := not_not.mp horigin
      emptyRoot := fun hsize => not_not.mp fun hne => hroot ⟨hsize, hne⟩
      normalized := hn
      signed := by simpa using hsigned
      witnessed := fun hpublic => by simpa [hpublic] using hwitnessed
    }
  · rintro ⟨skew, n, timestamps, hpass, hquorum, rfl⟩
    refine ⟨skew, hpass.clockSkew, (), not_not.mpr hpass.policyScope, (), not_not.mpr hpass.checkpointOrigin, (), ?_, n, hpass.normalized, (), ?_,
      (), ?_, timestamps, hquorum, rfl⟩
    · exact fun hroot => hroot.2 (hpass.emptyRoot hroot.1)
    · simpa using hpass.signed
    · rintro ⟨hpublic, hnone⟩
      rw [hpass.witnessed hpublic] at hnone
      cases hnone

theorem ChecksPass.reordered (hpass : ChecksPass P checkpoint origin policy scope maxClockSkewMs skew n)
    (hperm : signatures.Perm checkpoint.signatures) :
    ChecksPass P (reordered checkpoint signatures) origin policy scope maxClockSkewMs skew n := by
  obtain ⟨key, hkey, hverify⟩ := hpass.signed
  exact { hpass with signed := ⟨key, hkey, (verifyCheckpointSignature_perm hperm key).trans hverify⟩ }

theorem witnessOutcome_of_pass (hpass : ChecksPass P checkpoint origin policy scope maxClockSkewMs skew n) :
    witnessOutcome P checkpoint origin policy scope nowMs maxClockSkewMs =
      (evaluateQuorum P checkpoint nowMs skew n.quorumRule).map witnessTimeOf := by
  cases hquorum : evaluateQuorum P checkpoint nowMs skew n.quorumRule with
  | some timestamps =>
    rw [witnessOutcome, enforceCheckpointPolicy_eq_ok.mpr ⟨skew, n, timestamps, hpass, hquorum, rfl⟩]
    rfl
  | none =>
    rw [witnessOutcome]
    cases hresult : enforceCheckpointPolicy P checkpoint origin policy scope nowMs maxClockSkewMs with
    | error error => rfl
    | ok result =>
      obtain ⟨skew', n', timestamps, hpass', hquorum', -⟩ := enforceCheckpointPolicy_eq_ok.mp hresult
      obtain rfl := Option.some.inj (hpass.clockSkew.symm.trans hpass'.clockSkew)
      obtain rfl := Except.ok.inj (hpass.normalized.symm.trans hpass'.normalized)
      rw [hquorum] at hquorum'
      cases hquorum'

theorem witnessOutcome_of_not_pass
    (h : ¬ ∃ skew n, ChecksPass P checkpoint origin policy scope maxClockSkewMs skew n) :
    witnessOutcome P checkpoint origin policy scope nowMs maxClockSkewMs = none := by
  rw [witnessOutcome]
  cases hresult : enforceCheckpointPolicy P checkpoint origin policy scope nowMs maxClockSkewMs with
  | error error => rfl
  | ok result =>
    obtain ⟨skew, n, -, hpass, -⟩ := enforceCheckpointPolicy_eq_ok.mp hresult
    exact absurd ⟨skew, n, hpass⟩ h

/-- **The order of the lines.** No reordering changes the verdict or the witness time exactly when the witnesses meet
the quorum at `t` with every one of their valid cosignatures, whenever they can meet it at `t` with some of them. -/
theorem reordering_harmless_iff :
    (∀ signatures, signatures.Perm checkpoint.signatures →
      witnessOutcome P (reordered checkpoint signatures) origin policy scope nowMs maxClockSkewMs =
        witnessOutcome P checkpoint origin policy scope nowMs maxClockSkewMs) ↔
    ∀ skew n, ChecksPass P checkpoint origin policy scope maxClockSkewMs skew n → ∀ t ≤ 8640000000001,
      n.quorumRule.Satisfied (SomeLine P checkpoint nowMs skew t) id →
        n.quorumRule.Satisfied (EveryLine P checkpoint nowMs skew t) id := by
  constructor
  · intro h skew n hpass t ht hsome
    by_cases hfree : n.quorumRule.Satisfied (fun _ => False) id
    · exact hfree.mono fun _ => False.elim
    -- the best and the worst order agree
    have hbest := h (bestOrder nowMs skew checkpoint) bestOrder_perm
    rw [← h (bestOrder nowMs skew checkpoint).reverse worstOrder_perm, witnessOutcome_of_pass (hpass.reordered bestOrder_perm),
      witnessOutcome_of_pass (hpass.reordered worstOrder_perm),
      witnessTime_eq_iff (fun hnil => hfree (evaluateQuorum_eq_nil.mp hnil))
        (fun hnil => hfree (evaluateQuorum_eq_nil.mp hnil))] at hbest
    have hreach := (hbest t ht).mp (quorumReaches_iff.mpr (hsome.mono fun _ => reaches_best))
    exact (quorumReaches_iff.mp hreach).mono fun _ => everyLine_of_worst
  · intro h signatures hperm
    by_cases hchecks : ∃ skew n, ChecksPass P checkpoint origin policy scope maxClockSkewMs skew n
    · obtain ⟨skew, n, hpass⟩ := hchecks
      rw [witnessOutcome_of_pass hpass, witnessOutcome_of_pass (hpass.reordered hperm)]
      by_cases hfree : n.quorumRule.Satisfied (fun _ => False) id
      · rw [evaluateQuorum_eq_nil.mpr hfree, evaluateQuorum_eq_nil.mpr hfree]
      · refine (witnessTime_eq_iff (fun hnil => hfree (evaluateQuorum_eq_nil.mp hnil))
          (fun hnil => hfree (evaluateQuorum_eq_nil.mp hnil))).mpr fun t ht => ?_
        rw [quorumReaches_iff, quorumReaches_iff]
        constructor
        · intro hreach
          have hsome := hreach.mono fun _ hkey => (someLine_reordered hperm).mp (someLine_of_reaches hkey)
          exact (h skew n hpass t ht hsome).mono fun _ => reaches_of_everyLine
        · intro hreach
          have hsome := hreach.mono fun _ => someLine_of_reaches
          exact (h skew n hpass t ht hsome).mono fun _ hkey =>
            reaches_of_everyLine ((everyLine_reordered hperm).mpr hkey)
    · have hchecks' : ¬ ∃ skew n, ChecksPass P (reordered checkpoint signatures) origin policy scope maxClockSkewMs skew n := by
        rintro ⟨skew, n, hpass⟩
        exact hchecks ⟨skew, n, hpass.reordered hperm.symm⟩
      rw [witnessOutcome_of_not_pass hchecks, witnessOutcome_of_not_pass hchecks']

/-- The first witness has cosigned twice, once with a clock ahead of time. -/
def twiceCosigned : NoteCheckpoint :=
  reordered sampleCheckpoint (sampleCheckpoint.signatures ++ [sampleCosignature "first" 9 2])

/-- With the later line first the quorum is lost. -/
theorem twiceCosigned_order_matters :
    ∃ signatures, signatures.Perm twiceCosigned.signatures ∧
      witnessOutcome samplePlatform twiceCosigned "log" samplePolicy "local" 5000 (some 0) = some (some (some 3000)) ∧
      witnessOutcome samplePlatform (reordered twiceCosigned signatures) "log" samplePolicy "local" 5000 (some 0) = none := by
  have hpolicy : normalizedOriginPolicy samplePolicy "log" =
      .ok ⟨[sampleLogKey], sampleWitnessKeys, 2, .threshold 2 (sampleWitnessKeys.map .witness)⟩ := by rfl
  have hpass : ChecksPass samplePlatform twiceCosigned "log" samplePolicy "local" (some 0) 0
      ⟨[sampleLogKey], sampleWitnessKeys, 2, .threshold 2 (sampleWitnessKeys.map .witness)⟩ :=
    ⟨rfl, rfl, rfl, by decide, hpolicy, ⟨sampleLogKey, by decide, rfl⟩, by decide⟩
  have hperm : twiceCosigned.signatures.reverse.Perm twiceCosigned.signatures := List.reverse_perm _
  refine ⟨_, hperm, ?_, ?_⟩
  · have hmembers : (sampleWitnessKeys.map ThresholdRule.witness).filterMap
        (evaluateQuorum samplePlatform twiceCosigned 5000 0) = [[4], [3]] := rfl
    have hquorum : evaluateQuorum samplePlatform twiceCosigned 5000 0 (.threshold 2 (sampleWitnessKeys.map .witness)) =
        some [4, 3] := by
      have hsorted : sortDescending listMin [[4], [3]] = [[4], [3]] := List.mergeSort_of_pairwise (by decide)
      rw [evaluateQuorum_threshold, hmembers, hsorted]
      exact ⟨by decide, rfl⟩
    rw [witnessOutcome_of_pass hpass, hquorum]
    rfl
  · have hmembers : (sampleWitnessKeys.map ThresholdRule.witness).filterMap
        (evaluateQuorum samplePlatform (reordered twiceCosigned twiceCosigned.signatures.reverse) 5000 0) = [[3]] := rfl
    have hquorum : evaluateQuorum samplePlatform (reordered twiceCosigned twiceCosigned.signatures.reverse) 5000 0
        (.threshold 2 (sampleWitnessKeys.map .witness)) = none := by
      rw [Option.eq_none_iff_forall_not_mem]
      intro timestamps hfound
      have hlength := (evaluateQuorum_threshold.mp hfound).1
      rw [hmembers] at hlength
      exact absurd hlength (by decide)
    rw [witnessOutcome_of_pass (hpass.reordered hperm), hquorum]
    rfl

end Order

end Dnsid.Checkpoint

import Dnsid.Managed.IssuanceRuns

/-! # One entry per managed issuance

The bytes of an entry are signed after the intent was read, and the signature is not determined. So two calls that
read the same intent complete different entries, and nothing compares the store with what was read when they persist
them. When the outcome of a preparation is persisted only over an operation without an entry, every submission
and every later state carries one byte string (`managed_issuance_one_entry`).
-/
namespace Dnsid.Managed
open Dnsid.Foundations Dnsid.Events Dnsid.Registry Dnsid.Writer
set_option autoImplicit false

section Definitions
variable {Bytes O : Type}

/-- Once a state with an entry was persisted, later ones carry the same. -/
def CarriesOn : WorkflowEvent Bytes O → WorkflowEvent Bytes O → Prop
  | .persisted earlier, .persisted later => ∀ bytes, earlier.entryBytes = some bytes → later.entryBytes = some bytes
  | _, _ => True

/-- At most one byte string is submitted. -/
def OneSubmission (trace : List (WorkflowEvent Bytes O)) : Prop :=
  ∀ domain bytes key o domain' bytes' key' o', .submitted domain bytes key o ∈ trace →
    .submitted domain' bytes' key' o' ∈ trace → bytes = bytes'

/-- The registry prepares the same bytes for the same idempotency key. -/
def PreparesOnce (R : IssuanceRegistry Bytes) : Prop :=
  ∀ domain domain' key o o' bytes bytes', R.prepareIssuance domain key o = .ok bytes →
    R.prepareIssuance domain' key o' = .ok bytes' → bytes = bytes'

/-- A state without a submission is the outcome of a preparation: it is persisted over no entry. -/
def OverNoEntry {R : IssuanceRegistry Bytes} (_ : IssuanceChoice R) (e : IssuanceEffect Bytes)
    (w : IssuanceWorld Bytes R.Outcome) : Prop :=
  ∀ issuance, e = .persistIssuance issuance → issuance.submission = none → w.heldBytes = none

end Definitions

/-! ## The invariant -/

section Invariant
variable {Bytes : Type} {O : Type}

/-- A persisted state has an entry before it has a submission, and a log reference with its entry. -/
structure Shaped (issuance : ManagedIssuanceState Bytes) : Prop where
  unsubmitted : issuance.entryBytes = none → issuance.submission = none
  bound : issuance.entryBytes ≠ none → present issuance.logReference ≠ none

structure OneEntry (w : IssuanceWorld Bytes O) : Prop where
  shaped : ∀ issuance ∈ w.store, Shaped issuance
  submitted : ∀ domain bytes key o, .submitted domain bytes key o ∈ w.trace → w.heldBytes = some bytes
  persisted : ∀ issuance bytes, .persisted issuance ∈ w.trace → issuance.entryBytes = some bytes →
    w.heldBytes = some bytes
  carriesOn : w.trace.Pairwise CarriesOn

/-- An entry stays in the store. -/
def HoldsOn (w w' : IssuanceWorld Bytes O) : Prop := ∀ bytes, w.heldBytes = some bytes → w'.heldBytes = some bytes

theorem HoldsOn.refl (w : IssuanceWorld Bytes O) : HoldsOn w w := fun _ h => h

theorem HoldsOn.trans (w₁ w₂ w₃ : IssuanceWorld Bytes O) (h : HoldsOn w₁ w₂) (h' : HoldsOn w₂ w₃) : HoldsOn w₁ w₃ :=
  fun bytes hbytes => h' bytes (h bytes hbytes)

/-- A state may be persisted when it carries what the store holds. -/
theorem OneEntry.persist {w : IssuanceWorld Bytes O} (h : OneEntry w) {issuance : ManagedIssuanceState Bytes}
    (hshaped : Shaped issuance) (hheld : HoldsOn w (w.persist issuance)) :
    OneEntry (w.persist issuance) where
  shaped held hmem := by
    obtain rfl : issuance = held := Option.some.inj hmem
    exact hshaped
  submitted domain bytes key o hmem := by
    rcases List.mem_append.mp hmem with hmem | hmem
    · exact hheld bytes (h.submitted domain bytes key o hmem)
    · simp at hmem
  persisted earlier bytes hmem hbytes := by
    rcases List.mem_append.mp hmem with hmem | hmem
    · exact hheld bytes (h.persisted earlier bytes hmem hbytes)
    · obtain rfl : earlier = issuance := by simpa using hmem
      exact hbytes
  carriesOn := by
    refine List.pairwise_append.mpr ⟨h.carriesOn, List.pairwise_singleton _ _, fun a ha b hb => ?_⟩
    obtain rfl := List.mem_singleton.mp hb
    cases a with
    | submitted _ _ _ _ => trivial
    | persisted earlier =>
      intro bytes hbytes
      exact hheld bytes (h.persisted earlier bytes ha hbytes)

theorem OneEntry.submit {w : IssuanceWorld Bytes O} (h : OneEntry w) {domain idempotencyKey : String} {bytes : Bytes}
    {o : O} (hheld : w.heldBytes = some bytes) : OneEntry (w.submitted domain bytes idempotencyKey o) where
  shaped := h.shaped
  submitted domain' bytes' key o' hmem := by
    rcases List.mem_append.mp hmem with hmem | hmem
    · exact h.submitted domain' bytes' key o' hmem
    · obtain ⟨-, rfl, -, -⟩ : domain' = domain ∧ bytes' = bytes ∧ key = idempotencyKey ∧ o' = o := by
        simpa using hmem
      exact hheld
  persisted earlier bytes' hmem hbytes := by
    rcases List.mem_append.mp hmem with hmem | hmem
    · exact h.persisted earlier bytes' hmem hbytes
    · simp at hmem
  carriesOn := by
    refine List.pairwise_append.mpr ⟨h.carriesOn, List.pairwise_singleton _ _, fun a ha b hb => ?_⟩
    obtain rfl := List.mem_singleton.mp hb
    cases a <;> trivial

end Invariant

/-! ## Every step of a call -/

section Calls
variable {Bytes : Type}

/-- What a call knows of the state that it holds: its entry is the stored one. -/
def HeldBy {O : Type} (s : ManagedIssuanceState Bytes) (w : IssuanceWorld Bytes O) : Prop :=
  Shaped s ∧ ∀ bytes, s.entryBytes = some bytes → w.heldBytes = some bytes

theorem Shaped.entryBytes_none {s : ManagedIssuanceState Bytes} (h : Shaped s) (hunprepared : Unprepared s) :
    s.entryBytes = none := by
  rcases hunprepared with hnone | hlr
  · exact hnone
  · by_contra hsome
    exact h.bound hsome hlr

theorem recoverableState_kept (s : ManagedIssuanceState Bytes) (cause : Cause (ManagedIssuanceState Bytes)) :
    (recoverableState s cause).entryBytes = s.entryBytes ∧
      (recoverableState s cause).logReference = s.logReference := by
  unfold recoverableState
  split <;> exact ⟨rfl, rfl⟩

variable [DecidableEq Bytes] {M : ManagedPlatform Bytes}

theorem completeIssuance_bound {context : PreparedC2spVerificationContext} {prepared : PreparedC2spTlogEvent Bytes}
    {provider : KeyProvider Bytes} {completed : String × Bytes}
    (h : completeIssuance M context prepared provider = .ok completed) : present (some completed.1) ≠ none := by
  unfold completeIssuance at h
  obtain ⟨signed, -, h⟩ := bind_eq_ok.mp h
  obtain ⟨bytes, hbytes, h⟩ := bind_eq_ok.mp h
  obtain rfl := pure_eq_ok.mp h
  simpa [present] using c2spTlogEntryBytes_lr (liftWriter_eq_ok.mp hbytes)

variable {R : IssuanceRegistry Bytes} {s s' : ManagedIssuanceState Bytes} {w : IssuanceWorld Bytes R.Outcome}

omit [DecidableEq Bytes] in
/-- A later state with the same entry may be persisted. -/
theorem persist_kept (hinv : OneEntry w) (hs : HeldBy s w) (hsome : s.entryBytes ≠ none)
    (hbytes : s'.entryBytes = s.entryBytes) (hlr : s'.logReference = s.logReference) :
    OneEntry (w.persist s') ∧ HoldsOn w (w.persist s') ∧ HeldBy s' (w.persist s') := by
  obtain ⟨bytes, hbytes'⟩ := Option.ne_none_iff_exists'.mp hsome
  have hholds : HoldsOn w (w.persist s') := by
    intro held hheld
    have : held = bytes := Option.some.inj (hheld.symm.trans (hs.2 bytes hbytes'))
    subst this
    exact hbytes.trans hbytes'
  have hshaped : Shaped s' :=
    ⟨fun hnone => absurd (hbytes.symm.trans hnone) hsome, fun _ => by rw [hlr]; exact hs.1.bound hsome⟩
  exact ⟨hinv.persist hshaped hholds, hholds, hshaped, fun _ hb => hb⟩

omit [DecidableEq Bytes] in
/-- The outcome of a preparation may be persisted over no entry. -/
theorem persist_outcome (hinv : OneEntry w) (hshaped : Shaped s') (hnone : w.heldBytes = none) :
    OneEntry (w.persist s') ∧ HoldsOn w (w.persist s') ∧ HeldBy s' (w.persist s') := by
  have hholds : HoldsOn w (w.persist s') := by
    intro held hheld
    rw [hnone] at hheld
    cases hheld
  exact ⟨hinv.persist hshaped hholds, hholds, hshaped, fun _ hb => hb⟩

theorem persist_advance {c : IssuanceChoice R} (hinv : OneEntry w) (hs : HeldBy s w)
    (hadvance : Advance M R w s s') (hP : OverNoEntry c (.persistIssuance s') w) :
    OneEntry (w.persist s') ∧ HoldsOn w (w.persist s') ∧ HeldBy s' (w.persist s') := by
  cases hadvance with
  | failed cause hopen hunprepared =>
    have hnone := hs.1.entryBytes_none hunprepared
    refine persist_outcome hinv ⟨fun _ => hs.1.unsubmitted hnone, fun hsome => absurd hnone hsome⟩ ?_
    exact hP _ rfl (hs.1.unsubmitted hnone)
  | completed options operationalKey raw prepared provider completed hopen hunprepared hkeys hread hcompleted =>
    have hnone := hs.1.entryBytes_none hunprepared
    refine persist_outcome hinv ⟨fun hcontra => (by cases hcontra), fun _ => completeIssuance_bound hcompleted⟩ ?_
    exact hP _ rfl (hs.1.unsubmitted hnone)
  | recovered bytes o failure hopen hbytes hsubmitted hanswer =>
    obtain ⟨hkept, hlr⟩ := recoverableState_kept s (.outside failure)
    exact persist_kept hinv hs (by rw [hbytes]; simp) hkept hlr
  | reconciled bytes o submission hopen hbytes hsubmitted hanswer hbinding =>
    exact persist_kept hinv hs (by rw [hbytes]; simp) rfl rfl
  | activated submission haccepted hterminal =>
    refine persist_kept hinv hs (fun hnone => ?_) rfl rfl
    rw [hs.1.unsubmitted hnone] at haccepted
    cases haccepted

/-- Entries stay in the store, and the record grows. -/
def Continues (w w' : IssuanceWorld Bytes R.Outcome) : Prop := HoldsOn w w' ∧ ∀ e ∈ w.trace, e ∈ w'.trace

theorem oneEntry_rules (M : ManagedPlatform Bytes) (R : IssuanceRegistry Bytes) :
    IssuanceRules M R OverNoEntry OneEntry Continues HeldBy where
  refl w := ⟨HoldsOn.refl w, fun _ h => h⟩
  trans w₁ w₂ w₃ h h' := ⟨HoldsOn.trans w₁ w₂ w₃ h.1 h'.1, fun e he => h'.2 e (h.2 e he)⟩
  grows w w' h := h.2
  stable s w w' hs hw := ⟨hs.1, fun bytes hbytes => hw.1 bytes (hs.2 bytes hbytes)⟩
  loaded s w hinv hstore := by
    refine ⟨hinv.shaped s hstore, fun bytes hbytes => ?_⟩
    rw [IssuanceWorld.heldBytes, hstore]
    exact hbytes
  created intent entityKey operationalKey w hinv hstore hintent _ := by
    have hshaped : Shaped intent := ⟨fun _ => hintent.submission, fun hsome => absurd hintent.entryBytes hsome⟩
    have hnone : w.heldBytes = none := by rw [IssuanceWorld.heldBytes, hstore]; rfl
    obtain ⟨hinv', hholds, hheld⟩ := persist_outcome hinv hshaped hnone
    exact ⟨hinv', ⟨hholds, fun e he => List.mem_append_left _ he⟩, hheld⟩
  persisted s s' w c hinv hs hadvance hP := by
    obtain ⟨hinv', hholds, hheld⟩ := persist_advance hinv hs hadvance hP
    exact ⟨hinv', ⟨hholds, fun e he => List.mem_append_left _ he⟩, hheld⟩
  submitted s bytes w o hinv hs _ hbytes _ :=
    ⟨hinv.submit (hs.2 bytes hbytes), fun _ h => h, fun e he => List.mem_append_left _ he⟩

/-- When the outcome of a preparation is only persisted over no entry, one byte string is submitted, and a persisted
entry stays. -/
theorem managed_issuance_one_entry
    {acts : List (PoolAction IssuanceCall (IssuanceChoice R))} {pool : IssuancePool R}
    (hmeets : RunMeets (issuanceStep R M) (SettlesWith OverNoEntry) acts (issuanceStart R))
    (hrun : run (issuanceStep R M) acts (issuanceStart R) = some pool) :
    OneSubmission pool.world.trace ∧ pool.world.trace.Pairwise CarriesOn := by
  have hempty : OneEntry (IssuanceWorld.empty : IssuanceWorld Bytes R.Outcome) :=
    ⟨by simp [IssuanceWorld.empty], by simp [IssuanceWorld.empty], by simp [IssuanceWorld.empty], .nil⟩
  have hinv := (oneEntry_rules M R).invariant hempty hmeets hrun
  refine ⟨?_, hinv.carriesOn⟩
  intro domain bytes key o domain' bytes' key' o' hsubmitted hsubmitted'
  exact Option.some.inj ((hinv.submitted _ _ _ _ hsubmitted).symm.trans (hinv.submitted _ _ _ _ hsubmitted'))

end Calls

/-! ## A sample operation -/

/-- Key `O` has two signatures of every text. -/
def sampleSignatures (x : String) (signed : List Char) : List (List Char) :=
  [sampleSignature x signed, sampleSignature x signed ++ ['2']]

def sampleCountersigned (sig : String) : Json :=
  .obj (setMember "sigs" (.obj [("ae", signatureJson ⟨"E", "E-B"⟩), ("op", signatureJson ⟨"O", sig⟩)])
    ((sampleIssuanceEntry []).members?.getD []))

def sampleTable : List Json :=
  [sampleIssuanceEntry [(.ae, "E")], sampleCountersigned "O-B", sampleCountersigned "O-B2"]

def sampleManaged : ManagedPlatform (List Char) where
  toWriterPlatform :=
    { sampleWriter sampleTable with
      verifyWithKey := fun signed signature key =>
        (sampleSignatures ((key.text? "x").getD "") signed).contains signature
      verifyWithKey_sorted := fun signed signature key key' h => by
        rw [text?_eq_of_sorted h "x"] }
  sha256Hex bytes := String.ofList (List.replicate 63 '0' ++ [hexDigit (bytes.length % 16)])
  sha256Hex_nonempty bytes h := by
    have := congrArg (fun text : String => text.toList.length) h
    simp at this

def sampleSigner (suffix : List Char) : KeyProvider (List Char) where
  jwk kid := .ok (Dnsid.Stream.sampleKey kid kid)
  signKey kid signed := .ok (sampleSignature kid signed ++ suffix)

def sampleRegistry : IssuanceRegistry (List Char) where
  Preparation := Unit
  Outcome := Except Failure SubmissionResult
  prepareIssuance _ _ _ := .ok ((sampleText.canonicalBytes (sampleIssuanceEntry [(.ae, "E")])).toOption.getD [])
  submitPreparedEvent _ _ _ outcome := outcome

def sampleIssue : IssueManagedIdentityOptions :=
  ⟨"a.example", "gi", Dnsid.Stream.sampleKey "E" "E", "k", none⟩

def sampleResume : ResumeManagedIssuanceOptions := ⟨Dnsid.Stream.sampleKey "E" "E", none⟩

def samplePending : SubmissionResult := ⟨.pending, "h", none, none, none, none⟩

/-- The first call has the prepared entry before it. -/
def sampleStarted : List (PoolAction IssuanceCall (IssuanceChoice sampleRegistry)) :=
  [.start (.issue sampleIssue), .settle 0 .done, .settle 0 (.key (Dnsid.Stream.sampleKey "O" "O")), .settle 0 .done,
    .settle 0 (.preparation ())]

/-- A second call resumes what the first one has left pending. -/
def sampleResumed : List (PoolAction IssuanceCall (IssuanceChoice sampleRegistry)) :=
  [.start (.resume sampleResume), .settle 1 .done, .settle 1 (.key (Dnsid.Stream.sampleKey "O" "O")),
    .settle 1 (.key (Dnsid.Stream.sampleKey "O" "O")), .settle 1 (.outcome (.ok samplePending))]

/-- Call `n` signs, persists and submits. -/
def sampleFinished (n : ℕ) (suffix : List Char) :
    List (PoolAction IssuanceCall (IssuanceChoice sampleRegistry)) :=
  [.settle n (.provider (sampleSigner suffix)), .settle n .done,
    .settle n (.key (Dnsid.Stream.sampleKey "O" "O")), .settle n (.outcome (.ok samplePending))]

/-- A second call reads the intent while the first one holds the prepared entry. -/
def sampleRace : List (PoolAction IssuanceCall (IssuanceChoice sampleRegistry)) :=
  sampleStarted ++ [.start (.resume sampleResume), .settle 1 .done, .settle 1 (.key (Dnsid.Stream.sampleKey "O" "O")),
    .settle 1 (.preparation ())] ++ sampleFinished 0 [] ++ sampleFinished 1 ['2']

def WorkflowEvent.submittedBytes? {Bytes O : Type} : WorkflowEvent Bytes O → Option Bytes
  | .submitted _ entryBytes _ _ => some entryBytes
  | .persisted _ => none

/-- `SettlesWith OverNoEntry`, computed. -/
def checkOverNoEntry {Bytes : Type} {R : IssuanceRegistry Bytes} :
    PoolAction IssuanceCall (IssuanceChoice R) → IssuancePool R → Bool
  | .start _, _ => true
  | .settle n _, pool =>
    match pool.calls[n]? with
    | some (.call (.persistIssuance issuance) _) => issuance.submission.isSome || pool.world.heldBytes.isNone
    | _ => true

theorem settlesWith_of_check {Bytes : Type} {R : IssuanceRegistry Bytes}
    {a : PoolAction IssuanceCall (IssuanceChoice R)} {pool : IssuancePool R}
    (h : checkOverNoEntry a pool = true) : SettlesWith OverNoEntry a pool := by
  intro n c e k ha hcall issuance he hsubmission
  subst ha he
  rw [checkOverNoEntry, hcall] at h
  simpa [hsubmission] using h

theorem mem_submitted {Bytes O : Type} {trace : List (WorkflowEvent Bytes O)} {bytes : Bytes}
    (h : bytes ∈ trace.filterMap WorkflowEvent.submittedBytes?) :
    ∃ domain key o, .submitted domain bytes key o ∈ trace := by
  obtain ⟨e, he, hbytes⟩ := List.mem_filterMap.mp h
  cases e with
  | persisted _ => cases hbytes
  | submitted domain entryBytes key o =>
    obtain rfl := Option.some.inj hbytes
    exact ⟨domain, key, o, he⟩

/-- Two calls after each other submit the same entry. -/
theorem managed_issuance_one_entry_resumed :
    ∃ pool, run (issuanceStep sampleRegistry sampleManaged) (sampleStarted ++ sampleFinished 0 [] ++ sampleResumed)
        (issuanceStart sampleRegistry) = some pool ∧
      (pool.world.trace.filterMap WorkflowEvent.submittedBytes?).length = 2 ∧
      OneSubmission pool.world.trace ∧ pool.world.trace.Pairwise CarriesOn := by
  have hdone : (run (issuanceStep sampleRegistry sampleManaged) (sampleStarted ++ sampleFinished 0 [] ++ sampleResumed)
        (issuanceStart sampleRegistry)).any (fun pool =>
          (pool.world.trace.filterMap WorkflowEvent.submittedBytes?).length = 2) = true ∧
      runCheck (issuanceStep sampleRegistry sampleManaged) checkOverNoEntry
        (sampleStarted ++ sampleFinished 0 [] ++ sampleResumed) (issuanceStart sampleRegistry) = true := by
    decide +kernel
  obtain ⟨pool, hrun, hlength⟩ := (Option.any_eq_true _ _).mp hdone.1
  refine ⟨pool, hrun, of_decide_eq_true hlength, managed_issuance_one_entry ?_ hrun⟩
  exact runMeets_of_check (fun _ _ => settlesWith_of_check) _ _ hdone.2

/-- Two calls that read the same intent submit two entries. -/
theorem managed_issuance_two_entries :
    ¬ ∀ (M : ManagedPlatform (List Char)) (R : IssuanceRegistry (List Char))
      (acts : List (PoolAction IssuanceCall (IssuanceChoice R))) (pool : IssuancePool R),
      PreparesOnce R → run (issuanceStep R M) acts (issuanceStart R) = some pool →
        OneSubmission pool.world.trace ∧ pool.world.trace.Pairwise CarriesOn := by
  intro hclaim
  have hdone : (run (issuanceStep sampleRegistry sampleManaged) sampleRace (issuanceStart sampleRegistry)).any
      (fun pool => (pool.world.trace.filterMap WorkflowEvent.submittedBytes?).any fun a =>
        (pool.world.trace.filterMap WorkflowEvent.submittedBytes?).any fun b => a ≠ b) = true := by decide +kernel
  obtain ⟨pool, hrun, htwo⟩ := (Option.any_eq_true _ _).mp hdone
  obtain ⟨a, ha, htwo⟩ := List.any_eq_true.mp htwo
  obtain ⟨b, hb, hne⟩ := List.any_eq_true.mp htwo
  obtain ⟨domain, key, o, hsubmitted⟩ := mem_submitted ha
  obtain ⟨domain', key', o', hsubmitted'⟩ := mem_submitted hb
  have honce : PreparesOnce sampleRegistry := by
    intro _ _ _ _ _ _ _ hbytes hbytes'
    exact Except.ok.inj (hbytes.symm.trans hbytes')
  have hone := (hclaim sampleManaged sampleRegistry sampleRace pool honce hrun).1
  exact of_decide_eq_true hne (hone _ _ _ _ _ _ _ _ hsubmitted hsubmitted')

end Dnsid.Managed

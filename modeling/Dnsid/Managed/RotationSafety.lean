import Dnsid.Managed.CrashSafety
import Dnsid.Managed.OneEntry
import Dnsid.Writer.Finalized

/-! # Managed rotation is crash-safe

The first call of an operation keeps the invariant as well, and so does every run of calls that crash at any effect
(`managed_rotation_crash_safe`).
-/
namespace Dnsid.Managed.Rotation
open Dnsid.Foundations Dnsid.Events Dnsid.Registry Dnsid.Writer
set_option autoImplicit false

section Steps
variable {Bytes : Type} [DecidableEq Bytes] {M : ManagedPlatform Bytes} {E : RotationEnvironment}
variable {w : RotationWorld Bytes} {s : ManagedKeyRotationResult Bytes}

/-! ## Starting -/

omit [DecidableEq Bytes] in
theorem only_assertGeneration {methods : ProviderId → ProviderMethods} {p : ProviderId} {algorithm : String} :
    (assertGeneration methods p algorithm : RotationProg Bytes _).Only fun e => isQuery e = true := by
  unfold assertGeneration
  split
  next => exact Prog.Only.perform rfl
  next =>
    refine Prog.Only.bind (Prog.Only.perform rfl) fun active => ?_
    exact Prog.Only.bind (Prog.Only.ofExcept _) fun _ => Prog.Only.ofExcept _

/-- Nothing is stored, and the active keys are these. -/
structure Unstarted (M : ManagedPlatform Bytes) (E : RotationEnvironment) (active : ProviderId → Option DnsIdJWK)
    (w : RotationWorld Bytes) : Prop where
  sound : Sound M E w
  store : w.store = none
  active : ∀ p, (w.custody p).active = active p

theorem keeps_generateKey {active : ProviderId → Option DnsIdJWK} {p : ProviderId} {algorithm : String}
    (h : Unstarted M E active w) :
    KeepsSound M E (generateKey p algorithm) (fun _ w' => Unstarted M E active w') w := by
  refine Keeps.perform ?_
  rintro _ rfl hsound c r w₂ - hsettle
  rcases settle_generate hsettle with ⟨key, keys, hkeys, rfl, -⟩ | ⟨rfl, hfailed⟩
  · have hsound' : Sound M E (w.setCustody p keys) := hsound.setCustody fun s newKey hs => by
      rw [h.store] at hs
      cases hs
    refine ⟨hsound', trivial, fun _ _ => ⟨hsound', h.store, fun q => ?_⟩⟩
    rw [← h.active q]
    by_cases hq : q = p
    · subst hq
      have hkept := (Custody.generate_cases hkeys).1
      simpa [RotationWorld.setCustody] using hkept
    · simp [RotationWorld.setCustody, hq]
  · exact ⟨hsound, trivial, fun kid hkid => absurd hkid (hfailed kid)⟩

theorem keeps_jwk {p : ProviderId} {kid : String} :
    KeepsSound M E (jwk p kid) (fun key w' => w' = w ∧ (w.custody p).find? kid = some key) w := by
  refine Keeps.mono (keeps_answer (e := .jwk p kid) rfl) ?_
  rintro key w' ⟨rfl, hanswer⟩
  exact ⟨rfl, orThrow_eq_ok.mp hanswer⟩

variable {options : RotateManagedOperationalKeyOptions} {domain previousThumbprint newThumbprint : String}
variable {previousKey newKey : DnsIdJWK} {prepared : PreparedC2spTlogEvent Bytes} {raw bytes : Bytes}

/-- The entry is the prepared one with two signatures. -/
structure Completed (M : ManagedPlatform Bytes) (context : PreparedC2spVerificationContext)
    (prepared : PreparedC2spTlogEvent Bytes) (bytes : Bytes) : Prop where
  signed : ∃ once twice previousProvider targetProvider,
    (signAs M .previousOperational prepared previousProvider context : Except (RotationCause Bytes) _) = .ok once ∧
    (signAs M .newOperational once targetProvider context : Except (RotationCause Bytes) _) = .ok twice ∧
    c2spTlogEntryBytes M.toWriterPlatform twice context = .ok bytes

theorem keeps_completeRotation {context : PreparedC2spVerificationContext} :
    KeepsSound M E (completeRotation M options context prepared)
      (fun bytes w' => w' = w ∧ Completed M context prepared bytes) w := by
  refine Keeps.bind (keeps_queries (Prog.Only.perform rfl)) ?_
  rintro previousProvider _ rfl
  refine keeps_pure fun once honce => Keeps.bind (keeps_queries (Prog.Only.perform rfl)) ?_
  rintro targetProvider _ rfl
  refine keeps_pure fun twice htwice => Keeps.ofExcept fun bytes hbytes => ⟨rfl, ?_⟩
  exact ⟨once, twice, previousProvider, targetProvider, honce, htwice, liftWriter_eq_ok.mp hbytes⟩

omit [DecidableEq Bytes] in
theorem assertGenerated_ok {algorithm : String}
    (h : (assertGenerated M newKey algorithm previousThumbprint : Except (RotationCause Bytes) _) = .ok newThumbprint) :
    validateOperational newKey = .ok () ∧ thumbprintOf M.toPlatform newKey = .ok newThumbprint ∧
      newThumbprint ≠ previousThumbprint := by
  simp only [assertGenerated, bind_eq_ok, throwIf_eq_ok, liftKeyCheck_eq_ok, liftWriter_eq_ok, pure_eq_ok] at h
  obtain ⟨_, hvalid, _, -, thumbprint, hthumbprint, _, hne, rfl⟩ := h
  exact ⟨hvalid, hthumbprint, hne⟩

/-- The first state is bound to the generated key and to the entry that both keys signed. -/
theorem preparedRotation_bound (hnormal : M.normalizeFQDN domain = some domain)
    (hreferences : (assertOperationReferences options.previousProviderReference options.newProviderReference
      options.idempotencyKey : Except (RotationCause Bytes) Unit) = .ok ())
    (hprevious : (assertKeyBinding M previousKey (kidOf previousKey) previousThumbprint :
      Except (RotationCause Bytes) Unit) = .ok ())
    (hnext : (assertKeyBinding M newKey (kidOf newKey) newThumbprint : Except (RotationCause Bytes) Unit) = .ok ())
    (hdistinct : newThumbprint ≠ previousThumbprint)
    (hread : readPreparedRotation M options domain previousKey newKey previousThumbprint raw = .ok prepared)
    (hcompleted : Completed M (rotationContext domain previousKey) prepared bytes) :
    Bound M (preparedRotation M options domain previousKey (kidOf newKey) previousThumbprint newThumbprint bytes)
      newKey where
  references := hreferences
  domain := hnormal
  hash := rfl
  previous := hprevious
  next := hnext
  distinct := hdistinct
  entry := by
    obtain ⟨once, twice, previousProvider, targetProvider, honce, htwice, hbytes⟩ := hcompleted.signed
    obtain ⟨back, hback, hrotation, hkey, hagain⟩ :=
      entry_readBack hread honce htwice hbytes (assertKeyBinding_ok.mp hnext).1
    exact ⟨back, bytes, liftWriter_eq_ok.mpr hback, hrotation, hkey, hagain⟩
  submission _ h := by cases h

/-- The first state is persisted, and signing stops. -/
theorem keeps_persistPaused {active : ProviderId → Option DnsIdJWK} (h : Unstarted M E active w)
    (hbound : Bound M s newKey) (hprovided : Provided E s newKey w.custody) :
    KeepsSound M E (persistPaused s) (fun _ w' => At M E s w') w := by
  refine Keeps.tryCatch ?_ fun _ _ => trivial
  refine Keeps.bind (keeps_persist (fun s' hs' => absurd hs' (h.sound.fresh h.store s')) hbound hprovided) ?_
  rintro _ _ ⟨rfl, hsound⟩
  refine Keeps.mono (keeps_pause true trivial) ?_
  rintro _ _ ⟨rfl, hsound'⟩
  exact ⟨rfl, hsound'⟩

theorem keeps_rotate (hnormal : ∀ name normal, M.normalizeFQDN name = some normal → M.normalizeFQDN normal = some normal)
    (hsound : Sound M E w) (hstore : w.store = none)
    (hprevious : E.resolveKeyProvider options.previousProviderReference = options.keyProvider)
    (htarget : E.resolveKeyProvider options.newProviderReference = options.target) :
    KeepsSound M E (rotateManagedOperationalKey M E.methods options) (fun _ _ => True) w := by
  have hunstarted : Unstarted M E (fun p => (w.custody p).active) w := ⟨hsound, hstore, fun _ => rfl⟩
  refine keeps_pure fun domain hdomain => keeps_pure fun _ hreferences => keeps_pure fun _ _ => ?_
  refine Keeps.bind keeps_signingKey ?_
  rintro previousKey _ ⟨rfl, hactive⟩
  refine keeps_pure fun _ hvalid => keeps_pure fun previousThumbprint hthumbprint => keeps_pure fun _ _ => ?_
  refine Keeps.bind (keeps_queries only_assertGeneration) ?_
  rintro _ _ rfl
  refine Keeps.bind (keeps_generateKey hunstarted) fun newKid w₁ hunstarted₁ => ?_
  refine Keeps.bind keeps_jwk ?_
  rintro newKey _ ⟨rfl, hfound⟩
  refine keeps_pure fun newThumbprint hgenerated => ?_
  refine Keeps.bind (Keeps.tryCatch (keeps_queries (Prog.Only.perform rfl)) fun _ _ => trivial) ?_
  rintro raw _ rfl
  refine keeps_pure fun prepared hread => Keeps.bind keeps_completeRotation ?_
  rintro bytes _ ⟨rfl, hcompleted⟩
  obtain ⟨hnewValid, hnewThumbprint, hdistinct⟩ := assertGenerated_ok hgenerated
  obtain rfl : kidOf newKey = newKid := (Custody.find?_iff.mp hfound).2
  have hbound := preparedRotation_bound (hnormal _ _ (orThrow_eq_ok.mp hdomain)) hreferences
    (assertKeyBinding_ok.mpr ⟨liftKeyCheck_eq_ok.mp hvalid, liftWriter_eq_ok.mp hthumbprint, rfl⟩)
    (assertKeyBinding_ok.mpr ⟨hnewValid, hnewThumbprint, rfl⟩) hdistinct hread hcompleted
  have hactive₁ := (hunstarted₁.active options.keyProvider).trans hactive
  rw [← hprevious] at hactive₁
  rw [← htarget] at hfound
  have hprovided : Provided E (preparedRotation M options domain previousKey (kidOf newKey) previousThumbprint
      newThumbprint bytes) newKey _ :=
    ⟨hfound, .inl ⟨Custody.listed_of_active hactive₁, Custody.find?_active hactive₁, .inl hactive₁⟩⟩
  refine Keeps.bind (keeps_persistPaused hunstarted₁ hbound hprovided) fun _ w₂ hat => ?_
  rw [← hprevious, ← htarget]
  exact keeps_submitManagedRotation hat rfl

end Steps

/-! ## Every run -/

section Runs
variable {Bytes : Type} [DecidableEq Bytes] {M : ManagedPlatform Bytes} {E : RotationEnvironment}

theorem sound_start (custody : ProviderId → Keys) : Sound M E (⟨none, custody, []⟩ : RotationWorld Bytes) where
  allowed := eachAfter_nil
  fresh _ _ h := by cases h
  persisted _ h := by cases h
  operation _ _ h := by cases h
  matched _ h := by cases h
  saved _ h := by cases h

omit [DecidableEq Bytes] in
theorem persisted?_eq {e : RotationEvent Bytes} {s : ManagedKeyRotationResult Bytes} (h : e.persisted? = some s) :
    e = .persisted s := by
  cases e <;> cases h
  rfl

/-- Every call that is admitted keeps the invariant. -/
theorem keeps_call (hnormal : ∀ name normal, M.normalizeFQDN name = some normal → M.normalizeFQDN normal = some normal)
    {call : RotationCall Bytes} {s : RotationSession Bytes} (hadmits : admitsCall E call s = true)
    (hsound : Sound M E s.world) : KeepsSound M E (rotationProgram M E call) (fun _ _ => True) s.world := by
  cases call with
  | rotate options =>
    simp only [admitsCall, Bool.and_eq_true, decide_eq_true_eq, Option.isNone_iff_eq_none] at hadmits
    obtain ⟨⟨hstore, hprevious⟩, htarget⟩ := hadmits
    exact keeps_rotate hnormal hsound hstore hprevious htarget
  | resume rotation =>
    obtain ⟨e, he, hpersisted⟩ := List.any_eq_true.mp hadmits
    obtain rfl := persisted?_eq (of_decide_eq_true hpersisted)
    exact keeps_resume hsound he

theorem run_sound (hnormal : ∀ name normal, M.normalizeFQDN name = some normal → M.normalizeFQDN normal = some normal)
    {custody : ProviderId → Keys} {acts : List (SessionAction (RotationCall Bytes) (RotationChoice Bytes))}
    {s : RotationSession Bytes} (hrun : run (rotationStep M E) acts (rotationStart custody) = some s) :
    Sound M E s.world := by
  have hstart : SessionKeeps (settleRotation E) (Sound M E) (rotationStart custody) :=
    ⟨sound_start custody, fun _ h => by cases h⟩
  exact (session_keeps (fun _ _ hadmits hsound => keeps_call hnormal hadmits hsound) hstart hrun).1

/-- Two submissions are of one entry under one idempotency key. -/
theorem Sound.oneSubmission {w : RotationWorld Bytes} (h : Sound M E w) {domain key domain' key' : String}
    {bytes bytes' : Bytes} (hsubmitted : .submitted domain bytes key ∈ w.trace)
    (hsubmitted' : .submitted domain' bytes' key' ∈ w.trace) : domain = domain' ∧ bytes = bytes' ∧ key = key' := by
  obtain ⟨before, after, hsplit⟩ := List.append_of_mem hsubmitted
  obtain ⟨before', after', hsplit'⟩ := List.append_of_mem hsubmitted'
  obtain ⟨s, hs, rfl, rfl, rfl⟩ := h.allowed _ _ _ hsplit
  obtain ⟨s', hs', rfl, rfl, rfl⟩ := h.allowed _ _ _ hsplit'
  have hsame := h.same (hsplit ▸ List.mem_append_left _ hs) (hsplit' ▸ List.mem_append_left _ hs')
  rw [hsame]
  exact ⟨rfl, rfl, rfl⟩

/-- Whatever crashes where and whatever the registry answers: one persisted entry is submitted, nothing happens before
what must come before it, and the durable state validates when it is resumed. -/
theorem managed_rotation_crash_safe
    (hnormal : ∀ name normal, M.normalizeFQDN name = some normal → M.normalizeFQDN normal = some normal)
    {custody : ProviderId → Keys} {acts : List (SessionAction (RotationCall Bytes) (RotationChoice Bytes))}
    {s : RotationSession Bytes} (hrun : run (rotationStep M E) acts (rotationStart custody) = some s) :
    EachAfter (allowedAfter M E) s.world.trace ∧
      (∀ domain bytes key domain' bytes' key', .submitted domain bytes key ∈ s.world.trace →
        .submitted domain' bytes' key' ∈ s.world.trace → domain = domain' ∧ bytes = bytes' ∧ key = key') ∧
      ∀ rotation, s.world.store = some rotation →
        (openSaved M E.methods rotation).eval (answerFrom E s.world) = .ok (providersOf E rotation) := by
  have hsound := run_sound hnormal hrun
  refine ⟨hsound.allowed, fun _ _ _ _ _ _ h h' => hsound.oneSubmission h h', fun rotation hstore => ?_⟩
  obtain ⟨newKey, hbound, hprovided⟩ := hsound.saved rotation hstore
  exact openSaved_eval hbound hprovided

end Runs

/-! ## A sample operation -/

def sampleRotationOf (signers : List (SignatureRole × String)) : Json :=
  sampleEnvelope "KEY_ROTATION" [("prev_thumb", .str "O"), ("new_ku", Dnsid.Stream.sampleKey "N" "N"),
    ("new_thumb", .str "N"), ("seq", .num 1),
    ("prev_event_id", .str "VVVVVVVVVVVVVVVVVVVVVVVVVVVVVVVVVVVVVVVVVVA"),
    ("prev_state_hash", .str "WWWWWWWWWWWWWWWWWWWWWWWWWWWWWWWWWWWWWWWWWWA")] 'N' signers

def sampleRotating : ManagedPlatform (List Char) where
  toWriterPlatform := sampleWriter [sampleRotationOf [], sampleRotationOf [(.prevOp, "O"), (.newOp, "N")]]
  sha256Hex := sampleManaged.sha256Hex
  sha256Hex_nonempty := sampleManaged.sha256Hex_nonempty

def sampleEnvironment : RotationEnvironment := ⟨fun _ => ⟨false, false⟩, fun _ => 0⟩

def sampleCustody (_ : ProviderId) : Keys := ⟨some (Dnsid.Stream.sampleKey "O" "O"), [], [], by decide⟩

def sampleRotate : RotateManagedOperationalKeyOptions where
  domain := "a.example"
  logReference := sampleLr
  keyProvider := 0
  previousProviderReference := "r"
  targetKeyProvider := none
  targetAlgorithm := none
  newProviderReference := "r"
  idempotencyKey := "k"

/-- The call crashes when the entry was submitted. -/
def sampleCrashed : List (SessionAction (RotationCall (List Char)) (RotationChoice (List Char))) :=
  [.start (.rotate sampleRotate), .settle .done, .settle .done, .settle (.generated (Dnsid.Stream.sampleKey "N" "N") none),
    .settle .done, .settle (.prepared (.ok (sampleBytes (sampleRotationOf [])))), .settle (.provider (sampleSigner [])),
    .settle (.provider (sampleSigner [])), .settle .done, .settle .done, .settle (.fail (.error "x") true)]

def sampleEntryBytes : List Char := sampleBytes (sampleRotationOf [(.prevOp, "O"), (.newOp, "N")])

def sampleSaved : ManagedKeyRotationResult (List Char) :=
  preparedRotation sampleRotating sampleRotate "a.example" (Dnsid.Stream.sampleKey "O" "O") "N" "O" "N" sampleEntryBytes

def sampleAccepted : SubmissionResult :=
  ⟨.accepted, sampleSaved.entryHash, some 1, some (boundLogRef sampleSaved 1), none, some "N"⟩

def sampleLogged : LogEvent where
  domain := "a.example"
  timestamp := some 1000
  signingKid := some "O"
  sig := some "O-N"
  operationalCountersig := none
  newOperationalProof := some "N-N"
  chain := ⟨none, none, none, none, none, none⟩
  body := .keyRotation ⟨"O", "O", some "N", "EdDSA", "N", Dnsid.Stream.sampleKey "N" "N"⟩

/-- A second call is told that the entry was accepted, and the keys change. -/
def sampleResumed : List (SessionAction (RotationCall (List Char)) (RotationChoice (List Char))) :=
  [.start (.resume sampleSaved)] ++ List.replicate 7 (.settle .done) ++ [.settle (.submission (.ok sampleAccepted)), .settle .done,
    .settle (.publication ⟨"a.example", sampleLr, [Dnsid.Stream.sampleKey "N" "N"]⟩), .settle (.event sampleLogged)] ++
    List.replicate 10 (.settle .done)

/-- A call that crashed is resumed to its end. -/
theorem managed_rotation_crash_safe_resumed :
    ∃ s, run (rotationStep sampleRotating sampleEnvironment) (sampleCrashed ++ sampleResumed)
        (rotationStart sampleCustody) = some s ∧
      s.world.trace.length = 15 ∧ EachAfter (allowedAfter sampleRotating sampleEnvironment) s.world.trace ∧
      (∀ domain bytes key domain' bytes' key', .submitted domain bytes key ∈ s.world.trace →
        .submitted domain' bytes' key' ∈ s.world.trace → domain = domain' ∧ bytes = bytes' ∧ key = key') ∧
      ∀ rotation, s.world.store = some rotation →
        (openSaved sampleRotating sampleEnvironment.methods rotation).eval (answerFrom sampleEnvironment s.world) =
          .ok (providersOf sampleEnvironment rotation) := by
  have hdone : (run (rotationStep sampleRotating sampleEnvironment) (sampleCrashed ++ sampleResumed)
      (rotationStart sampleCustody)).any (fun s => s.world.trace.length = 15) = true := by decide +kernel
  obtain ⟨s, hrun, hlength⟩ := (Option.any_eq_true _ _).mp hdone
  exact ⟨s, hrun, of_decide_eq_true hlength, managed_rotation_crash_safe (fun _ _ _ => rfl) hrun⟩

end Dnsid.Managed.Rotation

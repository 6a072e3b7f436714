import Dnsid.Reader.NonRevocation
import Dnsid.Stream.BundleThumbprint
import Dnsid.Stream.WellFormed

/-! # The time a key was bound (`keyTimestamp` in `log-c2sp-tlog/src/reader.ts`)

`keyTimestamp` takes the first event that records the thumbprint, the snapshot the last event that binds a key. A key
that a rotation returns to is recorded twice.
-/
namespace Dnsid.Reader
open Dnsid.Foundations Dnsid.Events Dnsid.Protocol Dnsid.Stream
set_option autoImplicit false

def recordsKey (keyThumbprint : String) (event : LogEvent) : Bool :=
  match event.body with
  | .issuance fields => fields.initialOperationalThumbprint = some keyThumbprint
  | .keyRotation fields => fields.newOperationalThumbprint = keyThumbprint
  | _ => false

def keyTimestamp (rebuildHistory : String → Except Thrown (List LogEvent)) (domain keyThumbprint : String) :
    Except Thrown (Option ℤ) := do
  let history ← rebuildHistory domain
  let event ← orThrow (logError "key thumbprint not found in C2SP lifecycle history")
    (history.find? (recordsKey keyThumbprint))
  return event.timestamp

/-! ## What binds a key -/

def bindsKey (event : LogEvent) : Bool := event.type = .issuance || event.type = .keyRotation

theorem bindsKey_of_recordsKey {keyThumbprint : String} {event : LogEvent} (h : recordsKey keyThumbprint event = true) :
    bindsKey event = true := by
  unfold recordsKey at h
  unfold bindsKey LogEvent.type
  cases hbody : event.body <;> rw [hbody] at h <;> simp_all [EventBody.type]

/-- The search of `keyTimestamp` stops at key events only. -/
theorem find?_recordsKey (keyThumbprint : String) (history : List LogEvent) :
    history.find? (recordsKey keyThumbprint) = (history.filter bindsKey).find? (recordsKey keyThumbprint) := by
  rw [List.find?_filter]
  congr 1
  funext event
  rw [Bool.eq_iff_iff, decide_eq_true_eq]
  exact ⟨fun h => ⟨bindsKey_of_recordsKey h, h⟩, fun h => h.2⟩

section Snapshot
variable {Bytes : Type} {P : Platform Bytes} {domain : String}

theorem keyBoundAfter_of_binds {event : LogEvent} (h : bindsKey event = true) (bound time : ℤ) :
    keyBoundAfter bound time event.body = time := by
  unfold bindsKey LogEvent.type at h
  cases hbody : event.body <;> rw [hbody] at h <;> simp_all [EventBody.type, keyBoundAfter]

theorem keyBoundAfter_of_not_binds {event : LogEvent} (h : bindsKey event = false) (bound time : ℤ) :
    keyBoundAfter bound time event.body = bound := by
  unfold bindsKey LogEvent.type at h
  cases hbody : event.body <;> rw [hbody] at h <;> simp_all [EventBody.type, keyBoundAfter]

/-- The snapshot keeps the time of the last event that binds a key. -/
theorem run_keyBoundAt {l : List LogEvent} {st st' : Materialized}
    (h : l.foldlM (snapshotStep P domain none) st = .ok st') :
    (∀ event ∈ l, event.timestamp ≠ none) ∧
      ∀ last, (l.filter bindsKey).getLast? = some last → last.timestamp = some st'.keyBoundAt := by
  have hrun := foldlM_run_invariant (I := fun done st' => (∀ event ∈ done, event.timestamp ≠ none) ∧
    ∀ last, (done.filter bindsKey).getLast? = some last → last.timestamp = some st'.keyBoundAt) ?_ l [] st st'
    ⟨by simp, by simp⟩ h
  · exact hrun
  · rintro done event st₁ st₂ ⟨htimes, hbound⟩ hstep
    obtain ⟨hm, rfl⟩ := snapshotStep_iff.mp hstep
    constructor
    · intro e he
      rcases List.mem_append.mp he with he | he
      · exact htimes e he
      · rw [List.mem_singleton.mp he]
        exact hm.timestamp
    · intro last hlast
      rw [Materialized.after_keyBoundAt]
      rw [List.filter_append] at hlast
      cases hbinds : bindsKey event with
      | true =>
        rw [List.filter_singleton, hbinds, cond_true, List.getLast?_concat] at hlast
        obtain rfl := Option.some.inj hlast
        obtain ⟨timestamp, htime⟩ := Option.ne_none_iff_exists'.mp hm.timestamp
        rw [keyBoundAfter_of_binds hbinds, htime]
        rfl
      | false =>
        rw [List.filter_singleton, hbinds, cond_false, List.append_nil] at hlast
        rw [keyBoundAfter_of_not_binds hbinds]
        exact hbound last hlast

theorem latestSnapshot_keyBoundAt {history : List LogEvent} {snapshot : DomainSnapshot}
    (h : latestSnapshot P domain history = .ok snapshot) :
    ∃ last, (history.filter bindsKey).getLast? = some last ∧ last.timestamp = some snapshot.keyBoundAt := by
  obtain ⟨hne, st, hrun, hsnapshot⟩ := latestSnapshot_iff.mp h
  obtain ⟨fields, rest, _, hissued⟩ := materialize_issued hne hrun
  obtain ⟨first, rfl, hfirst⟩ := hissued.head
  have hbinds : bindsKey first = true := by simp [bindsKey, LogEvent.type, hfirst, EventBody.type]
  have hkey : snapshot.keyBoundAt = st.keyBoundAt := by
    unfold Materialized.snapshot at hsnapshot
    split at hsnapshot
    · cases hsnapshot
      rfl
    · obtain ⟨_, -, hsnapshot⟩ := bind_eq_ok.mp hsnapshot
      cases hsnapshot
  rw [List.filter_cons_of_pos hbinds]
  refine ⟨_, List.getLast?_cons, ?_⟩
  rw [hkey]
  exact (run_keyBoundAt hrun).2 _ (by rw [List.filter_cons_of_pos hbinds, List.getLast?_cons])

/-- The first event that records the key is the last event that binds one, or has its time. -/
def FirstRecordIsLast (history : List LogEvent) (keyThumbprint : String) : Prop :=
  ∃ earlier first later, history.filter bindsKey = earlier ++ first :: later ∧
    (∀ event ∈ earlier, recordsKey keyThumbprint event = false) ∧ recordsKey keyThumbprint first = true ∧
    ∀ last, later.getLast? = some last → last.timestamp = first.timestamp

/-- **The two times of the active key.** They are the same exactly when the key was not recorded before its last
binding, or was so at the same time. -/
theorem keyTimestamp_agrees_iff {rebuildHistory : String → Except Thrown (List LogEvent)} {history : List LogEvent}
    {snapshot : DomainSnapshot} (hhistory : rebuildHistory domain = .ok history)
    (hsnapshot : latestSnapshot P domain history = .ok snapshot) :
    keyTimestamp rebuildHistory domain snapshot.activeKeyThumbprint = .ok (some snapshot.keyBoundAt) ↔
      FirstRecordIsLast history snapshot.activeKeyThumbprint := by
  obtain ⟨last, hlast, hbound⟩ := latestSnapshot_keyBoundAt hsnapshot
  rw [keyTimestamp, hhistory, ok_bind, find?_recordsKey]
  simp only [bind_eq_ok, orThrow_eq_ok, pure_eq_ok, List.find?_eq_some_iff_append, Bool.not_eq_true']
  constructor
  · rintro ⟨first, ⟨hrecords, earlier, later, hsplit, hearlier⟩, htime⟩
    refine ⟨earlier, first, later, hsplit, hearlier, hrecords, fun last' hlast' => ?_⟩
    rw [hsplit, List.getLast?_append, List.getLast?_cons, hlast'] at hlast
    obtain rfl := Option.some.inj hlast
    rw [htime]
    exact hbound
  · rintro ⟨earlier, first, later, hsplit, hearlier, hrecords, htimes⟩
    refine ⟨first, ⟨hrecords, earlier, later, hsplit, hearlier⟩, ?_⟩
    rw [hsplit, List.getLast?_append, List.getLast?_cons] at hlast
    cases hlater : later.getLast? with
    | none =>
      rw [hlater] at hlast
      obtain rfl := Option.some.inj hlast
      exact hbound
    | some last' =>
      rw [hlater] at hlast
      obtain rfl := Option.some.inj hlast
      rw [← htimes _ hlater]
      exact hbound

end Snapshot

/-! ## A key that comes back -/

/-- The sample stream's events are as long ago as the last of them. -/
def laterOptions : StreamVerifierOptions :=
  { sampleOptions with checkpointIntegrationTimeMs := some 3000 }

/-- `N` is replaced by `O` again, at second 3. -/
def returningRotation : Json :=
  sampleEntry "KEY_ROTATION" 3 ([("prev_thumb", .str "N"), ("new_ku", sampleKey "O" "O"),
    ("new_thumb", .str "O"), ("note", .str "back")] ++ sampleChain 2 "/KEY_ROTATION///" "//ACTIVE/N/")
    [("prev_op", "N", "N"), ("new_op", "O", "O")]

def rotatedStream : List (VerifiedLifecycleEvent Json) := [sampleItem 0 sampleIssuance, sampleItem 1 sampleRotation]

def returnedStream : List (VerifiedLifecycleEvent Json) := rotatedStream ++ [sampleItem 2 returningRotation]

def snapshotOf (stream : List (VerifiedLifecycleEvent Json)) : Option DomainSnapshot :=
  (latestSnapshot samplePlatform "a.example" (eventsOf stream)).toOption

/-- The time of a new key is that of its rotation. -/
theorem rotatedStream_agrees : ∃ snapshot,
    latestSnapshot samplePlatform "a.example" (eventsOf rotatedStream) = .ok snapshot ∧
      snapshot.activeKeyThumbprint = "N" ∧
      (keyTimestamp (fun _ => .ok (eventsOf rotatedStream)) "a.example" snapshot.activeKeyThumbprint =
          .ok (some snapshot.keyBoundAt) ↔
        FirstRecordIsLast (eventsOf rotatedStream) snapshot.activeKeyThumbprint) := by
  cases hsnapshot : latestSnapshot samplePlatform "a.example" (eventsOf rotatedStream) with
  | error error =>
    have hnone : (snapshotOf rotatedStream).isSome = true := by decide
    rw [snapshotOf, hsnapshot] at hnone
    cases hnone
  | ok snapshot =>
    have hthumbprint : (snapshotOf rotatedStream).map DomainSnapshot.activeKeyThumbprint = some "N" := by decide
    rw [snapshotOf, hsnapshot] at hthumbprint
    exact ⟨snapshot, rfl, Option.some.inj hthumbprint, keyTimestamp_agrees_iff rfl hsnapshot⟩

/-- After a rotation away and back the key has two times. -/
theorem returnedStream_disagrees :
    verifyStreamLifecycle samplePlatform [⟨0, sampleIssuance⟩, ⟨1, sampleRotation⟩, ⟨2, returningRotation⟩] "a.example"
        laterOptions = .ok returnedStream ∧
      (snapshotOf returnedStream).map (fun s => (s.historicalState, s.activeKeyThumbprint, s.keyBoundAt)) =
        some (.active, "O", 3000) ∧
      (keyTimestamp (fun _ => .ok (eventsOf returnedStream)) "a.example" "O").toOption = some (some 1000) := by
  refine ⟨?_, by decide, by decide⟩
  exact verifyStreamLifecycle_sorted (by decide) (by decide) (by decide +kernel)

end Dnsid.Reader

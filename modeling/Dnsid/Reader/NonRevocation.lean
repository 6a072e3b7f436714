import Dnsid.Protocol.SnapshotPrefix
import Dnsid.Stream.WellFormed

/-! # Non-revocation (`C2spTlogReader` in `log-c2sp-tlog/src/reader.ts`)

`verifyNonRevocation` takes what its reader holds and what happens around it as arguments: the outcome of
`loadAndVerifyHistory` for a key, within the time budget, and the clock. Of a verified history it reads the members of
`VerifiedHistory`. A `Date` is its `getTime()`, `none` for an invalid one.
-/
namespace Dnsid.Reader
open Dnsid.Foundations Dnsid.Events Dnsid.Protocol
set_option autoImplicit false

structure VerifiedHistory (Bytes : Type) where
  events : List LogEvent
  checkpointWitnessTime : Option ℤ
  checkpoint : Bytes
  completeThrough : String
  completenessMode : String
  /-- One reference for each event; absent when a migration callback gave none for the prior history. -/
  historyReferences : Option (List String)

structure LoggedStateEvidence (Bytes : Type) where
  logReference : String
  loggedState : AgentStatusState
  historyStart : String
  historyEnd : String
  completeThrough : String
  completenessMode : String
  checkpoint : Bytes
  freshnessTime : Option ℤ

/-- The options and fields of the reader that are read here. -/
structure C2spTlogReader where
  lr : String
  checkpointMaxAge : Option ℤ
  entityKey : Option DnsIdJWK
  trustedEntityKey : Option DnsIdJWK

/-- A `VerificationError` with code `LogError` and no category. -/
def logError (message : String) : Thrown := ⟨.verificationError, message, none, none⟩

/-- An invalid witness time is not too old. -/
def C2spTlogReader.assertFresh (reader : C2spTlogReader) (now : ℤ) (checkpointWitnessTime : Option ℤ) : Except Thrown Unit := do
  let maximumAge ← orThrow (logError "non-revocation verification requires checkpointMaxAge") reader.checkpointMaxAge
  throwIf (checkpointWitnessTime.any fun time => maximumAge < now - time)
    (logError "C2SP checkpoint is too stale for non-revocation verification")

/-- The lower-case names in the message of a terminal state. -/
def terminalName : AgentStatusState → Option String
  | .revoked => some "revoked"
  | .retired => some "retired"
  | _ => none

def assertNotTerminal (domain : String) (state : AgentStatusState) : Except Thrown Unit :=
  match terminalName state with
  | some name => .error (logError s!"domain {domain} was {name}")
  | none => .ok ()

/-- `references[length - 1]`. -/
def lastReference (references : List String) : ℕ → Option String
  | 0 => none
  | length + 1 => references[length]?

/-- The references of the first and the last event of the snapshot; an empty one is as none. -/
def historyBounds (references : Option (List String)) (events taken : ℕ) : Except Thrown (String × String) := do
  let noBounds : Thrown := .lifecycleError "C2SP non-revocation evidence has no verified history bounds" .invalidEvidence
  let references ← orThrow noBounds references
  let start ← orThrow noBounds (references.head?.filter (· ≠ ""))
  let last ← orThrow noBounds ((lastReference references taken).filter (· ≠ ""))
  throwIf (references.length ≠ events) noBounds
  return (start, last)

section NonRevocation
variable {Bytes : Type} (P : Platform Bytes)

def verifyNonRevocation (reader : C2spTlogReader)
    (loadAndVerifyHistory : DnsIdJWK → Except Thrown (VerifiedHistory Bytes)) (now : ℤ) (domain : String)
    (time : Option ℤ) : Except Thrown (LoggedStateEvidence Bytes) := do
  throwIf (reader.checkpointMaxAge = none) (logError "non-revocation verification requires checkpointMaxAge")
  let trustedEntityKey ← orThrow (logError "C2SP lifecycle verification requires a trusted entity key")
    (reader.entityKey.or reader.trustedEntityKey)
  let verified ← loadAndVerifyHistory trustedEntityKey
  reader.assertFresh now verified.checkpointWitnessTime
  let snapshot ← DomainLog.snapshotAt P ⟨domain, verified.events⟩ time
  assertNotTerminal domain snapshot.historicalState
  let bounds ← historyBounds verified.historyReferences verified.events.length snapshot.events.length
  return {
    logReference := reader.lr
    loggedState := snapshot.historicalState
    historyStart := bounds.1
    historyEnd := bounds.2
    completeThrough := verified.completeThrough
    completenessMode := verified.completenessMode
    checkpoint := verified.checkpoint
    freshnessTime := verified.checkpointWitnessTime
  }

variable {P}

theorem assertNotTerminal_ok {domain : String} {state : AgentStatusState} {u : Unit}
    (h : assertNotTerminal domain state = .ok u) : state ≠ .revoked ∧ state ≠ .retired := by
  cases state with
  | revoked => cases h
  | retired => cases h
  | _ => exact ⟨by decide, by decide⟩

/-- The bound is the reference of the last event that the snapshot has. -/
theorem historyBounds_last {references : Option (List String)} {events : List LogEvent} {bounds : String × String}
    {before after : List LogEvent} (hevents : events = before ++ after) (hne : before ≠ [])
    (h : historyBounds references events.length before.length = .ok bounds) :
    ∃ refs last, references = some refs ∧ refs.length = events.length ∧
      (before.zip (refs.take before.length)).getLast? = some (last, bounds.2) := by
  simp only [historyBounds, bind_eq_ok, orThrow_eq_ok, throwIf_eq_ok, pure_eq_ok] at h
  obtain ⟨refs, hrefs, -, -, last, hlast, _, hlength, rfl⟩ := h
  have hlength := not_not.mp hlength
  have hlast := (Option.filter_eq_some_iff.mp hlast).1
  have hpos : 0 < before.length := List.length_pos_of_ne_nil hne
  obtain ⟨n, hn⟩ : ∃ n, before.length = n + 1 := ⟨before.length - 1, by omega⟩
  rw [hn, lastReference] at hlast
  have hevent : before[n]? = some before[n] := List.getElem?_eq_getElem (by omega)
  have hzip : (before.zip (refs.take before.length)).length = n + 1 := by
    rw [List.length_zip, List.length_take, hlength, hevents, List.length_append]
    omega
  refine ⟨refs, before[n], hrefs, hlength, ?_⟩
  rw [List.getLast?_eq_getElem?, hzip, Nat.add_sub_cancel, List.getElem?_zip_eq_some]
  exact ⟨hevent, by rw [List.getElem?_take, if_pos (by omega)]; exact hlast⟩

/-- The events with their references, cut at a time. -/
theorem filter_zip {t : ℤ} {events before after : List LogEvent} {refs : List String} (hevents : events = before ++ after)
    (hlength : refs.length = events.length) (hbefore : ∀ event ∈ before, atOrBefore t event = true)
    (hafter : ∀ event ∈ after, atOrBefore t event = false) :
    (events.zip refs).filter (fun p => atOrBefore t p.1) = before.zip (refs.take before.length) := by
  have hsplit : events.zip refs = before.zip (refs.take before.length) ++ after.zip (refs.drop before.length) := by
    have htake : before.length = (refs.take before.length).length := by
      rw [List.length_take, hlength, hevents, List.length_append]
      omega
    rw [← List.zip_append htake, List.take_append_drop, hevents]
  rw [hsplit, List.filter_append, List.filter_eq_self.mpr, List.filter_eq_nil_iff.mpr, List.append_nil]
  · intro p hp
    rw [hafter p.1 (List.of_mem_zip hp).1]
    exact Bool.false_ne_true
  · intro p hp
    exact hbefore p.1 (List.of_mem_zip hp).1

/-- Evidence of a state rests on the events up to the time, none of which ends the identity, and is bounded by the
reference of the last of them. -/
theorem verifyNonRevocation_bounds {reader : C2spTlogReader} {load : DnsIdJWK → Except Thrown (VerifiedHistory Bytes)} {now : ℤ}
    {domain : String} {t : ℤ} {evidence : LoggedStateEvidence Bytes}
    (h : verifyNonRevocation P reader load now domain (some t) = .ok evidence) :
    ∃ key verified refs last, load key = .ok verified ∧ verified.historyReferences = some refs ∧
      refs.length = verified.events.length ∧
      (∀ event ∈ verified.events, atOrBefore t event = true → event.type ≠ .revocation ∧ event.type ≠ .retirement) ∧
      ((verified.events.zip refs).filter fun p => atOrBefore t p.1).getLast? = some (last, evidence.historyEnd) := by
  simp only [verifyNonRevocation, bind_eq_ok, orThrow_eq_ok, throwIf_eq_ok, pure_eq_ok] at h
  obtain ⟨-, -, key, -, verified, hload, -, -, snapshot, hsnapshot, _, hstate, bounds, hbounds, rfl⟩ := h
  obtain ⟨after, hcut⟩ := snapshotAt_cut hsnapshot
  obtain ⟨refs, last, hrefs, hlength, hlast⟩ := historyBounds_last hcut.append hcut.nonempty hbounds
  refine ⟨key, verified, refs, last, hload, hrefs, hlength,
    snapshotAt_not_terminal hsnapshot (assertNotTerminal_ok hstate), ?_⟩
  have hzip := filter_zip hcut.append hlength hcut.within hcut.past
  rw [hzip]
  exact hlast

/-- **Snapshots are a monotone view of the history.** A snapshot holds the events up to its time, which are a prefix;
later snapshots extend earlier ones, and keep a terminal one; evidence of non-revocation ends with the last event up to
its time, and no event up to then ends the identity. -/
theorem snapshots_monotone_view (P : Platform Bytes) :
    (∀ (log : DomainLog) (t : ℤ) s, log.snapshotAt P (some t) = .ok s →
      s.events <+: log.events ∧ s.events = log.events.filter (atOrBefore t)) ∧
    (∀ (log : DomainLog) (t₁ t₂ : ℤ) s₁ s₂, t₁ ≤ t₂ → log.snapshotAt P (some t₁) = .ok s₁ →
      log.snapshotAt P (some t₂) = .ok s₂ → s₁.events <+: s₂.events ∧
        (s₁.historicalState = .revoked ∨ s₁.historicalState = .retired →
          s₂.events = s₁.events ∧ s₂.historicalState = s₁.historicalState)) ∧
    (∀ (reader : C2spTlogReader) load (now : ℤ) domain (t : ℤ) evidence,
      verifyNonRevocation P reader load now domain (some t) = .ok evidence →
        ∃ key verified refs last, load key = .ok verified ∧ verified.historyReferences = some refs ∧
          refs.length = verified.events.length ∧
          (∀ event ∈ verified.events, atOrBefore t event = true →
            event.type ≠ .revocation ∧ event.type ≠ .retirement) ∧
          ((verified.events.zip refs).filter fun p => atOrBefore t p.1).getLast? =
            some (last, evidence.historyEnd)) := by
  refine ⟨?_, ?_, ?_⟩
  · intro log t s h
    exact snapshotAt_events h
  · intro log t₁ t₂ s₁ s₂ hle h₁ h₂
    exact snapshotAt_mono hle h₁ h₂
  · intro reader load now domain t evidence h
    exact verifyNonRevocation_bounds h

end NonRevocation

/-! A history that a revocation ends, two seconds after the rotation. -/

def lateRevocation : Json :=
  Stream.sampleEntry "REVOCATION" 3 (("reason", .str "superseded") ::
    Stream.sampleChain 2 "/KEY_ROTATION///" "//ACTIVE/N/") [("ae", "E", "E")]

def revokedHistory : VerifiedHistory Json where
  events := Stream.eventsOf [Stream.sampleItem 0 Stream.sampleIssuance, Stream.sampleItem 1 Stream.sampleRotation,
    Stream.sampleItem 2 lateRevocation]
  checkpointWitnessTime := some 4000
  checkpoint := .str "checkpoint"
  completeThrough := "3"
  completenessMode := "full-scan"
  historyReferences := some ["lr#0", "lr#1", "lr#2"]

def sampleReader : C2spTlogReader := ⟨"lr", some 1000, some (Stream.sampleKey "E" "E"), none⟩

def evidenceAt (t : ℤ) : Except Thrown (LoggedStateEvidence Json) :=
  verifyNonRevocation Stream.samplePlatform sampleReader (fun _ => .ok revokedHistory) 5000 "a.example" (some t)

/-- Before the revocation the evidence ends with the rotation; from then on there is none. -/
theorem snapshots_monotone_view_revoked :
    (∃ evidence, evidenceAt 2000 = .ok evidence ∧ evidence.loggedState = .active ∧ evidence.historyStart = "lr#0" ∧
      evidence.historyEnd = "lr#1" ∧
      (∀ event ∈ revokedHistory.events, atOrBefore 2000 event = true → event.type ≠ .revocation ∧ event.type ≠ .retirement)) ∧
    (evidenceAt 3000).toOption = none := by
  constructor
  · have hevidence : (evidenceAt 2000).toOption.map (fun e => (e.loggedState, e.historyStart, e.historyEnd)) =
        some (.active, "lr#0", "lr#1") := by decide
    cases hresult : evidenceAt 2000 with
    | error error =>
      rw [hresult] at hevidence
      cases hevidence
    | ok evidence =>
      rw [hresult] at hevidence
      obtain ⟨hstate, hbounds⟩ := Prod.mk.inj (Option.some.inj hevidence)
      obtain ⟨hstart, hend⟩ := Prod.mk.inj hbounds
      obtain ⟨key, verified, refs, last, hload, -, -, hopen, -⟩ :=
        (snapshots_monotone_view Stream.samplePlatform).2.2 sampleReader _ 5000 "a.example" 2000 evidence hresult
      obtain rfl := Except.ok.inj hload
      exact ⟨evidence, rfl, hstate, hstart, hend, hopen⟩
  · decide

end Dnsid.Reader

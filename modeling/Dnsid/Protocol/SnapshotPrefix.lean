import Dnsid.Protocol.Materialize

/-! # Snapshots of a history at different times

A snapshot at a time is the run over the events at or before it, and these come before all others: once an event lies
past the time, the fold takes no further one. Snapshots at two times are therefore runs over two prefixes of one list,
and a run that has reached a terminal state takes no event at all.
-/
namespace Dnsid.Protocol
open Dnsid.Foundations Dnsid.Events
set_option autoImplicit false

/-- `event.timestamp <= t`. -/
def atOrBefore (t : ℤ) (event : LogEvent) : Bool := event.timestamp.any fun timestamp => timestamp ≤ t

section Snapshot
variable {Bytes : Type} {P : Platform Bytes} {domain : String} {t : ℤ}

/-! ## One step -/

/-- An event past the time marks the boundary, any other is materialized. -/
theorem snapshotStep_at {st st' : Materialized} {event : LogEvent}
    (h : snapshotStep P domain (some t) st event = .ok st') :
    (atOrBefore t event = false ∧ st' = { st with pastSnapshotBoundary := true }) ∨
      (atOrBefore t event = true ∧ snapshotStep P domain none st event = .ok st') := by
  cases htime : event.timestamp with
  | none =>
    simp only [snapshotStep, htime, orThrow, bind_eq_ok, reduceCtorEq, false_and, exists_false, and_false] at h
  | some timestamp =>
    by_cases hle : timestamp ≤ t
    · right
      have hwithin : ∀ time, event.timestamp = some time → isAfter time (some t) = false := by
        intro time heq
        obtain rfl := Option.some.inj (htime.symm.trans heq)
        simpa [isAfter] using hle
      exact ⟨by simp [atOrBefore, htime, hle], (snapshotStep_within hwithin).symm.trans h⟩
    · left
      have hafter : isAfter timestamp (some t) = true := by simpa [isAfter] using hle
      simp only [snapshotStep, htime, orThrow_some, bind_eq_ok, throwIf_eq_ok] at h
      obtain ⟨-, -, _, heq, h⟩ := h
      obtain rfl := Except.ok.inj heq
      rw [if_pos hafter, pure_eq_ok] at h
      exact ⟨by simp [atOrBefore, htime, hle], h.symm⟩

theorem not_materializable_terminal {st : Materialized} {event : LogEvent}
    (h : st.state = some .revoked ∨ st.state = some .retired) : ¬ Materializable P domain st event := by
  intro hm
  by_cases htype : event.type = .issuance
  · rw [hm.genesis htype] at h
    rcases h with h | h <;> cases h
  · rw [hm.active htype] at h
    rcases h with h | h <;> cases h

/-! ## Runs -/

theorem run_eventsUpTo {l : List LogEvent} {st st' : Materialized}
    (h : l.foldlM (snapshotStep P domain none) st = .ok st') : st'.eventsUpTo = st.eventsUpTo ++ l := by
  have hrun := foldlM_run_invariant (I := fun done st' => st'.eventsUpTo = st.eventsUpTo ++ done) ?_ l [] st st'
    (List.append_nil _).symm h
  · exact hrun
  · intro done event st₁ st₂ heq hstep
    obtain ⟨-, rfl⟩ := snapshotStep_iff.mp hstep
    rw [Materialized.after_eventsUpTo, heq, List.append_assoc]

/-- Nothing follows a terminal state. -/
theorem run_terminal {l : List LogEvent} {st st' : Materialized}
    (h : l.foldlM (snapshotStep P domain none) st = .ok st')
    (hterminal : st.state = some .revoked ∨ st.state = some .retired) : l = [] := by
  cases l with
  | nil => rfl
  | cons event l =>
    obtain ⟨st₁, hstep, -⟩ := foldlM_cons_ok h
    exact absurd (snapshotStep_iff.mp hstep).1 (not_materializable_terminal hterminal)

/-- A run that does not end in a terminal state has met no event that leads to one. -/
theorem run_not_terminal {l : List LogEvent} {st st' : Materialized}
    (h : l.foldlM (snapshotStep P domain none) st = .ok st')
    (hstate : st'.state ≠ some .revoked ∧ st'.state ≠ some .retired) :
    ∀ event ∈ l, event.type ≠ .revocation ∧ event.type ≠ .retirement := by
  intro event hevent
  rw [← not_or]
  intro htype
  obtain ⟨earlier, later, rfl⟩ := List.append_of_mem hevent
  obtain ⟨st₁, -, h⟩ := foldlM_append_ok.mp h
  obtain ⟨st₂, hstep, h⟩ := foldlM_cons_ok h
  obtain ⟨-, rfl⟩ := snapshotStep_iff.mp hstep
  have hterminal : (st₁.after event).state = some .revoked ∨ (st₁.after event).state = some .retired := by
    rw [Materialized.after_state]
    rw [LogEvent.type] at htype
    cases hbody : event.body <;> rw [hbody] at htype <;> simp_all [EventBody.type, stateAfter]
  obtain rfl := run_terminal h hterminal
  cases h
  exact absurd hterminal (not_or.mpr hstate)

/-- Past the boundary no event is taken. -/
theorem run_past {l : List LogEvent} {st st' : Materialized} (hpast : st.pastSnapshotBoundary = true)
    (h : l.foldlM (snapshotStep P domain (some t)) st = .ok st') :
    (∀ event ∈ l, atOrBefore t event = false) ∧ st' = st := by
  induction l generalizing st with
  | nil =>
    cases h
    exact ⟨by simp, rfl⟩
  | cons event l ih =>
    obtain ⟨st₁, hstep, h⟩ := foldlM_cons_ok h
    rcases snapshotStep_at hstep with ⟨hafter, rfl⟩ | ⟨-, hstep⟩
    · obtain ⟨hrest, rfl⟩ := ih rfl h
      exact ⟨List.forall_mem_cons.mpr ⟨hafter, hrest⟩, by rw [← hpast]⟩
    · have hboundary := (snapshotStep_iff.mp hstep).1.boundary
      rw [hpast] at hboundary
      cases hboundary

/-- The events up to the time, materialized, and the others. -/
structure CutAt (P : Platform Bytes) (domain : String) (t : ℤ) (events : List LogEvent) (st st' : Materialized)
    (before after : List LogEvent) : Prop where
  append : events = before ++ after
  within : ∀ event ∈ before, atOrBefore t event = true
  past : ∀ event ∈ after, atOrBefore t event = false
  run : ∃ mid, before.foldlM (snapshotStep P domain none) st = .ok mid ∧ st'.state = mid.state ∧
    st'.eventsUpTo = mid.eventsUpTo

theorem run_cut {l : List LogEvent} {st st' : Materialized}
    (h : l.foldlM (snapshotStep P domain (some t)) st = .ok st') :
    ∃ before after, CutAt P domain t l st st' before after := by
  induction l generalizing st with
  | nil =>
    cases h
    exact ⟨[], [], rfl, by simp, by simp, st', rfl, rfl, rfl⟩
  | cons event l ih =>
    obtain ⟨st₁, hstep, h⟩ := foldlM_cons_ok h
    rcases snapshotStep_at hstep with ⟨hafter, rfl⟩ | ⟨hbefore, hstep⟩
    · obtain ⟨hrest, rfl⟩ := run_past rfl h
      exact ⟨[], event :: l, rfl, by simp, List.forall_mem_cons.mpr ⟨hafter, hrest⟩, st, rfl, rfl, rfl⟩
    · obtain ⟨before, after, hcut⟩ := ih h
      obtain ⟨mid, hrun, hmid⟩ := hcut.run
      refine ⟨event :: before, after, ?_, List.forall_mem_cons.mpr ⟨hbefore, hcut.within⟩, hcut.past, mid, ?_, hmid⟩
      · rw [hcut.append, List.cons_append]
      · rw [List.foldlM_cons, hstep]
        exact hrun

/-! ## Snapshots -/

variable {log : DomainLog} {s : DomainSnapshot}

/-- A snapshot is the end of a run over the events up to its time. -/
structure SnapshotCut (P : Platform Bytes) (log : DomainLog) (t : ℤ) (s : DomainSnapshot) (after : List LogEvent) :
    Prop where
  append : log.events = s.events ++ after
  within : ∀ event ∈ s.events, atOrBefore t event = true
  past : ∀ event ∈ after, atOrBefore t event = false
  run : ∃ mid, s.events.foldlM (snapshotStep P log.domain none) .initial = .ok mid ∧ mid.state = some s.historicalState

theorem snapshotAt_cut (h : log.snapshotAt P (some t) = .ok s) : ∃ after, SnapshotCut P log t s after := by
  unfold DomainLog.snapshotAt at h
  split at h
  · obtain ⟨_, -, h⟩ := bind_eq_ok.mp h
    cases h
  · obtain ⟨st, hrun, h⟩ := bind_eq_ok.mp h
    obtain ⟨before, after, hcut⟩ := run_cut hrun
    obtain ⟨mid, hmid, hstate, hevents⟩ := hcut.run
    have hbefore : mid.eventsUpTo = before := run_eventsUpTo hmid
    have htaken : s.events = st.eventsUpTo := by
      unfold Materialized.snapshot at h
      split at h
      · cases h
        rfl
      · obtain ⟨_, -, h⟩ := bind_eq_ok.mp h
        cases h
    rw [hevents, hbefore] at htaken
    obtain rfl := htaken
    exact ⟨after, hcut.append, hcut.within, hcut.past, mid, hmid, hstate.symm.trans (Materialized.snapshot_ok h).1⟩

theorem SnapshotCut.filter {after : List LogEvent} (h : SnapshotCut P log t s after) :
    s.events = log.events.filter (atOrBefore t) := by
  have hnone : after.filter (atOrBefore t) = [] :=
    List.filter_eq_nil_iff.mpr fun event hevent => by rw [h.past event hevent]; exact Bool.false_ne_true
  rw [h.append, List.filter_append, List.filter_eq_self.mpr h.within, hnone, List.append_nil]

theorem SnapshotCut.nonempty {after : List LogEvent} (h : SnapshotCut P log t s after) : s.events ≠ [] := by
  obtain ⟨mid, hrun, hstate⟩ := h.run
  intro hnil
  rw [hnil] at hrun
  cases hrun
  cases hstate

theorem snapshotAt_events (h : log.snapshotAt P (some t) = .ok s) :
    s.events <+: log.events ∧ s.events = log.events.filter (atOrBefore t) := by
  obtain ⟨after, hcut⟩ := snapshotAt_cut h
  exact ⟨⟨after, hcut.append.symm⟩, hcut.filter⟩

theorem atOrBefore_mono {t₁ t₂ : ℤ} (hle : t₁ ≤ t₂) {event : LogEvent} (h : atOrBefore t₁ event = true) :
    atOrBefore t₂ event = true := by
  rw [atOrBefore, Option.any_eq_true] at h ⊢
  obtain ⟨timestamp, htime, h⟩ := h
  exact ⟨timestamp, htime, decide_eq_true (Int.le_trans (of_decide_eq_true h) hle)⟩

/-- The later snapshot runs on from the earlier one. -/
theorem snapshotAt_extends {t₁ t₂ : ℤ} {s₁ s₂ : DomainSnapshot} (hle : t₁ ≤ t₂)
    (h₁ : log.snapshotAt P (some t₁) = .ok s₁) (h₂ : log.snapshotAt P (some t₂) = .ok s₂) :
    ∃ more, s₂.events = s₁.events ++ more ∧ ∃ mid₁ mid₂, mid₁.state = some s₁.historicalState ∧
      mid₂.state = some s₂.historicalState ∧ more.foldlM (snapshotStep P log.domain none) mid₁ = .ok mid₂ := by
  obtain ⟨after₁, hcut₁⟩ := snapshotAt_cut h₁
  obtain ⟨after₂, hcut₂⟩ := snapshotAt_cut h₂
  have hprefix : s₁.events <+: s₂.events := by
    rcases List.prefix_or_prefix_of_prefix (snapshotAt_events h₁).1 (snapshotAt_events h₂).1 with hpre | hpre
    · exact hpre
    · -- an event of the earlier snapshot alone would lie past the later time
      obtain ⟨extra, hextra⟩ := hpre
      have hnil : extra = [] := by
        rw [List.eq_nil_iff_forall_not_mem]
        intro event hevent
        have hbefore := atOrBefore_mono hle (hcut₁.within event (hextra ▸ List.mem_append_right _ hevent))
        have hmem : event ∈ after₂ := by
          have hsplit := hcut₁.append.symm.trans hcut₂.append
          rw [← hextra, List.append_assoc, List.append_right_inj] at hsplit
          rw [← hsplit]
          exact List.mem_append_left _ hevent
        rw [hcut₂.past event hmem] at hbefore
        cases hbefore
      rw [hnil, List.append_nil] at hextra
      exact hextra ▸ List.prefix_rfl
  obtain ⟨more, hmore⟩ := hprefix
  obtain ⟨mid₁, hrun₁, hstate₁⟩ := hcut₁.run
  obtain ⟨mid₂, hrun₂, hstate₂⟩ := hcut₂.run
  rw [← hmore, foldlM_append_ok] at hrun₂
  obtain ⟨mid, hmid, hrun⟩ := hrun₂
  obtain rfl := Except.ok.inj (hrun₁.symm.trans hmid)
  exact ⟨more, hmore.symm, mid₁, mid₂, hstate₁, hstate₂, hrun⟩

theorem snapshotAt_mono {t₁ t₂ : ℤ} {s₁ s₂ : DomainSnapshot} (hle : t₁ ≤ t₂)
    (h₁ : log.snapshotAt P (some t₁) = .ok s₁) (h₂ : log.snapshotAt P (some t₂) = .ok s₂) :
    s₁.events <+: s₂.events ∧ (s₁.historicalState = .revoked ∨ s₁.historicalState = .retired →
      s₂.events = s₁.events ∧ s₂.historicalState = s₁.historicalState) := by
  obtain ⟨more, hmore, mid₁, mid₂, hstate₁, hstate₂, hrun⟩ := snapshotAt_extends hle h₁ h₂
  refine ⟨⟨more, hmore.symm⟩, fun hterminal => ?_⟩
  have hmid : mid₁.state = some .revoked ∨ mid₁.state = some .retired := by
    rw [hstate₁, Option.some.injEq, Option.some.injEq]
    exact hterminal
  obtain rfl := run_terminal hrun hmid
  cases hrun
  exact ⟨by rw [hmore, List.append_nil], Option.some.inj (hstate₂.symm.trans hstate₁)⟩

theorem snapshotAt_not_terminal (h : log.snapshotAt P (some t) = .ok s)
    (hstate : s.historicalState ≠ .revoked ∧ s.historicalState ≠ .retired) :
    ∀ event ∈ log.events, atOrBefore t event = true → event.type ≠ .revocation ∧ event.type ≠ .retirement := by
  obtain ⟨after, hcut⟩ := snapshotAt_cut h
  obtain ⟨mid, hrun, hmid⟩ := hcut.run
  intro event hevent hbefore
  have hmem : event ∈ s.events := by
    rw [hcut.filter, List.mem_filter]
    exact ⟨hevent, hbefore⟩
  refine run_not_terminal hrun ?_ event hmem
  rw [hmid, Ne, Ne, Option.some.injEq, Option.some.injEq]
  exact hstate

end Snapshot

end Dnsid.Protocol

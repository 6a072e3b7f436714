import Dnsid.Manager.Barriers

/-! # Evidence without a lifetime

Evidence whose `dnsTTL` is `0` may serve only the operation that acquired it. The cache holds none of it, so
a status refresh has none either; a call that found a verification or a refresh in flight verifies on its
own. `Sound` says where every result comes from, and the rest is read off it.
-/
namespace Dnsid.Manager
open Dnsid.Foundations
set_option autoImplicit false

variable {Record Peer : Type} {cfg : Config Record Peer}

/-- The call waited for an operation that settled with `w`; `again` says that it then had to verify on
its own. -/
def Waited (s : IdentityManager Record Peer) (inv : Invocation Record Peer) (w : VerifiedDomain Record)
    (again : Bool) : Prop :=
  ∃ o existing op, inv.joined = some (o, existing) ∧ s.shared[o]? = some op ∧
    op.phase = .settled (.ok w) ∧ repeats op.kind existing w = again

/-- Where the result of a call comes from: the cache, the operation it waited for, or its own
verification. -/
inductive ResultFrom (s : IdentityManager Record Peer) (c : ℕ) (inv : Invocation Record Peer)
    (v : VerifiedDomain Record) : Prop where
  | cached (hjoined : inv.joined = none) (httl : 0 < v.dnsTTL)
  | waited (hwaited : Waited s inv v false)
  | own (w : VerifiedDomain Record) (hwaited : Waited s inv w true) (hobject : v.object = .call c)

structure Sound (s : IdentityManager Record Peer) : Prop where
  cache : ∀ d entry, s.cache d = some entry → 0 < entry.result.dnsTTL
  cached : ∀ (o : ℕ) op v, s.shared[o]? = some op → op.operation = .statusRefresh v → 0 < v.dnsTTL
  outcome : ∀ (o : ℕ) op v, s.shared[o]? = some op → op.phase.outcome = some (.ok v) →
    v.object = .shared o ∧ Lifetime op.operation v
  verifying : ∀ c inv since, s.calls c = some inv → inv.phase = .verifying since →
    ∃ w, Waited s inv w true
  calls : ∀ c inv v, s.calls c = some inv → inv.outcome = some (.ok v) → ResultFrom s c inv v

theorem sound_initial : Sound (initial : IdentityManager Record Peer) where
  cache _ _ h := by cases h
  cached _ _ _ h := by simp [initial] at h
  outcome _ _ _ h := by simp [initial] at h
  verifying _ _ _ h := by cases h
  calls _ _ _ h := by cases h

/-- An operation that has settled stays as it is. -/
theorem Waited.later {s s' : IdentityManager Record Peer} {inv : Invocation Record Peer}
    {w : VerifiedDomain Record} {again : Bool} (h : Waited s inv w again) (hadv : Advances s s') :
    Waited s' inv w again := by
  obtain ⟨o, existing, op, hjoined, hop, hphase, hrepeats⟩ := h
  obtain ⟨op', hop', hcont⟩ := hadv.shared o op hop
  refine ⟨o, existing, op', hjoined, hop', hcont.settled _ hphase, ?_⟩
  rw [SharedVerification.kind, hcont.operation]
  exact hrepeats

theorem ResultFrom.later {s s' : IdentityManager Record Peer} {c : ℕ} {inv : Invocation Record Peer}
    {v : VerifiedDomain Record} (h : ResultFrom s c inv v) (hadv : Advances s s') :
    ResultFrom s' c inv v := by
  cases h with
  | cached hjoined httl => exact .cached hjoined httl
  | waited hwaited => exact .waited (hwaited.later hadv)
  | own w hwaited hobject => exact .own w (hwaited.later hadv) hobject

theorem waited_congr {s : IdentityManager Record Peer} {inv inv' : Invocation Record Peer}
    {w : VerifiedDomain Record} {again : Bool} (h : Waited s inv w again)
    (hjoined : inv'.joined = inv.joined) : Waited s inv' w again := by
  obtain ⟨o, existing, op, h, hrest⟩ := h
  exact ⟨o, existing, op, hjoined.trans h, hrest⟩

theorem resultFrom_congr {s : IdentityManager Record Peer} {c : ℕ} {inv inv' : Invocation Record Peer}
    {v : VerifiedDomain Record} (h : ResultFrom s c inv v) (hjoined : inv'.joined = inv.joined) :
    ResultFrom s c inv' v := by
  cases h with
  | cached h httl => exact .cached (hjoined.trans h) httl
  | waited hwaited => exact .waited (waited_congr hwaited hjoined)
  | own w hwaited hobject => exact .own w (waited_congr hwaited hjoined) hobject

theorem budgeted_ok {aborted late : Bool} {r : Outcome Record} {v : VerifiedDomain Record}
    (h : budgeted aborted late r = .ok v) : r = .ok v := by
  cases r with
  | error e => exact h
  | ok w =>
    simp only [budgeted] at h
    split at h
    · cases h
    split at h
    · cases h
    · exact h

/-- A step of a call keeps the origin of its result. -/
theorem Sound.callMoves {s : IdentityManager Record Peer} {c : ℕ} {inv inv' : Invocation Record Peer}
    (hs : Sound s) (hcall : s.calls c = some inv) (h : CallMoves s c inv inv')
    {v : VerifiedDomain Record} (hv : inv'.outcome = some (.ok v)) : ResultFrom s c inv' v := by
  have hjoined := h.joined
  cases h with
  | abort => exact resultFrom_congr (hs.calls c inv v hcall hv) hjoined
  | timeout => exact resultFrom_congr (hs.calls c inv v hcall hv) hjoined
  | rejected since e hphase => simp [Invocation.outcome] at hv
  | verified since r hphase hdefinitive hown =>
    obtain ⟨w, hwaited⟩ := hs.verifying c inv since hcall hphase
    simp only [Invocation.outcome, Option.some.injEq] at hv
    exact .own w (waited_congr hwaited hjoined) (hown v hv).1
  | settle r hphase =>
    simp only [Invocation.outcome, Option.some.injEq] at hv
    have hr : inv.outcome = some (.ok v) := by simp [Invocation.outcome, hphase, budgeted_ok hv]
    exact resultFrom_congr (hs.calls c inv v hcall hr) hjoined
  | cancel => simp [Invocation.outcome] at hv

theorem Leaves.resultFrom {s : IdentityManager Record Peer} {c o : ℕ} {inv inv' : Invocation Record Peer}
    {existing : Bool} {op : SharedVerification Record} (hjoined : inv.joined = some (o, existing))
    (hop : s.shared[o]? = some op) (h : Leaves s op existing inv inv')
    {v : VerifiedDomain Record} (hv : inv'.outcome = some (.ok v)) : ResultFrom s c inv' v := by
  have hsame := h.joined
  cases h with
  | canceled => simp [Invocation.outcome] at hv
  | failed e => simp [Invocation.outcome] at hv
  | repeated w => simp [Invocation.outcome] at hv
  | finished w r hphase hrepeats hr =>
    simp only [Invocation.outcome, Option.some.injEq] at hv
    subst hv
    rcases hr with hr | ⟨_, e, hr⟩
    · cases hr
      exact .waited ⟨o, existing, op, hsame.trans hjoined, hop, hphase, hrepeats⟩
    · cases hr

theorem Sound.step {a : Action Record Peer} {s s' : IdentityManager Record Peer} (hs : Sound s)
    (h : step cfg a s = some s') : Sound s' := by
  have heffect := step_effect h
  have hadv := heffect.advances
  refine ⟨?_, ?_, ?_, ?_, ?_⟩
  · intro d entry hentry
    rcases cache_written h hentry with hentry | ⟨o, op, hputs, httl⟩
    · exact hs.cache d entry hentry
    · exact httl
  · intro o op v hop hoperation
    rcases heffect.shared_back hop with ⟨op₀, hop₀, hback⟩ | ⟨_, hfresh⟩
    · exact hs.cached o op₀ v hop₀ (hback.operation.symm.trans hoperation)
    · obtain ⟨d, entry, hentry, rfl⟩ := hfresh.cached v hoperation
      exact hs.cache d entry hentry
  · intro o op v hop hv
    rcases heffect.shared_back hop with ⟨op₀, hop₀, hback⟩ | ⟨_, hfresh⟩
    · rw [hback.operation]
      rcases hback.outcome with hsame | ⟨r, hr, hsettles⟩
      · exact hs.outcome o op₀ v hop₀ (hsame.symm.trans hv)
      · obtain rfl := Option.some.inj (hr.symm.trans hv)
        obtain ⟨hobject, _, hlife⟩ := hsettles.own v rfl
        exact ⟨hobject, hlife⟩
    · simp [hfresh.phase, Phase.outcome] at hv
  · intro c inv since hcall hphase
    cases heffect.call_back hcall with
    | kept hcall =>
      obtain ⟨w, hw⟩ := hs.verifying c inv since hcall hphase
      exact ⟨w, hw.later hadv⟩
    | began r hnew htimer hjoined hr => rcases hr with hr | hr <;> simp [hr] at hphase
    | joined o existing hnew htimer hjoined hwaiting => simp [hwaiting] at hphase
    | moved inv₀ hcall₀ hmove =>
      have hjoined := hmove.joined
      cases hmove with
      | abort | timeout =>
        obtain ⟨w, hw⟩ := hs.verifying c inv₀ since hcall₀ hphase
        exact ⟨w, (waited_congr hw hjoined).later hadv⟩
      | rejected | verified | settle | cancel => cases hphase
    | left inv₀ o existing op hcall₀ hwaiting hjoined hop hleave =>
      have hsame := hleave.joined
      cases hleave with
      | canceled | failed | finished => cases hphase
      | repeated w hop' hrepeats =>
        have hwaited : Waited s { inv₀ with phase := .verifying s.clock } w true :=
          ⟨o, existing, op, hjoined, hop, hop', hrepeats⟩
        exact ⟨w, hwaited.later hadv⟩
  · intro c inv v hcall hv
    refine ResultFrom.later ?_ hadv
    cases heffect.call_back hcall with
    | kept hcall => exact hs.calls c inv v hcall hv
    | began r hnew htimer hjoined hphase hcanceled hok =>
      have hr : r = .ok v := by rcases hphase with h | h <;> simpa [Invocation.outcome, h] using hv
      obtain ⟨d, entry, hentry, rfl⟩ := hok v hr
      exact .cached hjoined (hs.cache d entry hentry)
    | joined o existing hnew htimer hjoined hwaiting => simp [Invocation.outcome, hwaiting] at hv
    | moved inv₀ hcall₀ hmove => exact hs.callMoves hcall₀ hmove hv
    | left inv₀ o existing op hcall₀ hwaiting hjoined hop hleave => exact Leaves.resultFrom hjoined hop hleave hv

theorem sound_of_run {acts : List (Action Record Peer)} {s : IdentityManager Record Peer}
    (h : run (step cfg) acts initial = some s) : Sound s :=
  run_invariant (P := fun _ => True) (fun _ _ _ _ hs h => hs.step h) acts initial s (fun _ _ => trivial)
    sound_initial h

/-- An operation that has settled with evidence of no lifetime has only been joined by calls that
verify on their own. -/
theorem Sound.repeats {s : IdentityManager Record Peer} (hs : Sound s) {o : ℕ}
    {op : SharedVerification Record} {w : VerifiedDomain Record} (hop : s.shared[o]? = some op)
    (hphase : op.phase = .settled (.ok w)) (httl : w.dnsTTL = 0) : repeats op.kind true w = true := by
  have hout : op.phase.outcome = some (.ok w) := by simp [hphase, Phase.outcome]
  have hlife := (hs.outcome o op w hop hout).2
  unfold SharedVerification.kind
  cases hoperation : op.operation with
  | verification => simp [Operation.kind, Manager.repeats, httl]
  | refresh => simp [Operation.kind, Manager.repeats, httl]
  | statusRefresh cached =>
    have hpos := hs.cached o op cached hop hoperation
    simp only [Lifetime, hoperation] at hlife
    rw [← hlife, httl] at hpos
    exact absurd hpos (lt_irrefl 0)

/-- Zero-TTL evidence is used once. In every state that a manager can reach, the cache holds none; a call
that has got some either started the operation that acquired it or acquired it on its own, after it had
joined another; and a call that joined an operation with such a result has got nothing but the result
of its own full verification. -/
theorem zero_ttl_used_once {acts : List (Action Record Peer)} {s : IdentityManager Record Peer}
    (h : run (step cfg) acts initial = some s) :
    (∀ d entry, s.cache d = some entry → entry.result.dnsTTL ≠ 0) ∧
      (∀ c inv v, s.calls c = some inv → inv.outcome = some (.ok v) → v.dnsTTL = 0 →
        (∃ o, inv.joined = some (o, false) ∧ v.object = .shared o) ∨
          (∃ o, inv.joined = some (o, true)) ∧ v.object = .call c) ∧
      ∀ c inv o op w v, s.calls c = some inv → inv.joined = some (o, true) → s.shared[o]? = some op →
        op.phase = .settled (.ok w) → w.dnsTTL = 0 → inv.outcome = some (.ok v) → v.object = .call c := by
  have hs := sound_of_run h
  refine ⟨?_, ?_, ?_⟩
  · intro d entry hentry httl
    exact absurd (hs.cache d entry hentry) (by simp [httl])
  · intro c inv v hcall hv httl
    cases hs.calls c inv v hcall hv with
    | cached hjoined hpos => exact absurd hpos (by simp [httl])
    | waited hwaited =>
      obtain ⟨o, existing, op, hjoined, hop, hphase, hrepeats⟩ := hwaited
      cases existing with
      | true => simp [hs.repeats hop hphase httl] at hrepeats
      | false =>
        have hout : op.phase.outcome = some (.ok v) := by simp [hphase, Phase.outcome]
        exact Or.inl ⟨o, hjoined, (hs.outcome o op v hop hout).1⟩
    | own w hwaited hobject =>
      obtain ⟨o, existing, op, hjoined, hop, hphase, hrepeats⟩ := hwaited
      cases existing with
      | true => exact Or.inr ⟨⟨o, hjoined⟩, hobject⟩
      | false => cases hkind : op.kind <;> simp [hkind, repeats] at hrepeats
  · intro c inv o op w v hcall hjoined hop hphase httl hv
    have hagain := hs.repeats hop hphase httl
    cases hs.calls c inv v hcall hv with
    | cached hnone => simp [hjoined] at hnone
    | own w' hwaited hobject => exact hobject
    | waited hwaited =>
      obtain ⟨o', existing, op', hjoined', hop', hphase', hrepeats⟩ := hwaited
      obtain ⟨rfl, rfl⟩ : o = o' ∧ true = existing := by simpa using hjoined.symm.trans hjoined'
      obtain rfl := Option.some.inj (hop.symm.trans hop')
      obtain rfl : w = v := by simpa using hphase.symm.trans hphase'
      simp [hagain] at hrepeats

/-- Call `1` joins the verification of call `0`, whose evidence has no lifetime. -/
def sampleJoined : List (Action Unit Unit) :=
  [.call 0 (sampleCall false none), .call 1 (sampleCall false none)] ++ sampleSuccess 0 0 ++
    [.wake 0, .wake 1, .verified 1 (.acquired (sampleEvidence 0)), .settle 0, .settle 1]

theorem zero_ttl_used_once_joined :
    ∃ inv v, (sampleAfter sampleJoined).calls 1 = some inv ∧ inv.outcome = some (.ok v) ∧
      v.dnsTTL = 0 ∧ v.object = .call 1 := by
  have hrun := (@run_sampleAfter sampleJoined [] (by decide)).1
  let found (object : Object) : VerifiedDomain Unit := ⟨object, "agent.example", (), "thumbprint",
    .active, 0, 300000, some 900000, some 900000, none, 0⟩
  have hcall : (sampleAfter sampleJoined).calls 1 = some ⟨sampleCall false none, "agent.example", false,
      false, 30000, some (0, true), .settled (.ok (found (.call 1)))⟩ := by
    decide
  have hop : (sampleAfter sampleJoined).shared[0]? = some ⟨.verification, "agent.example", 0, false,
      false, 30000, true, .settled (.ok (found (.shared 0)))⟩ := by
    decide
  refine ⟨_, found (.call 1), hcall, rfl, rfl, ?_⟩
  exact (zero_ttl_used_once hrun).2.2 1 _ 0 _ _ _ hcall rfl hop rfl rfl rfl

end Dnsid.Manager

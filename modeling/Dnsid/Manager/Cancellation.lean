import Dnsid.Manager.Barriers
import Mathlib.Data.Finset.Card

/-! # Cancellation of coalesced verification

A shared operation is aborted when the last of its callers leaves (`Counted.live`), so a call that waits for
an operation keeps it alive. What a call can still suffer from is the budget of the shared work itself: it is
30 seconds from the start of the operation, whatever budget the call has.
-/
namespace Dnsid.Manager
open Dnsid.Foundations
set_option autoImplicit false

variable {Record Peer : Type} {cfg : Config Record Peer}

/-! ## What a shared operation can have settled with -/

structure SharedSound (s : IdentityManager Record Peer) (op : SharedVerification Record) : Prop where
  deadline : op.deadline ≤ s.clock + defaultTimeoutMs
  timedOut : op.timedOut = true → op.deadline ≤ s.clock
  finished : ∀ r, op.phase = .settled r → op.finished = true
  canceled : ∀ e, op.phase.outcome = some (.error e) → e.canceled = true →
    op.aborted = true ∨ op.deadline ≤ s.clock

theorem SharedSound.of_fresh {s s' : IdentityManager Record Peer} {op : SharedVerification Record}
    (h : Fresh s op) (hclock : s.clock ≤ s'.clock) : SharedSound s' op where
  deadline := by rw [h.deadline]; omega
  timedOut hout := by simp [h.timedOut] at hout
  finished r hr := by simp [h.phase] at hr
  canceled e he := by simp [h.phase, Phase.outcome] at he

theorem SharedSound.comesFrom {s s' : IdentityManager Record Peer} {p : ℕ}
    {op op' : SharedVerification Record} (h : SharedSound s op) (hback : ComesFrom s p op op')
    (hclock : s.clock ≤ s'.clock) : SharedSound s' op' where
  deadline := by
    have := h.deadline
    rw [hback.deadline]
    omega
  timedOut hout := by
    have hlate : op.deadline ≤ s.clock := (hback.timedOut hout).elim h.timedOut id
    rw [hback.deadline]
    omega
  finished r hr := by
    rcases hback.finished r hr with hfin | ⟨hphase, hfin⟩
    · exact hfin
    · rw [hfin]
      exact h.finished r hphase
  canceled e he hcanceled := by
    have hcause : op.aborted = true ∨ op.deadline ≤ s.clock := by
      rcases hback.outcome with hsame | ⟨r, hr, hsettles⟩
      · exact h.canceled e (hsame.symm.trans he) hcanceled
      · obtain rfl := Option.some.inj (hr.symm.trans he)
        rcases hsettles.canceled e rfl hcanceled with ha | ht | hl
        · exact Or.inl ha
        · exact Or.inr (h.timedOut ht)
        · exact Or.inr hl
    rcases hcause with ha | hl
    · exact Or.inl (hback.aborted ha)
    · rw [hback.deadline]
      exact Or.inr (hl.trans hclock)

/-! ## Callers are counted -/

def WaitsOn (s : IdentityManager Record Peer) (o c : ℕ) : Prop :=
  ∃ inv existing, s.calls c = some inv ∧ inv.phase = .waiting ∧ inv.joined = some (o, existing)

theorem waitsOn_congr {s s' : IdentityManager Record Peer} (h : s'.calls = s.calls) (o c : ℕ) :
    WaitsOn s' o c ↔ WaitsOn s o c := by
  simp [WaitsOn, h]

theorem waitsOn_setCall_self (s : IdentityManager Record Peer) (c o : ℕ) (inv : Invocation Record Peer) :
    WaitsOn (s.setCall c inv) o c ↔ inv.phase = .waiting ∧ ∃ existing, inv.joined = some (o, existing) := by
  simp [WaitsOn, IdentityManager.setCall]

theorem waitsOn_setCall_of_ne (s : IdentityManager Record Peer) {c c' : ℕ} (o : ℕ)
    (inv : Invocation Record Peer) (h : c' ≠ c) : WaitsOn (s.setCall c inv) o c' ↔ WaitsOn s o c' := by
  simp [WaitsOn, IdentityManager.setCall, Function.update_of_ne h]

/-- A call that stands as before, as far as waiting goes. -/
theorem waitsOn_setCall {s : IdentityManager Record Peer} {c : ℕ} {inv : Invocation Record Peer}
    (h : ∀ o, WaitsOn s o c ↔ inv.phase = .waiting ∧ ∃ existing, inv.joined = some (o, existing))
    (o c' : ℕ) : WaitsOn (s.setCall c inv) o c' ↔ WaitsOn s o c' := by
  by_cases hc : c' = c
  · subst hc
    exact (waitsOn_setCall_self s c' o inv).trans (h o).symm
  · exact waitsOn_setCall_of_ne s o inv hc

structure Counted (s : IdentityManager Record Peer) : Prop where
  started : ∀ o c, WaitsOn s o c → o < s.shared.length
  callers : ∀ (o : ℕ) op, s.shared[o]? = some op →
    ∃ W : Finset ℕ, (∀ c, c ∈ W ↔ WaitsOn s o c) ∧ W.card = op.callers

theorem counted_initial : Counted (initial : IdentityManager Record Peer) where
  started o c h := by
    obtain ⟨inv, existing, h, _⟩ := h
    cases h
  callers o op h := by simp [initial] at h

/-- Nobody joins and nobody leaves. -/
theorem Counted.congr {s s' : IdentityManager Record Peer} (hs : Counted s)
    (hwaits : ∀ o c, WaitsOn s' o c ↔ WaitsOn s o c)
    (hlength : s.shared.length ≤ s'.shared.length)
    (hcallers : ∀ (o : ℕ) op', s'.shared[o]? = some op' →
      ∃ op, s.shared[o]? = some op ∧ op'.callers = op.callers) : Counted s' where
  started o c h := (hs.started o c ((hwaits o c).mp h)).trans_le hlength
  callers o op' h := by
    obtain ⟨op, hop, hsame⟩ := hcallers o op' h
    obtain ⟨W, hW, hcard⟩ := hs.callers o op hop
    exact ⟨W, fun c => (hW c).trans (hwaits o c).symm, hcard.trans hsame.symm⟩

/-- One operation changes, together with the calls that wait for it. -/
theorem Counted.update {s s' : IdentityManager Record Peer} (hs : Counted s) {o : ℕ}
    {op op' : SharedVerification Record} (hop : s.shared[o]? = some op)
    (hshared : s'.shared = s.shared.set o op')
    (hother : ∀ p c, p ≠ o → (WaitsOn s' p c ↔ WaitsOn s p c))
    (hself : ∀ W : Finset ℕ, (∀ c, c ∈ W ↔ WaitsOn s o c) → W.card = op.callers →
      ∃ W' : Finset ℕ, (∀ c, c ∈ W' ↔ WaitsOn s' o c) ∧ W'.card = op'.callers) : Counted s' where
  started p c h := by
    rw [hshared, List.length_set]
    by_cases hp : p = o
    · subst hp
      exact started_of_some hop
    · exact hs.started p c ((hother p c hp).mp h)
  callers p q hq := by
    rw [hshared] at hq
    by_cases hp : o = p
    · subst hp
      rw [List.getElem?_set_self (started_of_some hop)] at hq
      cases hq
      obtain ⟨W, hW, hcard⟩ := hs.callers o op hop
      exact hself W hW hcard
    · rw [List.getElem?_set_ne hp] at hq
      obtain ⟨W, hW, hcard⟩ := hs.callers p q hq
      exact ⟨W, fun c => (hW c).trans (hother p c (Ne.symm hp)).symm, hcard⟩

theorem Counted.setShared {s s' : IdentityManager Record Peer} (hs : Counted s) {o : ℕ}
    {op op' : SharedVerification Record} {l : List (SharedVerification Record)}
    (hop : s.shared[o]? = some op) (hshared : s'.shared = l.set o op') (hl : l = s.shared)
    (hcalls : s'.calls = s.calls) (hsame : op'.callers = op.callers) : Counted s' := by
  subst hl
  refine hs.update hop hshared (fun p c _ => waitsOn_congr hcalls p c) ?_
  intro W hW hcard
  exact ⟨W, fun c => (hW c).trans (waitsOn_congr hcalls o c).symm, hcard.trans hsame.symm⟩

theorem Counted.joinShared {s : IdentityManager Record Peer} (hs : Counted s) {c : ℕ}
    (hnew : s.calls c = none) (inv : Invocation Record Peer) (o : ℕ) (existing : Bool) :
    Counted (s.joinShared c inv o existing) := by
  have hnot (p : ℕ) : ¬ WaitsOn s p c := by
    rintro ⟨inv', _, h, _⟩
    simp [hnew] at h
  cases hop : s.shared[o]? with
  | none => simpa [IdentityManager.joinShared, hop] using hs
  | some op =>
    simp only [IdentityManager.joinShared, hop]
    refine hs.update hop rfl ?_ ?_
    · intro p c' hp
      by_cases hc : c' = c
      · subst hc
        simp [waitsOn_setCall_self, hnot p, Ne.symm hp]
      · exact waitsOn_setCall_of_ne _ p _ hc
    · intro W hW hcard
      refine ⟨insert c W, ?_, ?_⟩
      · intro c'
        by_cases hc : c' = c
        · subst hc
          simp [waitsOn_setCall_self]
        · rw [Finset.mem_insert, hW c']
          exact (or_iff_right hc).trans (waitsOn_setCall_of_ne _ o _ hc).symm
      · rw [Finset.card_insert_of_notMem fun h => hnot o ((hW c).mp h), hcard]

theorem Counted.leaveShared {s s' : IdentityManager Record Peer} (hs : Counted s) {c o : ℕ}
    {inv inv' : Invocation Record Peer} {existing : Bool} {op : SharedVerification Record}
    (hcall : s.calls c = some inv) (hwaiting : inv.phase = .waiting)
    (hjoined : inv.joined = some (o, existing)) (hop : s.shared[o]? = some op)
    (hleft : inv'.phase ≠ .waiting) (hshared : s'.shared = (s.leaveShared o).shared)
    (hcalls : s'.calls = (s.setCall c inv').calls) : Counted s' := by
  have hwaits : WaitsOn s o c := ⟨inv, existing, hcall, hwaiting, hjoined⟩
  have hgone (p : ℕ) : ¬ WaitsOn s' p c := by
    rw [waitsOn_congr hcalls, waitsOn_setCall_self]
    exact fun h => hleft h.1
  have hstay {c' : ℕ} (p : ℕ) (hc : c' ≠ c) : WaitsOn s' p c' ↔ WaitsOn s p c' :=
    (waitsOn_congr hcalls p c').trans (waitsOn_setCall_of_ne s p inv' hc)
  refine hs.update hop (hshared.trans (by simp only [IdentityManager.leaveShared, hop]; rfl)) ?_ ?_
  · intro p c' hp
    by_cases hc : c' = c
    · subst hc
      have hnot : ¬ WaitsOn s p c' := by
        rintro ⟨inv₀, existing₀, h, _, hj⟩
        obtain rfl := Option.some.inj (hcall.symm.trans h)
        obtain ⟨rfl, _⟩ : o = p ∧ existing = existing₀ := by simpa using hjoined.symm.trans hj
        exact hp rfl
      exact iff_of_false (hgone p) hnot
    · exact hstay p hc
  · intro W hW hcard
    refine ⟨W.erase c, ?_, ?_⟩
    · intro c'
      by_cases hc : c' = c
      · subst hc
        simp [hgone o]
      · rw [Finset.mem_erase, hstay o hc, ← hW c']
        exact and_iff_right hc
    · rw [Finset.card_erase_of_mem ((hW c).mpr hwaits), hcard]

theorem Counted.unshared {s s' : IdentityManager Record Peer} (hs : Counted s)
    (hwaits : ∀ o c, WaitsOn s' o c ↔ WaitsOn s o c) (hshared : s'.shared = s.shared) : Counted s' :=
  hs.congr hwaits (by rw [hshared]) fun _ op h => ⟨op, hshared ▸ h, rfl⟩

/-- The new operation has no callers yet. -/
theorem Counted.startShared {s : IdentityManager Record Peer} (hs : Counted s)
    (operation : Operation Record) (d : String) : Counted (s.startShared operation d) := by
  have hwaits := waitsOn_congr (startShared_calls s operation d)
  have hlength : (s.startShared operation d).shared.length = s.shared.length + 1 := by
    simp [IdentityManager.startShared, supersede_shared]
  constructor
  · intro o c h
    have := hs.started o c ((hwaits o c).mp h)
    omega
  · intro o op hop
    rcases lt_or_ge o s.shared.length with ho | ho
    · have hop' : s.shared[o]? = some op := by
        simpa [IdentityManager.startShared, supersede_shared, List.getElem?_append_left ho] using hop
      obtain ⟨W, hW, hcard⟩ := hs.callers o op hop'
      exact ⟨W, fun c => (hW c).trans (hwaits o c).symm, hcard⟩
    · obtain rfl : o = s.shared.length := by
        have := started_of_some hop
        omega
      obtain rfl := Option.some.inj (hop.symm.trans (startShared_shared s operation d))
      refine ⟨∅, ?_, rfl⟩
      intro c
      refine iff_of_false (Finset.notMem_empty c) ?_
      rw [hwaits]
      exact fun h => lt_irrefl _ (hs.started _ c h)

theorem CallMoves.waiting {s : IdentityManager Record Peer} {c : ℕ} {inv inv' : Invocation Record Peer}
    (h : CallMoves s c inv inv') : inv'.phase = .waiting ↔ inv.phase = .waiting := by
  cases h with
  | abort | timeout => exact Iff.rfl
  | rejected since e hphase => simp [hphase]
  | verified since r hphase => simp [hphase]
  | settle r hphase => simp [hphase]
  | cancel hphase => rcases hphase with ⟨since, h⟩ | ⟨r, h⟩ <;> simp [h]

theorem Leaves.not_waiting {s : IdentityManager Record Peer} {op : SharedVerification Record}
    {existing : Bool} {inv inv' : Invocation Record Peer} (h : Leaves s op existing inv inv') :
    inv'.phase ≠ .waiting := by
  cases h <;> simp

theorem Works.callers {s : IdentityManager Record Peer} {o : ℕ} {op op' : SharedVerification Record}
    (h : Works s o op op') : op'.callers = op.callers := by
  cases h <;> rfl

theorem Works.aborted {s : IdentityManager Record Peer} {o : ℕ} {op op' : SharedVerification Record}
    (h : Works s o op op') : op'.aborted = op.aborted := by
  cases h <;> rfl

theorem Counted.effect {s s' : IdentityManager Record Peer} (hs : Counted s) (h : Effect s s') :
    Counted s' := by
  cases h with
  | tick elapsed now => exact hs.unshared (waitsOn_congr rfl) rfl
  | shrink cache => exact hs.unshared (waitsOn_congr rfl) rfl
  | evictDomain domain => exact hs.unshared (waitsOn_congr rfl) rfl
  | began c inv cache r hnew hcache htimer hjoined =>
    refine hs.unshared (waitsOn_setCall fun o => ?_) rfl
    simp [WaitsOn, IdentityManager.setCache, hnew, hjoined]
  | joined c inv cache kind o hnew =>
    have hs' : Counted (s.setCache cache) := hs.unshared (waitsOn_congr rfl) rfl
    exact hs'.joinShared hnew inv o true
  | started c inv cache operation hnew =>
    have hs' : Counted (s.setCache cache) := hs.unshared (waitsOn_congr rfl) rfl
    refine (hs'.startShared operation inv.domain).joinShared ?_ inv s.shared.length false
    rw [startShared_calls]
    exact hnew
  | moved c inv inv' cache hcall hcache hmove =>
    refine hs.unshared (waitsOn_setCall fun o => ?_) rfl
    simp [WaitsOn, IdentityManager.setCache, hcall, hmove.waiting, hmove.joined]
  | left c inv inv' cache o existing op hcall hcache hwaiting hjoined hop hleave =>
    refine hs.leaveShared hcall hwaiting hjoined hop hleave.not_waiting rfl ?_
    simp [IdentityManager.setCall, IdentityManager.setCache, leaveShared_calls]
  | worked o op op' cache hop hcache hwork => exact hs.setShared hop rfl rfl rfl hwork.callers
  | put o domain v op hputs =>
    exact hs.setShared hputs.shared rfl (supersede_shared s op.kind domain)
      (supersede_calls s op.kind domain) rfl
  | finalized o op r hop hphase =>
    exact hs.setShared hop rfl (onFinally_shared s o op) (onFinally_calls s o op) rfl

theorem set_aborted {l : List (SharedVerification Record)} {o p : ℕ} {op₀ op₁ op op' : SharedVerification Record}
    (hop' : (l.set o op₁)[p]? = some op') (hop₀ : l[o]? = some op₀) (hop : l[p]? = some op)
    (hsame : op₁.aborted = op₀.aborted) : op'.aborted = op.aborted := by
  by_cases hp : o = p
  · subst hp
    rw [List.getElem?_set_self (List.getElem?_eq_some_iff.mp hop₀).1] at hop'
    cases hop'
    obtain rfl := Option.some.inj (hop₀.symm.trans hop)
    exact hsame
  · rw [List.getElem?_set_ne hp] at hop'
    rw [Option.some.inj (hop'.symm.trans hop)]

/-- An abort happens only when the last caller of an unfinished operation leaves. -/
theorem Effect.aborted_back {s s' : IdentityManager Record Peer} (h : Effect s s') {p : ℕ}
    {op op' : SharedVerification Record} (hop : s.shared[p]? = some op) (hop' : s'.shared[p]? = some op')
    (haborted : op'.aborted = true) :
    op.aborted = true ∨ op.finished = false ∧ op.callers - 1 = 0 ∧
      ∃ c, WaitsOn s p c ∧ ¬ WaitsOn s' p c := by
  have hsame (h : op'.aborted = op.aborted) : op.aborted = true := h.symm.trans haborted
  have hkeep (h : s.shared[p]? = some op') : op.aborted = true :=
    hsame (by rw [Option.some.inj (h.symm.trans hop)])
  cases h with
  | tick elapsed now => exact Or.inl (hkeep hop')
  | shrink cache => exact Or.inl (hkeep hop')
  | evictDomain domain => exact Or.inl (hkeep hop')
  | began c inv cache r => exact Or.inl (hkeep hop')
  | moved c inv inv' cache => exact Or.inl (hkeep hop')
  | joined c inv cache kind o =>
    obtain ⟨op₀, hop₀, n, rfl⟩ := joinShared_back hop'
    obtain rfl := Option.some.inj (hop₀.symm.trans hop)
    exact Or.inl haborted
  | started c inv cache operation =>
    obtain ⟨op₀, hop₀, n, rfl⟩ := joinShared_back hop'
    have hop₀' : s.shared[p]? = some op₀ := by
      simpa [IdentityManager.startShared, supersede_shared, IdentityManager.setCache,
        List.getElem?_append_left (started_of_some hop)] using hop₀
    obtain rfl := Option.some.inj (hop₀'.symm.trans hop)
    exact Or.inl haborted
  | worked o op₀ op₁ cache hop₀ hcache hwork =>
    exact Or.inl (hsame (set_aborted hop' hop₀ hop hwork.aborted))
  | put o domain v op₀ hputs =>
    have hop' : (s.supersede op₀.kind domain |>.shared.set o
        { op₀ with phase := .fulfilled (.ok v) })[p]? = some op' := hop'
    rw [supersede_shared] at hop'
    exact Or.inl (hsame (set_aborted hop' hputs.shared hop rfl))
  | finalized o op₀ r hop₀ hphase =>
    have hop' : ((s.onFinally o op₀).shared.set o
        { op₀ with finished := true, phase := .settled r })[p]? = some op' := hop'
    rw [onFinally_shared] at hop'
    exact Or.inl (hsame (set_aborted hop' hop₀ hop rfl))
  | left c inv inv' cache o existing op₀ hcall hcache hwaiting hjoined hop₀ hleave =>
    have hwaits : WaitsOn s o c := ⟨inv, existing, hcall, hwaiting, hjoined⟩
    simp only [IdentityManager.setCall, IdentityManager.setCache, IdentityManager.leaveShared, hop₀,
      IdentityManager.setShared] at hop'
    by_cases hp : o = p
    · subst hp
      obtain rfl := Option.some.inj (hop₀.symm.trans hop)
      rw [List.getElem?_set_self (started_of_some hop)] at hop'
      cases hop'
      simp only [Bool.or_eq_true, Bool.and_eq_true, decide_eq_true_eq, Bool.not_eq_true'] at haborted
      rcases haborted with haborted | ⟨hcallers, hfinished⟩
      · exact Or.inl haborted
      · refine Or.inr ⟨hfinished, hcallers, c, hwaits, ?_⟩
        rw [waitsOn_setCall_self]
        exact fun h => hleave.not_waiting h.1
    · rw [List.getElem?_set_ne hp] at hop'
      exact Or.inl (hkeep hop')

/-- An operation is not aborted while a call waits for it. -/
theorem Counted.live {s s' : IdentityManager Record Peer} (hs : Counted s) (h : Effect s s') {o c : ℕ}
    {op op' : SharedVerification Record} (hop : s.shared[o]? = some op) (hop' : s'.shared[o]? = some op')
    (hlive : op.aborted = false) (hwaits : WaitsOn s o c) (hwaits' : WaitsOn s' o c) :
    op'.aborted = false := by
  by_contra hne
  rcases h.aborted_back hop hop' (by simpa using hne) with h | ⟨_, hlast, c', hc', hgone⟩
  · simp [hlive] at h
  · have hcc : c ≠ c' := fun h => hgone (h ▸ hwaits')
    obtain ⟨W, hW, hcard⟩ := hs.callers o op hop
    have htwo : 1 < W.card := Finset.one_lt_card.mpr ⟨c, (hW c).mpr hwaits, c', (hW c').mpr hc', hcc⟩
    omega

/-! ## What a call receives -/

/-- What call `c` receives from an operation that settled with the first outcome: its error, its result, a
refusal of the result by the policy of the call, or what its own verification gives. -/
inductive Delivered (c : ℕ) (kind : Kind) (existing : Bool) : Outcome Record → Outcome Record → Prop where
  | failed (e : Failure) : Delivered c kind existing (.error e) (.error e)
  | result (v : VerifiedDomain Record) : Delivered c kind existing (.ok v) (.ok v)
  | refused (v : VerifiedDomain Record) (e : Failure) (hdefinitive : e.canceled = false) :
      Delivered c kind existing (.ok v) (.error e)
  | repeated (v : VerifiedDomain Record) (r : Outcome Record) (hrepeats : repeats kind existing v = true)
      (hown : ∀ w, r = .ok w → w.object = .call c) : Delivered c kind existing (.ok v) r

/-- A call that has stopped waiting although nobody canceled it. -/
structure Received (s : IdentityManager Record Peer) (c : ℕ) (inv : Invocation Record Peer)
    (existing : Bool) (op : SharedVerification Record) (out : Outcome Record) : Prop where
  phase : op.phase = .settled out
  live : op.aborted = false
  verifying : ∀ since, inv.phase = .verifying since → op.deadline ≤ since + defaultTimeoutMs ∧
    ∃ v, out = .ok v ∧ repeats op.kind existing v = true
  canceled : ∀ e, inv.outcome = some (.error e) → e.canceled = true → op.deadline ≤ s.clock
  delivered : s.clock < inv.deadline → ∀ r, inv.outcome = some r → Delivered c op.kind existing out r

/-- A call that joined a live operation, or none. -/
structure Isolated (s : IdentityManager Record Peer) (c : ℕ) (inv : Invocation Record Peer) : Prop where
  timedOut : inv.timedOut = true → inv.deadline ≤ s.clock
  alone : inv.joined = none → ∃ r, inv.outcome = some r ∧ (inv.aborted = false → Definitive r)
  joined : ∀ o existing, inv.joined = some (o, existing) → ∃ op, s.shared[o]? = some op ∧
    (inv.phase = .waiting → op.aborted = false) ∧
    (inv.phase ≠ .waiting → inv.aborted = false → ∃ out, Received s c inv existing op out)

/-- An operation that has settled is past any abort. -/
theorem settled_live {s s' : IdentityManager Record Peer} (h : Effect s s') {o : ℕ}
    {op op' : SharedVerification Record} {r : Outcome Record} (hop : s.shared[o]? = some op)
    (hop' : s'.shared[o]? = some op') (hsound : SharedSound s op) (hphase : op.phase = .settled r)
    (hlive : op.aborted = false) : op'.aborted = false := by
  by_contra hne
  rcases h.aborted_back hop hop' (by simpa using hne) with h | ⟨hfinished, _⟩
  · simp [hlive] at h
  · simp [hsound.finished r hphase] at hfinished

/-- A call where it stands after the step. -/
theorem Isolated.later {s s' : IdentityManager Record Peer} {c : ℕ} {inv : Invocation Record Peer}
    (hi : Isolated s c inv) (h : Effect s s') (hcounted : Counted s)
    (hshared : ∀ (o : ℕ) op, s.shared[o]? = some op → SharedSound s op)
    (hwaits : ∀ o existing, inv.phase = .waiting → inv.joined = some (o, existing) → WaitsOn s o c)
    (hcall' : s'.calls c = some inv) : Isolated s' c inv := by
  have hadv := h.advances
  refine ⟨fun ht => (hi.timedOut ht).trans hadv.clock, hi.alone, ?_⟩
  intro o existing hjoined
  obtain ⟨op, hop, hwaiting, hreceived⟩ := hi.joined o existing hjoined
  obtain ⟨op', hop', hcont⟩ := hadv.shared o op hop
  refine ⟨op', hop', ?_, ?_⟩
  · intro hphase
    exact hcounted.live h hop hop' (hwaiting hphase) (hwaits o existing hphase hjoined)
      ⟨inv, existing, hcall', hphase, hjoined⟩
  · intro hphase haborted
    obtain ⟨out, hr⟩ := hreceived hphase haborted
    have hkind : op'.kind = op.kind := congrArg Operation.kind hcont.operation
    refine ⟨out, hcont.settled _ hr.phase, settled_live h hop hop' (hshared o op hop) hr.phase hr.live,
      ?_, ?_, ?_⟩
    · rw [hcont.deadline, hkind]
      exact hr.verifying
    · intro e he hcanceled
      rw [hcont.deadline]
      exact (hr.canceled e he hcanceled).trans hadv.clock
    · rw [hkind]
      exact fun hlt => hr.delivered (hadv.clock.trans_lt hlt)

theorem budgeted_canceled {late : Bool} {r : Outcome Record} {e : Failure}
    (h : budgeted false late r = .error e) (hcanceled : e.canceled = true) : r = .error e := by
  cases r with
  | error e' => exact h
  | ok v =>
    cases late with
    | true =>
      cases h
      simp [deadlineExceeded] at hcanceled
    | false => cases h

theorem budgeted_in_time (r : Outcome Record) : budgeted false false r = r := by
  cases r <;> rfl

/-- A step of the call on its own; `Received` says what it has got. -/
theorem Received.callMoves {s : IdentityManager Record Peer} {c : ℕ} {inv inv' : Invocation Record Peer}
    {existing : Bool} {op : SharedVerification Record} {out : Outcome Record}
    (hr : Received s c inv existing op out) (hmove : CallMoves s c inv inv')
    (haborted : inv'.aborted = false) : Received s c inv' existing op out := by
  cases hmove with
  | abort => simp [Invocation.aborted] at haborted
  | timeout => simp [Invocation.aborted] at haborted
  | cancel hphase h => cases h.symm.trans haborted
  | rejected since e hphase hcanceled =>
    obtain ⟨hdeadline, v, hv, hrepeats⟩ := hr.verifying since hphase
    refine ⟨hr.phase, hr.live, by simp, ?_, ?_⟩
    · intro e' he' hcanceled'
      obtain rfl : e = e' := by simpa [Invocation.outcome] using he'
      rcases hcanceled hcanceled' with h | h
      · cases h.symm.trans haborted
      · exact hdeadline.trans h
    · intro _ r hr'
      subst hv
      refine .repeated v r hrepeats ?_
      rintro w rfl
      simp [Invocation.outcome] at hr'
  | verified since r hphase hdefinitive hown =>
    obtain ⟨_, v, hv, hrepeats⟩ := hr.verifying since hphase
    refine ⟨hr.phase, hr.live, by simp, ?_, ?_⟩
    · intro e he hcanceled
      obtain rfl : r = .error e := by simpa [Invocation.outcome] using he
      simp [hdefinitive e rfl] at hcanceled
    · intro _ r' hr'
      obtain rfl : r = r' := by simpa [Invocation.outcome] using hr'
      subst hv
      exact .repeated v r hrepeats fun w hw => (hown w hw).1
  | settle r hphase =>
    have hout : inv.outcome = some r := by simp [Invocation.outcome, hphase]
    have hfalse : inv.aborted = false := haborted
    refine ⟨hr.phase, hr.live, by simp, ?_, ?_⟩
    · intro e he hcanceled
      simp only [Invocation.outcome, Option.some.injEq, hfalse] at he
      obtain rfl := budgeted_canceled he hcanceled
      exact hr.canceled e hout hcanceled
    · intro hlt r' hr'
      have hlate : decide (inv.deadline ≤ s.clock) = false := decide_eq_false (not_le.mpr hlt)
      simp only [Invocation.outcome, Option.some.injEq, hfalse, hlate, budgeted_in_time] at hr'
      subst hr'
      exact hr.delivered hlt r hout

theorem Isolated.callMoves {s : IdentityManager Record Peer} {c : ℕ} {inv inv' : Invocation Record Peer}
    (hi : Isolated s c inv) (hmove : CallMoves s c inv inv') : Isolated s c inv' := by
  have hjoined := hmove.joined
  have hwaits := hmove.waiting
  have haborted : inv'.aborted = false → inv.aborted = false := by
    cases hmove <;> simp_all [Invocation.aborted]
  refine ⟨?_, ?_, ?_⟩
  · have ht := hi.timedOut
    cases hmove with
    | timeout hlate => exact fun _ => hlate
    | _ => exact ht
  · intro hnone
    obtain ⟨r, hr, hdefinitive⟩ := hi.alone (hjoined.symm.trans hnone)
    cases hmove with
    | abort => exact ⟨r, hr, by simp [Invocation.aborted]⟩
    | timeout => exact ⟨r, hr, by simp [Invocation.aborted]⟩
    | rejected since e hphase => simp [Invocation.outcome, hphase] at hr
    | verified since r' hphase => simp [Invocation.outcome, hphase] at hr
    | settle r' hphase =>
      obtain rfl : r' = r := by simpa [Invocation.outcome, hphase] using hr
      refine ⟨_, rfl, ?_⟩
      intro hfalse e he
      have hfalse : inv.aborted = false := hfalse
      rw [hfalse] at he
      by_contra hcanceled
      have hcanceled : e.canceled = true := by simpa using hcanceled
      exact absurd (hdefinitive hfalse e (budgeted_canceled he hcanceled)) (by simp [hcanceled])
    | cancel hphase h =>
      refine ⟨_, rfl, ?_⟩
      intro hfalse
      cases h.symm.trans hfalse
  · intro o existing hj
    obtain ⟨op, hop, hwaiting, hreceived⟩ := hi.joined o existing (hjoined.symm.trans hj)
    refine ⟨op, hop, fun h => hwaiting (hwaits.mp h), ?_⟩
    intro hphase hfalse
    obtain ⟨out, hr⟩ := hreceived (fun h => hphase (hwaits.mpr h)) (haborted hfalse)
    exact ⟨out, hr.callMoves hmove hfalse⟩

/-- A call stops waiting. If nobody canceled it, its operation has settled and is still live. -/
theorem Received.leaves {s : IdentityManager Record Peer} {c : ℕ} {inv inv' : Invocation Record Peer}
    {existing : Bool} {op : SharedVerification Record} (hsound : SharedSound s op)
    (hlive : op.aborted = false) (hleave : Leaves s op existing inv inv') (haborted : inv'.aborted = false) :
    ∃ out, Received s c inv' existing op out := by
  cases hleave with
  | canceled h => cases h.symm.trans haborted
  | failed e hphase =>
    refine ⟨.error e, hphase, hlive, by simp, ?_, ?_⟩
    · intro e' he' hcanceled
      obtain rfl : e = e' := by simpa [Invocation.outcome] using he'
      have hout : op.phase.outcome = some (.error e) := by simp [hphase, Phase.outcome]
      rcases hsound.canceled e hout hcanceled with h | h
      · simp [hlive] at h
      · exact h
    · intro _ r hr
      obtain rfl : .error e = r := by simpa [Invocation.outcome] using hr
      exact .failed e
  | repeated v hphase hrepeats =>
    refine ⟨.ok v, hphase, hlive, ?_, by simp [Invocation.outcome], by simp [Invocation.outcome]⟩
    intro since hsince
    obtain rfl : s.clock = since := by simpa using hsince
    exact ⟨hsound.deadline, v, rfl, hrepeats⟩
  | finished v r hphase hrepeats hr =>
    refine ⟨.ok v, hphase, hlive, by simp, ?_, ?_⟩
    · intro e he hcanceled
      obtain rfl : r = .error e := by simpa [Invocation.outcome] using he
      rcases hr with hr | ⟨hdefinitive, _⟩
      · cases hr
      · simp [hdefinitive e rfl] at hcanceled
    · intro _ r' hr'
      obtain rfl : r = r' := by simpa [Invocation.outcome] using hr'
      rcases hr with rfl | ⟨hdefinitive, e, rfl⟩
      · exact .result v
      · exact .refused v e (hdefinitive e rfl)

theorem Isolated.leaves {s : IdentityManager Record Peer} {c o : ℕ} {inv inv' : Invocation Record Peer}
    {existing : Bool} {op : SharedVerification Record} (hi : Isolated s c inv)
    (hsound : SharedSound s op) (hwaiting : inv.phase = .waiting)
    (hjoined : inv.joined = some (o, existing)) (hop : s.shared[o]? = some op)
    (hleave : Leaves s op existing inv inv') : Isolated s c inv' := by
  have hsame := hleave.joined.trans hjoined
  refine ⟨?_, by simp [hsame], ?_⟩
  · have ht := hi.timedOut
    cases hleave <;> exact ht
  · intro o' existing' hj
    obtain ⟨rfl, rfl⟩ : o = o' ∧ existing = existing' := by simpa using hsame.symm.trans hj
    obtain ⟨op', hop', hlive, _⟩ := hi.joined o existing hjoined
    obtain rfl := Option.some.inj (hop.symm.trans hop')
    exact ⟨op, hop, fun h => absurd h hleave.not_waiting,
      fun _ => Received.leaves hsound (hlive hwaiting) hleave⟩

/-- The whole invariant along the run after call `c` has begun. -/
structure IsolatedState (s : IdentityManager Record Peer) (c : ℕ) : Prop where
  counted : Counted s
  shared : ∀ (o : ℕ) op, s.shared[o]? = some op → SharedSound s op
  begun : s.calls c ≠ none
  isolated : ∀ inv, s.calls c = some inv → Isolated s c inv

theorem shared_sound_effect {s s' : IdentityManager Record Peer} (h : Effect s s')
    (hs : ∀ (o : ℕ) op, s.shared[o]? = some op → SharedSound s op) (o : ℕ)
    (op : SharedVerification Record) (hop : s'.shared[o]? = some op) : SharedSound s' op := by
  have hclock := h.advances.clock
  rcases h.shared_back hop with ⟨op₀, hop₀, hback⟩ | ⟨_, hfresh⟩
  · exact (hs o op₀ hop₀).comesFrom hback hclock
  · exact .of_fresh hfresh hclock

theorem setCall_begun {s : IdentityManager Record Peer} {c : ℕ} (h : s.calls c ≠ none) (c' : ℕ)
    (inv : Invocation Record Peer) : (s.setCall c' inv).calls c ≠ none := by
  by_cases hc : c = c'
  · subst hc
    simp [IdentityManager.setCall]
  · simpa [IdentityManager.setCall, Function.update_of_ne hc] using h

theorem Effect.begun {s s' : IdentityManager Record Peer} (h : Effect s s') {c : ℕ}
    (hc : s.calls c ≠ none) : s'.calls c ≠ none := by
  have hjoin (t : IdentityManager Record Peer) (c' : ℕ) (inv : Invocation Record Peer) (o : ℕ) (b : Bool)
      (ht : t.calls c ≠ none) : (t.joinShared c' inv o b).calls c ≠ none := by
    unfold IdentityManager.joinShared
    split
    · exact ht
    · exact setCall_begun ht c' _
  cases h with
  | tick elapsed now => exact hc
  | shrink cache => exact hc
  | evictDomain domain => exact hc
  | began c' inv cache r => exact setCall_begun hc c' inv
  | joined c' inv cache kind o => exact hjoin _ c' inv o true hc
  | started c' inv cache operation =>
    refine hjoin _ c' inv _ false ?_
    rw [startShared_calls]
    exact hc
  | moved c' inv inv' cache => exact setCall_begun hc c' inv'
  | left c' inv inv' cache o =>
    refine setCall_begun ?_ c' inv'
    have h : (s.leaveShared o).calls c ≠ none := by rwa [leaveShared_calls]
    exact h
  | worked o op op' cache => exact hc
  | put o domain v op => exact (congrFun (supersede_calls s op.kind domain) c).trans_ne hc
  | finalized o op r => exact (congrFun (onFinally_calls s o op) c).trans_ne hc

theorem IsolatedState.step {a : Action Record Peer} {s s' : IdentityManager Record Peer} {c : ℕ}
    (hs : IsolatedState s c) (h : step cfg a s = some s') : IsolatedState s' c := by
  have heffect := step_effect h
  refine ⟨hs.counted.effect heffect, shared_sound_effect heffect hs.shared, heffect.begun hs.begun, ?_⟩
  intro inv hcall'
  cases heffect.call_back hcall' with
  | kept hcall =>
    exact (hs.isolated inv hcall).later heffect hs.counted hs.shared
      (fun o existing hphase hjoined => ⟨inv, existing, hcall, hphase, hjoined⟩) hcall'
  | began r hnew => exact absurd hnew hs.begun
  | joined o existing hnew => exact absurd hnew hs.begun
  | moved inv₀ hcall hmove =>
    refine ((hs.isolated inv₀ hcall).callMoves hmove).later heffect hs.counted hs.shared ?_ hcall'
    intro o existing hphase hjoined
    exact ⟨inv₀, existing, hcall, hmove.waiting.mp hphase, hmove.joined.symm.trans hjoined⟩
  | left inv₀ o existing op hcall hwaiting hjoined hop hleave =>
    have hi := (hs.isolated inv₀ hcall).leaves (hs.shared o op hop) hwaiting hjoined hop hleave
    exact hi.later heffect hs.counted hs.shared (fun _ _ h => absurd h hleave.not_waiting) hcall'

/-! ## A call from its beginning -/

theorem joinShared_begun {s : IdentityManager Record Peer} {o : ℕ} (ho : o < s.shared.length) (c : ℕ)
    (inv : Invocation Record Peer) (existing : Bool) :
    (s.joinShared c inv o existing).calls c ≠ none := by
  simp [IdentityManager.joinShared, List.getElem?_eq_getElem ho, IdentityManager.setCall]

theorem finish_begun (s : IdentityManager Record Peer) (c : ℕ) (inv : Invocation Record Peer)
    (v : VerifiedDomain Record) : (s.finish cfg c inv v).calls c ≠ none := by
  obtain ⟨cache, r, heq, _⟩ := finish_spec cfg s c inv v
  simp [heq, IdentityManager.setCall]

theorem joinOrStart_begun (s : IdentityManager Record Peer)
    (hs : ∀ k d o, s.inFlight k d = some o → o < s.shared.length) (c : ℕ)
    (inv : Invocation Record Peer) (operation : Operation Record) :
    (s.joinOrStart c inv operation).calls c ≠ none := by
  unfold IdentityManager.joinOrStart
  split
  case h_1 o ho => exact joinShared_begun (hs _ _ o ho) c inv true
  case h_2 => exact joinShared_begun (started_of_some (startShared_shared s operation inv.domain)) c inv false

theorem begin_begun {s : IdentityManager Record Peer}
    (hs : ∀ k d o, s.inFlight k d = some o → o < s.shared.length) (c : ℕ) (call : Call Peer) :
    (s.begin cfg c call).calls c ≠ none := by
  have hthrows (inv : Invocation Record Peer) (t : IdentityManager Record Peer) :
      (t.setCall c inv).calls c ≠ none := by simp [IdentityManager.setCall]
  unfold IdentityManager.begin
  dsimp only
  split
  · exact hthrows _ s
  split
  · exact hthrows _ s
  split
  · exact hthrows _ s
  unfold IdentityManager.verifyReusableIdentity
  split
  · exact joinOrStart_begun s hs c _ _
  dsimp only
  split
  · exact joinOrStart_begun _ (by exact hs) c _ _
  split
  · exact hthrows _ _
  split
  · exact finish_begun _ c _ _
  · exact joinOrStart_begun _ (by exact hs) c _ _

theorem counted_of_run {acts : List (Action Record Peer)} {s : IdentityManager Record Peer}
    (h : run (step cfg) acts initial = some s) :
    Counted s ∧ ∀ (o : ℕ) op, s.shared[o]? = some op → SharedSound s op := by
  refine run_invariant (P := fun _ => True)
    (I := fun s => Counted s ∧ ∀ (o : ℕ) op, s.shared[o]? = some op → SharedSound s op)
    ?_ acts initial s (fun _ _ => trivial) ⟨counted_initial, by simp [initial]⟩ h
  rintro a s s' _ ⟨hcounted, hshared⟩ h
  exact ⟨hcounted.effect (step_effect h), shared_sound_effect (step_effect h) hshared⟩

/-- A call that has just begun and has not joined an aborted operation. -/
theorem isolatedState_call {before : List (Action Record Peer)} {s₀ s₁ : IdentityManager Record Peer}
    {c : ℕ} {call : Call Peer} (hbefore : run (step cfg) before initial = some s₀)
    (hcall : step cfg (.call c call) s₀ = some s₁)
    (hlive : ∀ inv o existing op, s₁.calls c = some inv → inv.joined = some (o, existing) →
      s₁.shared[o]? = some op → op.aborted = false) : IsolatedState s₁ c := by
  obtain ⟨hcounted, hshared⟩ := counted_of_run hbefore
  have heffect := step_effect hcall
  have hcounted₁ := hcounted.effect heffect
  have hnew : s₀.calls c = none ∧ s₀.begin cfg c call = s₁ := by
    simp only [Manager.step] at hcall
    split at hcall
    case isTrue h => exact ⟨Option.isNone_iff_eq_none.mp h, Option.some.inj hcall⟩
    case isFalse => cases hcall
  refine ⟨hcounted₁, shared_sound_effect heffect hshared, ?_, ?_⟩
  · rw [← hnew.2]
    exact begin_begun (fun _ _ _ => started_of_registered hbefore) c call
  intro inv hinv
  cases heffect.call_back hinv with
  | kept h => simp [hnew.1] at h
  | moved inv₀ h => simp [hnew.1] at h
  | left inv₀ o existing op h => simp [hnew.1] at h
  | began r _ htimer hjoined hphase hcanceled =>
    have hout : inv.outcome = some r := by rcases hphase with h | h <;> simp [Invocation.outcome, h]
    refine ⟨by simp [htimer], fun _ => ⟨r, hout, ?_⟩, by simp [hjoined]⟩
    intro haborted
    rcases hcanceled with h | h
    · exact h
    · simp [Invocation.aborted, h] at haborted
  | joined o existing _ htimer hjoined hphase =>
    have hstarted := hcounted₁.started o c ⟨inv, existing, hinv, hphase, hjoined⟩
    refine ⟨by simp [htimer], by simp [hjoined], ?_⟩
    intro o' existing' hj
    obtain ⟨rfl, rfl⟩ : o = o' ∧ existing = existing' := by simpa using hjoined.symm.trans hj
    refine ⟨_, List.getElem?_eq_getElem hstarted, ?_, fun h => absurd hphase h⟩
    intro _
    exact hlive inv o existing _ hinv hjoined (List.getElem?_eq_getElem hstarted)

/-- Cancellation isolation. Take a call that has not joined an operation which was aborted already, and
suppose that it settles while its own signal is not aborted and its own budget has not elapsed. If it
settles with a cancellation, then at least 30 seconds have passed since the operation it joined was
started, which is the budget of shared work; and whatever it settles with is the result or the error of
that operation, which was not aborted. -/
theorem cancellation_isolated {before after : List (Action Record Peer)}
    {s₀ s₁ s₂ : IdentityManager Record Peer} {c : ℕ} {call : Call Peer} {inv : Invocation Record Peer}
    {r : Outcome Record} (hbefore : run (step cfg) before initial = some s₀)
    (hcall : step cfg (.call c call) s₀ = some s₁) (hafter : run (step cfg) after s₁ = some s₂)
    (hlive : ∀ inv o existing op, s₁.calls c = some inv → inv.joined = some (o, existing) →
      s₁.shared[o]? = some op → op.aborted = false)
    (hinv : s₂.calls c = some inv) (hsettled : inv.phase = .settled r)
    (hsignal : inv.signalAborted = false) (hbudget : s₂.clock < inv.deadline) :
    (∀ e, r = .error e → e.canceled = true → ∃ o existing op, inv.joined = some (o, existing) ∧
      s₂.shared[o]? = some op ∧ op.deadline ≤ s₂.clock) ∧
    ∀ o existing, inv.joined = some (o, existing) → ∃ op out, s₂.shared[o]? = some op ∧
      op.aborted = false ∧ op.phase = .settled out ∧ Delivered c op.kind existing out r := by
  have hstate : IsolatedState s₂ c :=
    run_invariant (P := fun _ => True) (I := fun s => IsolatedState s c)
      (fun _ _ _ _ hs h => hs.step h) after s₁ s₂ (fun _ _ => trivial) (isolatedState_call hbefore hcall hlive)
      hafter
  have hi := hstate.isolated inv hinv
  have hout : inv.outcome = some r := by simp [Invocation.outcome, hsettled]
  have haborted : inv.aborted = false := by
    have htimer : inv.timedOut = false := by
      by_contra h
      exact absurd (hi.timedOut (by simpa using h)) (not_le.mpr hbudget)
    simp [Invocation.aborted, hsignal, htimer]
  have hreceived {o : ℕ} {existing : Bool} (hjoined : inv.joined = some (o, existing)) :
      ∃ op out, s₂.shared[o]? = some op ∧ Received s₂ c inv existing op out := by
    obtain ⟨op, hop, _, hr⟩ := hi.joined o existing hjoined
    obtain ⟨out, hr⟩ := hr (by simp [hsettled]) haborted
    exact ⟨op, out, hop, hr⟩
  constructor
  · rintro e rfl hcanceled
    cases hjoined : inv.joined with
    | none =>
      obtain ⟨r, hr, hdefinitive⟩ := hi.alone hjoined
      obtain rfl := Option.some.inj (hr.symm.trans hout)
      simp [hdefinitive haborted e rfl] at hcanceled
    | some j =>
      obtain ⟨o, existing⟩ := j
      obtain ⟨op, out, hop, hr⟩ := hreceived hjoined
      exact ⟨o, existing, op, rfl, hop, hr.canceled e hout hcanceled⟩
  · intro o existing hjoined
    obtain ⟨op, out, hop, hr⟩ := hreceived hjoined
    exact ⟨op, out, hop, hr.live, hr.phase, hr.delivered hbudget r hout⟩

/-- A caller with a budget of a minute, and a second one that gives up after a second. -/
def sampleLeaving : List (Action Unit Unit) :=
  [.call 1 (sampleCall false (some 1000)), .tick 1000 0, .timeout 1, .leave 1, .settle 1] ++
    sampleSuccess 0 300 ++ [.wake 0, .settle 0]

theorem cancellation_isolated_from_leaving_caller :
    ∃ inv v, (sampleAfter ([.call 0 (sampleCall false (some 60000))] ++ sampleLeaving)).calls 0 = some inv ∧
      inv.phase = .settled (.ok v) ∧ ∃ op out,
        (sampleAfter ([.call 0 (sampleCall false (some 60000))] ++ sampleLeaving)).shared[0]? = some op ∧
        op.aborted = false ∧ op.phase = .settled out ∧ Delivered 0 op.kind false out (.ok v) := by
  have hcall := @run_sampleAfter [] [.call 0 (sampleCall false (some 60000))] (by decide)
  have hafter := @run_sampleAfter [.call 0 (sampleCall false (some 60000))] sampleLeaving
    (by decide)
  have hop : (sampleAfter [.call 0 (sampleCall false (some 60000))]).shared =
      [⟨.verification, "agent.example", 1, false, false, 30000, false, .running⟩] := by
    decide
  let found : VerifiedDomain Unit := ⟨.shared 0, "agent.example", (), "thumbprint", .active, 300, 300000,
    some 900000, some 900000, none, 0⟩
  have hinv : (sampleAfter ([.call 0 (sampleCall false (some 60000))] ++ sampleLeaving)).calls 0 =
      some ⟨sampleCall false (some 60000), "agent.example", false, false, 60000, some (0, false),
        .settled (.ok found)⟩ := by
    decide
  refine ⟨_, found, hinv, rfl, ?_⟩
  have hlive (inv : Invocation Unit Unit) (o : ℕ) (existing : Bool) (op : SharedVerification Unit)
      (_ : (sampleAfter [.call 0 (sampleCall false (some 60000))]).calls 0 = some inv)
      (_ : inv.joined = some (o, existing))
      (h : (sampleAfter [.call 0 (sampleCall false (some 60000))]).shared[o]? = some op) :
      op.aborted = false := by
    rw [hop] at h
    obtain rfl := List.mem_singleton.mp (List.mem_of_getElem? h)
    rfl
  exact (cancellation_isolated hcall.1 ((run_singleton _ _).symm.trans hcall.2) hafter.2 hlive hinv rfl
    rfl (by decide)).2 0 false rfl

/-- No caller whose own signal is not aborted and whose own budget has not elapsed receives a
cancellation. -/
def NeverCanceled (cfg : Config Record Peer) : Prop :=
  ∀ (acts : List (Action Record Peer)) (s : IdentityManager Record Peer) (c : ℕ)
    (inv : Invocation Record Peer) (e : Failure), run (step cfg) acts initial = some s →
    s.calls c = some inv → inv.phase = .settled (.error e) → inv.signalAborted = false →
    s.clock < inv.deadline → e.canceled = false

/-- A caller with a budget of a minute whose verification takes longer than 30 seconds. -/
def sampleSlow : List (Action Unit Unit) :=
  [.call 0 (sampleCall false (some 60000)), .tick 30000 0, .capElapsed 0, .cancelWork 0, .thenHandler 0,
    .catchHandler 0, .finallyHandler 0, .wake 0, .settle 0]

theorem canceled_by_shared_budget : ¬ NeverCanceled sampleConfig := by
  intro h
  have hrun := (@run_sampleAfter sampleSlow [] (by decide)).1
  have hinv : (sampleAfter sampleSlow).calls 0 = some ⟨sampleCall false (some 60000), "agent.example",
      false, false, 60000, some (0, false), .settled (.error cancellationError)⟩ := by
    decide
  have hfalse := h sampleSlow _ 0 _ _ hrun hinv rfl rfl (by decide)
  simp [cancellationError] at hfalse

end Dnsid.Manager

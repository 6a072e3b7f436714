import Dnsid.Protocol.Materialize
import Dnsid.Stream.ReplayTracks
import Dnsid.Stream.Stitch

/-! # Two readings of the operational key

`snapshotAt` and `activeOperationalThumbprint` fold the same history. They agree from the first KEY_ROTATION
on; before it the snapshot prefers the operational slot of the ISSUANCE, which the bundle verifier does not
read. `activeOperationalThumbprint_iff` says exactly when the two end with the same thumbprint.
-/
namespace Dnsid.Stream
open Dnsid.Foundations Dnsid.Events Dnsid.Protocol
set_option autoImplicit false

/-- The thumbprint after events that follow an ISSUANCE. -/
def thumbprintThrough (thumbprint : String) (events : List LogEvent) : String :=
  events.foldl (fun thumbprint event => thumbprintAfter thumbprint event.body) thumbprint

/-- An event that a snapshot takes after genesis. -/
structure LaterEvent (event : LogEvent) : Prop where
  type : event.type ≠ .issuance
  named : ∀ fields, event.body = .keyRotation fields → fields.newOperationalThumbprint ≠ ""

section Snapshot
variable {Bytes : Type} {P : Platform Bytes}

theorem materializable_later {domain : String} {st : Materialized} {event : LogEvent}
    (h : Materializable P domain st event) (hstarted : st.state ≠ none) :
    LaterEvent event ∧ (st.after event).state ≠ none := by
  have htype : event.type ≠ .issuance := fun htype => hstarted (h.genesis htype)
  have hactive := h.active htype
  have hbody := h.body
  refine ⟨⟨htype, ?_⟩, ?_⟩
  · intro fields hb
    rw [hb] at hbody
    exact hbody.newBound.named
  · rw [Materialized.after_state, hactive]
    cases event.body <;> simp [stateAfter]

theorem materialize_later {domain : String} (rest : List LogEvent) :
    ∀ {st st' : Materialized}, st.state ≠ none →
      rest.foldlM (snapshotStep P domain none) st = .ok st' →
      (∀ event ∈ rest, LaterEvent event) ∧
        st'.activeKeyThumbprint = thumbprintThrough st.activeKeyThumbprint rest := by
  induction rest with
  | nil =>
    intro st st' _ h
    cases h
    exact ⟨by simp, rfl⟩
  | cons event rest ih =>
    intro st st' hstarted h
    obtain ⟨st₁, h₁, h⟩ := foldlM_cons_ok h
    obtain ⟨hmaterializable, rfl⟩ := snapshotStep_iff.mp h₁
    obtain ⟨hlater, hstarted₁⟩ := materializable_later hmaterializable hstarted
    obtain ⟨hrest, hthumbprint⟩ := ih hstarted₁ h
    exact ⟨List.forall_mem_cons.mpr ⟨hlater, hrest⟩, hthumbprint⟩

/-- A history with a snapshot: one ISSUANCE, which comes first. -/
structure IssuedHistory (history : List LogEvent) (st : Materialized) (fields : IssuanceEvent)
    (rest : List LogEvent) (thumbprint : String) : Prop where
  head : ∃ first, history = first :: rest ∧ first.body = .issuance fields
  read : issuanceActiveThumbprint fields = some thumbprint
  named : thumbprint ≠ ""
  later : ∀ event ∈ rest, LaterEvent event
  thumbprint : st.activeKeyThumbprint = thumbprintThrough thumbprint rest

theorem materialize_issued {domain : String} {history : List LogEvent} {st : Materialized}
    (hne : history ≠ []) (h : history.foldlM (snapshotStep P domain none) .initial = .ok st) :
    ∃ fields rest thumbprint, IssuedHistory history st fields rest thumbprint := by
  cases history with
  | nil => exact absurd rfl hne
  | cons first rest =>
    obtain ⟨st₁, h₁, h⟩ := foldlM_cons_ok h
    obtain ⟨hmaterializable, rfl⟩ := snapshotStep_iff.mp h₁
    have htype : first.type = .issuance := by
      by_contra hother
      have hactive := hmaterializable.active hother
      cases hactive
    have hbody := hmaterializable.body
    cases hb : first.body with
    | issuance fields =>
      rw [hb] at hbody
      obtain ⟨_, _, _, thumbprint, hbinding⟩ := hbody
      obtain ⟨hlater, hthumbprint⟩ := materialize_later rest (by simp [hb, stateAfter]) h
      refine ⟨fields, rest, thumbprint, ⟨first, rfl, hb⟩, hbinding.readActiveThumbprint,
        hbinding.activeBound.named, hlater, ?_⟩
      simpa [hb, thumbprintAfter, hbinding.readActiveThumbprint] using hthumbprint
    | _ =>
      rw [LogEvent.type, hb] at htype
      cases htype

end Snapshot

/-! ## The fold of the bundle verifier -/

theorem foldlM_thumbprintStep {rest : List LogEvent} (hlater : ∀ event ∈ rest, LaterEvent event)
    (thumbprint : String) :
    rest.foldlM thumbprintStep thumbprint = .ok (thumbprintThrough thumbprint rest) := by
  induction rest generalizing thumbprint with
  | nil => rfl
  | cons event rest ih =>
    obtain ⟨hevent, hrest⟩ := List.forall_mem_cons.mp hlater
    have hstep : thumbprintStep thumbprint event = .ok (thumbprintAfter thumbprint event.body) := by
      unfold thumbprintStep
      cases hb : event.body with
      | issuance fields => exact absurd (by rw [LogEvent.type, hb]; rfl) hevent.type
      | keyRotation fields =>
        simp only [bind_eq_ok, throwIf_eq_ok, pure_eq_ok]
        exact ⟨(), hevent.named fields hb, rfl⟩
      | _ => rfl
    rw [List.foldlM_cons, hstep]
    exact ih hrest _

theorem thumbprintThrough_named {rest : List LogEvent} (hlater : ∀ event ∈ rest, LaterEvent event)
    {thumbprint : String} (h : thumbprint ≠ "") : thumbprintThrough thumbprint rest ≠ "" := by
  induction rest generalizing thumbprint with
  | nil => exact h
  | cons event rest ih =>
    obtain ⟨hevent, hrest⟩ := List.forall_mem_cons.mp hlater
    apply ih hrest
    show thumbprintAfter thumbprint event.body ≠ ""
    cases hb : event.body with
    | issuance fields => exact absurd (by rw [LogEvent.type, hb]; rfl) hevent.type
    | keyRotation fields => exact hevent.named fields hb
    | _ => exact h

/-- A rotation makes the thumbprint independent of where the fold started. -/
theorem thumbprintThrough_rotated {rest : List LogEvent}
    (h : ∃ event ∈ rest, event.type = .keyRotation) (t t' : String) :
    thumbprintThrough t rest = thumbprintThrough t' rest := by
  induction rest generalizing t t' with
  | nil => simp at h
  | cons event rest ih =>
    show thumbprintThrough (thumbprintAfter t event.body) rest =
      thumbprintThrough (thumbprintAfter t' event.body) rest
    by_cases hrest : ∃ event ∈ rest, event.type = .keyRotation
    · exact ih hrest _ _
    · have hevent : event.type = .keyRotation := by
        obtain ⟨e, he, htype⟩ := h
        obtain rfl | he := List.mem_cons.mp he
        · exact htype
        · exact absurd ⟨e, he, htype⟩ hrest
      cases hb : event.body <;> simp_all [LogEvent.type, EventBody.type, thumbprintAfter]

theorem thumbprintThrough_kept {rest : List LogEvent} (hlater : ∀ event ∈ rest, LaterEvent event)
    (h : ∀ event ∈ rest, event.type ≠ .keyRotation) (t : String) : thumbprintThrough t rest = t := by
  induction rest with
  | nil => rfl
  | cons event rest ih =>
    obtain ⟨hevent, hrest⟩ := List.forall_mem_cons.mp hlater
    obtain ⟨hother, hothers⟩ := List.forall_mem_cons.mp h
    have hkept : thumbprintAfter t event.body = t := by
      have htype := hevent.type
      cases hb : event.body <;> simp_all [LogEvent.type, EventBody.type, thumbprintAfter]
    show thumbprintThrough (thumbprintAfter t event.body) rest = t
    rw [hkept]
    exact ih hrest hothers

/-! ## When the two agree -/

/-- Every ISSUANCE names its operational key where the bundle verifier looks for it, and names the same key in
its operational slot unless a KEY_ROTATION replaces it anyway. -/
def BundleReadable (history : List LogEvent) : Prop :=
  ∀ event ∈ history, ∀ fields, event.body = .issuance fields →
    ∃ thumbprint, fields.initialOperationalThumbprint = some thumbprint ∧ thumbprint ≠ "" ∧
      ((∃ later ∈ history, later.type = .keyRotation) ∨
        ∀ slot, fields.operationalKey = some slot → slot.thumbprint = thumbprint)

theorem IssuedHistory.readable_iff {history rest : List LogEvent} {st : Materialized}
    {fields : IssuanceEvent} {thumbprint : String} (h : IssuedHistory history st fields rest thumbprint) :
    BundleReadable history ↔
      ∃ thumbprint, fields.initialOperationalThumbprint = some thumbprint ∧ thumbprint ≠ "" ∧
        ((∃ later ∈ rest, later.type = .keyRotation) ∨
          ∀ slot, fields.operationalKey = some slot → slot.thumbprint = thumbprint) := by
  obtain ⟨first, rfl, hb⟩ := h.head
  have hrotation : (∃ later ∈ first :: rest, later.type = .keyRotation) ↔
      ∃ later ∈ rest, later.type = .keyRotation := by
    simp [LogEvent.type, EventBody.type, hb]
  unfold BundleReadable
  rw [hrotation]
  constructor
  · intro hreadable
    exact hreadable first List.mem_cons_self fields hb
  · intro hreadable event hevent fields' hb'
    obtain rfl | hevent := List.mem_cons.mp hevent
    · obtain rfl := EventBody.issuance.inj (hb.symm.trans hb')
      exact hreadable
    · exact absurd (by rw [LogEvent.type, hb']; rfl) (h.later event hevent).type

theorem activeOperationalThumbprint_cons {first : LogEvent} {rest : List LogEvent}
    {fields : IssuanceEvent} {thumbprint result : String} (hb : first.body = .issuance fields)
    (hlater : ∀ event ∈ rest, LaterEvent event)
    (hread : nonEmpty fields.initialOperationalThumbprint = some thumbprint) :
    activeOperationalThumbprint (first :: rest) = .ok result ↔
      thumbprintThrough thumbprint rest = result := by
  have hfirst : thumbprintStep "" first = .ok thumbprint := by
    simp only [thumbprintStep, hb, hread, orThrow]
  have hnamed := thumbprintThrough_named hlater
    (of_decide_eq_true (Option.filter_eq_some_iff.mp hread).2)
  have hfold : (first :: rest).foldlM thumbprintStep "" = .ok (thumbprintThrough thumbprint rest) := by
    rw [List.foldlM_cons, hfirst]
    exact foldlM_thumbprintStep hlater thumbprint
  rw [activeOperationalThumbprint, hfold]
  show (throwIf (thumbprintThrough thumbprint rest = "") _ >>= fun _ => pure _) = _ ↔ _
  simp only [bind_eq_ok, throwIf_eq_ok, pure_eq_ok]
  constructor
  · rintro ⟨-, -, h⟩
    exact h
  · intro h
    exact ⟨(), hnamed, h⟩

theorem activeOperationalThumbprint_iff {Bytes : Type} {P : Platform Bytes} {domain : String}
    {history : List LogEvent} {st : Materialized} (hne : history ≠ [])
    (h : history.foldlM (snapshotStep P domain none) .initial = .ok st) :
    activeOperationalThumbprint history = .ok st.activeKeyThumbprint ↔ BundleReadable history := by
  obtain ⟨fields, rest, active, hissued⟩ := materialize_issued hne h
  rw [hissued.readable_iff, hissued.thumbprint]
  obtain ⟨first, rfl, hb⟩ := hissued.head
  cases hread : nonEmpty fields.initialOperationalThumbprint with
  | none =>
    -- The bundle verifier throws at the ISSUANCE.
    constructor
    · intro hok
      obtain ⟨_, hfold, -⟩ := bind_eq_ok.mp hok
      obtain ⟨_, hfirst, -⟩ := foldlM_cons_ok hfold
      simp [thumbprintStep, hb, hread, orThrow] at hfirst
    · rintro ⟨thumbprint, hinitial, hnamed, -⟩
      rw [hinitial, nonEmpty, Option.filter_some_pos (by simpa using hnamed)] at hread
      cases hread
  | some initial =>
    obtain ⟨hinitial, hnamed⟩ := Option.filter_eq_some_iff.mp hread
    rw [activeOperationalThumbprint_cons hb hissued.later hread]
    have hactive := hissued.read
    rw [issuanceActiveThumbprint, hinitial] at hactive
    have hsame : initial = active ↔
        ∀ slot, fields.operationalKey = some slot → slot.thumbprint = initial := by
      cases hslot : fields.operationalKey with
      | none => simp_all
      | some slot =>
        rw [hslot] at hactive
        have hslot' : slot.thumbprint = active := Option.some.inj hactive
        simp [← hslot', eq_comm]
    by_cases hrotated : ∃ later ∈ rest, later.type = .keyRotation
    · simp only [thumbprintThrough_rotated hrotated initial active, hrotated, true_or, and_true, true_iff]
      exact ⟨initial, hinitial, of_decide_eq_true hnamed⟩
    · have hkept : ∀ event ∈ rest, event.type ≠ .keyRotation := fun event hevent htype =>
        hrotated ⟨event, hevent, htype⟩
      rw [thumbprintThrough_kept hissued.later hkept, thumbprintThrough_kept hissued.later hkept, hsame]
      simp only [hrotated, false_or, hinitial]
      constructor
      · intro hslots
        exact ⟨initial, rfl, of_decide_eq_true hnamed, hslots⟩
      · rintro ⟨thumbprint, heq, -, hslots⟩
        obtain rfl := Option.some.inj heq
        exact hslots

end Dnsid.Stream

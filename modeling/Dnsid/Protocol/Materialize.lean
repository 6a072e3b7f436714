import Dnsid.Events.ParsedEvents
import Dnsid.Foundations.Replay
import Dnsid.Protocol.DomainLog

/-! # One event of a snapshot

`snapshotStep_iff` says when an event at or before the snapshot time is materialized and what it leaves
behind: `Materializable` is the condition, `Materialized.after` the effect. At the latest timestamp of a
history no event is past the boundary, so the snapshot there is one fold of these steps.
-/
namespace Dnsid.Protocol
open Dnsid.Foundations Dnsid.Events
set_option autoImplicit false

/-! ## Keys -/

section Keys
variable {Bytes : Type} {P : Platform Bytes}

theorem text?_of_getD_ne {key : DnsIdJWK} {name : String} (h : (key.text? name).getD "" ≠ "") :
    ∃ text, key.text? name = some text ∧ text ≠ "" := by
  cases htext : key.text? name with
  | none => simp [htext] at h
  | some text => exact ⟨text, rfl, by simpa [htext] using h⟩

theorem materialMember_text {key : DnsIdJWK} {name text : String} (h : key.text? name = some text)
    (hne : text ≠ "") : materialMember key name = some (name, text) := by
  simp [materialMember, h, Option.filter, hne]

theorem supportedJwk_kty {key : DnsIdJWK} (h : SupportedJwk key) :
    key.get? "kty" = some (.str "OKP") ∨ key.get? "kty" = some (.str "EC") := by
  obtain ⟨-, -, -, h | h⟩ := h
  · exact .inl h.2.1
  · exact .inr h.2.1

theorem supportedJwk_truthy {key : DnsIdJWK} (h : SupportedJwk key) : key.truthy = true := by
  cases key with
  | obj members => rfl
  | _ => obtain h | h := supportedJwk_kty h <;> simp [Json.get?] at h

theorem synchronousJwkThumbprint_of_members {key : DnsIdJWK} {names : List String}
    {material : List (String × String)} (hnames : thumbprintMembers key = some names)
    (hmaterial : names.mapM (materialMember key) = some material) (category : LifecycleErrorCategory) :
    synchronousJwkThumbprint P key category = .ok (P.materialHash material) := by
  rw [synchronousJwkThumbprint, hnames]
  show (orThrow _ (names.mapM (materialMember key)) >>= _) = _
  rw [hmaterial]
  rfl

/-- The thumbprint of a lifecycle key can always be taken. -/
theorem supportedJwk_thumbprint {key : DnsIdJWK} (h : SupportedJwk key) :
    ∃ thumbprint, ∀ category, synchronousJwkThumbprint P key category = .ok thumbprint := by
  obtain ⟨-, -, -, ⟨-, hkty, hcrv, hx⟩ | ⟨-, hkty, hcrv, hx, hy⟩⟩ := h
  · obtain ⟨x, hx, hxne⟩ := text?_of_getD_ne hx
    have hnames : thumbprintMembers key = some ["crv", "kty", "x"] := by
      simp [thumbprintMembers, text?_eq.mpr hkty]
    have hmaterial : ["crv", "kty", "x"].mapM (materialMember key) =
        some [("crv", "Ed25519"), ("kty", "OKP"), ("x", x)] := by
      simp [materialMember_text (text?_eq.mpr hcrv) (by decide),
        materialMember_text (text?_eq.mpr hkty) (by decide), materialMember_text hx hxne]
    exact ⟨_, synchronousJwkThumbprint_of_members hnames hmaterial⟩
  · obtain ⟨x, hx, hxne⟩ := text?_of_getD_ne hx
    obtain ⟨y, hy, hyne⟩ := text?_of_getD_ne hy
    have hnames : thumbprintMembers key = some ["crv", "kty", "x", "y"] := by
      simp [thumbprintMembers, text?_eq.mpr hkty]
    have hmaterial : ["crv", "kty", "x", "y"].mapM (materialMember key) =
        some [("crv", "P-256"), ("kty", "EC"), ("x", x), ("y", y)] := by
      simp [materialMember_text (text?_eq.mpr hcrv) (by decide),
        materialMember_text (text?_eq.mpr hkty) (by decide), materialMember_text hx hxne,
        materialMember_text hy hyne]
    exact ⟨_, synchronousJwkThumbprint_of_members hnames hmaterial⟩

theorem materialMember_congr {a b : DnsIdJWK} {name : String} (h : a.get? name = b.get? name) :
    materialMember a name = materialMember b name := by
  rw [materialMember, materialMember, Json.text?, Json.text?, h]

theorem synchronousJwkThumbprint_congr {a b : DnsIdJWK} {names : List String}
    (ha : thumbprintMembers a = some names) (hb : thumbprintMembers b = some names)
    (h : names.mapM (materialMember a) = names.mapM (materialMember b))
    (category : LifecycleErrorCategory) :
    synchronousJwkThumbprint P a category = synchronousJwkThumbprint P b category := by
  rw [synchronousJwkThumbprint, synchronousJwkThumbprint, ha, hb]
  show (orThrow _ (names.mapM (materialMember a)) >>= _) = _
  rw [h]
  rfl

/-- Lifecycle keys with the same material have the same thumbprint. -/
theorem synchronousJwkThumbprint_sameMaterial {a b : DnsIdJWK} (ha : SupportedJwk a)
    (h : sameJwkMaterial a b = true) (category : LifecycleErrorCategory) :
    synchronousJwkThumbprint P a category = synchronousJwkThumbprint P b category := by
  unfold sameJwkMaterial at h
  split at h
  · cases h
  · next hkty =>
    have hkty := not_not.mp hkty
    have hnames : thumbprintMembers b = thumbprintMembers a := by
      rw [thumbprintMembers, thumbprintMembers, Json.text?, Json.text?, hkty]
    obtain hokp | hec := supportedJwk_kty ha
    · have hmembers : thumbprintMembers a = some ["crv", "kty", "x"] := by
        simp [thumbprintMembers, text?_eq.mpr hokp]
      simp only [text?_eq.mpr hokp, decide_eq_true_eq] at h
      apply synchronousJwkThumbprint_congr hmembers (hnames.trans hmembers)
      simp [materialMember_congr h.1, materialMember_congr hkty, materialMember_congr h.2]
    · have hmembers : thumbprintMembers a = some ["crv", "kty", "x", "y"] := by
        simp [thumbprintMembers, text?_eq.mpr hec]
      simp only [text?_eq.mpr hec, decide_eq_true_eq] at h
      apply synchronousJwkThumbprint_congr hmembers (hnames.trans hmembers)
      simp [materialMember_congr h.1, materialMember_congr hkty, materialMember_congr h.2.1,
        materialMember_congr h.2.2]

end Keys

/-! ## The effect of an event -/

def stateAfter (state : Option AgentStatusState) : EventBody → Option AgentStatusState
  | .issuance _ => some .active
  | .revocation _ => some .revoked
  | .retirement => some .retired
  | _ => state

def thumbprintAfter (thumbprint : String) : EventBody → String
  | .issuance fields => (issuanceActiveThumbprint fields).getD ""
  | .keyRotation fields => fields.newOperationalThumbprint
  | _ => thumbprint

def activeKeyAfter (activeKey : Option DnsIdJWK) : EventBody → Option DnsIdJWK
  | .issuance fields => issuanceActiveKey fields
  | .keyRotation fields => some fields.newOperationalPublicKey
  | _ => activeKey

def keyBoundAfter (keyBoundAt timestamp : ℤ) : EventBody → ℤ
  | .issuance _ | .keyRotation _ => timestamp
  | _ => keyBoundAt

def governanceAfter (governanceId : String) : EventBody → String
  | .issuance fields => fields.governanceId
  | _ => governanceId

@[simps]
def Materialized.after (st : Materialized) (event : LogEvent) : Materialized where
  state := stateAfter st.state event.body
  activeKey := activeKeyAfter st.activeKey event.body
  activeKeyThumbprint := thumbprintAfter st.activeKeyThumbprint event.body
  keyBoundAt := keyBoundAfter st.keyBoundAt (event.timestamp.getD 0) event.body
  governanceId := governanceAfter st.governanceId event.body
  eventsUpTo := st.eventsUpTo ++ [event]
  pastSnapshotBoundary := st.pastSnapshotBoundary

/-! ## When an event is materialized -/

section Step
variable {Bytes : Type} (P : Platform Bytes)

/-- A key with the thumbprint that names it. -/
structure BoundKey (key : DnsIdJWK) (thumbprint : String) : Prop where
  truthy : key.truthy = true
  named : thumbprint ≠ ""
  thumbprint : ∀ category, synchronousJwkThumbprint P key category = .ok thumbprint

structure IssuanceBinding (fields : IssuanceEvent) (entityKey activeKey : DnsIdJWK)
    (entityThumbprint activeThumbprint : String) : Prop where
  readEntityKey : issuanceEntityKey fields = some entityKey
  readActiveKey : issuanceActiveKey fields = some activeKey
  readEntityThumbprint : issuanceEntityThumbprint fields = some entityThumbprint
  readActiveThumbprint : issuanceActiveThumbprint fields = some activeThumbprint
  entityBound : BoundKey P entityKey entityThumbprint
  activeBound : BoundKey P activeKey activeThumbprint
  distinct : entityThumbprint ≠ activeThumbprint
  material : sameJwkMaterial entityKey activeKey = false

structure RotationBinding (activeKey : Option DnsIdJWK) (activeThumbprint : String)
    (fields : KeyRotationEvent) : Prop where
  previous : fields.previousOperationalThumbprint = activeThumbprint
  newBound : BoundKey P fields.newOperationalPublicKey fields.newOperationalThumbprint
  distinct : fields.newOperationalThumbprint ≠ activeThumbprint
  material : ∀ key, activeKey = some key →
    sameJwkMaterial key fields.newOperationalPublicKey = false

/-- The conditions of one case of the `switch`, given the active key and its thumbprint. -/
def BodyMaterializable (activeKey : Option DnsIdJWK) (activeThumbprint : String) : EventBody → Prop
  | .issuance fields => ∃ entityKey activeKey entityThumbprint activeThumbprint,
      IssuanceBinding P fields entityKey activeKey entityThumbprint activeThumbprint
  | .keyRotation fields => RotationBinding P activeKey activeThumbprint fields
  | .revocation reason => isListedReason reason = true
  | .migration fields => fields.previousLog ≠ "" ∧ fields.newLog ≠ "" ∧
      fields.previousLog ≠ fields.newLog ∧ fields.finalEntryRef ≠ ""
  | _ => True

structure Materializable (domain : String) (st : Materialized) (event : LogEvent) : Prop where
  domain : event.domain = domain
  timestamp : event.timestamp ≠ none
  boundary : st.pastSnapshotBoundary = false
  genesis : event.type = .issuance → st.state = none
  active : event.type ≠ .issuance → st.state = some .active
  body : BodyMaterializable P st.activeKey st.activeKeyThumbprint event.body

variable {P}

/-- The category is that of the errors only. -/
theorem synchronousJwkThumbprint_category {key : DnsIdJWK} {category : LifecycleErrorCategory}
    {thumbprint : String} (h : synchronousJwkThumbprint P key category = .ok thumbprint)
    (category' : LifecycleErrorCategory) : synchronousJwkThumbprint P key category' = .ok thumbprint := by
  unfold synchronousJwkThumbprint at h ⊢
  simpa only [bind_eq_ok, orThrow_eq_ok, pure_eq_ok] using h

theorem materializeIssuance_iff {st st' : Materialized} {timestamp : ℤ} {fields : IssuanceEvent} :
    materializeIssuance P st timestamp fields = .ok st' ↔
      st.state = none ∧ ∃ entityKey activeKey entityThumbprint activeThumbprint,
        IssuanceBinding P fields entityKey activeKey entityThumbprint activeThumbprint ∧
        st' = { st with
          state := some .active
          activeKey := some activeKey
          activeKeyThumbprint := activeThumbprint
          keyBoundAt := timestamp
          governanceId := fields.governanceId } := by
  simp only [materializeIssuance, bind_eq_ok, throwIf_eq_ok, orThrow_eq_ok, pure_eq_ok,
    Option.filter_eq_some_iff, not_not, not_or, decide_eq_true_eq, Bool.not_eq_true]
  constructor
  · rintro ⟨-, hstate, entityKey, ⟨he, het⟩, activeKey, ⟨ha, hat⟩, ethumb, ⟨hethumb, hene⟩, athumb,
      ⟨hathumb, hane⟩, _, hesync, -, rfl, _, hasync, -, rfl, -, ⟨hdistinct, hmaterial⟩, rfl⟩
    refine ⟨hstate, entityKey, activeKey, ethumb, athumb, ⟨he, ha, hethumb, hathumb,
      ⟨het, hene, synchronousJwkThumbprint_category hesync⟩,
      ⟨hat, hane, synchronousJwkThumbprint_category hasync⟩, hdistinct, hmaterial⟩, rfl⟩
  · rintro ⟨hstate, entityKey, activeKey, ethumb, athumb, hb, rfl⟩
    exact ⟨(), hstate, entityKey, ⟨hb.readEntityKey, hb.entityBound.truthy⟩, activeKey,
      ⟨hb.readActiveKey, hb.activeBound.truthy⟩, ethumb, ⟨hb.readEntityThumbprint, hb.entityBound.named⟩, athumb,
      ⟨hb.readActiveThumbprint, hb.activeBound.named⟩, ethumb, hb.entityBound.thumbprint _, (), rfl, athumb,
      hb.activeBound.thumbprint _, (), rfl, (), ⟨hb.distinct, hb.material⟩, rfl⟩

theorem materializeRotation_iff {st st' : Materialized} {timestamp : ℤ} {fields : KeyRotationEvent} :
    materializeRotation P st timestamp fields = .ok st' ↔
      st.state = some .active ∧ RotationBinding P st.activeKey st.activeKeyThumbprint fields ∧
        st' = { st with
          activeKey := some fields.newOperationalPublicKey
          activeKeyThumbprint := fields.newOperationalThumbprint
          keyBoundAt := timestamp } := by
  simp only [materializeRotation, bind_eq_ok, throwIf_eq_ok, pure_eq_ok, not_not, not_or,
    Bool.not_eq_true, Bool.not_eq_false, Option.any_eq_false_iff_get, Bool.not_eq_eq_eq_not, Bool.not_true]
  constructor
  · rintro ⟨-, hstate, -, hprevious, -, ⟨htruthy, hnamed⟩, _, hsync, -, rfl, -, ⟨hdistinct, hmaterial⟩,
      rfl⟩
    refine ⟨hstate, ⟨hprevious, ⟨htruthy, hnamed, synchronousJwkThumbprint_category hsync⟩, hdistinct,
      ?_⟩, rfl⟩
    intro key hkey
    simpa [hkey] using hmaterial
  · rintro ⟨hstate, hb, rfl⟩
    refine ⟨(), hstate, (), hb.previous, (), ⟨hb.newBound.truthy, hb.newBound.named⟩, _,
      hb.newBound.thumbprint _, (), rfl, (), ⟨hb.distinct, ?_⟩, rfl⟩
    cases hkey : st.activeKey with
    | none => simp
    | some key => simpa using hb.material key hkey

theorem materializeEvent_iff {st st' : Materialized} {timestamp : ℤ} {body : EventBody} :
    materializeEvent P st timestamp body = .ok st' ↔
      (body.type = .issuance → st.state = none) ∧ (body.type ≠ .issuance → st.state = some .active) ∧
        BodyMaterializable P st.activeKey st.activeKeyThumbprint body ∧ st' = { st with
          state := stateAfter st.state body
          activeKey := activeKeyAfter st.activeKey body
          activeKeyThumbprint := thumbprintAfter st.activeKeyThumbprint body
          keyBoundAt := keyBoundAfter st.keyBoundAt timestamp body
          governanceId := governanceAfter st.governanceId body } := by
  cases body with
  | issuance fields =>
    rw [materializeEvent, materializeIssuance_iff]
    constructor
    · rintro ⟨hstate, entityKey, activeKey, ethumb, athumb, hb, rfl⟩
      refine ⟨fun _ => hstate, fun hne => absurd rfl hne, ⟨_, _, _, _, hb⟩, ?_⟩
      simp [stateAfter, activeKeyAfter, thumbprintAfter, keyBoundAfter, governanceAfter,
        hb.readActiveKey, hb.readActiveThumbprint]
    · rintro ⟨hstate, -, ⟨entityKey, activeKey, ethumb, athumb, hb⟩, rfl⟩
      refine ⟨hstate rfl, entityKey, activeKey, ethumb, athumb, hb, ?_⟩
      simp [stateAfter, activeKeyAfter, thumbprintAfter, keyBoundAfter, governanceAfter,
        hb.readActiveKey, hb.readActiveThumbprint]
  | keyRotation fields =>
    rw [materializeEvent, materializeRotation_iff]
    simp [EventBody.type, BodyMaterializable, stateAfter, activeKeyAfter, thumbprintAfter, keyBoundAfter,
      governanceAfter]
  | revocation reason =>
    simp only [materializeEvent, assertActive, bind_eq_ok, throwIf_eq_ok, pure_eq_ok, not_not,
      Bool.not_eq_eq_eq_not, Bool.not_true, Bool.not_eq_false]
    constructor
    · rintro ⟨-, hactive, -, hreason, rfl⟩
      exact ⟨by simp [EventBody.type], fun _ => hactive, hreason, rfl⟩
    · rintro ⟨-, hactive, hreason, rfl⟩
      exact ⟨(), hactive (by simp [EventBody.type]), (), hreason, rfl⟩
  | migration fields =>
    simp only [materializeEvent, bind_eq_ok, throwIf_eq_ok, pure_eq_ok, not_or, not_not]
    constructor
    · rintro ⟨-, ⟨hactive, hfields⟩, rfl⟩
      exact ⟨by simp [EventBody.type], fun _ => hactive, hfields, rfl⟩
    · rintro ⟨-, hactive, hfields, rfl⟩
      exact ⟨(), ⟨hactive (by simp [EventBody.type]), hfields⟩, rfl⟩
  | _ =>
    simp only [materializeEvent, assertActive, bind_eq_ok, throwIf_eq_ok, pure_eq_ok, not_not]
    constructor
    · rintro ⟨-, hactive, rfl⟩
      exact ⟨by simp [EventBody.type], fun _ => hactive, trivial, rfl⟩
    · rintro ⟨-, hactive, -, rfl⟩
      exact ⟨(), hactive (by simp [EventBody.type]), rfl⟩

theorem snapshotStep_iff {domain : String} {st st' : Materialized} {event : LogEvent} :
    snapshotStep P domain none st event = .ok st' ↔
      Materializable P domain st event ∧ st' = st.after event := by
  simp only [snapshotStep, assertMaterializable, isAfter, bind_eq_ok, throwIf_eq_ok, orThrow_eq_ok,
    materializeEvent_iff, Option.any_none, Bool.false_eq_true, if_false, not_not, not_and, not_or,
    Bool.not_eq_true]
  constructor
  · rintro ⟨-, hdomain, timestamp, htime, -, ⟨-, hboundary, -, hgenesis, hterminal⟩, hnone, hactive, hbody,
      rfl⟩
    refine ⟨⟨hdomain, by simp [htime], hboundary, hnone, hactive, hbody⟩, ?_⟩
    simp [Materialized.after, htime]
  · rintro ⟨h, rfl⟩
    obtain ⟨timestamp, htime⟩ := Option.ne_none_iff_exists'.mp h.timestamp
    refine ⟨(), h.domain, timestamp, htime, (), ⟨(), h.boundary, (), ?_, ?_⟩, h.genesis, h.active, h.body,
      ?_⟩
    · intro hstate
      by_contra hne
      simp [h.active hne] at hstate
    · by_cases htype : event.type = .issuance
      · simp [h.genesis htype]
      · simp [h.active htype]
    · simp [Materialized.after, htime]

/-! ## A whole history -/

theorem snapshotStep_within {domain : String} {time : Option ℤ} {st : Materialized} {event : LogEvent}
    (h : ∀ timestamp, event.timestamp = some timestamp → isAfter timestamp time = false) :
    snapshotStep P domain time st event = snapshotStep P domain none st event := by
  unfold snapshotStep
  cases htime : event.timestamp with
  | none => rfl
  | some timestamp =>
    congr 1
    funext _
    show (if isAfter timestamp time = true then _ else _) = _
    rw [h timestamp htime]
    rfl

theorem latestTimestamp_le {history : List LogEvent} {start : Option ℤ} {t : ℤ}
    (h : history.foldl (fun latest event => maxTimestamp latest event.timestamp) start = some t) :
    (∃ s, start = some s ∧ s ≤ t) ∧
      ∀ event ∈ history, ∃ timestamp, event.timestamp = some timestamp ∧ timestamp ≤ t := by
  induction history generalizing start with
  | nil => exact ⟨⟨t, h, Int.le_refl t⟩, by simp⟩
  | cons event history ih =>
    obtain ⟨⟨m, hmax, hm⟩, hrest⟩ := ih h
    cases start with
    | none => simp [maxTimestamp] at hmax
    | some s =>
      cases htime : event.timestamp with
      | none => simp [maxTimestamp, htime] at hmax
      | some timestamp =>
        have hmax' : max s timestamp = m := by simpa [maxTimestamp, htime] using hmax
        refine ⟨⟨s, rfl, by omega⟩, ?_⟩
        intro e he
        obtain rfl | he := List.mem_cons.mp he
        · exact ⟨timestamp, htime, by omega⟩
        · exact hrest e he

/-- At its latest timestamp every event of a history is within the boundary. -/
theorem materialize_latest (domain : String) (history : List LogEvent) :
    DomainLog.materialize P ⟨domain, history⟩ (latestTimestamp history) =
      history.foldlM (snapshotStep P domain none) .initial := by
  apply foldlM_congr
  intro event hevent st
  apply snapshotStep_within
  intro timestamp htime
  cases hlatest : latestTimestamp history with
  | none => rfl
  | some t =>
    obtain ⟨timestamp', htime', hle⟩ := (latestTimestamp_le hlatest).2 event hevent
    obtain rfl := Option.some.inj (htime.symm.trans htime')
    simpa [isAfter] using hle

theorem Materialized.snapshot_ok {st : Materialized} {domain : String} {time : Option ℤ}
    {snapshot : DomainSnapshot} (h : st.snapshot domain time = .ok snapshot) :
    st.state = some snapshot.historicalState ∧ st.activeKey = some snapshot.activeKey ∧
      snapshot.activeKeyThumbprint = st.activeKeyThumbprint := by
  unfold Materialized.snapshot at h
  split at h
  · next hstate hkey =>
    cases h
    exact ⟨hstate, hkey, rfl⟩
  · obtain ⟨_, -, h⟩ := bind_eq_ok.mp h
    cases h

/-- The snapshot of a whole history is the end of one run over it. -/
theorem latestSnapshot_iff {domain : String} {history : List LogEvent} {snapshot : DomainSnapshot} :
    latestSnapshot P domain history = .ok snapshot ↔ history ≠ [] ∧
      ∃ st, history.foldlM (snapshotStep P domain none) .initial = .ok st ∧
        st.snapshot domain (latestTimestamp history) = .ok snapshot := by
  unfold latestSnapshot DomainLog.snapshotAt
  split
  · next hempty =>
    constructor
    · intro h
      obtain ⟨_, -, h⟩ := bind_eq_ok.mp h
      cases h
    · rintro ⟨hne, -⟩
      exact absurd hempty hne
  · next hne =>
    rw [bind_eq_ok, materialize_latest]
    exact ⟨fun h => ⟨hne, h⟩, fun h => h.2⟩

end Step

end Dnsid.Protocol

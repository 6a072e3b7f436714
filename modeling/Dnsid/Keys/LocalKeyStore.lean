import Dnsid.Keys.LocalKeyProvider
import Dnsid.Foundations.Positions

/-! # The store of the local key provider

What the mutations make of the store, whatever the calls do: the kids stay distinct, the file follows memory, and the
store is what the committed updates leave, one after another.
-/
namespace Dnsid.Keys.Local
open Dnsid.Foundations LocalKeyProvider
set_option autoImplicit false

/-! ## Updates -/

section Updates
variable {store next : KeyStore} {update : Update} {kid : String}

/-- The key that a position was looked up for. -/
theorem keyIndex_some {keys : List StoredKey} {idx : ℕ} (h : keyIndex keys kid = some idx) :
    ∃ key, keys[idx]? = some key ∧ key.kid = kid := by
  obtain ⟨hlt, hkid, -⟩ := List.findIdx?_eq_some_iff_getElem.mp h
  exact ⟨keys[idx], List.getElem?_eq_getElem hlt, of_decide_eq_true hkid⟩

/-- What an update makes of the store. -/
inductive Updates (store : KeyStore) : Update → KeyStore → Prop
  | push (key : StoredKey) : Updates store (.push key) { store with pending := store.pending ++ [key] }
  | activate (incoming : StoredKey) (idx : ℕ) (hidx : store.pending[idx]? = some incoming) :
      Updates store (.activate incoming.kid)
        ⟨incoming, store.retained ++ [store.active], store.pending.eraseIdx idx⟩
  | supersede (key : StoredKey) (idx : ℕ) (hidx : store.retained[idx]? = some key) :
      Updates store (.supersede key.kid) { store with retained := store.retained.eraseIdx idx }

theorem updates_of_apply (h : update.apply store = .ok next) : Updates store update next := by
  cases update with
  | push key =>
    obtain rfl := Except.ok.inj h
    exact .push key
  | activate kid =>
    simp only [Update.apply] at h
    cases hindex : keyIndex store.pending kid with
    | none => simp [hindex] at h
    | some idx =>
      obtain ⟨key, hkey, rfl⟩ := keyIndex_some hindex
      simp only [hindex, hkey] at h
      obtain rfl := Except.ok.inj h
      exact .activate key idx hkey
  | supersede kid =>
    simp only [Update.apply] at h
    split_ifs at h
    cases hindex : keyIndex store.retained kid with
    | none => simp [hindex] at h
    | some idx =>
      obtain ⟨key, hkey, rfl⟩ := keyIndex_some hindex
      simp only [hindex] at h
      obtain rfl := Except.ok.inj h
      exact .supersede key idx hkey

/-- The kid that an update brings in. -/
def Update.added : Update → List String
  | .push key => [key.kid]
  | .activate _ => []
  | .supersede _ => []

/-- The kid that an update takes out. -/
def Update.removed : Update → List String
  | .push _ => []
  | .activate _ => []
  | .supersede kid => [kid]

/-- The kids after an update, up to their order. -/
theorem Updates.kids (h : Updates store update next) :
    (update.removed ++ next.kids).Perm (update.added ++ store.kids) := by
  cases h with
  | push key =>
    simp only [Update.removed, Update.added, KeyStore.kids, List.map_append, List.map_cons, List.map_nil,
      List.append_assoc, List.nil_append]
    exact (List.perm_middle.cons store.active.kid).trans (List.Perm.swap key.kid store.active.kid _)
  | activate incoming idx hidx =>
    simp only [Update.removed, Update.added, KeyStore.kids, List.map_append, List.map_cons, List.map_nil,
      List.nil_append]
    have hpending := ((perm_of_getElem? hidx).map StoredKey.kid).append_right
      (store.retained.map StoredKey.kid ++ [store.active.kid])
    refine hpending.trans ?_
    rw [← List.append_assoc]
    exact List.perm_append_singleton _ _
  | supersede key idx hidx =>
    simp only [Update.removed, Update.added, KeyStore.kids, List.nil_append]
    have hretained := (perm_of_getElem? hidx).map StoredKey.kid
    refine (List.Perm.swap _ _ _).trans (List.Perm.cons _ ?_)
    exact List.perm_middle.symm.trans (hretained.append_left _)

/-- A kid leaves the store only with `supersede` of it. -/
theorem Updates.leaves (h : Updates store update next) (hmem : kid ∈ store.kids) (hout : kid ∉ next.kids) :
    update = .supersede kid := by
  have hremoved : kid ∈ update.removed :=
    (List.mem_append.mp (h.kids.symm.subset (List.mem_append_right _ hmem))).resolve_right hout
  cases update with
  | push key => cases hremoved
  | activate active => cases hremoved
  | supersede gone => rw [List.mem_singleton.mp hremoved]

/-- Kids come in only with a generated key. -/
theorem Updates.kids_subset (h : Updates store update next) (hmem : kid ∈ next.kids) :
    kid ∈ update.added ∨ kid ∈ store.kids :=
  List.mem_append.mp (h.kids.subset (List.mem_append_right _ hmem))

theorem Updates.distinct (h : Updates store update next) (hdistinct : store.kids.Nodup)
    (hnew : ∀ kid ∈ update.added, kid ∉ store.kids) : next.kids.Nodup := by
  have hall : (update.added ++ store.kids).Nodup := by
    cases update with
    | push key => exact List.nodup_cons.mpr ⟨hnew key.kid List.mem_cons_self, hdistinct⟩
    | activate kid => exact hdistinct
    | supersede kid => exact hdistinct
  exact (List.nodup_append.mp (h.kids.nodup_iff.mpr hall)).2.1

end Updates

/-! ## The invariant of the store -/

/-- The update is one that the change asks for. -/
def Change.Allows : Change → Update → Prop
  | .generateKey _, .push _ => True
  | .activate kid, .activate kid' => kid = kid'
  | .supersede kid, .supersede kid' => kid = kid'
  | _, _ => False

/-- A copy that is not yet in place: what the update makes of the store. -/
structure Copy (seen : List String) (store next : KeyStore) (change : Change) (update : Update) : Prop where
  apply : update.apply store = .ok next
  allows : change.Allows update
  fresh : ∀ kid ∈ update.added, kid ∉ store.kids ∧ kid ∈ seen

/-- Before the rename of a file, if it is one that can still come to it. -/
def WriteStage.before : WriteStage → Bool
  | .syncingDirectory => false
  | .removing none => false
  | _ => true

/-- After the rename. -/
def WriteStage.after : WriteStage → Bool
  | .syncingDirectory => true
  | .removing _ => true
  | _ => false

/-- Where a running mutation can stand. -/
def PhaseOk (seen : List String) (done : List (ℕ × Update)) (store : KeyStore) (m : Mutation) : Phase → Prop
  | .generating next _ => next = store ∧ ∃ algorithm, m.change = .generateKey algorithm
  | .changed next update => Copy seen store next m.change update
  | .backingUp next update _ => Copy seen store next m.change update
  | .writing next update stage false => Copy seen store next m.change update ∧ stage.before = true
  | .writing next update stage true => next = store ∧ (m.call, update) ∈ done ∧ stage.after = true

structure StoreInv (store₀ : KeyStore) (seen : List String) (done : List (ℕ × Update)) (p : LocalKeyProvider) :
    Prop where
  distinct : p.store.kids.Nodup
  known : ∀ kid ∈ p.store.kids, kid ∈ seen
  files : ∀ files, p.files = some files → files.content = p.store
  replayed : replay store₀ done = .ok p.store
  running : ∀ m, p.running = some m → PhaseOk seen done p.store m m.phase

section Invariant
variable {store₀ : KeyStore} {seen seen' : List String} {done : List (ℕ × Update)} {p p' : LocalKeyProvider}
variable {m : Mutation} {next : KeyStore} {update : Update}

theorem Copy.mono {store : KeyStore} {change : Change} (h : Copy seen store next change update)
    (hsub : ∀ kid ∈ seen, kid ∈ seen') : Copy seen' store next change update :=
  ⟨h.apply, h.allows, fun kid hkid => ⟨(h.fresh kid hkid).1, hsub kid (h.fresh kid hkid).2⟩⟩

/-- Nothing that the store depends on has changed. -/
theorem StoreInv.congr (h : StoreInv store₀ seen done p) (hstore : p'.store = p.store) (hfiles : p'.files = p.files)
    (hrunning : p'.running = p.running) : StoreInv store₀ seen done p' :=
  ⟨hstore ▸ h.distinct, hstore ▸ h.known, by rw [hfiles, hstore]; exact h.files, hstore ▸ h.replayed,
    by rw [hrunning, hstore]; exact h.running⟩

/-- A mutation has settled. -/
theorem StoreInv.settled (h : StoreInv store₀ seen done p) (n : ℕ) (change : Change)
    (outcome : Except String (Option String)) : StoreInv store₀ seen done (p.settleMutation n change outcome) := by
  have hparts : (p.settleMutation n change outcome).store = p.store ∧
      (p.settleMutation n change outcome).files = p.files ∧ (p.settleMutation n change outcome).running = none := by
    cases change <;> cases outcome <;> exact ⟨rfl, rfl, rfl⟩
  obtain ⟨hstore, hfiles, hrunning⟩ := hparts
  exact ⟨hstore ▸ h.distinct, hstore ▸ h.known, by rw [hfiles, hstore]; exact h.files, hstore ▸ h.replayed,
    fun m hm => by rw [hrunning] at hm; cases hm⟩

/-- A mutation goes on to a phase that fits. -/
theorem StoreInv.setPhase (h : StoreInv store₀ seen done p) (m : Mutation) {phase : Phase}
    (hphase : PhaseOk seen done p.store m phase) : StoreInv store₀ seen done (p.setPhase m phase) := by
  refine ⟨h.distinct, h.known, h.files, h.replayed, fun m' hm' => ?_⟩
  obtain rfl := Option.some.inj hm'
  cases phase <;> exact hphase

/-- The copy is taken over. -/
theorem StoreInv.commit (h : StoreInv store₀ seen done p) {n : ℕ} {change : Change}
    (hcopy : Copy seen p.store next change update) :
    StoreInv store₀ seen (done ++ [(n, update)]) { p.commit next with running := none } := by
  have hupdates := updates_of_apply hcopy.apply
  refine ⟨hupdates.distinct h.distinct fun kid hkid => (hcopy.fresh kid hkid).1, fun kid hkid => ?_, ?_, ?_, ?_⟩
  · rcases hupdates.kids_subset hkid with hadded | hstore
    · exact (hcopy.fresh kid hadded).2
    · exact h.known kid hstore
  · intro files hfiles
    obtain ⟨files', -, rfl⟩ := Option.map_eq_some_iff.mp hfiles
    rfl
  · have hreplay := h.replayed
    unfold replay at hreplay ⊢
    rw [List.foldlM_append, hreplay]
    refine bind_eq_ok.mpr ⟨p.store, rfl, ?_⟩
    rw [List.foldlM_cons, hcopy.apply]
    rfl
  · rintro m ⟨⟩

theorem StoreInv.commit_phase (h : StoreInv store₀ seen done p) {change : Change}
    (hcopy : Copy seen p.store next change update) {stage : WriteStage} (hstage : stage.after = true) :
    StoreInv store₀ seen (done ++ [(m.call, update)]) ((p.commit next).setPhase m (.writing next update stage true)) := by
  have hcommitted := @StoreInv.commit _ _ _ _ _ _ h m.call change hcopy
  have hphase : PhaseOk seen (done ++ [(m.call, update)]) next m (.writing next update stage true) :=
    ⟨rfl, List.mem_append_right _ List.mem_cons_self, hstage⟩
  exact (hcommitted.setPhase m hphase).congr rfl rfl rfl

theorem StoreInv.settleBackup (h : StoreInv store₀ seen done p) (hcopy : Copy seen p.store next m.change update)
    (stage : WriteStage) (result : Except String Unit) :
    StoreInv store₀ seen done (p.settleBackup m next update stage result) := by
  have hbackup : StoreInv store₀ seen done p.setBackup := by
    refine ⟨h.distinct, h.known, fun files hfiles => ?_, h.replayed, h.running⟩
    obtain ⟨files', hfiles', rfl⟩ := Option.map_eq_some_iff.mp hfiles
    exact h.files files' hfiles'
  unfold LocalKeyProvider.settleBackup
  split
  next stage' hwrite =>
    split_ifs
    · exact hbackup.setPhase m hcopy
    · exact h.setPhase m hcopy
  next hwrite => exact h.setPhase m ⟨hcopy, rfl⟩
  next message hwrite => exact h.settled m.call m.change _

/-- Without a rename, a write stays before it or after it. -/
theorem writeStore_stage {stage stage' : WriteStage} {result : Except String Unit}
    (h : writeStore stage result = .inl stage') (hrename : ¬ (stage = .renamingFile ∧ result.isOk = true)) :
    (stage.before = true → stage'.before = true) ∧ (stage.after = true → stage'.after = true) := by
  revert hrename h
  cases stage with
  | opening | writing | syncing | renamingFile | syncingDirectory =>
    cases result <;> simp +contextual [writeStore, WriteStage.before, WriteStage.after, Except.isOk, Except.toBool, eq_comm]
  | closing failed | removing failed =>
    cases failed <;> cases result <;>
      simp +contextual [writeStore, WriteStage.before, WriteStage.after, Except.isOk, Except.toBool, eq_comm]

/-- A write that has not ended well before its rename. -/
theorem writeStore_ok {stage : WriteStage} {result : Except String Unit} (h : writeStore stage result = .inr (.ok ())) :
    stage.before = false := by
  revert h
  cases stage with
  | opening | writing | syncing | renamingFile | syncingDirectory => cases result <;> simp [writeStore]
  | closing failed | removing failed => cases failed <;> cases result <;> simp [writeStore, WriteStage.before]

/-- What settles while the file is written: the rename commits, any other step leaves the store as it is. -/
theorem StoreInv.settleWrite (h : StoreInv store₀ seen done p) {stage : WriteStage} {replaced : Bool}
    (hphase : PhaseOk seen done p.store m (.writing next update stage replaced)) (result : Except String Unit) :
    StoreInv store₀ seen
      (done ++ if stage = .renamingFile ∧ result.isOk = true then [(m.call, update)] else [])
      (p.settleWrite m next update stage replaced result) := by
  unfold LocalKeyProvider.settleWrite
  by_cases hrename : stage = .renamingFile ∧ result.isOk = true
  · obtain ⟨rfl, hok⟩ := hrename
    obtain ⟨hcopy, -⟩ : Copy seen p.store next m.change update ∧ WriteStage.before .renamingFile = true := by
      cases replaced with
      | false => exact hphase
      | true => exact absurd hphase.2.2 (by decide)
    cases result with
    | ok => exact h.commit_phase hcopy rfl
    | error => cases hok
  · rw [if_neg hrename, List.append_nil]
    split
    next stage' hwrite =>
      obtain ⟨hbefore, hafter⟩ := writeStore_stage hwrite hrename
      rw [if_neg hrename]
      refine h.setPhase m ?_
      cases replaced with
      | false => exact ⟨hphase.1, hbefore hphase.2⟩
      | true => exact ⟨hphase.1, hphase.2.1, hafter hphase.2.2⟩
    next hwrite => exact h.settled m.call m.change _
    next message hwrite => exact h.settled m.call m.change _

theorem StoreInv.mono (h : StoreInv store₀ seen done p) (hsub : ∀ kid ∈ seen, kid ∈ seen') :
    StoreInv store₀ seen' done p := by
  refine ⟨h.distinct, fun kid hkid => hsub kid (h.known kid hkid), h.files, h.replayed, fun m hm => ?_⟩
  have hphase := h.running m hm
  generalize m.phase = phase at hphase ⊢
  cases phase with
  | generating => exact hphase
  | changed | backingUp => exact hphase.mono hsub
  | writing next update stage replaced =>
    cases replaced with
    | false => exact ⟨hphase.1.mono hsub, hphase.2⟩
    | true => exact hphase

/-- What the running mutation awaits settles. -/
theorem StoreInv.settleRunning (h : StoreInv store₀ seen done p) {answer : Answer} (hm : p.running = some m)
    (hfresh : ∀ kid, generatedBy (.settle answer) = some kid → kid ∉ seen)
    (hstep : p.settleRunning m answer = some p') :
    StoreInv store₀ (seen ++ (generatedBy (.settle answer)).toList)
      (done ++ (committedBy p (.settle answer)).toList) p' := by
  have hphase := h.running m hm
  cases answer with
  | key key =>
    have hnone : committedBy p (.settle (.key key)) = none := rfl
    rw [hnone, Option.toList_none, List.append_nil]
    have hmono : StoreInv store₀ (seen ++ [key.kid]) done p := h.mono fun kid hkid => List.mem_append_left _ hkid
    unfold LocalKeyProvider.settleRunning at hstep
    split at hstep
    next next algorithm hgenerating =>
      rw [hgenerating] at hphase
      obtain ⟨rfl, algorithm, hchange⟩ := hphase
      obtain rfl := Option.some.inj hstep
      refine hmono.setPhase m ⟨rfl, by rw [hchange]; trivial, fun kid hkid => ?_⟩
      obtain rfl := List.mem_singleton.mp hkid
      exact ⟨fun hmem => hfresh key.kid rfl (h.known _ hmem), List.mem_append_right _ List.mem_cons_self⟩
    next => cases hstep
    next => cases hstep
    next => cases hstep
  | done =>
    rw [show generatedBy (.settle .done) = none from rfl, Option.toList_none, List.append_nil]
    unfold LocalKeyProvider.settleRunning at hstep
    unfold committedBy
    rw [hm]
    split at hstep
    next => cases hstep
    next next update hchanged =>
      rw [hchanged] at hphase
      simp only [Option.bind_some, hchanged]
      simp only at hstep
      split_ifs at hstep with hfiles
      · obtain rfl := Option.some.inj hstep
        have hnot : ¬ p.files.isNone = true := by
          rw [Option.isNone_iff_eq_none]
          exact Option.isSome_iff_ne_none.mp hfiles
        rw [if_neg hnot, Option.toList_none, List.append_nil]
        exact h.setPhase m hphase
      · obtain rfl := Option.some.inj hstep
        rw [if_pos (by simpa using hfiles)]
        have hcommitted := (@StoreInv.commit _ _ _ _ _ _ h m.call m.change hphase).settled m.call m.change
          (.ok update.result)
        exact hcommitted.congr (by cases m.change <;> rfl) (by cases m.change <;> rfl) (by cases m.change <;> rfl)
    next next update stage hbacking =>
      rw [hbacking] at hphase
      simp only [Option.bind_some, hbacking, Option.toList_none, List.append_nil]
      obtain rfl := Option.some.inj hstep
      exact h.settleBackup hphase stage (.ok ())
    next next update stage replaced hwriting =>
      rw [hwriting] at hphase
      obtain rfl := Option.some.inj hstep
      have hwritten := h.settleWrite hphase (.ok ())
      simp only [Option.bind_some, hwriting]
      cases stage with
      | renamingFile => exact hwritten
      | opening | writing | syncing | closing _ | syncingDirectory | removing _ =>
        rw [if_neg (by simp)] at hwritten
        exact hwritten
  | failed message =>
    have hnone : committedBy p (.settle (.failed message)) = none := rfl
    rw [show generatedBy (.settle (.failed message)) = none from rfl, hnone, Option.toList_none, Option.toList_none,
      List.append_nil, List.append_nil]
    unfold LocalKeyProvider.settleRunning at hstep
    split at hstep
    next =>
      obtain rfl := Option.some.inj hstep
      exact h.settled m.call m.change _
    next => cases hstep
    next next update stage hbacking =>
      rw [hbacking] at hphase
      obtain rfl := Option.some.inj hstep
      exact h.settleBackup hphase stage (.error message)
    next next update stage replaced hwriting =>
      rw [hwriting] at hphase
      obtain rfl := Option.some.inj hstep
      have hwritten := h.settleWrite hphase (.error message)
      rw [if_neg (by simp [Except.isOk, Except.toBool]), List.append_nil] at hwritten
      exact hwritten

theorem StoreInv.beginMutation (h : StoreInv store₀ seen done p) (hstep : p.beginMutation = some p') :
    StoreInv store₀ seen done p' := by
  unfold LocalKeyProvider.beginMutation at hstep
  split at hstep
  next n change queue hrunning hqueue =>
    have hq : StoreInv store₀ seen done { p with queue } := h.congr rfl rfl rfl
    simp only at hstep
    split at hstep
    next message hstart =>
      obtain rfl := Option.some.inj hstep
      exact hq.settled n change _
    next phase hstart =>
      obtain rfl := Option.some.inj hstep
      refine hq.setPhase ⟨n, change, phase⟩ ?_
      cases change with
      | generateKey algorithm =>
        simp only [startChange, bind_eq_ok, pure_eq_ok] at hstart
        obtain ⟨_, -, rfl⟩ := hstart
        exact ⟨rfl, algorithm, rfl⟩
      | activate kid | supersede kid =>
        simp only [startChange, bind_eq_ok, pure_eq_ok] at hstart
        obtain ⟨next, happly, rfl⟩ := hstart
        exact ⟨happly, rfl, fun kid hkid => absurd hkid List.not_mem_nil⟩
  next => cases hstep

/-- The store as a call leaves it. -/
theorem settleCallOf_store {n : ℕ} {answer : Answer} {call : Call} (h : p.settleCallOf n answer call = some p') :
    p'.store = p.store ∧ p'.files = p.files ∧ p'.running = p.running := by
  unfold settleCallOf at h
  split at h
  next =>
    split at h
    next => obtain rfl := Option.some.inj h; exact ⟨rfl, rfl, rfl⟩
    next => obtain rfl := Option.some.inj h; exact ⟨rfl, rfl, rfl⟩
    next => cases h
  next =>
    split_ifs at h
    obtain rfl := Option.some.inj h
    exact ⟨rfl, rfl, rfl⟩
  next =>
    split at h <;> obtain rfl := Option.some.inj h <;> exact ⟨rfl, rfl, rfl⟩
  next => cases h

/-- Only the running mutation works on the store. -/
theorem step_store {a : Action} (h : step a p = some p') (hbegin : a ≠ .begin) (hsettle : ∀ answer, a ≠ .settle answer) :
    p'.store = p.store ∧ p'.files = p.files ∧ p'.running = p.running := by
  cases a with
  | sign | signKey kid =>
    obtain rfl := Option.some.inj h
    unfold startSigning
    split_ifs <;> exact ⟨rfl, rfl, rfl⟩
  | generateKey algorithm | supersede kid =>
    obtain rfl := Option.some.inj h
    exact ⟨rfl, rfl, rfl⟩
  | activate kid =>
    obtain rfl := Option.some.inj h
    unfold startActivate
    split_ifs <;> exact ⟨rfl, rfl, rfl⟩
  | settleCall n answer =>
    obtain ⟨call, -, hsettled⟩ := Option.bind_eq_some_iff.mp h
    exact settleCallOf_store hsettled
  | begin => exact absurd rfl hbegin
  | settle answer => exact absurd rfl (hsettle answer)

/-- Every step keeps the invariant of the store. -/
theorem StoreInv.step {a : Action} (h : StoreInv store₀ seen done p)
    (hfresh : ∀ kid, generatedBy a = some kid → kid ∉ seen) (hstep : step a p = some p') :
    StoreInv store₀ (seen ++ (generatedBy a).toList) (done ++ (committedBy p a).toList) p' := by
  by_cases hsettle : ∃ answer, a = .settle answer
  · obtain ⟨answer, rfl⟩ := hsettle
    obtain ⟨m, hm, hsettled⟩ := Option.bind_eq_some_iff.mp hstep
    exact h.settleRunning hm hfresh hsettled
  · have hnone : generatedBy a = none ∧ committedBy p a = none := by
      cases a with
      | settle answer => exact absurd ⟨answer, rfl⟩ hsettle
      | sign | signKey _ | generateKey _ | activate _ | supersede _ | settleCall _ _ | begin => exact ⟨rfl, rfl⟩
    rw [hnone.1, hnone.2, Option.toList_none, Option.toList_none, List.append_nil, List.append_nil]
    by_cases hbegin : a = .begin
    · subst hbegin
      exact h.beginMutation hstep
    · obtain ⟨hstore, hfiles, hrunning⟩ := step_store hstep hbegin fun answer heq => hsettle ⟨answer, heq⟩
      exact h.congr hstore hfiles hrunning

end Invariant

end Dnsid.Keys.Local

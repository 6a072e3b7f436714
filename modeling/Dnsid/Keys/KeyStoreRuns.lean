import Dnsid.Keys.SigningGate

/-! # Runs of the local key provider

Over every interleaving of calls, and whichever step of the file system fails, the store keeps its kids, no update is
lost, and a key that another one replaced signs no more.
-/
namespace Dnsid.Keys.Local
open Dnsid.Foundations LocalKeyProvider
set_option autoImplicit false

/-- What is in `filePath`. -/
def LocalKeyProvider.content (p : LocalKeyProvider) : Option KeyStore := p.files.map Files.content

section Steps
variable {store₀ : KeyStore} {seen : List String} {done : List (ℕ × Update)} {p p' : LocalKeyProvider} {m : Mutation}

/-! ## What a step changes -/

/-- A step that commits nothing leaves memory and file as they are. -/
def Unchanged (p p' : LocalKeyProvider) : Prop := p'.store = p.store ∧ p'.content = p.content

theorem unchanged_settled (p : LocalKeyProvider) (n : ℕ) (change : Change) (outcome : Except String (Option String)) :
    Unchanged p (p.settleMutation n change outcome) := by
  rw [settleMutation_eq]
  exact ⟨rfl, rfl⟩

theorem unchanged_backup (p : LocalKeyProvider) (m : Mutation) (next : KeyStore) (update : Update) (stage : WriteStage)
    (result : Except String Unit) : Unchanged p (p.settleBackup m next update stage result) := by
  unfold LocalKeyProvider.settleBackup
  split
  next =>
    split_ifs
    · refine ⟨rfl, ?_⟩
      show (p.files.map _).map Files.content = p.files.map Files.content
      rw [Option.map_map]
      rfl
    · exact ⟨rfl, rfl⟩
  next => exact ⟨rfl, rfl⟩
  next => exact unchanged_settled p m.call m.change _

theorem unchanged_write (p : LocalKeyProvider) (m : Mutation) (next : KeyStore) (update : Update) {stage : WriteStage}
    (replaced : Bool) {result : Except String Unit} (hrename : ¬ (stage = .renamingFile ∧ result.isOk = true)) :
    Unchanged p (p.settleWrite m next update stage replaced result) := by
  unfold LocalKeyProvider.settleWrite
  split
  next =>
    rw [if_neg hrename]
    exact ⟨rfl, rfl⟩
  next => exact unchanged_settled p m.call m.change _
  next => exact unchanged_settled p m.call m.change _

/-- What settles leaves the store as it is, or commits the update of the running mutation. -/
theorem settleRunning_store (hstore : StoreInv store₀ seen done p) (hm : p.running = some m) {answer : Answer}
    (hstep : p.settleRunning m answer = some p') :
    (committedBy p (.settle answer) = none ∧ Unchanged p p') ∨
      ∃ update, committedBy p (.settle answer) = some (m.call, update) ∧ m.change.Allows update ∧
        update.apply p.store = .ok p'.store := by
  have hphase := hstore.running m hm
  unfold LocalKeyProvider.settleRunning at hstep
  split at hstep
  next next algorithm hgenerating =>
    left
    split at hstep
    next key =>
      obtain rfl := Option.some.inj hstep
      exact ⟨rfl, rfl, rfl⟩
    next message =>
      obtain rfl := Option.some.inj hstep
      exact ⟨rfl, unchanged_settled p m.call m.change _⟩
    next => cases hstep
  next next update hchanged =>
    rw [hchanged] at hphase
    split at hstep
    next =>
      split_ifs at hstep with hfiles
      · obtain rfl := Option.some.inj hstep
        have hsome : p.files.isNone = false := by
          rw [Option.isNone_eq_false_iff]
          exact hfiles
        exact .inl ⟨by simp [committedBy, hm, hchanged, hsome], rfl, rfl⟩
      · obtain rfl := Option.some.inj hstep
        have hnone : p.files.isNone = true := by simpa using hfiles
        refine .inr ⟨update, by simp [committedBy, hm, hchanged, hnone], hphase.allows, ?_⟩
        rw [(unchanged_settled (p.commit next) m.call m.change _).1]
        exact hphase.apply
    next => cases hstep
  next next update stage hbacking =>
    obtain ⟨result, hresult, rfl⟩ := Option.map_eq_some_iff.mp hstep
    refine .inl ⟨?_, unchanged_backup p m next update stage result⟩
    cases answer <;> simp [committedBy, hm, hbacking]
  next next update stage replaced hwriting =>
    rw [hwriting] at hphase
    cases answer with
    | key key => cases hstep
    | failed message =>
      obtain rfl := Option.some.inj hstep
      refine .inl ⟨rfl, unchanged_write p m next update replaced ?_⟩
      rintro ⟨-, ⟨⟩⟩
    | done =>
      obtain rfl := Option.some.inj hstep
      cases stage with
      | renamingFile =>
        obtain ⟨hcopy, -⟩ : Copy seen p.store next m.change update ∧ WriteStage.before .renamingFile = true := by
          cases replaced with
          | false => exact hphase
          | true => exact absurd hphase.2.2 (by decide)
        exact .inr ⟨update, by simp [committedBy, hm, hwriting], hcopy.allows, hcopy.apply⟩
      | opening | writing | syncing | closing _ | syncingDirectory | removing _ =>
        refine .inl ⟨by simp [committedBy, hm, hwriting], unchanged_write p m next update replaced ?_⟩
        rintro ⟨⟨⟩, -⟩

/-- Every step leaves memory and file as they are, or commits an update of the mutation that runs. -/
theorem step_commits (hstore : StoreInv store₀ seen done p) {a : Action} (hstep : step a p = some p') :
    (committedBy p a = none ∧ Unchanged p p') ∨
      ∃ m update, p.running = some m ∧ committedBy p a = some (m.call, update) ∧ m.change.Allows update ∧
        update.apply p.store = .ok p'.store := by
  by_cases hsettle : ∃ answer, a = .settle answer
  · obtain ⟨answer, rfl⟩ := hsettle
    obtain ⟨m, hm, hsettled⟩ := Option.bind_eq_some_iff.mp hstep
    obtain hsame | ⟨update, hcommitted, hallows, happly⟩ := settleRunning_store hstore hm hsettled
    · exact .inl hsame
    · exact .inr ⟨m, update, hm, hcommitted, hallows, happly⟩
  · have hnone : committedBy p a = none := by
      cases a with
      | settle answer => exact absurd ⟨answer, rfl⟩ hsettle
      | sign | signKey _ | generateKey _ | activate _ | supersede _ | settleCall _ _ | begin => rfl
    refine .inl ⟨hnone, ?_⟩
    by_cases hbegin : a = .begin
    · subst hbegin
      replace hstep : p.beginMutation = some p' := hstep
      unfold LocalKeyProvider.beginMutation at hstep
      split at hstep
      next n change queue hrunning hqueue =>
        simp only at hstep
        split at hstep
        next =>
          obtain rfl := Option.some.inj hstep
          exact unchanged_settled _ n change _
        next =>
          obtain rfl := Option.some.inj hstep
          exact ⟨rfl, rfl⟩
      next => cases hstep
    · obtain ⟨hsame, hfiles, -⟩ := step_store hstep hbegin fun answer heq => hsettle ⟨answer, heq⟩
      exact ⟨hsame, by rw [LocalKeyProvider.content, LocalKeyProvider.content, hfiles]⟩

/-! ## Keys that were replaced -/

/-- The kid that a running mutation brings in. -/
def Phase.added : Phase → List String
  | .generating _ _ => []
  | .changed _ update => update.added
  | .backingUp _ update _ => update.added
  | .writing _ update _ _ => update.added

/-- The kid was known, and is neither active nor pending, nor about to be. -/
structure Retired (seen : List String) (kid : String) (p : LocalKeyProvider) : Prop where
  known : kid ∈ seen
  active : kid ≠ p.store.active.kid
  pending : kid ∉ p.store.pending.map StoredKey.kid
  running : ∀ m, p.running = some m → kid ∉ m.phase.added

/-- No signing operation starts with a key that was replaced. -/
theorem Retired.signsWith {kid : String} (h : Retired seen kid p) (a : Action) : signsWith p a ≠ some kid := by
  cases a with
  | sign =>
    simp only [Local.signsWith]
    split_ifs
    · simp
    · exact fun heq => h.active (Option.some.inj heq).symm
  | signKey kid' =>
    simp only [Local.signsWith]
    split_ifs with hcond
    · intro heq
      obtain rfl := Option.some.inj heq
      rcases hcond.2 with hactive | hpending
      · exact h.active hactive
      · exact h.pending hpending
    · simp
  | generateKey _ | activate _ | supersede _ | settleCall _ _ | begin | settle _ => simp [Local.signsWith]

/-- An update makes no known key active or pending again. -/
theorem Updates.retired {store next : KeyStore} {update : Update} {kid : String} (h : Updates store update next)
    (hactive : kid ≠ store.active.kid) (hpending : kid ∉ store.pending.map StoredKey.kid) (hadded : kid ∉ update.added) :
    kid ≠ next.active.kid ∧ kid ∉ next.pending.map StoredKey.kid := by
  cases h with
  | push key =>
    refine ⟨hactive, fun hmem => ?_⟩
    rw [List.map_append] at hmem
    rcases List.mem_append.mp hmem with hmem | hmem
    · exact hpending hmem
    · exact hadded hmem
  | activate incoming idx hidx =>
    refine ⟨?_, fun hmem => hpending ?_⟩
    · rintro rfl
      exact hpending (List.mem_map_of_mem (List.mem_of_getElem? hidx))
    · exact ((List.eraseIdx_sublist store.pending idx).map StoredKey.kid).subset hmem
  | supersede key idx hidx => exact ⟨hactive, hpending⟩

theorem settleMutation_running (p : LocalKeyProvider) (n : ℕ) (change : Change)
    (outcome : Except String (Option String)) : (p.settleMutation n change outcome).running = none := by
  rw [settleMutation_eq]
  rfl

/-- A running mutation brings in what it did before, or the key that was just generated. -/
theorem settleRunning_added {answer : Answer} (hstep : p.settleRunning m answer = some p') {m' : Mutation}
    (hm' : p'.running = some m') {kid : String} (hkid : kid ∈ m'.phase.added) :
    kid ∈ m.phase.added ∨ generatedBy (.settle answer) = some kid := by
  have hsettled : ∀ {q : LocalKeyProvider} {outcome}, (q.settleMutation m.call m.change outcome).running ≠ some m' := by
    intro q outcome
    rw [settleMutation_running]
    simp
  unfold LocalKeyProvider.settleRunning at hstep
  split at hstep
  next next algorithm hgenerating =>
    split at hstep
    next key =>
      obtain rfl := Option.some.inj hstep
      obtain rfl := Option.some.inj hm'
      rw [List.mem_singleton.mp hkid]
      exact .inr rfl
    next message =>
      obtain rfl := Option.some.inj hstep
      exact absurd hm' hsettled
    next => cases hstep
  next next update hchanged =>
    rw [hchanged]
    split at hstep
    next =>
      split_ifs at hstep
      · obtain rfl := Option.some.inj hstep
        obtain rfl := Option.some.inj hm'
        exact .inl hkid
      · obtain rfl := Option.some.inj hstep
        exact absurd hm' hsettled
    next => cases hstep
  next next update stage hbacking =>
    rw [hbacking]
    obtain ⟨result, -, rfl⟩ := Option.map_eq_some_iff.mp hstep
    unfold LocalKeyProvider.settleBackup at hm'
    split at hm'
    next =>
      obtain rfl := Option.some.inj hm'
      exact .inl hkid
    next =>
      obtain rfl := Option.some.inj hm'
      exact .inl hkid
    next => exact absurd hm' hsettled
  next next update stage replaced hwriting =>
    rw [hwriting]
    obtain ⟨result, -, rfl⟩ := Option.map_eq_some_iff.mp hstep
    unfold LocalKeyProvider.settleWrite at hm'
    split at hm'
    next =>
      split_ifs at hm' <;> obtain rfl := Option.some.inj hm' <;> exact .inl hkid
    next => exact absurd hm' hsettled
    next => exact absurd hm' hsettled

theorem beginMutation_added (hstep : p.beginMutation = some p') {m' : Mutation} (hm' : p'.running = some m') :
    m'.phase.added = [] := by
  unfold LocalKeyProvider.beginMutation at hstep
  split at hstep
  next n change queue hrunning hqueue =>
    simp only at hstep
    split at hstep
    next =>
      obtain rfl := Option.some.inj hstep
      rw [settleMutation_running] at hm'
      cases hm'
    next phase hstart =>
      obtain rfl := Option.some.inj hstep
      obtain rfl := Option.some.inj hm'
      cases change with
      | generateKey algorithm =>
        simp only [startChange, bind_eq_ok, pure_eq_ok] at hstart
        obtain ⟨_, -, rfl⟩ := hstart
        rfl
      | activate kid | supersede kid =>
        simp only [startChange, bind_eq_ok, pure_eq_ok] at hstart
        obtain ⟨_, -, rfl⟩ := hstart
        rfl
  next => cases hstep

/-- What a committed mutation brings in, it brought in while it ran. -/
theorem committedBy_added {a : Action} {update : Update} (hm : p.running = some m)
    (h : committedBy p a = some (m.call, update)) : m.phase.added = update.added := by
  unfold committedBy at h
  split at h
  next =>
    rw [hm, Option.bind_some] at h
    split at h
    next next update' hphase =>
      split_ifs at h
      rw [hphase, show update' = update from congrArg Prod.snd (Option.some.inj h)]
      rfl
    next next update' replaced hphase =>
      rw [hphase, show update' = update from congrArg Prod.snd (Option.some.inj h)]
      rfl
    next => cases h
  next => cases h

/-- A key that was replaced stays so. -/
theorem Retired.step {kid : String} {a : Action} (h : Retired seen kid p) (hstore : StoreInv store₀ seen done p)
    (hfresh : ∀ kid, generatedBy a = some kid → kid ∉ seen) (hstep : step a p = some p') :
    Retired (seen ++ (generatedBy a).toList) kid p' := by
  have hrunning : ∀ m', p'.running = some m' → kid ∉ m'.phase.added := by
    intro m' hm' hmem
    by_cases hsettle : ∃ answer, a = .settle answer
    · obtain ⟨answer, rfl⟩ := hsettle
      obtain ⟨m, hm, hsettled⟩ := Option.bind_eq_some_iff.mp hstep
      obtain hadded | hnew := settleRunning_added hsettled hm' hmem
      · exact h.running m hm hadded
      · exact hfresh kid hnew h.known
    · by_cases hbegin : a = .begin
      · subst hbegin
        rw [beginMutation_added hstep hm'] at hmem
        cases hmem
      · obtain ⟨-, -, hsame⟩ := step_store hstep hbegin fun answer heq => hsettle ⟨answer, heq⟩
        exact h.running m' (hsame ▸ hm') hmem
  obtain ⟨-, hsame, -⟩ | ⟨m, update, hm, hcommitted, -, happly⟩ := step_commits hstore hstep
  · exact ⟨List.mem_append_left _ h.known, hsame ▸ h.active, hsame ▸ h.pending, hrunning⟩
  · have hadded : kid ∉ update.added := by
      rw [← committedBy_added hm hcommitted]
      exact h.running m hm
    obtain ⟨hactive, hpending⟩ := (updates_of_apply happly).retired h.active h.pending hadded
    exact ⟨List.mem_append_left _ h.known, hactive, hpending, hrunning⟩

/-- The key that an activation replaces is retired. -/
theorem retired_of_activate (hstore : StoreInv store₀ seen done p) {a : Action} {n : ℕ} {kid : String}
    (hcommitted : committedBy p a = some (n, .activate kid)) (hstep : step a p = some p') :
    Retired (seen ++ (generatedBy a).toList) p.store.active.kid p' := by
  obtain ⟨hnone, -⟩ | ⟨m, update, hm, hcommitted', -, happly⟩ := step_commits hstore hstep
  · rw [hcommitted] at hnone
    cases hnone
  have hupdate : (n, Update.activate kid) = (m.call, update) := Option.some.inj (hcommitted.symm.trans hcommitted')
  obtain ⟨-, rfl⟩ := Prod.mk.inj hupdate
  obtain ⟨hout, -⟩ := List.nodup_cons.mp hstore.distinct
  have hpending : p.store.active.kid ∉ p.store.pending.map StoredKey.kid := fun hmem => hout (List.mem_append_left _ hmem)
  have hupdates := updates_of_apply happly
  refine ⟨List.mem_append_left _ (hstore.known _ List.mem_cons_self), ?_, ?_, fun m' hm' hmem => ?_⟩
  · generalize p'.store = store' at hupdates
    cases hupdates with
    | activate incoming idx hidx =>
      intro heq
      exact hpending (heq ▸ List.mem_map_of_mem (List.mem_of_getElem? hidx))
  · generalize p'.store = store' at hupdates
    cases hupdates with
    | activate incoming idx hidx =>
      exact fun hmem => hpending (((List.eraseIdx_sublist p.store.pending idx).map StoredKey.kid).subset hmem)
  · cases a with
    | settle answer =>
      obtain ⟨m₁, hm₁, hsettled⟩ := Option.bind_eq_some_iff.mp hstep
      obtain rfl : m = m₁ := Option.some.inj (hm.symm.trans hm₁)
      obtain hadded | hnew := settleRunning_added hsettled hm' hmem
      · rw [committedBy_added hm hcommitted'] at hadded
        cases hadded
      · cases answer with
        | key key => cases hcommitted
        | done | failed _ => cases hnew
    | sign | signKey _ | generateKey _ | activate _ | supersede _ | settleCall _ _ | begin => cases hcommitted

end Steps

/-! ## Every run -/

section Runs
variable {store₀ : KeyStore} {p p' : LocalKeyProvider}

theorem fresh_cons {a : Action} {acts : List Action} {seen : List String}
    (h : (seen ++ (a :: acts).filterMap generatedBy).Nodup) :
    (∀ kid, generatedBy a = some kid → kid ∉ seen) ∧
      ((seen ++ (generatedBy a).toList) ++ acts.filterMap generatedBy).Nodup := by
  have hsplit : seen ++ (a :: acts).filterMap generatedBy =
      (seen ++ (generatedBy a).toList) ++ acts.filterMap generatedBy := by
    rw [List.filterMap_cons]
    cases generatedBy a <;> simp
  rw [hsplit] at h
  refine ⟨fun kid hkid hmem => ?_, h⟩
  rw [hkid] at h
  have hdisjoint := (List.nodup_append.mp (List.nodup_append.mp h).1).2.2
  exact hdisjoint kid hmem kid (by simp) rfl

/-- Along a run that generates fresh kids both invariants are kept. -/
theorem run_keeps {acts : List Action} {seen : List String} {done : List (ℕ × Update)}
    (hstore : StoreInv store₀ seen done p) (hcalls : CallInv done p)
    (hfresh : (seen ++ acts.filterMap generatedBy).Nodup) (hrun : run step acts p = some p') :
    StoreInv store₀ (seen ++ acts.filterMap generatedBy) (done ++ commits acts p) p' ∧
      CallInv (done ++ commits acts p) p' := by
  induction acts generalizing p seen done with
  | nil =>
    obtain rfl := Option.some.inj hrun
    rw [List.filterMap_nil, commits, List.append_nil, List.append_nil]
    exact ⟨hstore, hcalls⟩
  | cons a acts ih =>
    obtain ⟨p₁, hstep, hrun⟩ := run_cons hrun
    obtain ⟨hnew, hlater⟩ := fresh_cons hfresh
    have hcommits : commits (a :: acts) p = (committedBy p a).toList ++ commits acts p₁ := by
      rw [commits, hstep]
    have hseen : seen ++ (a :: acts).filterMap generatedBy =
        (seen ++ (generatedBy a).toList) ++ acts.filterMap generatedBy := by
      rw [List.filterMap_cons]
      cases generatedBy a <;> simp
    rw [hseen, hcommits, ← List.append_assoc done]
    exact ih (hstore.step hnew hstep) (hcalls.step hstore hstep) hlater hrun

/-- A key that was replaced starts no signing operation in the rest of the run. -/
theorem retired_never_signs {acts : List Action} {seen : List String} {done : List (ℕ × Update)} {kid : String}
    (h : Retired seen kid p) (hstore : StoreInv store₀ seen done p)
    (hfresh : (seen ++ acts.filterMap generatedBy).Nodup) :
    RunMeets step (fun a p => signsWith p a ≠ some kid) acts p := by
  induction acts generalizing p seen done with
  | nil => trivial
  | cons a acts ih =>
    obtain ⟨hnew, hlater⟩ := fresh_cons hfresh
    refine ⟨h.signsWith a, fun p₁ hstep => ?_⟩
    exact ih (h.step hstore hnew hstep) (hstore.step hnew hstep) hlater

theorem storeInv_loaded (hloaded : Loaded p) (hdistinct : p.store.kids.Nodup) :
    StoreInv p.store p.store.kids [] p := by
  refine ⟨hdistinct, fun _ hkid => hkid, hloaded.files, rfl, fun m hm => ?_⟩
  rw [hloaded.running] at hm
  cases hm

theorem callInv_loaded (hloaded : Loaded p) : CallInv [] p := by
  have hnone : ∀ n call, ¬ p.At n call := by
    intro n call hat
    rw [LocalKeyProvider.At, hloaded.calls] at hat
    cases hat
  refine ⟨fun m hm => ?_, fun e he => ?_, ?_, fun n call hat => absurd hat (hnone n call),
    fun n _ call _ hat => absurd hat (hnone n call), fun n kid ops hat => absurd hat (hnone n _),
    fun n call hat => absurd hat (hnone n call), fun n call hat => absurd hat (hnone n call)⟩
  · rw [hloaded.running] at hm
    cases hm
  · rw [hloaded.queue] at he
    cases he
  · rw [hloaded.running, hloaded.queue]
    exact List.nodup_nil

/-- The store after the run `acts` from `p₀`. -/
structure ConsistentStore (p₀ : LocalKeyProvider) (acts : List Action) (p : LocalKeyProvider) : Prop where
  /-- Each kid is in one of `active`, `pending` and `retained`, and there once. -/
  distinct : p.store.kids.Nodup
  /-- Memory is what was last renamed into `filePath`. -/
  visible : ∀ content, p.content = some content → content = p.store
  /-- The store is what the committed updates make of the first one, each on top of the one before. -/
  replayed : replay p₀.store (commits acts p₀) = .ok p.store
  /-- A mutation that resolved was committed. -/
  resolved : ∀ n result, p.At n (.mutated result) → ∃ update, (n, update) ∈ commits acts p₀

/-- A step from `p` to `p'`, and the rest of the run after it. -/
structure SafeStep (p : LocalKeyProvider) (a : Action) (rest : List Action) (p' : LocalKeyProvider) : Prop where
  /-- Without a commit neither memory nor the file changes. -/
  unchanged : committedBy p a = none → Unchanged p p'
  leaves : ∀ kid ∈ p.store.kids, kid ∉ p'.store.kids → ∃ n, committedBy p a = some (n, .supersede kid)
  /-- When an activation commits, no signing operation runs. -/
  quiet : ∀ n kid, committedBy p a = some (n, .activate kid) → ∀ k signer, ¬ p.At k (.signing signer)
  retired : ∀ n kid, committedBy p a = some (n, .activate kid) →
    RunMeets step (fun a q => signsWith q a ≠ some p.store.active.kid) rest p'

theorem Change.allows_activate {change : Change} {kid : String} (h : change.Allows (.activate kid)) :
    change = .activate kid := by
  cases change with
  | activate kid' => rw [show kid' = kid from h]
  | generateKey _ | supersede _ => cases h

theorem keyStore_consistent {p₀ : LocalKeyProvider} {acts more : List Action} (hloaded : Loaded p₀)
    (hdistinct : p₀.store.kids.Nodup) (hfresh : (p₀.store.kids ++ (acts ++ more).filterMap generatedBy).Nodup)
    (hrun : run step acts p₀ = some p) :
    ConsistentStore p₀ acts p ∧
      ∀ a rest p', more = a :: rest → step a p = some p' → SafeStep p a rest p' := by
  rw [List.filterMap_append, ← List.append_assoc] at hfresh
  obtain ⟨hstore, hcalls⟩ := run_keeps (storeInv_loaded hloaded hdistinct) (callInv_loaded hloaded)
    (List.nodup_append.mp hfresh).1 hrun
  rw [List.nil_append] at hstore hcalls
  refine ⟨⟨hstore.distinct, fun content hcontent => ?_, hstore.replayed, fun n result hat => ?_⟩, ?_⟩
  · obtain ⟨files, hfiles, rfl⟩ := Option.map_eq_some_iff.mp hcontent
    exact hstore.files files hfiles
  · exact hcalls.resolved n _ hat rfl
  · rintro a rest p' rfl hstep
    obtain ⟨hnew, hlater⟩ := fresh_cons hfresh
    have hcases := step_commits hstore hstep
    refine ⟨fun hnone => ?_, fun kid hmem hout => ?_, fun n kid hcommitted k signer => ?_, fun n kid hcommitted => ?_⟩
    · obtain ⟨-, hsame⟩ | ⟨m, update, -, hcommitted, -⟩ := hcases
      · exact hsame
      · rw [hnone] at hcommitted
        cases hcommitted
    · obtain ⟨-, hsame, -⟩ | ⟨m, update, -, hcommitted, -, happly⟩ := hcases
      · exact absurd (hsame ▸ hmem) hout
      · rw [(updates_of_apply happly).leaves hmem hout] at hcommitted
        exact ⟨m.call, hcommitted⟩
    · obtain ⟨hnone, -⟩ | ⟨m, update, hm, hcommitted', hallows, -⟩ := hcases
      · rw [hcommitted] at hnone
        cases hnone
      · have hupdate : (n, Update.activate kid) = (m.call, update) := Option.some.inj (hcommitted.symm.trans hcommitted')
        rw [← (Prod.mk.inj hupdate).2] at hallows
        have hat := hcalls.running m hm
        rw [Change.allows_activate hallows] at hat
        exact hcalls.quiet m.call _ hat rfl k signer
    · exact retired_never_signs (retired_of_activate hstore hcommitted hstep) (hstore.step hnew hstep) hlater

end Runs

/-! ## An activation while a signature is made -/

def sampleKey (kid : String) : StoredKey := ⟨kid, .ok "EdDSA", ""⟩

def sampleProvider : LocalKeyProvider :=
  ⟨⟨sampleKey "a", [], [sampleKey "b"]⟩, some ⟨⟨sampleKey "a", [], [sampleKey "b"]⟩, none⟩, false, [], [], none⟩

/-- A signature and a generated key, whose file cannot be synced, come before the activation of `b`. -/
def sampleActions : List Action :=
  [.sign, .generateKey none, .activate "b", .begin, .settle (.key (sampleKey "c")), .settle .done, .settle .done,
    .settle .done, .settle (.failed "EIO"), .settle .done, .settle .done, .settleCall 0 .done, .settleCall 2 .done,
    .begin, .settle .done] ++ List.replicate 7 (.settle .done) ++ List.replicate 4 (.settle .done)

theorem sampleActions_consistent :
    ∃ p p', run step sampleActions sampleProvider = some p ∧ step (.settle .done) p = some p' ∧
      committedBy p (.settle .done) = some (2, .activate "b") ∧ p'.store = ⟨sampleKey "b", [sampleKey "a"], []⟩ ∧
      ConsistentStore sampleProvider sampleActions p ∧ SafeStep p (.settle .done) [.sign] p' := by
  have hloaded : Loaded sampleProvider := by
    refine ⟨fun files hfiles => ?_, rfl, rfl, rfl, rfl⟩
    obtain rfl := Option.some.inj hfiles
    rfl
  have hfresh : (sampleProvider.store.kids ++
      (sampleActions ++ [Action.settle .done, Action.sign]).filterMap generatedBy).Nodup := by decide
  have hcommits : (run step sampleActions sampleProvider).map (fun p => committedBy p (.settle .done)) =
      some (some (2, .activate "b")) := rfl
  have hstores : (run step (sampleActions ++ [.settle .done]) sampleProvider).map LocalKeyProvider.store =
      some ⟨sampleKey "b", [sampleKey "a"], []⟩ := rfl
  obtain ⟨p, hrun, hcommitted⟩ := Option.map_eq_some_iff.mp hcommits
  rw [run_append, hrun, Option.bind_some, run_singleton] at hstores
  obtain ⟨p', hstep, hstore⟩ := Option.map_eq_some_iff.mp hstores
  obtain ⟨hconsistent, hsafe⟩ := keyStore_consistent hloaded (by decide) hfresh hrun
  exact ⟨p, p', hrun, hstep, hcommitted, hstore, hconsistent, hsafe _ _ _ rfl hstep⟩

end Dnsid.Keys.Local

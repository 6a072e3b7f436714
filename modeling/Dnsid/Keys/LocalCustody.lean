import Dnsid.Foundations.Custody
import Dnsid.Keys.KeyStoreRuns

/-! # The local key provider keeps keys in custody

What `LocalKeyProvider` answers and what its mutations do is what the contract of a key provider says (`Custody`),
across every interleaving of calls and every failure of the file system.
-/
namespace Dnsid.Keys.Local
open Dnsid.Foundations LocalKeyProvider
set_option autoImplicit false

/-! ## Answers -/

namespace LocalKeyProvider

def signingKey (p : LocalKeyProvider) : StoredKey := p.store.active

def jwk (p : LocalKeyProvider) (kid : String) : Except String StoredKey :=
  if p.store.active.kid = kid then .ok p.store.active
  else
    match p.store.retained.find? fun k => k.kid = kid with
    | some retained => .ok retained
    | none =>
      match p.store.pending.find? fun k => k.kid = kid with
      | some pending => .ok pending
      | none => .error s!"key not found: {kid}"

def listKeyIds (p : LocalKeyProvider) : List String := p.store.active.kid :: p.store.retained.map StoredKey.kid

end LocalKeyProvider

/-! ## Custody -/

abbrev LocalCustody := Custody StoredKey StoredKey.kid

/-- An update by the contract; a provider of this kind is never without an active key. -/
def Update.perform (c : LocalCustody) : Update → Option LocalCustody
  | .push key => c.generate key
  | .activate kid => c.activate kid
  | .supersede kid => c.supersede false kid

/-- The updates of a run by the contract, one after another. -/
def performAll (c : LocalCustody) (updates : List (ℕ × Update)) : Option LocalCustody :=
  updates.foldlM (fun c u => u.2.perform c) c

/-- The store holds what is in custody. -/
structure Holds (c : LocalCustody) (store : KeyStore) : Prop where
  active : c.active = some store.active
  retained : c.retained = store.retained
  pending : c.pending = store.pending

section Updates
variable {c : LocalCustody} {store next : KeyStore} {update : Update} {kid : String}

theorem Holds.kids (h : Holds c store) : (c.keys.map StoredKey.kid).Perm store.kids := by
  simp only [Custody.keys, h.active, h.retained, h.pending, Option.toList_some, List.cons_append, List.map_cons,
    List.map_append, KeyStore.kids]
  exact List.perm_append_comm.cons _

theorem Holds.retained_distinct (h : Holds c store) : (store.retained.map StoredKey.kid).Nodup :=
  h.retained ▸ c.retained_distinct

theorem Holds.pending_distinct (h : Holds c store) : (store.pending.map StoredKey.kid).Nodup :=
  h.pending ▸ c.pending_distinct

/-- Nothing has the name of a key that is not there. -/
theorem Holds.find?_none (h : Holds c store) : c.find? kid = none ↔ kid ∉ store.kids := by
  rw [← h.kids.mem_iff, List.mem_map, Custody.find?, named, List.find?_eq_none]
  constructor
  · rintro hnone ⟨key, hkey, rfl⟩
    simpa using hnone key hkey
  · intro hnone key hkey
    simpa using fun heq => hnone ⟨key, hkey, heq⟩

theorem Holds.mem_listed (h : Holds c store) : kid ∈ c.listed ↔ kid = store.active.kid ∨ kid ∈ store.retained.map StoredKey.kid := by
  simp only [Custody.listed, h.active, h.retained, Option.toList_some, List.singleton_append, List.map_cons,
    List.mem_cons]

/-- The active key is not a retained one. -/
theorem Holds.active_ne (h : Holds c store) {key : StoredKey} (hkey : key ∈ store.retained) :
    store.active.kid ≠ key.kid := by
  have hdistinct := (List.nodup_cons.mp (h.kids.nodup_iff.mp c.distinct)).1
  intro heq
  exact hdistinct (List.mem_append_right _ (heq ▸ List.mem_map_of_mem hkey))

theorem named_of_keyIndex {keys : List StoredKey} (h : keyIndex keys kid = none) : named StoredKey.kid keys kid = none := by
  refine List.find?_eq_none.mpr fun key hkey => ?_
  have hfalse := List.findIdx?_eq_none_iff.mp h key hkey
  rw [hfalse]
  exact Bool.false_ne_true

theorem activate_refused {message : String} (h : (Update.activate kid).apply store = .error message) :
    keyIndex store.pending kid = none := by
  simp only [Update.apply] at h
  cases hindex : keyIndex store.pending kid with
  | none => rfl
  | some idx =>
    obtain ⟨key, hkey, -⟩ := keyIndex_some hindex
    simp [hindex, hkey] at h

theorem supersede_refused {message : String} (h : (Update.supersede kid).apply store = .error message) :
    store.active.kid = kid ∨ kid ∉ store.retained.map StoredKey.kid := by
  simp only [Update.apply] at h
  split_ifs at h with hactive
  · exact .inl hactive
  · refine .inr fun hmem => ?_
    obtain ⟨key, hkey, rfl⟩ := List.mem_map.mp hmem
    cases hindex : keyIndex store.retained key.kid with
    | none =>
      have hfalse := List.findIdx?_eq_none_iff.mp hindex key hkey
      simp at hfalse
    | some idx => simp [hindex] at h

/-- An update that the store makes is one that the contract allows. -/
theorem Holds.applied (h : Holds c store) (happly : update.apply store = .ok next) (hdistinct : next.kids.Nodup) :
    ∃ c', update.perform c = some c' ∧ Holds c' next := by
  cases hupdates : updates_of_apply happly with
  | push key =>
    have hnew : key.kid ∉ store.kids := by
      have hkids : (key.kid :: store.kids).Nodup := (Updates.push key).kids.nodup_iff.mp hdistinct
      exact (List.nodup_cons.mp hkids).1
    refine ⟨_, dif_pos (h.find?_none.mpr hnew), h.active, h.retained, ?_⟩
    rw [← h.pending]
  | activate incoming idx hidx =>
    have hnamed : named StoredKey.kid c.pending incoming.kid = some incoming := by
      rw [h.pending]
      exact (named_iff h.pending_distinct).mpr ⟨List.mem_of_getElem? hidx, rfl⟩
    obtain ⟨c', hc', hactive, hretained, hpending⟩ := Custody.activate_eq hnamed
    refine ⟨c', hc', hactive, ?_, ?_⟩
    · rw [hretained, h.retained, h.active]
      rfl
    · rw [hpending, h.pending, unnamed_getElem? h.pending_distinct hidx]
  | supersede key idx hidx =>
    have hmem := List.mem_of_getElem? hidx
    have hne : store.active.kid ≠ key.kid := h.active_ne hmem
    have hguard : ((c.active.any fun k => k.kid = key.kid) && !false) = false := by simp [h.active, hne]
    have hlisted : key.kid ∈ c.listed := h.mem_listed.mpr (.inr (List.mem_map_of_mem hmem))
    obtain ⟨c', hc', hactive, hretained, hpending⟩ := Custody.supersede_eq hguard hlisted
    refine ⟨c', hc', ?_, ?_, ?_⟩
    · rw [hactive, h.active]
      simp [hne]
    · rw [hretained, h.retained, unnamed_getElem? h.retained_distinct hidx]
    · rw [hpending, h.pending]

/-- An update that the store refuses is one that the contract refuses. -/
theorem Holds.refused (h : Holds c store) {message : String} (happly : update.apply store = .error message) :
    update.perform c = none := by
  cases update with
  | push key => cases happly
  | activate kid =>
    apply Custody.activate_none
    rw [h.pending]
    exact named_of_keyIndex (activate_refused happly)
  | supersede kid =>
    apply Custody.supersede_none
    rcases supersede_refused happly with hactive | hretained
    · exact .inl (by simp [h.active, hactive])
    · by_cases hactive : store.active.kid = kid
      · exact .inl (by simp [h.active, hactive])
      · refine .inr fun hlisted => ?_
        rcases h.mem_listed.mp hlisted with heq | hmem
        · exact hactive heq.symm
        · exact hretained hmem

end Updates

/-! ## Every run -/

section Runs
variable {c : LocalCustody} {p p' : LocalKeyProvider}

theorem Holds.listed (h : Holds c p.store) : c.listed = p.listKeyIds := by
  simp [Custody.listed, h.active, h.retained, listKeyIds]

theorem Holds.find? (h : Holds c p.store) (kid : String) : c.find? kid = (p.jwk kid).toOption := by
  simp only [Custody.find?, named, Custody.keys, h.active, h.retained, h.pending, Option.toList_some, List.find?_append,
    List.find?_singleton, jwk, decide_eq_true_eq]
  split
  next => rfl
  next =>
    cases p.store.retained.find? fun k => k.kid = kid with
    | some key => rfl
    | none =>
      cases p.store.pending.find? fun k => k.kid = kid with
      | some key => rfl
      | none => rfl

theorem performAll_append (c : LocalCustody) (updates more : List (ℕ × Update)) :
    performAll c (updates ++ more) = (performAll c updates).bind fun c' => performAll c' more := List.foldlM_append

/-- The committed updates of a run are made of the keys in custody as well. -/
theorem commits_custody {store₀ : KeyStore} {acts : List Action} {seen : List String} {done : List (ℕ × Update)}
    (hstore : StoreInv store₀ seen done p) (hfresh : (seen ++ acts.filterMap generatedBy).Nodup)
    (hc : Holds c p.store) (hrun : run step acts p = some p') :
    ∃ c', performAll c (commits acts p) = some c' ∧ Holds c' p'.store := by
  induction acts generalizing p c seen done with
  | nil =>
    obtain rfl := Option.some.inj hrun
    exact ⟨c, rfl, hc⟩
  | cons a acts ih =>
    obtain ⟨p₁, hstep, hrun⟩ := run_cons hrun
    obtain ⟨hnew, hlater⟩ := fresh_cons hfresh
    have hstore₁ := hstore.step hnew hstep
    have hcommits : commits (a :: acts) p = (committedBy p a).toList ++ commits acts p₁ := by rw [commits, hstep]
    obtain ⟨c₁, hperform, hc₁⟩ : ∃ c₁, performAll c (committedBy p a).toList = some c₁ ∧ Holds c₁ p₁.store := by
      obtain ⟨hnone, hsame⟩ | ⟨m, update, -, hcommitted, -, happly⟩ := step_commits hstore hstep
      · rw [hnone, hsame.1]
        exact ⟨c, rfl, hc⟩
      · obtain ⟨c₁, hc₁, hholds⟩ := hc.applied happly hstore₁.distinct
        refine ⟨c₁, ?_, hholds⟩
        rw [hcommitted]
        simpa [performAll] using hc₁
    rw [hcommits, performAll_append, hperform]
    exact ih hstore₁ hlater hc₁ hrun

/-- Whatever calls interleave and whatever fails, the provider holds, in memory and in its file, what the contract
makes of the updates that were committed; it answers from that, and refuses what the contract refuses. -/
theorem localKeyProvider_refines_custody {p₀ : LocalKeyProvider} {c₀ : LocalCustody} {acts : List Action}
    (hloaded : Loaded p₀) (hheld : Holds c₀ p₀.store) (hfresh : (p₀.store.kids ++ acts.filterMap generatedBy).Nodup)
    (hrun : run step acts p₀ = some p) :
    ∃ c, performAll c₀ (commits acts p₀) = some c ∧ Holds c p.store ∧
      (∀ content, p.content = some content → Holds c content) ∧
      c.active = some p.signingKey ∧ c.listed = p.listKeyIds ∧ (∀ kid, c.find? kid = (p.jwk kid).toOption) ∧
      ∀ (update : Update) (message : String), update.apply p.store = .error message → update.perform c = none := by
  have hdistinct : p₀.store.kids.Nodup := (List.nodup_append.mp hfresh).1
  have hstart := storeInv_loaded hloaded hdistinct
  obtain ⟨hstore, -⟩ := run_keeps hstart (callInv_loaded hloaded) hfresh hrun
  obtain ⟨c, hperform, hc⟩ := commits_custody hstart hfresh hheld hrun
  refine ⟨c, hperform, hc, fun content hcontent => ?_, hc.active, hc.listed, hc.find?, fun _ _ => hc.refused⟩
  obtain ⟨files, hfiles, rfl⟩ := Option.map_eq_some_iff.mp hcontent
  rw [hstore.files files hfiles]
  exact hc

def sampleCustody : LocalCustody := ⟨some (sampleKey "a"), [], [sampleKey "b"], by decide⟩

/-- A key is not generated because its file cannot be synced, and `b` is activated. -/
theorem localKeyProvider_refines_custody_sample :
    ∃ p c, run step (sampleActions ++ [.settle .done]) sampleProvider = some p ∧
      performAll sampleCustody (commits (sampleActions ++ [.settle .done]) sampleProvider) = some c ∧
      c.listed = ["b", "a"] ∧ c.listed = p.listKeyIds := by
  have hloaded : Loaded sampleProvider := by
    refine ⟨fun files hfiles => ?_, rfl, rfl, rfl, rfl⟩
    obtain rfl := Option.some.inj hfiles
    rfl
  have hheld : Holds sampleCustody sampleProvider.store := ⟨rfl, rfl, rfl⟩
  have hkeys : (run step (sampleActions ++ [.settle .done]) sampleProvider).map LocalKeyProvider.listKeyIds =
      some ["b", "a"] := rfl
  obtain ⟨p, hrun, hlisted⟩ := Option.map_eq_some_iff.mp hkeys
  obtain ⟨c, hperform, -, -, -, hids, -⟩ := localKeyProvider_refines_custody hloaded hheld (by decide) hrun
  exact ⟨p, c, hrun, hperform, hids.trans hlisted, hids⟩

end Runs

end Dnsid.Keys.Local

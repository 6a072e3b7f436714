import Dnsid.Foundations.ExceptRun
import Dnsid.Foundations.Positions
import Dnsid.Foundations.Runs

/-! # The AWS KMS key provider (`key-aws/src/index.ts`)

Calls of `generateKey`, `activate` and `supersede` on one provider overlap at their awaits. `supersede` looks the
position of its key up before it awaits `scheduleKeyDeletion`, and removes what stands at that position afterwards.
So it removes its own key exactly when the position was not disturbed in between. Signing calls change nothing here;
`activate` waits for them.
-/
namespace Dnsid.Keys
open Dnsid.Foundations
set_option autoImplicit false

inductive AwsKmsSigningAlgorithm where
  | ecdsaSha256
  | ed25519Sha512
  deriving DecidableEq, Repr

inductive AwsKmsKeySpec where
  | eccNistP256
  | eccNistEdwards25519
  deriving DecidableEq, Repr

def defaultKeySpecForAlgorithm : AwsKmsSigningAlgorithm → AwsKmsKeySpec
  | .ecdsaSha256 => .eccNistP256
  | .ed25519Sha512 => .eccNistEdwards25519

def joseAlgForAws : AwsKmsSigningAlgorithm → String
  | .ecdsaSha256 => "ES256"
  | .ed25519Sha512 => "EdDSA"

structure AwsKmsConfig where
  algorithm : AwsKmsSigningAlgorithm
  keySpec : AwsKmsKeySpec
  scheduleKeyDeletionOnPurge : Bool
  /-- The facade has the optional `scheduleKeyDeletion`. -/
  schedulesKeyDeletion : Bool

structure AwsKmsKeyState where
  activeKeyId : String
  retainedKeyIds : List String
  pendingKeyIds : List String
  deriving DecidableEq, Repr

/-- Where a call stands. -/
inductive Call where
  /-- `generateKey` awaits `createSigningKey`. -/
  | creating
  /-- `generateKey` awaits `publicJwk(keyId)`. -/
  | loading (keyId : String)
  /-- `activate(kid)` awaits the signing calls and `publicJwk(kid)`. -/
  | activating (kid : String)
  /-- `supersede(kid)` awaits `scheduleKeyDeletion`. -/
  | deleting (kid : String) (idx : ℕ)
  | resolved
  | rejected (message : String)
  deriving DecidableEq, Repr

structure AwsKmsKeyProvider where
  state : AwsKmsKeyState
  activating : Bool
  calls : List Call
  deriving DecidableEq, Repr

/-- A call is made, or what call `n` awaits is settled: with a key id where it is one. -/
inductive Action where
  | generateKey (algorithm : Option String)
  | activate (kid : String)
  | supersede (kid : String)
  | settle (n : ℕ) (answer : Except String String)

section Steps
variable (config : AwsKmsConfig)

def validateKeyGeneration (algorithm : String) : Except String Unit :=
  throwIf (algorithm ≠ joseAlgForAws config.algorithm ∨ config.keySpec ≠ defaultKeySpecForAlgorithm config.algorithm)
    s!"AWS KMS generation settings do not support {algorithm}"

/-- `supersede(kid)` up to its `await`: the position of the key. -/
def retainedIndex (state : AwsKmsKeyState) (kid : String) : Except String ℕ := do
  throwIf (state.activeKeyId = kid) "cannot supersede the active key; activate a replacement first"
  let idx ← orThrow s!"no retained key with kid \"{kid}\"" (state.retainedKeyIds.idxOf? kid)
  throwIf (config.scheduleKeyDeletionOnPurge = true ∧ config.schedulesKeyDeletion = false)
    "scheduleKeyDeletionOnPurge requires an AWS KMS facade with scheduleKeyDeletion"
  return idx

/-- `retainedKeyIds.splice(idx, 1)`. -/
def AwsKmsKeyState.dropRetained (state : AwsKmsKeyState) (idx : ℕ) : AwsKmsKeyState :=
  { state with retainedKeyIds := state.retainedKeyIds.eraseIdx idx }

/-- `activate(kid)` after its awaits. -/
def activated (state : AwsKmsKeyState) (kid canonicalKid : String) : Except String AwsKmsKeyState := do
  let idx ← orThrow s!"no pending key with kid \"{kid}\"" (state.pendingKeyIds.idxOf? canonicalKid)
  return ⟨canonicalKid, state.retainedKeyIds ++ [state.activeKeyId], state.pendingKeyIds.eraseIdx idx⟩

def AwsKmsKeyProvider.enter (p : AwsKmsKeyProvider) (call : Call) : AwsKmsKeyProvider :=
  { p with calls := p.calls ++ [call] }

def AwsKmsKeyProvider.move (p : AwsKmsKeyProvider) (n : ℕ) (call : Call) : AwsKmsKeyProvider :=
  { p with calls := p.calls.set n call }

/-- `supersede(kid)` when it is called. -/
def startSupersede (kid : String) (p : AwsKmsKeyProvider) : AwsKmsKeyProvider :=
  match retainedIndex config p.state kid with
  | .error message => p.enter (.rejected message)
  | .ok idx =>
    if config.scheduleKeyDeletionOnPurge then p.enter (.deleting kid idx)
    else { p with state := p.state.dropRetained idx }.enter .resolved

/-- Call `n` goes on after its `await`. -/
def settleCall (n : ℕ) (answer : Except String String) (p : AwsKmsKeyProvider) : Call → Option AwsKmsKeyProvider
  | .creating =>
    match answer with
    | .error message => some (p.move n (.rejected message))
    | .ok keyId =>
      if keyId = "" then some (p.move n (.rejected "AWS KMS create key response did not include a key ID"))
      else some (p.move n (.loading keyId))
  | .loading keyId =>
    match answer with
    | .error message => some (p.move n
        (.rejected s!"created AWS KMS key {keyId} but failed to load its public key: {message}"))
    | .ok kid =>
      some ({ p with state := { p.state with pendingKeyIds := p.state.pendingKeyIds ++ [kid] } }.move n .resolved)
  | .activating kid =>
    match answer with
    | .error message => some ({ p with activating := false }.move n (.rejected message))
    | .ok canonicalKid =>
      match activated p.state kid canonicalKid with
      | .error message => some ({ p with activating := false }.move n (.rejected message))
      | .ok state => some ({ p with state, activating := false }.move n .resolved)
  | .deleting _ idx =>
    match answer with
    | .error message => some (p.move n (.rejected message))
    | .ok _ => some ({ p with state := p.state.dropRetained idx }.move n .resolved)
  | .resolved => none
  | .rejected _ => none

def step : Action → AwsKmsKeyProvider → Option AwsKmsKeyProvider
  | .generateKey algorithm, p =>
    match validateKeyGeneration config (algorithm.getD (joseAlgForAws config.algorithm)) with
    | .error message => some (p.enter (.rejected message))
    | .ok () => some (p.enter .creating)
  | .activate kid, p =>
    if p.activating then some (p.enter (.rejected "key activation is already in progress"))
    else some ({ p with activating := true }.enter (.activating kid))
  | .supersede kid, p => some (startSupersede config kid p)
  | .settle n answer, p => p.calls[n]?.bind (settleCall n answer p)

/-! ## What a step stands for -/

/-- The kid of the `supersede` call that the action resolves. -/
def supersededBy (p : AwsKmsKeyProvider) : Action → Option String
  | .supersede kid =>
    if config.scheduleKeyDeletionOnPurge = false ∧ (retainedIndex config p.state kid).isOk then some kid else none
  | .settle n (.ok _) =>
    match p.calls[n]? with
    | some (.deleting kid _) => some kid
    | _ => none
  | _ => none

/-- The kid that the action retains: `activate` moves the active key there. -/
def retainedBy (p : AwsKmsKeyProvider) : Action → Option String
  | .settle n (.ok canonicalKid) =>
    match p.calls[n]? with
    | some (.activating _) => if canonicalKid ∈ p.state.pendingKeyIds then some p.state.activeKeyId else none
    | _ => none
  | _ => none

/-- The kid is not retained, until an `activate` retains it again. -/
def StaysOut (kid : String) : List Action → AwsKmsKeyProvider → Prop
  | [], p => kid ∉ p.state.retainedKeyIds
  | a :: acts, p => kid ∉ p.state.retainedKeyIds ∧
      (retainedBy p a = some kid ∨ ∀ p', step config a p = some p' → StaysOut kid acts p')

/-- Along the run a kid disappears from `retainedKeyIds` only with a `supersede` call for it, and it is out once such
a call has resolved. -/
def RemovesExactly : List Action → AwsKmsKeyProvider → Prop
  | [], _ => True
  | a :: acts, p => ∀ p', step config a p = some p' →
      (∀ kid ∈ p.state.retainedKeyIds, kid ∉ p'.state.retainedKeyIds → supersededBy config p a = some kid) ∧
      (∀ kid, supersededBy config p a = some kid → StaysOut config kid acts p') ∧ RemovesExactly acts p'

/-- The position that a `supersede` call has looked up: the kid still stands there, or the list has become too short
and the kid is gone. -/
def Undisturbed (retained : List String) (kid : String) (idx : ℕ) : Prop :=
  retained[idx]? = some kid ∨ (retained.length ≤ idx ∧ kid ∉ retained)

/-- A deletion is confirmed only while the position is undisturbed. -/
def DeletesUndisturbed (a : Action) (p : AwsKmsKeyProvider) : Prop :=
  ∀ n answer kid idx, a = .settle n (.ok answer) → p.calls[n]? = some (.deleting kid idx) →
    Undisturbed p.state.retainedKeyIds kid idx

def AwsKmsKeyProvider.keyIds (p : AwsKmsKeyProvider) : List String :=
  p.state.activeKeyId :: (p.state.pendingKeyIds ++ p.state.retainedKeyIds)

/-- AWS KMS creates keys with new ids. -/
def CreatesFresh (a : Action) (p : AwsKmsKeyProvider) : Prop :=
  ∀ n kid keyId, a = .settle n (.ok kid) → p.calls[n]? = some (.loading keyId) → kid ∉ p.keyIds

end Steps

/-! ## Positions in a list -/

section Positions
variable {l : List String} {kid : String} {idx : ℕ}

/-- Of distinct kids, what is removed at a position is exactly `kid` when the position is undisturbed. -/
theorem eraseIdx_exact_iff (hnodup : l.Nodup) :
    ((∀ k ∈ l, k ∉ l.eraseIdx idx → k = kid) ∧ kid ∉ l.eraseIdx idx) ↔ Undisturbed l kid idx := by
  by_cases hlt : idx < l.length
  · have hat : l[idx]? = some l[idx] := List.getElem?_eq_getElem hlt
    have hout : l[idx] ∉ l.eraseIdx idx := 
      (List.nodup_cons.mp ((perm_of_getElem? hat).nodup_iff.mpr hnodup)).1
    have hmem : ∀ k, k ∈ l ↔ k = l[idx] ∨ k ∈ l.eraseIdx idx := fun k => by
      rw [← (perm_of_getElem? hat).mem_iff, List.mem_cons]
    constructor
    · rintro ⟨honly, -⟩
      left
      rw [hat, honly l[idx] (List.getElem_mem hlt) hout]
    · rintro (hkid | ⟨hlength, -⟩)
      · obtain rfl : l[idx] = kid := Option.some.inj (hat.symm.trans hkid)
        refine ⟨fun k hk hnot => ?_, hout⟩
        exact ((hmem k).mp hk).resolve_right hnot
      · omega
  · have hlength : l.length ≤ idx := Nat.le_of_not_lt hlt
    rw [List.eraseIdx_of_length_le hlength, Undisturbed, List.getElem?_eq_none hlength]
    constructor
    · rintro ⟨-, hout⟩
      exact .inr ⟨hlength, hout⟩
    · rintro (hkid | ⟨-, hout⟩)
      · cases hkid
      · exact ⟨fun k hk hnot => absurd hk hnot, hout⟩

end Positions

/-! ## Steps -/

section Cases
variable {config : AwsKmsConfig} {a : Action} {p p' : AwsKmsKeyProvider}

/-- What a step makes of the key ids. -/
inductive Effect (config : AwsKmsConfig) (a : Action) (p : AwsKmsKeyProvider) : AwsKmsKeyState → Prop
  | same (hnone : supersededBy config p a = none) (hcalm : DeletesUndisturbed a p) : Effect config a p p.state
  | generated (kid : String) (hkid : CreatesFresh a p → kid ∉ p.keyIds) (hnone : supersededBy config p a = none)
      (hcalm : DeletesUndisturbed a p) :
      Effect config a p { p.state with pendingKeyIds := p.state.pendingKeyIds ++ [kid] }
  | activated (kid : String) (idx : ℕ) (hidx : p.state.pendingKeyIds[idx]? = some kid)
      (hnone : supersededBy config p a = none) (hretained : retainedBy p a = some p.state.activeKeyId)
      (hcalm : DeletesUndisturbed a p) :
      Effect config a p
        ⟨kid, p.state.retainedKeyIds ++ [p.state.activeKeyId], p.state.pendingKeyIds.eraseIdx idx⟩
  | removed (kid : String) (idx : ℕ) (hkid : supersededBy config p a = some kid)
      (hcalm : DeletesUndisturbed a p ↔ Undisturbed p.state.retainedKeyIds kid idx) :
      Effect config a p (p.state.dropRetained idx)

/-- Only a settled deletion can be disturbed. -/
theorem calm_of_call {n : ℕ} {answer : Except String String} {call : Call} (hcall : p.calls[n]? = some call)
    (hother : ∀ kid idx, call ≠ .deleting kid idx) : DeletesUndisturbed (.settle n answer) p := by
  rintro n' answer' kid idx haction hdeleting
  injection haction with hn _
  rw [← hn, hcall] at hdeleting
  exact absurd (Option.some.inj hdeleting) (hother kid idx)

theorem calm_of_rejection {n : ℕ} {message : String} : DeletesUndisturbed (.settle n (.error message)) p := by
  rintro n' answer' kid idx haction
  cases haction

theorem retainedIndex_ok {state : AwsKmsKeyState} {kid : String} {idx : ℕ}
    (h : retainedIndex config state kid = .ok idx) : state.retainedKeyIds[idx]? = some kid := by
  simp only [retainedIndex, bind_eq_ok, throwIf_eq_ok, orThrow_eq_ok, pure_eq_ok] at h
  obtain ⟨_, -, found, hfound, _, -, rfl⟩ := h
  exact getElem?_of_idxOf? hfound

theorem startSupersede_effect (kid : String) (p : AwsKmsKeyProvider) :
    Effect config (.supersede kid) p (startSupersede config kid p).state := by
  have hcalm : DeletesUndisturbed (.supersede kid) p := by
    rintro n answer kid' idx haction
    cases haction
  unfold startSupersede
  cases hindex : retainedIndex config p.state kid with
  | error message => exact .same (by simp [supersededBy, hindex, Except.isOk, Except.toBool]) hcalm
  | ok idx =>
    simp only
    split_ifs with hschedule
    · exact .same (by simp [supersededBy, hschedule]) hcalm
    · have hkid : supersededBy config p (.supersede kid) = some kid := by
        simp [supersededBy, hschedule, hindex, Except.isOk, Except.toBool]
      exact .removed kid idx hkid ⟨fun _ => .inl (retainedIndex_ok hindex), fun _ => hcalm⟩

theorem settleCall_effect {n : ℕ} {answer : Except String String} {call : Call} (hcall : p.calls[n]? = some call)
    (h : settleCall n answer p call = some p') : Effect config (.settle n answer) p p'.state := by
  cases answer with
  | error message =>
    have hstate : p'.state = p.state := by
      cases call with
      | creating | loading _ | activating _ | deleting _ _ =>
        obtain rfl := Option.some.inj h
        rfl
      | resolved | rejected _ => cases h
    rw [hstate]
    exact .same rfl calm_of_rejection
  | ok answer =>
    cases call with
    | creating =>
      have hstate : p'.state = p.state := by
        simp only [settleCall] at h
        split_ifs at h <;> obtain rfl := Option.some.inj h <;> rfl
      rw [hstate]
      exact .same (by simp [supersededBy, hcall]) (calm_of_call hcall (by simp))
    | loading keyId =>
      obtain rfl := Option.some.inj h
      refine .generated answer (fun hfresh => hfresh n answer keyId rfl hcall) ?_ (calm_of_call hcall (by simp))
      simp [supersededBy, hcall]
    | activating kid =>
      have hnone : supersededBy config p (.settle n (.ok answer)) = none := by simp [supersededBy, hcall]
      have hcalm : DeletesUndisturbed (.settle n (.ok answer)) p := calm_of_call hcall (by simp)
      simp only [settleCall] at h
      cases hactivated : activated p.state kid answer with
      | error message =>
        rw [hactivated] at h
        obtain rfl := Option.some.inj h
        exact .same hnone hcalm
      | ok state =>
        rw [hactivated] at h
        obtain rfl := Option.some.inj h
        simp only [activated, bind_eq_ok, orThrow_eq_ok, pure_eq_ok] at hactivated
        obtain ⟨idx, hidx, rfl⟩ := hactivated
        have hat := getElem?_of_idxOf? hidx
        refine .activated answer idx hat hnone ?_ hcalm
        simp [retainedBy, hcall, List.mem_of_getElem? hat]
    | deleting kid idx =>
      obtain rfl := Option.some.inj h
      refine .removed kid idx (by simp [supersededBy, hcall]) ⟨fun hcalm => hcalm n answer kid idx rfl hcall, ?_⟩
      rintro hcalm n' answer' kid' idx' haction hdeleting
      injection haction with hn _
      rw [← hn, hcall] at hdeleting
      injection Option.some.inj hdeleting with hkid hidx
      rw [← hkid, ← hidx]
      exact hcalm
    | resolved => cases h
    | rejected message => cases h

theorem step_effect (h : step config a p = some p') : Effect config a p p'.state := by
  cases a with
  | generateKey algorithm =>
    have hstate : p'.state = p.state := by
      simp only [step] at h
      split at h <;> obtain rfl := Option.some.inj h <;> rfl
    rw [hstate]
    refine .same rfl ?_
    rintro n answer kid idx haction
    cases haction
  | activate kid =>
    have hstate : p'.state = p.state := by
      simp only [step] at h
      split_ifs at h <;> obtain rfl := Option.some.inj h <;> rfl
    rw [hstate]
    refine .same rfl ?_
    rintro n answer kid' idx haction
    cases haction
  | supersede kid =>
    obtain rfl := Option.some.inj h
    exact startSupersede_effect kid p
  | settle n answer =>
    obtain ⟨call, hcall, hsettled⟩ := Option.bind_eq_some_iff.mp h
    exact settleCall_effect hcall hsettled

/-- A step that is not enabled settles no deletion. -/
theorem calm_of_not_enabled (h : step config a p = none) : DeletesUndisturbed a p := by
  rintro n answer kid idx rfl hdeleting
  simp [step, hdeleting, settleCall] at h

end Cases

/-! ## Every run -/

section Runs
variable {config : AwsKmsConfig} {a : Action} {p p' : AwsKmsKeyProvider}

theorem keyIds_distinct_step (hfresh : CreatesFresh a p) (hdistinct : p.keyIds.Nodup)
    (h : step config a p = some p') : p'.keyIds.Nodup := by
  have heffect := step_effect h
  unfold AwsKmsKeyProvider.keyIds
  generalize p'.state = state at heffect ⊢
  cases heffect with
  | same => exact hdistinct
  | generated kid hkid =>
    have hperm : (p.state.activeKeyId :: (p.state.pendingKeyIds ++ [kid] ++ p.state.retainedKeyIds)).Perm
        (kid :: p.keyIds) := by
      rw [List.append_assoc]
      exact (List.perm_middle.cons p.state.activeKeyId).trans (List.Perm.swap kid p.state.activeKeyId _)
    exact hperm.nodup_iff.mpr (List.nodup_cons.mpr ⟨hkid hfresh, hdistinct⟩)
  | activated kid idx hidx =>
    have hperm : (kid :: (p.state.pendingKeyIds.eraseIdx idx ++ (p.state.retainedKeyIds ++ [p.state.activeKeyId]))).Perm
        p.keyIds := by
      refine ((perm_of_getElem? hidx).append_right _).trans ?_
      rw [← List.append_assoc]
      exact List.perm_append_singleton _ _
    exact hperm.nodup_iff.mpr hdistinct
  | removed kid idx =>
    have hsub : List.Sublist ((p.state.retainedKeyIds).eraseIdx idx) p.state.retainedKeyIds := List.eraseIdx_sublist _ _
    exact hdistinct.sublist ((hsub.append_left _).cons_cons _)

theorem staysOut_of_not_mem {kid : String} (acts : List Action) (hout : kid ∉ p.state.retainedKeyIds) :
    StaysOut config kid acts p := by
  induction acts generalizing p with
  | nil => exact hout
  | cons a acts ih =>
    refine ⟨hout, ?_⟩
    by_cases hagain : retainedBy p a = some kid
    · exact .inl hagain
    · refine .inr fun p' hp' => ih ?_
      have heffect := step_effect hp'
      generalize p'.state = state at heffect ⊢
      cases heffect with
      | same => exact hout
      | generated => exact hout
      | activated active idx hidx hnone hretained =>
        intro hmem
        rcases List.mem_append.mp hmem with hmem | hmem
        · exact hout hmem
        · rw [List.mem_singleton.mp hmem] at hagain
          exact hagain hretained
      | removed => exact fun hmem => hout (List.mem_of_mem_eraseIdx hmem)

theorem StaysOut.not_mem {kid : String} {acts : List Action} (h : StaysOut config kid acts p) :
    kid ∉ p.state.retainedKeyIds := by
  cases acts with
  | nil => exact h
  | cons a acts => exact h.1

/-- Keys with distinct ids are removed exactly by the calls for them in just the runs that confirm every deletion
while the position is undisturbed. -/
theorem removesExactly_iff {acts : List Action} (hdistinct : p.keyIds.Nodup)
    (hfresh : RunMeets (step config) CreatesFresh acts p) :
    RemovesExactly config acts p ↔ RunMeets (step config) DeletesUndisturbed acts p := by
  induction acts generalizing p with
  | nil => exact ⟨fun _ => trivial, fun _ => trivial⟩
  | cons a acts ih =>
    obtain ⟨hfresh, hrest⟩ := hfresh
    have hretained : p.state.retainedKeyIds.Nodup := (List.nodup_append.mp (List.nodup_cons.mp hdistinct).2).2.1
    have hlater : ∀ p', step config a p = some p' →
        (RemovesExactly config acts p' ↔ RunMeets (step config) DeletesUndisturbed acts p') := fun p' hp' =>
      ih (keyIds_distinct_step hfresh hdistinct hp') (hrest p' hp')
    constructor
    · intro hexact
      refine ⟨?_, fun p' hp' => (hlater p' hp').mp (hexact p' hp').2.2⟩
      cases hstep : step config a p with
      | none => exact calm_of_not_enabled hstep
      | some p' =>
        obtain ⟨honly, hout, -⟩ := hexact p' hstep
        have heffect := step_effect hstep
        generalize hstate : p'.state = state at heffect
        cases heffect with
        | same _ hcalm | generated _ _ _ hcalm | activated _ _ _ _ _ hcalm => exact hcalm
        | removed kid idx hkid hcalm =>
          refine hcalm.mpr ((eraseIdx_exact_iff hretained).mp ⟨fun k hk hnot => ?_, ?_⟩)
          · have hremoved := honly k hk (by rw [hstate]; exact hnot)
            exact Option.some.inj (hremoved.symm.trans hkid)
          · have := (hout kid hkid).not_mem
            rwa [hstate] at this
    · rintro ⟨hcalm, hmeets⟩ p' hp'
      refine ⟨?_, ?_, (hlater p' hp').mpr (hmeets p' hp')⟩
      · have heffect := step_effect hp'
        generalize p'.state = state at heffect
        cases heffect with
        | same | generated => exact fun kid hmem hnot => absurd hmem hnot
        | activated => exact fun kid hmem hnot => absurd (List.mem_append_left _ hmem) hnot
        | removed kid idx hkid hiff =>
          intro k hk hnot
          rw [hkid, ((eraseIdx_exact_iff hretained).mpr (hiff.mp hcalm)).1 k hk hnot]
      · intro k hk
        refine staysOut_of_not_mem acts ?_
        have heffect := step_effect hp'
        generalize p'.state = state at heffect ⊢
        cases heffect with
        | same hnone | generated _ _ hnone | activated _ _ _ hnone =>
          rw [hnone] at hk
          cases hk
        | removed kid idx hkid hiff =>
          obtain rfl : kid = k := Option.some.inj (hkid.symm.trans hk)
          exact ((eraseIdx_exact_iff hretained).mpr (hiff.mp hcalm)).2

end Runs

/-! ## Two calls for one key -/

def sampleConfig : AwsKmsConfig := ⟨.ecdsaSha256, .eccNistP256, true, true⟩

def sampleProvider : AwsKmsKeyProvider := ⟨⟨"c", ["a", "b"], ["d"]⟩, false, []⟩

/-- `supersede('a')` resolves before `supersede('b')` is called; a key is activated in between. -/
def sampleApart : List Action :=
  [.supersede "a", .activate "d", .settle 1 (.ok "d"), .settle 0 (.ok ""), .supersede "b", .settle 2 (.ok "")]

/-- `supersede('a')` is called twice before its deletion is confirmed. -/
def sampleTwice : List Action := [.supersede "a", .supersede "a", .settle 0 (.ok ""), .settle 1 (.ok "")]

/-- `DeletesUndisturbed`, computed for a kid that still stands at its position. -/
def confirmsAtPosition (a : Action) (p : AwsKmsKeyProvider) : Bool :=
  match a with
  | .settle n (.ok _) =>
    match p.calls[n]? with
    | some (.deleting kid idx) => p.state.retainedKeyIds[idx]? = some kid
    | _ => true
  | _ => true

/-- `CreatesFresh`, computed. -/
def createsFresh (a : Action) (p : AwsKmsKeyProvider) : Bool :=
  match a with
  | .settle n (.ok kid) =>
    match p.calls[n]? with
    | some (.loading _) => kid ∉ p.keyIds
    | _ => true
  | _ => true

theorem deletesUndisturbed_of_check (a : Action) (p : AwsKmsKeyProvider) (h : confirmsAtPosition a p = true) :
    DeletesUndisturbed a p := by
  rintro n answer kid idx rfl hcall
  simp only [confirmsAtPosition, hcall, decide_eq_true_eq] at h
  exact .inl h

theorem createsFresh_of_check (a : Action) (p : AwsKmsKeyProvider) (h : createsFresh a p = true) : CreatesFresh a p := by
  rintro n kid keyId rfl hcall
  simpa only [createsFresh, hcall, decide_eq_true_eq] using h

theorem sampleApart_removesExactly :
    RemovesExactly sampleConfig sampleApart sampleProvider ∧
      (run (step sampleConfig) sampleApart sampleProvider).map AwsKmsKeyProvider.state = some ⟨"d", ["c"], []⟩ := by
  refine ⟨(removesExactly_iff (by decide) ?_).mpr ?_, by decide⟩
  · exact runMeets_of_check createsFresh_of_check _ _ (by decide)
  · exact runMeets_of_check deletesUndisturbed_of_check _ _ (by decide)

/-- The second call removes the other key. -/
theorem sampleTwice_removes_other :
    sampleProvider.keyIds.Nodup ∧ RunMeets (step sampleConfig) CreatesFresh sampleTwice sampleProvider ∧
      (run (step sampleConfig) sampleTwice sampleProvider).map AwsKmsKeyProvider.state = some ⟨"c", [], ["d"]⟩ ∧
      ¬ RemovesExactly sampleConfig sampleTwice sampleProvider := by
  refine ⟨by decide, runMeets_of_check createsFresh_of_check _ _ (by decide), by decide, fun hexact => ?_⟩
  obtain ⟨-, -, hexact⟩ := hexact _ rfl
  obtain ⟨-, -, hexact⟩ := hexact _ rfl
  obtain ⟨-, -, hexact⟩ := hexact _ rfl
  have hkid := (hexact _ rfl).1 "b" (by decide) (by decide)
  revert hkid
  decide

end Dnsid.Keys

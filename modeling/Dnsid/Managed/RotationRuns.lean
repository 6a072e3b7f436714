import Dnsid.Managed.Rotation

/-! # Runs of managed rotation

One call of the workflow runs at a time; a call that crashed is one whose effect is never settled. The world is the
durable store, the keys of the providers, which only the workflow changes, and a record of what was persisted, asked
and done. The environment settles each effect: it is performed, or it fails, early or after it was performed.
-/
namespace Dnsid.Managed.Rotation
open Dnsid.Foundations Dnsid.Events Dnsid.Registry Dnsid.Writer
set_option autoImplicit false

abbrev Keys := Custody DnsIdJWK kidOf

inductive RotationEvent (Bytes : Type) where
  | persisted (rotation : ManagedKeyRotationResult Bytes)
  | paused (paused : Bool)
  | signerSet (provider : ProviderId) (kid : String)
  | submitted (domain : String) (entryBytes : Bytes) (idempotencyKey : String)
  | published (verified : LocalPublication)
  | eventRead (logRef : String) (event : LogEvent)
  | activated (provider : ProviderId) (kid : String)
  | superseded (provider : ProviderId) (kid : String)

def RotationEvent.persisted? {Bytes : Type} : RotationEvent Bytes → Option (ManagedKeyRotationResult Bytes)
  | .persisted rotation => some rotation
  | _ => none

structure RotationWorld (Bytes : Type) where
  store : Option (ManagedKeyRotationResult Bytes)
  custody : ProviderId → Keys
  trace : List (RotationEvent Bytes)

namespace RotationWorld
variable {Bytes : Type}

def record (w : RotationWorld Bytes) (e : RotationEvent Bytes) : RotationWorld Bytes := ⟨w.store, w.custody, w.trace ++ [e]⟩

def persist (w : RotationWorld Bytes) (rotation : ManagedKeyRotationResult Bytes) : RotationWorld Bytes :=
  ⟨some rotation, w.custody, w.trace ++ [.persisted rotation]⟩

def setCustody (w : RotationWorld Bytes) (provider : ProviderId) (keys : Keys) : RotationWorld Bytes :=
  ⟨w.store, Function.update w.custody provider keys, w.trace⟩

end RotationWorld

/-- What the deployment gives a call: the providers' methods, and what durable references resolve to. -/
structure RotationEnvironment where
  methods : ProviderId → ProviderMethods
  resolveKeyProvider : String → ProviderId

inductive RotationChoice (Bytes : Type) where
  | done
  /-- `late`: the effect was performed before the failure. -/
  | fail (failure : Failure) (late : Bool)
  /-- A key is generated; the call may fail all the same. -/
  | generated (key : DnsIdJWK) (failure : Option Failure)
  | provider (answers : KeyProvider Bytes)
  | prepared (answer : Except Failure Bytes)
  | submission (answer : Except Failure SubmissionResult)
  | publication (verified : LocalPublication)
  | event (event : LogEvent)

/-! ## Settling an effect -/

section Settle
variable {Bytes : Type} (E : RotationEnvironment)

/-- The effects that leave the world alone. -/
def isQuery : RotationEffect Bytes → Bool
  | .resolveKeyProvider _ | .signingKey _ | .activeSigningKey _ | .jwk _ _ | .listKeyIds _ | .validateKeyGeneration _ _
  | .keyProvider _ | .prepareKeyRotation _ _ _ => true
  | _ => false

/-- What the providers answer to a query. -/
def answerFrom (w : RotationWorld Bytes) : (e : RotationEffect Bytes) → Except (RotationCause Bytes) e.Answer
  | .resolveKeyProvider reference => .ok (E.resolveKeyProvider reference)
  | .signingKey provider => orThrow (.outside (.error "no active signing key")) (w.custody provider).active
  | .activeSigningKey provider => .ok (w.custody provider).active
  | .jwk provider kid => orThrow (.validation s!"key not found: {kid}") ((w.custody provider).find? kid)
  | .listKeyIds provider => .ok (w.custody provider).listed
  | .validateKeyGeneration _ _ => .ok ()
  | _ => .error (.outside (.error "not answered"))

/-- The keys of a provider change, if it can. -/
def changeKeys (w : RotationWorld Bytes) (provider : ProviderId) (message : String) :
    Option Keys → Except (RotationCause Bytes) Unit × RotationWorld Bytes
  | some keys => (.ok (), w.setCustody provider keys)
  | none => (.error (.validation message), w)

/-- An effect that is performed. -/
def perform : (e : RotationEffect Bytes) → RotationWorld Bytes →
    Option (Except (RotationCause Bytes) e.Answer × RotationWorld Bytes)
  | .persistRotation rotation, w => some (.ok (), w.persist rotation)
  | .setApplicationSigningPaused paused, w => some (.ok (), w.record (.paused paused))
  | .setApplicationSigner provider kid, w => some (.ok (), w.record (.signerSet provider kid))
  | .activate provider kid, w => some (changeKeys (w.record (.activated provider kid)) provider
      s!"no pending key with kid \"{kid}\"" ((w.custody provider).activate kid))
  | .supersede provider kid, w => some (changeKeys (w.record (.superseded provider kid)) provider
      s!"no retained key with kid \"{kid}\""
      ((w.custody provider).supersede (E.methods provider).activeSigningKey kid))
  | .resolveKeyProvider reference, w => some (answerFrom E w (.resolveKeyProvider reference), w)
  | .signingKey provider, w => some (answerFrom E w (.signingKey provider), w)
  | .activeSigningKey provider, w => some (answerFrom E w (.activeSigningKey provider), w)
  | .jwk provider kid, w => some (answerFrom E w (.jwk provider kid), w)
  | .listKeyIds provider, w => some (answerFrom E w (.listKeyIds provider), w)
  | .validateKeyGeneration provider algorithm, w =>
    some (answerFrom E w (.validateKeyGeneration provider algorithm), w)
  | _, _ => none

/-- An effect that fails before it is performed; calls of the registry, of the keys and of the pause are recorded. -/
def attempted (w : RotationWorld Bytes) : RotationEffect Bytes → RotationWorld Bytes
  | .setApplicationSigningPaused paused => w.record (.paused paused)
  | .activate provider kid => w.record (.activated provider kid)
  | .supersede provider kid => w.record (.superseded provider kid)
  | .submitPreparedEvent domain entryBytes idempotencyKey => w.record (.submitted domain entryBytes idempotencyKey)
  | _ => w

def settleRotation : RotationChoice Bytes → (e : RotationEffect Bytes) → RotationWorld Bytes →
    Option (Except (RotationCause Bytes) e.Answer × RotationWorld Bytes)
  | .done, e, w => perform E e w
  | .fail failure late, e, w =>
    some (.error (.outside failure), if late then ((perform E e w).map (·.2)).getD (attempted w e)
      else attempted w e)
  | .generated key failure, .generateKey provider _, w =>
    ((w.custody provider).generate key).map fun keys =>
      (match failure with
        | none => .ok (kidOf key)
        | some failure => .error (.outside failure), w.setCustody provider keys)
  | .provider answers, .keyProvider _, w => some (.ok answers, w)
  | .prepared answer, .prepareKeyRotation _ _ _, w => some (answer.mapError .outside, w)
  | .submission answer, .submitPreparedEvent domain entryBytes idempotencyKey, w =>
    some (answer.mapError .outside, w.record (.submitted domain entryBytes idempotencyKey))
  | .publication verified, .verifyLocalPublication, w => some (.ok verified, w.record (.published verified))
  | .event event, .readEvent logRef, w => some (.ok event, w.record (.eventRead logRef event))
  | _, _, _ => none

end Settle

/-! ## Calls -/

section Calls
variable {Bytes : Type} [DecidableEq Bytes] (M : ManagedPlatform Bytes) (E : RotationEnvironment)

inductive RotationCall (Bytes : Type) where
  | rotate (options : RotateManagedOperationalKeyOptions)
  | resume (rotation : ManagedKeyRotationResult Bytes)

def rotationProgram : RotationCall Bytes → RotationProg Bytes (ManagedKeyRotationResult Bytes)
  | .rotate options => rotateManagedOperationalKey M E.methods options
  | .resume rotation => resumeManagedOperationalKeyRotation M E.methods rotation

abbrev RotationSession (Bytes : Type) :=
  Session (RotationCause Bytes) (@RotationEffect.Answer Bytes) (ManagedKeyRotationResult Bytes) (RotationWorld Bytes)

/-- The operation starts when nothing is stored, with references that name its providers, and is resumed from a state
that was persisted, be it the last one or an earlier one. -/
def admitsCall : RotationCall Bytes → RotationSession Bytes → Bool
  | .rotate options, s => s.world.store.isNone &&
      E.resolveKeyProvider options.previousProviderReference = options.keyProvider &&
      E.resolveKeyProvider options.newProviderReference = options.target
  | .resume rotation, s => s.world.trace.any fun e => e.persisted? = some rotation

def rotationStep : SessionAction (RotationCall Bytes) (RotationChoice Bytes) → RotationSession Bytes →
    Option (RotationSession Bytes) :=
  sessionStep (admitsCall E) (rotationProgram M E) (settleRotation E)

/-- Nothing is stored, and the providers hold these keys. -/
def rotationStart (custody : ProviderId → Keys) : RotationSession Bytes := ⟨⟨none, custody, []⟩, none⟩

end Calls

/-! ## What settling an effect does -/

section Settled
variable {Bytes : Type} {E : RotationEnvironment} {w w' : RotationWorld Bytes} {c : RotationChoice Bytes}

theorem settle_query {e : RotationEffect Bytes} {r : Except (RotationCause Bytes) e.Answer} (he : isQuery e = true)
    (h : settleRotation E c e w = some (r, w')) : w' = w := by
  cases c with
  | fail failure late =>
    simp only [settleRotation, Option.some.injEq, Prod.mk.injEq] at h
    rw [← h.2]
    cases e <;> cases he <;> cases late <;> rfl
  | done => cases e <;> cases he <;> cases h <;> rfl
  | provider _ | prepared _ =>
    cases e <;> cases he <;> cases h
    rfl
  | generated _ _ | submission _ | publication _ | event _ => cases e <;> cases he <;> cases h

theorem settle_persist {rotation : ManagedKeyRotationResult Bytes} {r : Except (RotationCause Bytes) Unit}
    (h : settleRotation E c (.persistRotation rotation) w = some (r, w')) :
    w' = w.persist rotation ∨ w' = w ∧ ∀ u, r ≠ .ok u := by
  cases c with
  | done =>
    cases h
    exact .inl rfl
  | fail failure late =>
    cases late <;> cases h
    · exact .inr ⟨rfl, fun _ hok => by cases hok⟩
    · exact .inl rfl
  | generated _ _ | provider _ | prepared _ | submission _ | publication _ | event _ => cases h

theorem settle_paused {paused : Bool} {r : Except (RotationCause Bytes) Unit}
    (h : settleRotation E c (.setApplicationSigningPaused paused) w = some (r, w')) : w' = w.record (.paused paused) := by
  cases c with
  | done =>
    cases h
    rfl
  | fail failure late => cases late <;> cases h <;> rfl
  | generated _ _ | provider _ | prepared _ | submission _ | publication _ | event _ => cases h

theorem settle_signer {provider : ProviderId} {kid : String} {r : Except (RotationCause Bytes) Unit}
    (h : settleRotation E c (.setApplicationSigner provider kid) w = some (r, w')) :
    w' = w.record (.signerSet provider kid) ∨ w' = w ∧ ∀ u, r ≠ .ok u := by
  cases c with
  | done =>
    cases h
    exact .inl rfl
  | fail failure late =>
    cases late <;> cases h
    · exact .inr ⟨rfl, fun _ hok => by cases hok⟩
    · exact .inl rfl
  | generated _ _ | provider _ | prepared _ | submission _ | publication _ | event _ => cases h

theorem settle_submitted {domain idempotencyKey : String} {entryBytes : Bytes}
    {r : Except (RotationCause Bytes) SubmissionResult}
    (h : settleRotation E c (.submitPreparedEvent domain entryBytes idempotencyKey) w = some (r, w')) :
    w' = w.record (.submitted domain entryBytes idempotencyKey) := by
  cases c with
  | submission answer =>
    cases h
    rfl
  | fail failure late => cases late <;> cases h <;> rfl
  | done | generated _ _ | provider _ | prepared _ | publication _ | event _ => cases h

theorem settle_published {r : Except (RotationCause Bytes) LocalPublication}
    (h : settleRotation E c .verifyLocalPublication w = some (r, w')) :
    ∀ verified, r = .ok verified → w' = w.record (.published verified) := by
  rintro verified rfl
  cases c with
  | publication _ =>
    cases h
    rfl
  | fail failure late => cases late <;> cases h
  | done | generated _ _ | provider _ | prepared _ | submission _ | event _ => cases h

theorem settle_eventRead {logRef : String} {r : Except (RotationCause Bytes) LogEvent}
    (h : settleRotation E c (.readEvent logRef) w = some (r, w')) :
    ∀ event, r = .ok event → w' = w.record (.eventRead logRef event) := by
  rintro event rfl
  cases c with
  | event _ =>
    cases h
    rfl
  | fail failure late => cases late <;> cases h
  | done | generated _ _ | provider _ | prepared _ | submission _ | publication _ => cases h

theorem settle_publication_failed {cause : RotationCause Bytes}
    (h : settleRotation E c .verifyLocalPublication w = some (.error cause, w')) : w' = w := by
  cases c with
  | fail failure late => cases late <;> cases h <;> rfl
  | done | generated _ _ | provider _ | prepared _ | submission _ | publication _ | event _ => cases h

theorem settle_read_failed {logRef : String} {cause : RotationCause Bytes}
    (h : settleRotation E c (.readEvent logRef) w = some (.error cause, w')) : w' = w := by
  cases c with
  | fail failure late => cases late <;> cases h <;> rfl
  | done | generated _ _ | provider _ | prepared _ | submission _ | publication _ | event _ => cases h

/-- Keys change as they can, or the call fails. -/
theorem changeKeys_cases {provider : ProviderId} {message : String} {keys : Option Keys}
    {r : Except (RotationCause Bytes) Unit} (h : changeKeys w provider message keys = (r, w')) :
    (∃ keys', keys = some keys' ∧ w' = w.setCustody provider keys') ∨ w' = w ∧ ∀ u, r ≠ .ok u := by
  cases keys with
  | some keys' =>
    cases h
    exact .inl ⟨keys', rfl, rfl⟩
  | none =>
    cases h
    exact .inr ⟨rfl, fun _ hok => by cases hok⟩

theorem settle_activate {provider : ProviderId} {kid : String} {r : Except (RotationCause Bytes) Unit}
    (h : settleRotation E c (.activate provider kid) w = some (r, w')) :
    (∃ keys, (w.custody provider).activate kid = some keys ∧
      w' = (w.record (.activated provider kid)).setCustody provider keys) ∨
      w' = w.record (.activated provider kid) ∧ ∀ u, r ≠ .ok u := by
  cases c with
  | done => exact changeKeys_cases (Option.some.inj h)
  | fail failure late =>
    cases late
    · cases h
      exact .inr ⟨rfl, fun _ hok => by cases hok⟩
    · cases h
      obtain hkeys | ⟨hworld, -⟩ := changeKeys_cases (r := (changeKeys (w.record (.activated provider kid)) provider
        s!"no pending key with kid \"{kid}\"" ((w.custody provider).activate kid)).1) rfl
      · exact .inl hkeys
      · exact .inr ⟨hworld, fun _ hok => by cases hok⟩
  | generated _ _ | provider _ | prepared _ | submission _ | publication _ | event _ => cases h

theorem settle_supersede {provider : ProviderId} {kid : String} {r : Except (RotationCause Bytes) Unit}
    (h : settleRotation E c (.supersede provider kid) w = some (r, w')) :
    (∃ keys, (w.custody provider).supersede (E.methods provider).activeSigningKey kid = some keys ∧
      w' = (w.record (.superseded provider kid)).setCustody provider keys) ∨
      w' = w.record (.superseded provider kid) ∧ ∀ u, r ≠ .ok u := by
  cases c with
  | done => exact changeKeys_cases (Option.some.inj h)
  | fail failure late =>
    cases late
    · cases h
      exact .inr ⟨rfl, fun _ hok => by cases hok⟩
    · cases h
      obtain hkeys | ⟨hworld, -⟩ := changeKeys_cases (r := (changeKeys (w.record (.superseded provider kid)) provider
        s!"no retained key with kid \"{kid}\"" ((w.custody provider).supersede
          (E.methods provider).activeSigningKey kid)).1) rfl
      · exact .inl hkeys
      · exact .inr ⟨hworld, fun _ hok => by cases hok⟩
  | generated _ _ | provider _ | prepared _ | submission _ | publication _ | event _ => cases h

theorem settle_generate {provider : ProviderId} {algorithm : String} {r : Except (RotationCause Bytes) String}
    (h : settleRotation E c (.generateKey provider algorithm) w = some (r, w')) :
    (∃ key keys, (w.custody provider).generate key = some keys ∧ w' = w.setCustody provider keys ∧
      ∀ kid, r = .ok kid → kid = kidOf key) ∨ w' = w ∧ ∀ kid, r ≠ .ok kid := by
  cases c with
  | generated key failure =>
    obtain ⟨keys, hkeys, hrest⟩ := Option.map_eq_some_iff.mp h
    refine .inl ⟨key, keys, hkeys, (congrArg Prod.snd hrest).symm, fun kid hkid => ?_⟩
    have hanswer := congrArg Prod.fst hrest
    rw [hkid] at hanswer
    cases failure with
    | none => exact (Except.ok.inj hanswer).symm
    | some failure => cases hanswer
  | fail failure late =>
    cases late <;> cases h
    · exact .inr ⟨rfl, fun _ hok => by cases hok⟩
    · exact .inr ⟨rfl, fun _ hok => by cases hok⟩
  | done | provider _ | prepared _ | submission _ | publication _ | event _ => cases h

/-- The queries that are answered from the providers' keys. -/
def isAnswered : RotationEffect Bytes → Bool
  | .resolveKeyProvider _ | .signingKey _ | .activeSigningKey _ | .jwk _ _ | .listKeyIds _ | .validateKeyGeneration _ _ =>
    true
  | _ => false

theorem settle_answer {e : RotationEffect Bytes} {r : Except (RotationCause Bytes) e.Answer} (he : isAnswered e = true)
    (h : settleRotation E c e w = some (r, w')) : w' = w ∧ ∀ a, r = .ok a → answerFrom E w e = .ok a := by
  have hquery : isQuery e = true := by cases e <;> cases he <;> rfl
  refine ⟨settle_query hquery h, ?_⟩
  rintro a rfl
  cases c with
  | done => cases e <;> cases he <;> exact congrArg Prod.fst (Option.some.inj h)
  | fail failure late => cases e <;> cases he <;> cases late <;> cases h
  | generated _ _ | provider _ | prepared _ | submission _ | publication _ | event _ =>
    cases e <;> cases he <;> cases h

end Settled

end Dnsid.Managed.Rotation

import Mathlib.Data.Rat.Defs
import Mathlib.Algebra.Order.Ring.Unbundled.Rat
import Mathlib.Logic.Function.Basic

/-! # Verified evidence and its cache (`protocol/src/verified-domain.ts`, `identity-cache.ts`)

A time is in milliseconds; an invalid date is `none`. A `dnsTTL` is a finite number, so a rational. Of
the record the manager reads nothing but its policy flags and its governance identifier, through the
functions of `Config`.
-/
namespace Dnsid.Manager
set_option autoImplicit false

inductive VerificationCode where
  | dnsResolution
  | dnssecFailed
  | recordNotFound
  | recordInvalid
  | signatureInvalid
  | keyNotFound
  | tlsError
  | httpError
  | keyAgeExceeded
  | statusUnavailable
  | statusNotActive
  | logError
  | counterpartyNotAccepted
  deriving DecidableEq, Repr

inductive AgentStatusState where
  | pending
  | provisioning
  | verifying
  | active
  | retired
  | revoked
  deriving DecidableEq, Repr

def AgentStatusState.text : AgentStatusState → String
  | .pending => "PENDING"
  | .provisioning => "PROVISIONING"
  | .verifying => "VERIFYING"
  | .active => "ACTIVE"
  | .retired => "RETIRED"
  | .revoked => "REVOKED"

/-- A rejection. `code` is absent for an `ArgumentError`; `canceled` is the mark that `isCancellation`
looks for. -/
structure Failure where
  message : String
  code : Option VerificationCode
  transient : Bool
  canceled : Bool
  deriving DecidableEq, Repr

/-- `cancellationError()`. -/
def cancellationError : Failure :=
  ⟨"verification deadline exceeded or canceled", some .recordInvalid, true, true⟩

/-- Thrown by `withVerificationBudget` for a result that comes after the deadline. -/
def deadlineExceeded : Failure :=
  ⟨"verification deadline exceeded", some .recordInvalid, true, false⟩

def argumentError (message : String) : Failure := ⟨message, none, false, false⟩

def inactive (state : AgentStatusState) : Failure :=
  ⟨"agent is not ACTIVE: " ++ state.text, some .statusNotActive, false, false⟩

/-- Who built an object: the work of a shared operation, or the verification that a call does on its own.
Each of them builds at most one, so this is the identity that `===` compares. -/
inductive Object where
  | shared (o : ℕ)
  | call (c : ℕ)
  deriving DecidableEq, Repr

structure VerifiedDomain (Record : Type) where
  object : Object
  domain : String
  record : Record
  signingKeyThumbprint : String
  registryStatus : AgentStatusState
  dnsTTL : ℚ
  dnsExpiresAt : ℤ
  tlsNotAfter : Option ℤ
  recordSigningTlsNotAfter : Option ℤ
  /-- `keyBoundAt` plus the duration `ka`, when the record has one. -/
  keyAgeEnd : Option ℤ
  lastStatusCheckAt : ℤ
  deriving DecidableEq

namespace VerifiedDomain
variable {Record : Type}

/-- `expiry().getTime()`: the least candidate, or `NaN` when a certificate has no valid end. -/
def expiry (v : VerifiedDomain Record) : Option ℤ :=
  match v.tlsNotAfter, v.recordSigningTlsNotAfter with
  | some t, some r => some (min (min v.dnsExpiresAt (min t r)) (v.keyAgeEnd.getD v.dnsExpiresAt))
  | _, _ => none

def certificateExpired (now : ℤ) : Option ℤ → Bool
  | none => true
  | some notAfter => notAfter ≤ now

def assertFresh (v : VerifiedDomain Record) (now : ℤ) : Except Failure Unit :=
  let expired (code : VerificationCode) : Except Failure Unit := .error
    ⟨"identity evidence expired during verification", some code, code = .dnsResolution, false⟩
  if certificateExpired now v.tlsNotAfter || certificateExpired now v.recordSigningTlsNotAfter then
    expired .tlsError
  else if v.keyAgeEnd.any (· ≤ now) then expired .keyAgeExceeded
  else if 0 < v.dnsTTL ∧ v.dnsExpiresAt ≤ now then expired .dnsResolution
  else .ok ()

end VerifiedDomain

structure CacheEntry (Record : Type) where
  result : VerifiedDomain Record
  expiresAt : ℤ

/-- The store of an `InMemoryIdentityCache`. -/
abbrev CacheStore (Record : Type) : Type := String → Option (CacheEntry Record)

namespace CacheStore
variable {Record : Type} (store : CacheStore Record)

def evict (domain : String) : CacheStore Record := Function.update store domain none

/-- What `get` returns. -/
def lookup (now : ℤ) (domain : String) : Option (VerifiedDomain Record) :=
  (store domain).bind fun entry => if entry.expiresAt ≤ now then none else some entry.result

/-- What `get` leaves: an expired entry is deleted. -/
def afterGet (now : ℤ) (domain : String) : CacheStore Record :=
  if (store.lookup now domain).isNone then store.evict domain else store

def put (now : ℤ) (domain : String) (result : VerifiedDomain Record) : CacheStore Record :=
  match result.expiry with
  | none => store.evict domain
  | some expiresAt =>
    if result.dnsTTL ≤ 0 ∨ expiresAt - now ≤ 0 then store.evict domain
    else Function.update (store.evict domain) domain (some ⟨result, expiresAt⟩)

variable {store}

theorem evict_some {domain d : String} {entry : CacheEntry Record}
    (h : store.evict domain d = some entry) : store d = some entry := by
  by_cases hd : d = domain
  · simp [evict, hd] at h
  · simpa [evict, hd] using h

/-- An entry is found, or an entry with a positive TTL has just been written. -/
theorem put_some {now : ℤ} {domain d : String} {result : VerifiedDomain Record}
    {entry : CacheEntry Record} (h : store.put now domain result d = some entry) :
    store d = some entry ∨ (d = domain ∧ entry.result = result ∧ 0 < result.dnsTTL) := by
  cases hexpiry : result.expiry with
  | none =>
    simp only [put, hexpiry] at h
    exact Or.inl (evict_some h)
  | some expiresAt =>
    by_cases hskip : result.dnsTTL ≤ 0 ∨ expiresAt - now ≤ 0
    · simp only [put, hexpiry, if_pos hskip] at h
      exact Or.inl (evict_some h)
    · simp only [put, hexpiry, if_neg hskip] at h
      by_cases hd : d = domain
      · subst hd
        simp only [Function.update_self, Option.some.injEq] at h
        subst h
        exact Or.inr ⟨rfl, rfl, lt_of_not_ge fun hle => hskip (Or.inl hle)⟩
      · rw [Function.update_of_ne hd] at h
        exact Or.inl (evict_some h)

theorem afterGet_some {now : ℤ} {domain d : String} {entry : CacheEntry Record}
    (h : store.afterGet now domain d = some entry) : store d = some entry := by
  unfold afterGet at h
  split at h
  · exact evict_some h
  · exact h

theorem lookup_some {now : ℤ} {domain : String} {v : VerifiedDomain Record}
    (h : store.lookup now domain = some v) : ∃ entry, store domain = some entry ∧ entry.result = v := by
  unfold lookup at h
  obtain ⟨entry, hentry, h⟩ := Option.bind_eq_some_iff.mp h
  split at h
  · cases h
  · exact ⟨entry, hentry, Option.some.inj h⟩

end CacheStore

end Dnsid.Manager

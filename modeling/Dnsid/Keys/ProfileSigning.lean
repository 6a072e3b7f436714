import Dnsid.Keys.SigningGate

/-! # Signing profiles over one local key provider

`JoseProfile.createJWT` and `createJWS` (`jose/src/index.ts`), OIDC assertions (`oidc/src/index.ts`), and the two
users of `signHttpMessage` (`http-signatures/src/index.ts`, `web-bot-auth/src/index.ts`). Each reads the active key,
and after some `await`s asks the provider to sign with the key that is active then. OIDC and `signHttpMessage` verify
the signature under the key they read; the JOSE profile does not.

Between the two, the JOSE profile awaits the resolved promise of `signingKey()` and nothing else. Its continuation is
queued when the key is read, and microtasks run in the order they were queued. The `finally` of `activate` is queued
once the store has changed, so it does not overtake a continuation that was queued before. This is the only order
that `step` keeps: `jobs` lists the continuations and the `finally`s as they were queued, and a `finally` runs when no
continuation stands before it.
-/
namespace Dnsid.Keys.Profiles
open Dnsid.Foundations Dnsid.Keys.Local
set_option autoImplicit false

abbrev Bytes := List UInt8

/-- The protected header of a compact JWS. -/
structure Header where
  alg : String
  kid : String
  typ : String
  deriving DecidableEq

/-- What is signed: a token, or the signature base of an HTTP message with its `keyid`. -/
inductive Draft where
  | token (header : Header) (payload : Bytes)
  | message (keyId : String) (base : Bytes)
  deriving DecidableEq

structure Artifact where
  draft : Draft
  signature : Bytes
  deriving DecidableEq

/-- A call of a profile. The payloads of tokens are serialized claims or bytes; a message is a request or a response
with its covered components. -/
inductive Request (Message : Type) where
  | createJWT (claims : Bytes)
  | createJWS (domain : String) (payload : Bytes)
  | createOIDCAssertion (claims : Bytes)
  | signHttpMessage (domain : String) (message : Message)
  | signWebBotAuth (message : Message)

/-- Serialization, WebCrypto and `jwkThumbprint`. A signature depends on what WebCrypto draws at random. -/
structure ProfilePlatform (Message : Type) where
  signingInput : Header → Bytes → Bytes
  buildSignatureInput : Message → String → String → Except String Bytes
  joseAlgToHttpSigAlg : String → Except String String
  jwkThumbprint : StoredKey → Except String String
  sign : StoredKey → Bytes → ℕ → Bytes
  /-- `verifyWithKey(input, signature, toPublicJwk(key), jwkSignatureAlg(key))`. -/
  verifyWithKey : StoredKey → Bytes → Bytes → Bool

/-- WebCrypto verifies what it signed. -/
def ProfilePlatform.Lawful {Message : Type} (P : ProfilePlatform Message) : Prop :=
  ∀ key input random, P.verifyWithKey key input (P.sign key input random) = true

section Profiles
variable {Message : Type} (P : ProfilePlatform Message)

def Draft.input : Draft → Bytes
  | .token header payload => P.signingInput header payload
  | .message _ base => base

/-- `${domain}#${kid}`. -/
def compoundKid (domain : String) (key : StoredKey) : Except String String := do
  throwIf ('#' ∈ key.kid.toList) "signing key kid must not contain '#'"
  return domain ++ "#" ++ key.kid

/-- What the call signs, once it has its key. -/
def draft (key : StoredKey) : Request Message → Except String Draft
  | .createJWT claims | .createOIDCAssertion claims => do
    let alg ← key.signatureAlg
    return .token ⟨alg, key.kid, "JWT"⟩ claims
  | .createJWS domain payload => do
    let kid ← compoundKid domain key
    let alg ← key.signatureAlg
    return .token ⟨alg, kid, "jose"⟩ payload
  | .signHttpMessage domain message => do
    let keyId ← compoundKid domain key
    let alg ← key.signatureAlg
    let alg ← P.joseAlgToHttpSigAlg alg
    let base ← P.buildSignatureInput message keyId alg
    return .message keyId base
  | .signWebBotAuth message => do
    let alg ← key.signatureAlg
    throwIf (alg ≠ "EdDSA") "Web Bot Auth signing requires Ed25519"
    let keyId ← P.jwkThumbprint key
    let alg ← P.joseAlgToHttpSigAlg alg
    let base ← P.buildSignatureInput message keyId alg
    return .message keyId base

/-- The profile awaits more than the key before it signs: a body, a digest, a thumbprint. -/
def Request.prepares : Request Message → Bool
  | .signHttpMessage _ _ | .signWebBotAuth _ => true
  | _ => false

/-- The error when the signature does not verify; the JOSE profile does not ask. -/
def Request.mismatch : Request Message → Option String
  | .createJWT _ | .createJWS _ _ => none
  | .createOIDCAssertion _ => some "OIDC assertion signature does not match active signing key"
  | .signHttpMessage _ _ | .signWebBotAuth _ => some "HTTP signing key changed or returned an invalid signature"

end Profiles

/-! ## Steps -/

/-- Where a call of a profile stands. `key` is what `signingKey()` gave it; `signer` is the key that the provider
signs with. -/
inductive CallPhase (Message : Type) where
  | reading (request : Request Message) (key : StoredKey)
  | preparing (request : Request Message) (key : StoredKey)
  | signing (request : Request Message) (key : StoredKey) (draft : Draft) (operation : ℕ) (signer : StoredKey)
  | verifying (request : Request Message) (key : StoredKey) (artifact : Artifact) (mismatch : String)
  | returned (request : Request Message) (key : StoredKey) (artifact : Artifact)
  | rejected (message : String)

/-- The continuation of call `c` after `signingKey()`, and the `finally` of provider call `n`. -/
inductive Job where
  | resume (c : ℕ)
  | finish (n : ℕ)
  deriving DecidableEq

structure World (Message : Type) where
  provider : LocalKeyProvider
  jobs : List Job
  calls : List (CallPhase Message)

inductive Action (Message : Type) where
  /-- Whatever else happens at the provider: other calls, and what they await. -/
  | provider (action : Local.Action)
  | start (request : Request Message)
  | resume (c : ℕ)
  /-- What an HTTP profile awaits before it signs, settles. -/
  | prepared (c : ℕ) (result : Except String Unit)
  | settleSign (c : ℕ) (result : Except String ℕ)
  | settleVerify (c : ℕ)
  | finish (n : ℕ)

def initial {Message : Type} (provider : LocalKeyProvider) : World Message := ⟨provider, [], []⟩

def isFinishing (p : LocalKeyProvider) (n : ℕ) : Bool :=
  match p.calls[n]? with
  | some (.finishing _) => true
  | _ => false

/-- A step of the provider other than a `finally`. -/
def providerStep (p : LocalKeyProvider) : Local.Action → Option LocalKeyProvider
  | .settleCall n answer => if isFinishing p n then none else Local.step (.settleCall n answer) p
  | action => Local.step action p

/-- The calls that have come to their `finally`. -/
def newlyFinishing (p p' : LocalKeyProvider) : List ℕ :=
  (List.range p'.calls.length).filter fun n => isFinishing p' n && !isFinishing p n

namespace World
variable {Message : Type}

def setPhase (w : World Message) (c : ℕ) (phase : CallPhase Message) : World Message :=
  { w with calls := w.calls.set c phase }

/-- The provider has moved on, and queues the `finally`s. -/
def moved (w : World Message) (p' : LocalKeyProvider) : World Message :=
  { w with provider := p', jobs := w.jobs ++ (newlyFinishing w.provider p').map .finish }

def done (w : World Message) (job : Job) : World Message := { w with jobs := w.jobs.filter (· ≠ job) }

variable (P : ProfilePlatform Message)

/-- `keyProvider.sign(input)`. -/
def callSign (w : World Message) (c : ℕ) (request : Request Message) (key : StoredKey) : World Message :=
  match draft P key request with
  | .error message => w.setPhase c (.rejected message)
  | .ok draft =>
    let w' := { w with provider := w.provider.startSigning w.provider.store.active.kid }
    if w.provider.activating then w'.setPhase c (.rejected "key activation is in progress")
    else w'.setPhase c (.signing request key draft w.provider.calls.length w.provider.store.active)

/-- The signature is there. -/
def signed (w : World Message) (c : ℕ) (request : Request Message) (key : StoredKey) (artifact : Artifact) :
    World Message :=
  match request.mismatch with
  | none => w.setPhase c (.returned request key artifact)
  | some mismatch => w.setPhase c (.verifying request key artifact mismatch)

def settleSign (w : World Message) (c : ℕ) : Except String ℕ → CallPhase Message → Option (World Message)
  | .ok random, .signing request key draft operation signer =>
    (providerStep w.provider (.settleCall operation .done)).map fun p' =>
      (w.moved p').signed c request key ⟨draft, P.sign signer (draft.input P) random⟩
  | .error message, .signing _ _ _ operation _ =>
    (providerStep w.provider (.settleCall operation (.failed message))).map fun p' =>
      (w.moved p').setPhase c (.rejected message)
  | _, _ => none

/-- No continuation stands before the `finally` of call `n`. -/
def mayFinish (jobs : List Job) (n : ℕ) : Bool :=
  (jobs.takeWhile (· ≠ .finish n)).all fun job =>
    match job with
    | .resume _ => false
    | .finish _ => true

end World

open World in
def step {Message : Type} (P : ProfilePlatform Message) : Action Message → World Message → Option (World Message)
  | .provider action, w => (providerStep w.provider action).map w.moved
  | .start request, w => some
      { w with calls := w.calls ++ [.reading request w.provider.store.active], jobs := w.jobs ++ [.resume w.calls.length] }
  | .resume c, w =>
    match w.calls[c]? with
    | some (.reading request key) =>
      let w := w.done (.resume c)
      if request.prepares then some (w.setPhase c (.preparing request key)) else some (w.callSign P c request key)
    | _ => none
  | .prepared c result, w =>
    match w.calls[c]?, result with
    | some (.preparing request key), .ok () => some (w.callSign P c request key)
    | some (.preparing _ _), .error message => some (w.setPhase c (.rejected message))
    | _, _ => none
  | .settleSign c result, w => w.calls[c]?.bind (w.settleSign P c result)
  | .settleVerify c, w =>
    match w.calls[c]? with
    | some (.verifying request key artifact mismatch) =>
      if P.verifyWithKey key (artifact.draft.input P) artifact.signature then
        some (w.setPhase c (.returned request key artifact))
      else some (w.setPhase c (.rejected mismatch))
    | _ => none
  | .finish n, w =>
    if isFinishing w.provider n && mayFinish w.jobs n then
      (Local.step (.settleCall n .done) w.provider).map fun p' => (w.done (.finish n)).moved p'
    else none

end Dnsid.Keys.Profiles

import Mathlib.Data.Rat.Defs

/-! # JSON values and lifecycle events

`Json` is the value `JSON.parse` gives: an object is the list of its own members in order, a number is a
finite double and so a rational. A property read that gives `undefined` is `none`.

`LogEvent` is the event of `protocol/src/log-events.ts` with the members that the verifiers read. A `Date` is
its `getTime()`, `none` for an invalid one. The chain members stay raw JSON, as `parseChainFields` copies them.
-/
namespace Dnsid.Events
set_option autoImplicit false

inductive Json where
  | null
  | bool (value : Bool)
  | num (value : ℚ)
  | str (value : String)
  | arr (items : List Json)
  | obj (members : List (String × Json))

namespace Json

mutual

def decEq : (a b : Json) → Decidable (a = b)
  | .null, .null => isTrue rfl
  | .bool a, .bool b => decidable_of_iff (a = b) (by simp)
  | .num a, .num b => decidable_of_iff (a = b) (by simp)
  | .str a, .str b => decidable_of_iff (a = b) (by simp)
  | .arr a, .arr b =>
    match decEqItems a b with
    | isTrue h => isTrue (by rw [h])
    | isFalse h => isFalse (by simp [h])
  | .obj a, .obj b =>
    match decEqMembers a b with
    | isTrue h => isTrue (by rw [h])
    | isFalse h => isFalse (by simp [h])
  | .null, .bool _ | .null, .num _ | .null, .str _ | .null, .arr _ | .null, .obj _ => isFalse nofun
  | .bool _, .null | .bool _, .num _ | .bool _, .str _ | .bool _, .arr _ | .bool _, .obj _ =>
    isFalse nofun
  | .num _, .null | .num _, .bool _ | .num _, .str _ | .num _, .arr _ | .num _, .obj _ =>
    isFalse nofun
  | .str _, .null | .str _, .bool _ | .str _, .num _ | .str _, .arr _ | .str _, .obj _ =>
    isFalse nofun
  | .arr _, .null | .arr _, .bool _ | .arr _, .num _ | .arr _, .str _ | .arr _, .obj _ =>
    isFalse nofun
  | .obj _, .null | .obj _, .bool _ | .obj _, .num _ | .obj _, .str _ | .obj _, .arr _ =>
    isFalse nofun

def decEqItems : (a b : List Json) → Decidable (a = b)
  | [], [] => isTrue rfl
  | [], _ :: _ => isFalse nofun
  | _ :: _, [] => isFalse nofun
  | x :: xs, y :: ys =>
    match decEq x y with
    | isFalse h => isFalse (by simp [h])
    | isTrue h =>
      match decEqItems xs ys with
      | isTrue hs => isTrue (by rw [h, hs])
      | isFalse hs => isFalse (by simp [hs])

def decEqMembers : (a b : List (String × Json)) → Decidable (a = b)
  | [], [] => isTrue rfl
  | [], _ :: _ => isFalse nofun
  | _ :: _, [] => isFalse nofun
  | (k, x) :: xs, (l, y) :: ys =>
    if hk : k = l then
      match decEq x y with
      | isFalse h => isFalse (by simp [h])
      | isTrue h =>
        match decEqMembers xs ys with
        | isTrue hs => isTrue (by rw [hk, h, hs])
        | isFalse hs => isFalse (by simp [hs])
    else isFalse (by simp [hk])

end

instance : DecidableEq Json := decEq

/-- `value[name]`. Only objects have own members of the names that the code reads. -/
def get? : Json → String → Option Json
  | .obj members, name => members.lookup name
  | _, _ => none

/-- The members of an object that is no array. -/
def members? : Json → Option (List (String × Json))
  | .obj members => some members
  | _ => none

def str? : Json → Option String
  | .str s => some s
  | _ => none

/-- `!!value`. -/
def truthy : Json → Bool
  | .null => false
  | .bool b => b
  | .num q => q ≠ 0
  | .str s => s ≠ ""
  | .arr _ | .obj _ => true

def text? (value : Json) (name : String) : Option String := (value.get? name).bind str?

end Json

/-- A JWK as the code receives it: `key.kid` and the like are plain property reads. -/
abbrev DnsIdJWK := Json

/-! ## Lifecycle events -/

inductive LogEventType where
  | issuance
  | keyRotation
  | revocation
  | retirement
  | migration
  | delegation
  deriving DecidableEq, Repr

namespace LogEventType

def name : LogEventType → String
  | .issuance => "ISSUANCE"
  | .keyRotation => "KEY_ROTATION"
  | .revocation => "REVOCATION"
  | .retirement => "RETIREMENT"
  | .migration => "MIGRATION"
  | .delegation => "DELEGATION"

/-- The set `SUPPORTED`. -/
def ofName? (text : String) : Option LogEventType :=
  [issuance, keyRotation, revocation, retirement, migration, delegation].find? fun t => t.name = text

end LogEventType

structure IssuanceKeySlot where
  jwk : DnsIdJWK
  thumbprint : String
  deriving DecidableEq

structure IssuanceEvent where
  governanceId : String
  initialOperationalKid : Option String
  initialOperationalAlg : Option String
  initialOperationalPublicKey : Option DnsIdJWK
  initialOperationalThumbprint : Option String
  initialEntityKid : Option String
  initialEntityAlg : Option String
  initialEntityPublicKey : Option DnsIdJWK
  initialEntityThumbprint : Option String
  entityKey : Option IssuanceKeySlot
  operationalKey : Option IssuanceKeySlot
  publicKey : Option DnsIdJWK
  thumbprint : Option String
  deriving DecidableEq

structure KeyRotationEvent where
  previousOperationalKid : String
  previousOperationalThumbprint : String
  newOperationalKid : Option String
  newOperationalAlg : String
  newOperationalThumbprint : String
  newOperationalPublicKey : DnsIdJWK
  deriving DecidableEq

/-- `unlisted` is a reason that no event type allows, but that an unchecked history can carry. -/
inductive RevocationReason where
  | keyCompromise
  | policyViolation
  | superseded
  | cessationOfOperation
  | unlisted (text : String)
  deriving DecidableEq, Repr

structure MigrationEvent where
  previousLog : String
  newLog : String
  finalEntryRef : String
  deriving DecidableEq, Repr

structure DelegationEvent where
  delegatee : String
  scope : String
  expiry : Option ℤ
  deriving DecidableEq, Repr

inductive EventBody where
  | issuance (fields : IssuanceEvent)
  | keyRotation (fields : KeyRotationEvent)
  | revocation (reason : RevocationReason)
  | retirement
  | migration (fields : MigrationEvent)
  | delegation (fields : DelegationEvent)
  deriving DecidableEq

def EventBody.type : EventBody → LogEventType
  | .issuance _ => .issuance
  | .keyRotation _ => .keyRotation
  | .revocation _ => .revocation
  | .retirement => .retirement
  | .migration _ => .migration
  | .delegation _ => .delegation

structure ChainFields where
  seq : Option Json
  prevEventId : Option Json
  prevStateHash : Option Json
  prevIndex : Option Json
  prevLeafHash : Option Json
  eventId : Option Json
  deriving DecidableEq

structure LogEvent where
  domain : String
  timestamp : Option ℤ
  signingKid : Option String
  sig : Option String
  operationalCountersig : Option String
  newOperationalProof : Option String
  chain : ChainFields
  body : EventBody
  deriving DecidableEq

abbrev LogEvent.type (event : LogEvent) : LogEventType := event.body.type

end Dnsid.Events

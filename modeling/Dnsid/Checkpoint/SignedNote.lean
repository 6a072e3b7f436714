import Dnsid.Checkpoint.TrustedStore
import Dnsid.Foundations.Trimming
import Dnsid.Protocol.Encoding

/-! # Signed notes (`log-c2sp-tlog/src/signed-note.ts`)

Verifier keys, note signatures and their verification. `kind` is always `'ed25519'` and is left out of the records.
The Ed25519 check of `node:crypto`, which fails when `createPublicKey` or the check throws, and the hash of the empty
tree are the parameters of `NotePlatform`.
-/
namespace Dnsid.Checkpoint
open Dnsid.Foundations Dnsid.Protocol
set_option autoImplicit false

structure SignedNoteKey where
  name : String
  keyBytes : Bytes
  keyId : Option Bytes
  signatureType : Option Bytes
  deriving DecidableEq

structure NoteSignature where
  name : String
  keyHash : Option Bytes
  signature : Bytes

/-- `Checkpoint` of `checkpoint.ts`: the parsed note. -/
structure NoteCheckpoint where
  origin : String
  treeSize : ℕ
  rootHash : Bytes
  signatures : List NoteSignature
  signedText : String

structure NotePlatform where
  /-- `sha256()` of no bytes. -/
  emptyRoot : Bytes
  /-- `cryptoVerify(null, message, publicKey, signature)`. -/
  cryptoVerify : String → Bytes → Bytes → Bool

/-! ## Key texts -/

/-- `fromB64`. -/
def fromB64 (s : List Char) : Except Thrown Bytes :=
  orThrow (.other "The string to be decoded is not correctly encoded.")
    (fromBase64Url (s.map fun c => if c = '+' then '-' else if c = '/' then '_' else c))

def hexValue (c : Char) : Option ℕ :=
  if '0' ≤ c ∧ c ≤ '9' then some (c.toNat - 48)
  else if 'a' ≤ c ∧ c ≤ 'f' then some (c.toNat - 87)
  else if 'A' ≤ c ∧ c ≤ 'F' then some (c.toNat - 55)
  else none

def hexPairs : List Char → Option Bytes
  | [] => some []
  | [_] => none
  | a :: b :: rest => do
    let high ← hexValue a
    let low ← hexValue b
    let bytes ← hexPairs rest
    return UInt8.ofNat (high * 16 + low) :: bytes

def fromHex (s : List Char) : Except Thrown Bytes := do
  throwIf (s = []) (.parseError "invalid signed-note key ID")
  orThrow (.parseError "invalid signed-note key ID") (hexPairs s)

/-- The key bytes, and the signature type in front of them. -/
def decodeKey (s : List Char) : Except Thrown (Bytes × Option Bytes) := do
  let b ← fromB64 s
  if b.length = 32 then return (b, none)
  if b.length = 33 then return (b.drop 1, some (b.take 1))
  .error (.parseError "Ed25519 verifier key must contain a signature type and 32-byte key")

/-- `text.split(/\s+/)` of a trimmed text. -/
def splitSpaces (text : List Char) : List (List Char) := (text.splitOnP isJsSpace).filter (· ≠ [])

def trim (text : List Char) : List Char := trimBoth isJsSpace text

def parseSignedNoteVerifierKey (text : String) : Except Thrown SignedNoteKey := do
  let trimmed := trim text.toList
  let name := trimmed.takeWhile (· ≠ '+')
  let afterName := (trimmed.dropWhile (· ≠ '+')).drop 1
  let keyId := afterName.takeWhile (· ≠ '+')
  -- `firstPlus > 0 && secondPlus > firstPlus + 1`
  if name ≠ [] ∧ keyId ≠ [] ∧ '+' ∈ afterName then
    let keyId ← fromHex keyId
    throwIf (keyId.length ≠ 4) (.parseError "signed-note key ID must be four bytes")
    let (keyBytes, signatureType) ← decodeKey ((afterName.dropWhile (· ≠ '+')).drop 1)
    return ⟨.ofList name, keyBytes, some keyId, signatureType⟩
  match splitSpaces trimmed with
  | [name, key] =>
    let (keyBytes, signatureType) ← decodeKey key
    return ⟨.ofList name, keyBytes, none, signatureType⟩
  | [name, kind, key] =>
    throwIf (kind.map Char.toLower ≠ "ed25519".toList) (.parseError "unsupported signed-note verifier key")
    let (keyBytes, signatureType) ← decodeKey key
    return ⟨.ofList name, keyBytes, none, signatureType⟩
  | _ => .error (.parseError "unsupported signed-note verifier key")

/-! ## Signatures -/

section Verify
variable (P : NotePlatform)

/-- `readBigUInt64BE`. -/
def readBigUInt64BE (bytes : Bytes) : ℕ := bytes.foldl (fun n b => n * 256 + b.toNat) 0

def cosignatureMessage (timestamp : ℕ) (message : String) : String := s!"cosignature/v1\ntime {timestamp}\n{message}"

def verifyNoteSignature (message : String) (sig : NoteSignature) (key : SignedNoteKey) : Bool :=
  if key.keyBytes.length ≠ 32 then false
  else if key.signatureType.any fun type => type.length ≠ 1 then false
  else
    let signatureType := (key.signatureType.bind fun type => type[0]?).getD 0x01
    if signatureType = 0x01 then
      sig.signature.length = 64 && P.cryptoVerify message key.keyBytes sig.signature
    else if signatureType = 0x04 then
      let timestamp := readBigUInt64BE (sig.signature.take 8)
      sig.signature.length = 72 && timestamp ≤ 0x7fffffffffffffff &&
        P.cryptoVerify (cosignatureMessage timestamp message) key.keyBytes (sig.signature.drop 8)
    else false

def keyIdMatches (sig : NoteSignature) (key : SignedNoteKey) : Bool :=
  match key.keyId with
  | none => true
  | some keyId => sig.keyHash = some keyId

def verifyCheckpointSignature (checkpoint : NoteCheckpoint) (key : SignedNoteKey) : Bool :=
  checkpoint.signatures.any fun sig =>
    sig.name = key.name && keyIdMatches sig key && verifyNoteSignature P checkpoint.signedText sig key

/-- `key.signatureType?.length === 1 && key.signatureType[0] === type`. -/
def hasSignatureType (type : UInt8) (key : SignedNoteKey) : Bool := key.signatureType = some [type]

/-- What one signature says when the loop does not `continue` past it. -/
def cosignatureTimestamp (checkpoint : NoteCheckpoint) (key : SignedNoteKey) (sig : NoteSignature) : Option ℕ :=
  if sig.name = key.name && keyIdMatches sig key && verifyNoteSignature P checkpoint.signedText sig key &&
      sig.signature.length = 72 then
    let timestamp := readBigUInt64BE (sig.signature.take 8)
    if timestamp ≤ 2 ^ 53 - 1 then some timestamp else none
  else none

def verifiedCosignatureTimestamp (checkpoint : NoteCheckpoint) (key : SignedNoteKey) : Option ℕ :=
  if !hasSignatureType 0x04 key then none
  else checkpoint.signatures.findSome? (cosignatureTimestamp P checkpoint key)

/-- A type-0x04 cosignature of the key on the checkpoint: its timestamp, and the Ed25519 signature over the
timestamped note. -/
structure Cosigned (checkpoint : NoteCheckpoint) (key : SignedNoteKey) (sig : NoteSignature) (timestamp : ℕ) :
    Prop where
  mem : sig ∈ checkpoint.signatures
  name : sig.name = key.name
  keyId : keyIdMatches sig key = true
  type : key.signatureType = some [0x04]
  size : key.keyBytes.length = 32 ∧ sig.signature.length = 72
  time : readBigUInt64BE (sig.signature.take 8) = timestamp
  verifies : P.cryptoVerify (cosignatureMessage timestamp checkpoint.signedText) key.keyBytes (sig.signature.drop 8) =
    true

variable {P}

theorem cosigned_of_verified {checkpoint : NoteCheckpoint} {key : SignedNoteKey} {timestamp : ℕ}
    (h : verifiedCosignatureTimestamp P checkpoint key = some timestamp) :
    ∃ sig, Cosigned P checkpoint key sig timestamp := by
  unfold verifiedCosignatureTimestamp at h
  split at h
  · cases h
  case isFalse htype =>
    have htype : key.signatureType = some [0x04] := by simpa [hasSignatureType] using htype
    obtain ⟨sig, hmem, hsig⟩ := List.exists_of_findSome?_eq_some h
    simp only [cosignatureTimestamp] at hsig
    split at hsig
    case isFalse => cases hsig
    case isTrue hcond =>
      split at hsig
      case isFalse => cases hsig
      case isTrue =>
        obtain rfl := Option.some.inj hsig
        simp only [Bool.and_eq_true, decide_eq_true_eq] at hcond
        obtain ⟨⟨⟨hname, hid⟩, hverify⟩, hsize⟩ := hcond
        simp only [verifyNoteSignature, htype] at hverify
        split at hverify
        · cases hverify
        case isFalse hbytes =>
          have hbytes : key.keyBytes.length = 32 := by simpa using hbytes
          refine ⟨sig, hmem, hname, hid, htype, ⟨hbytes, hsize⟩, rfl, ?_⟩
          simp at hverify
          exact hverify.2

end Verify

end Dnsid.Checkpoint

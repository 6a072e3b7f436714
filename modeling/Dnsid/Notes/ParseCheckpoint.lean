import Dnsid.Checkpoint.SignedNote
import Dnsid.Foundations.Utf16

/-! # Checkpoint texts (`log-c2sp-tlog/src/checkpoint.ts`)

A text is a list of UTF-16 code units, as the source has it; `Dnsid.Checkpoint.NoteCheckpoint` is what the policy reads
of a parsed note. `checkpointEvidenceBytes` of `reader.ts` is here too.
-/
namespace Dnsid.Notes
open Dnsid.Foundations Dnsid.Foundations.Utf16 Dnsid.Protocol
open Dnsid.Checkpoint (isJsSpace fromB64)
set_option autoImplicit false

structure NoteSignature where
  name : CodeUnits
  keyHash : Option Bytes
  signature : Bytes
  raw : CodeUnits
  deriving DecidableEq

structure Checkpoint where
  origin : CodeUnits
  treeSize : ℕ
  rootHash : Bytes
  signatures : List NoteSignature
  signedText : CodeUnits
  deriving DecidableEq

/-! ## Texts -/

def lf : UInt16 := 10

def cr : UInt16 := 13

/-- The character of a code unit that is no surrogate. -/
def unitChar (u : UInt16) : Char := .ofNat u.toNat

/-- `\s`. -/
def isSpace (u : UInt16) : Bool := isJsSpace (unitChar u)

/-- `text.replace(/\r\n/g, '\n')`. -/
def crlfToLf : CodeUnits → CodeUnits
  | [] => []
  | [u] => [u]
  | u :: v :: rest => if u = cr ∧ v = lf then lf :: crlfToLf rest else u :: crlfToLf (v :: rest)

/-- `text.indexOf('\n\n')`. -/
def blankLine : CodeUnits → Option ℕ
  | u :: v :: rest => if u = lf ∧ v = lf then some 0 else (blankLine (v :: rest)).map (· + 1)
  | _ => none

def trimEnd (text : CodeUnits) : CodeUnits := Foundations.trimEnd isSpace text

def trim (text : CodeUnits) : CodeUnits := trimBoth isSpace text

/-- The signed text and what follows the blank line. -/
def splitNote (normalized : CodeUnits) : CodeUnits × CodeUnits :=
  match blankLine normalized with
  | none => (trimEnd normalized ++ [lf], [])
  | some sigStart => (normalized.take (sigStart + 1), trim (normalized.drop (sigStart + 2)))

/-! ## Signature lines -/

/-- `/[A-Za-z0-9+/=]/`. -/
def isBase64Unit (u : UInt16) : Bool :=
  let c := unitChar u
  (base64Value c).isSome || c = '='

/-- The line after `— ` or `-- `. -/
def afterMark : CodeUnits → Option CodeUnits
  | u :: v :: rest =>
    if u = 0x2014 ∧ v = 0x20 then some rest
    else if u = 0x2d ∧ v = 0x2d ∧ rest.head? = some 0x20 then some rest.tail
    else none
  | _ => none

/-- The two groups of the expression: what has no white space, and base64 up to the end. -/
def signatureParts (line : CodeUnits) : Option (CodeUnits × CodeUnits) := do
  let rest ← afterMark line
  let name := rest.takeWhile fun u => !isSpace u
  let spaced := rest.dropWhile fun u => !isSpace u
  let value := spaced.dropWhile isSpace
  if name ≠ [] ∧ spaced ≠ [] ∧ value ≠ [] ∧ value.all isBase64Unit = true then some (name, value) else none

def parseNoteSignature (line : CodeUnits) : Except Thrown NoteSignature := do
  let m ← orThrow (.parseError "invalid signed-note signature line") (signatureParts line)
  let bytes ← fromB64 (m.2.map unitChar)
  if bytes.length > 4 then return ⟨m.1, some (bytes.take 4), bytes.drop 4, line⟩
  else return ⟨m.1, none, bytes, line⟩

/-! ## Checkpoints -/

def isDigit (u : UInt16) : Bool := 0x30 ≤ u.toNat && u.toNat ≤ 0x39

/-- `/^(0|[1-9][0-9]*)$/`. -/
def isDecimal (text : CodeUnits) : Bool := text.all isDigit && (text = [0x30] || (text.head?.any fun u => u ≠ 0x30))

def decimalValue (text : CodeUnits) : ℕ := text.foldl (fun n u => n * 10 + (u.toNat - 0x30)) 0

/-- The origin, the tree size and the root hash of the signed text. -/
def readBody (signedText : CodeUnits) : Except Thrown (CodeUnits × ℕ × Bytes) :=
  match (trimEnd signedText).splitOn lf with
  | origin :: sizeText :: rootText :: _ => do
    throwIf (origin = []) (.parseError "checkpoint missing origin")
    throwIf (!isDecimal sizeText) (.parseError "checkpoint has invalid tree size")
    throwIf (2 ^ 53 - 1 < decimalValue sizeText) (.parseError "checkpoint tree size outside safe integer range")
    let rootHash ← fromB64 (rootText.map unitChar)
    throwIf (rootHash.length ≠ 32) (.parseError "checkpoint root hash must be SHA-256 sized")
    return (origin, decimalValue sizeText, rootHash)
  | _ => .error (.parseError "checkpoint must contain origin, size, and root hash")

/-- `sigText.split('\n').filter(Boolean)`. -/
def signatureLines (sigText : CodeUnits) : List CodeUnits := (sigText.splitOn lf).filter (· ≠ [])

def parseCheckpoint (text : CodeUnits) : Except Thrown Checkpoint := do
  let note := splitNote (crlfToLf text)
  let body ← readBody note.1
  let signatures ← (signatureLines note.2).mapM parseNoteSignature
  return ⟨body.1, body.2.1, body.2.2, signatures, note.1⟩

/-! ## Evidence -/

def base64Char (n : ℕ) : Char :=
  "ABCDEFGHIJKLMNOPQRSTUVWXYZabcdefghijklmnopqrstuvwxyz0123456789+/".toList.getD (n % 64) 'A'

/-- `Buffer.from(bytes).toString('base64')`. -/
def toBase64 : Bytes → List Char
  | [] => []
  | [a] => [base64Char (a.toNat / 4), base64Char (a.toNat * 16), '=', '=']
  | [a, b] =>
    [base64Char (a.toNat / 4), base64Char (a.toNat * 16 + b.toNat / 16), base64Char (b.toNat * 4), '=']
  | a :: b :: c :: rest =>
    base64Char (a.toNat / 4) :: base64Char (a.toNat * 16 + b.toNat / 16) ::
      base64Char (b.toNat * 4 + c.toNat / 64) :: base64Char c.toNat :: toBase64 rest

/-- The line as it was read, or one made of the parts. -/
def evidenceLine (sig : NoteSignature) : CodeUnits :=
  if sig.raw ≠ [] then sig.raw
  else [0x2014, 0x20] ++ sig.name ++ [0x20] ++ ofScalars (toBase64 (sig.keyHash.getD [] ++ sig.signature))

def checkpointEvidenceText (checkpoint : Checkpoint) : CodeUnits :=
  checkpoint.signedText ++ [lf] ++ [lf].intercalate (checkpoint.signatures.map evidenceLine) ++ [lf]

def checkpointEvidenceBytes (checkpoint : Checkpoint) : Bytes := textEncode (checkpointEvidenceText checkpoint)

end Dnsid.Notes

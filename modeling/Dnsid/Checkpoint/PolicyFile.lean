import Dnsid.Checkpoint.Policy
import Dnsid.Foundations.MapSet

/-! # Policy files (`parseC2spPolicyFile` of `log-c2sp-tlog/src/policy.ts`)

A text is a list of characters; an offset in it counts UTF-16 code units. A `Map` is the list of its entries. What a
directive throws is wrapped with the number of its line.
-/
namespace Dnsid.Checkpoint
open Dnsid.Foundations
set_option autoImplicit false

abbrev PolicyText := List Char

/-! ## Lines -/

/-- The offset of the first character that is refused. -/
def invalidCharacter (offset : ℕ) : PolicyText → Option ℕ
  | [] => none
  | c :: rest =>
    if c.toNat = 0x09 ∨ c.toNat = 0x0a ∨ 0x20 ≤ c.toNat then invalidCharacter (offset + if c.toNat < 0x10000 then 1 else 2) rest
    else some offset

def assertPolicyCharacters (text : PolicyText) : Except Thrown Unit :=
  match invalidCharacter 0 text with
  | none => .ok ()
  | some index => .error (.verificationError ("invalid C2SP policy character at offset " ++ toString index))

/-- `[\t ]`. -/
def isBlank (c : Char) : Bool := c = '\t' || c = ' '

/-- `rawLine.replace(/^[\t ]+|[\t ]+$/g, '')`. -/
def trimBlanks (rawLine : PolicyText) : PolicyText := trimBoth isBlank rawLine

/-- `line.split(/[\t ]+/)` of a line without blanks at its ends. -/
def fields (line : PolicyText) : List PolicyText := (line.splitOnP isBlank).filter (· ≠ [])

/-! ## Directives -/

/-- The variables of the loop. -/
structure PolicyState where
  logs : List SignedNoteKey
  witnesses : List (PolicyText × SignedNoteKey)
  rules : List (PolicyText × C2spTlogQuorumRule)
  quorumRule : Option C2spTlogQuorumRule
  quorumLines : ℕ

def assertNewPolicyName (name : PolicyText) (state : PolicyState) : Except Thrown Unit := do
  throwIf (name = "none".toList) (.other "none is a reserved policy name")
  throwIf (name ∈ state.witnesses.map Prod.fst ∨ name ∈ state.rules.map Prod.fst)
    (.other ("duplicate policy name " ++ String.ofList name))

def parseDecimalThreshold (value : PolicyText) : Except Thrown ℕ := do
  throwIf (¬ (value.all Char.isDigit = true ∧ (value = ['0'] ∨ (value.head?.any fun c => c ≠ '0') = true)))
    (.other "invalid group threshold")
  throwIf (2 ^ 53 - 1 < Nat.ofDigitChars 10 value 0) (.other "invalid group threshold")
  return Nat.ofDigitChars 10 value 0

/-- What the text of a threshold asks of a group. -/
def requestedThreshold (thresholdText : PolicyText) (size : ℕ) : Except Thrown ℕ :=
  if thresholdText = "any".toList then .ok 1
  else if thresholdText = "all".toList then .ok size
  else parseDecimalThreshold thresholdText

def groupThreshold (thresholdText : PolicyText) (size : ℕ) : Except Thrown ℕ := do
  let threshold ← requestedThreshold thresholdText size
  throwIf (threshold < 1 ∨ threshold > size) (.other "invalid group threshold")
  return threshold

def groupMember (state : PolicyState) (member : PolicyText) : Except Thrown C2spTlogQuorumRule :=
  orThrow (.other ("group references unknown preceding witness or group " ++ String.ofList member))
    (state.rules.lookup member)

def readLog (state : PolicyState) (keyText : PolicyText) : Except Thrown PolicyState := do
  let key ← parseSignedNoteVerifierKey (String.ofList keyText)
  return { state with logs := state.logs ++ [key] }

def readWitness (state : PolicyState) (name keyText : PolicyText) : Except Thrown PolicyState := do
  assertNewPolicyName name state
  let key ← parseSignedNoteVerifierKey (String.ofList keyText)
  return { state with
    witnesses := setMember state.witnesses (name, key)
    rules := setMember state.rules (name, .witness (.key key)) }

def readGroup (state : PolicyState) (name thresholdText : PolicyText) (memberNames : List PolicyText) :
    Except Thrown PolicyState := do
  assertNewPolicyName name state
  throwIf (¬ memberNames.Nodup) (.other "group members must be distinct")
  let members ← memberNames.mapM (groupMember state)
  let threshold ← groupThreshold thresholdText members.length
  return { state with rules := setMember state.rules (name, .threshold (some threshold) members) }

/-- The rule of a quorum line. -/
def quorumRuleNamed (state : PolicyState) (name : PolicyText) : Except Thrown C2spTlogQuorumRule :=
  if name = "none".toList then .ok .none
  else orThrow (.other ("quorum references unknown preceding witness or group " ++ String.ofList name))
    (state.rules.lookup name)

def readQuorum (state : PolicyState) (name : PolicyText) : Except Thrown PolicyState := do
  let quorumLines := state.quorumLines + 1
  throwIf (quorumLines > 1) (.other "policy must contain exactly one quorum directive")
  let quorumRule ← quorumRuleNamed state name
  return { state with quorumRule := some quorumRule, quorumLines }

def readDirective (state : PolicyState) : List PolicyText → Except Thrown PolicyState
  | [directive, a] =>
    if directive = "log".toList then readLog state a
    else if directive = "quorum".toList then readQuorum state a
    else .error (.other "unsupported directive or wrong number of fields")
  | [directive, a, b] =>
    if directive = "log".toList then readLog state a
    else if directive = "witness".toList then readWitness state a b
    else .error (.other "unsupported directive or wrong number of fields")
  | directive :: a :: b :: c :: rest =>
    if directive = "witness".toList ∧ rest = [] then readWitness state a b
    else if directive = "group".toList then readGroup state a b (c :: rest)
    else .error (.other "unsupported directive or wrong number of fields")
  | _ => .error (.other "unsupported directive or wrong number of fields")

/-- One turn of the loop; `index` is that of the line. -/
def readLine (state : PolicyState) (entry : PolicyText × ℕ) : Except Thrown PolicyState :=
  if trimBlanks entry.1 = [] ∨ (trimBlanks entry.1).head? = some '#' then .ok state
  else (readDirective state (fields (trimBlanks entry.1))).mapError fun cause =>
    .verificationError ("invalid C2SP policy line " ++ toString (entry.2 + 1) ++ ": " ++ cause.message)

def readLines (text : PolicyText) : Except Thrown PolicyState :=
  (text.splitOn '\n').zipIdx.foldlM readLine ⟨[], [], [], none, 0⟩

/-! ## The policy -/

def isWitness : C2spTlogQuorumRule → Bool
  | .witness _ => true
  | _ => false

def legacyQuorum : C2spTlogQuorumRule → Option (Option ℤ)
  | .none => some (some 0)
  | .witness _ => some (some 1)
  | .threshold threshold members => if members.all isWitness then some threshold else none

/-- The names that a plain object has from `Object.prototype`. -/
def objectPrototype : List String :=
  ["constructor", "__defineGetter__", "__defineSetter__", "hasOwnProperty", "__lookupGetter__", "__lookupSetter__",
    "isPrototypeOf", "propertyIsEnumerable", "toString", "valueOf", "__proto__", "toLocaleString"]

/-- One turn of the loop over the logs. An inherited member has no `logKeys`. -/
def addLog (shared : C2spTlogOriginPolicy) (origins : List (String × C2spTlogOriginPolicy)) (log : SignedNoteKey) :
    Except Thrown (List (String × C2spTlogOriginPolicy)) :=
  match origins.lookup log.name with
  | some current => .ok (setMember origins (log.name, { current with logKeys := current.logKeys ++ [.key log] }))
  | none =>
    if log.name ∈ objectPrototype then .error (.other "Cannot read properties of undefined (reading 'push')")
    else .ok (setMember origins (log.name, { shared with logKeys := [.key log] }))

def parseC2spPolicyFile (text : PolicyText) : Except Thrown C2spTlogPolicy := do
  assertPolicyCharacters text
  let state ← readLines text
  let quorumRule ← orThrow (.verificationError "C2SP policy requires exactly one quorum directive")
    (if state.quorumLines ≠ 1 then none else state.quorumRule)
  let witnessKeys := state.witnesses.map Prod.snd
  throwIf (state.logs.any unsupportedLogType)
    (.verificationError "C2SP policy log keys must use the supported log signature type 0x01")
  throwIf (witnessKeys.any fun key => !hasSignatureType 0x04 key)
    (.verificationError "C2SP policy witness keys must use the supported cosignature type 0x04")
  assertDistinctUnderlyingKeys state.logs "C2SP policy logs"
  assertDistinctUnderlyingKeys witnessKeys "C2SP policy witnesses"
  throwIf (sharesKey witnessKeys state.logs)
    (.verificationError "C2SP policy log and witness keys must use distinct underlying public keys")
  let origins ← state.logs.foldlM (addLog {
    logKeys := [], witnessKeys := some (witnessKeys.map .key), quorum := legacyQuorum quorumRule
    quorumRule := some quorumRule }) []
  return ⟨none, fun origin => origins.lookup origin⟩

end Dnsid.Checkpoint

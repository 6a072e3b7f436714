import Dnsid.Foundations.ExceptRun
import Dnsid.Foundations.Runs
import Mathlib.Data.Nat.Notation

/-! # The local key provider (`sdk/src/local-key-provider.ts`)

Mutations of one provider run one after another. Each works on a copy of the store; a provider with a file writes a
backup of the store and then the copy, and takes the copy over once it was renamed into place. Every step of the file
system can fail. Signing calls run beside the mutations, but not while a key is activated.

A step of the file system takes effect when its promise settles, together with the code up to the next `await`.
-/
namespace Dnsid.Keys.Local
open Dnsid.Foundations
set_option autoImplicit false

inductive LocalKeyAlgorithm where
  | edDSA
  | es256
  deriving DecidableEq, Repr

/-- A private JWK. `signatureAlg` is what `jwkSignatureAlg` gives for it, an error when that throws. -/
structure StoredKey where
  kid : String
  signatureAlg : Except String String
  d : String

structure KeyStore where
  active : StoredKey
  retained : List StoredKey
  pending : List StoredKey

/-- The kids of the store. -/
def KeyStore.kids (store : KeyStore) : List String :=
  store.active.kid :: (store.pending.map StoredKey.kid ++ store.retained.map StoredKey.kid)

/-! ## Changes of the store -/

/-- What a mutation was asked for. -/
inductive Change where
  | generateKey (algorithm : Option String)
  | activate (kid : String)
  | supersede (kid : String)
  deriving DecidableEq, Repr

/-- What a mutation does, once its key is there. -/
inductive Update where
  | push (key : StoredKey)
  | activate (kid : String)
  | supersede (kid : String)

/-- `array.findIndex(k => k.kid === kid)`. -/
def keyIndex (keys : List StoredKey) (kid : String) : Option ℕ := keys.findIdx? fun k => k.kid = kid

def Update.apply (next : KeyStore) : Update → Except String KeyStore
  | .push key => .ok { next with pending := next.pending ++ [key] }
  | .activate kid =>
    match keyIndex next.pending kid with
    | none => .error s!"no pending key with kid \"{kid}\""
    | some idx =>
      match next.pending[idx]? with
      | none => .error s!"no pending key with kid \"{kid}\""
      | some incoming => .ok ⟨incoming, next.retained ++ [next.active], next.pending.eraseIdx idx⟩
  | .supersede kid =>
    if next.active.kid = kid then .error "cannot supersede the active key; activate a replacement first"
    else
      match keyIndex next.retained kid with
      | none => .error s!"no retained key with kid \"{kid}\""
      | some idx => .ok { next with retained := next.retained.eraseIdx idx }

/-- The value that the mutation resolves with. -/
def Update.result : Update → Option String
  | .push key => some key.kid
  | .activate _ => none
  | .supersede _ => none

def localKeyAlgorithm (key : StoredKey) : Except String LocalKeyAlgorithm := do
  let alg ← key.signatureAlg
  if alg = "EdDSA" then return .edDSA
  else if alg = "ES256" then return .es256
  else .error s!"unsupported local key algorithm: {alg}"

def validateKeyGeneration (algorithm : String) : Except String LocalKeyAlgorithm :=
  if algorithm = "EdDSA" then .ok .edDSA
  else if algorithm = "ES256" then .ok .es256
  else .error s!"unsupported local key algorithm: {algorithm}"

/-- The algorithm of the key to generate. -/
def selectedAlgorithm (next : KeyStore) : Option String → Except String LocalKeyAlgorithm
  | some algorithm => validateKeyGeneration algorithm
  | none => localKeyAlgorithm next.active

/-! ## Writing a file -/

/-- What `writeStore` awaits. A stage with a failure runs in a `finally`. -/
inductive WriteStage where
  | opening
  | writing
  | syncing
  | closing (failed : Option String)
  | renamingFile
  | syncingDirectory
  | removing (failed : Option String)
  deriving DecidableEq, Repr

/-- What the environment answers: an operation is done, a key was generated, or an operation failed. -/
inductive Answer where
  | done
  | key (key : StoredKey)
  | failed (message : String)

/-- The message of a failure; a generated key is no answer of the file system. -/
def Answer.settled : Answer → Option (Except String Unit)
  | .done => some (.ok ())
  | .key _ => none
  | .failed message => some (.error message)

/-- The next stage, or how `writeStore` ended. -/
def writeStore : WriteStage → Except String Unit → WriteStage ⊕ Except String Unit
  | .opening, .ok () => .inl .writing
  | .opening, .error message => .inr (.error message)
  | .writing, .ok () => .inl .syncing
  | .writing, .error message => .inl (.closing (some message))
  | .syncing, .ok () => .inl (.closing none)
  | .syncing, .error message => .inl (.closing (some message))
  | .closing none, .ok () => .inl .renamingFile
  | .closing (some failure), .ok () => .inl (.removing (some failure))
  | .closing _, .error message => .inl (.removing (some message))
  | .renamingFile, .ok () => .inl .syncingDirectory
  | .renamingFile, .error message => .inl (.removing (some message))
  | .syncingDirectory, .ok () => .inl (.removing none)
  | .syncingDirectory, .error message => .inl (.removing (some message))
  | .removing none, .ok () => .inr (.ok ())
  | .removing (some failure), .ok () => .inr (.error failure)
  | .removing _, .error message => .inr (.error message)

/-! ## The provider -/

/-- Where the running mutation stands. `replaced` records that its file was renamed into place; nothing reads it. -/
inductive Phase where
  /-- Awaits `generateStoredKey`. -/
  | generating (next : KeyStore) (algorithm : LocalKeyAlgorithm)
  /-- Awaits `change(next)`. -/
  | changed (next : KeyStore) (update : Update)
  | backingUp (next : KeyStore) (update : Update) (stage : WriteStage)
  | writing (next : KeyStore) (update : Update) (stage : WriteStage) (replaced : Bool)

structure Mutation where
  call : ℕ
  change : Change
  phase : Phase

/-- Where a call stands. -/
inductive Call where
  | signing (kid : String)
  | signed
  /-- `activate(kid)` awaits the signing calls that ran when it was called. -/
  | awaitingSigners (kid : String) (operations : List ℕ)
  /-- The mutation of the call is queued or runs. -/
  | mutating (change : Change)
  /-- `activate` before its `finally`. -/
  | finishing (outcome : Except String Unit)
  | mutated (result : Option String)
  | rejected (message : String)

/-- `filePath` and its `.bak`. -/
structure Files where
  content : KeyStore
  backup : Option KeyStore

structure LocalKeyProvider where
  store : KeyStore
  /-- `none` for a provider without `filePath`. -/
  files : Option Files
  activating : Bool
  calls : List Call
  /-- Mutations that wait for the ones before them. -/
  queue : List (ℕ × Change)
  running : Option Mutation

inductive Action where
  | sign
  | signKey (kid : String)
  | generateKey (algorithm : Option String)
  | activate (kid : String)
  | supersede (kid : String)
  /-- What call `n` awaits settles: signing, `Promise.allSettled`, or the mutation before a `finally`. -/
  | settleCall (n : ℕ) (answer : Answer)
  /-- The next mutation starts. -/
  | begin
  /-- What the running mutation awaits settles. -/
  | settle (answer : Answer)

namespace LocalKeyProvider

def enter (p : LocalKeyProvider) (call : Call) : LocalKeyProvider := { p with calls := p.calls ++ [call] }

def move (p : LocalKeyProvider) (n : ℕ) (call : Call) : LocalKeyProvider := { p with calls := p.calls.set n call }

/-- `mutate` of a new call. -/
def mutate (p : LocalKeyProvider) (change : Change) : LocalKeyProvider :=
  { p with queue := p.queue ++ [(p.calls.length, change)] }.enter (.mutating change)

def isSigning (p : LocalKeyProvider) (n : ℕ) : Bool :=
  match p.calls[n]? with
  | some (.signing _) => true
  | _ => false

/-- The operations in `signing`. -/
def signing (p : LocalKeyProvider) : List ℕ := (List.range p.calls.length).filter p.isSigning

/-- The kid whose key `signKey(kid)` signs with. -/
def startSigning (p : LocalKeyProvider) (kid : String) : LocalKeyProvider :=
  if p.activating then p.enter (.rejected "key activation is in progress")
  else if kid = p.store.active.kid ∨ kid ∈ p.store.pending.map StoredKey.kid then p.enter (.signing kid)
  else p.enter (.rejected s!"key is not active or pending for signing: {kid}")

def startActivate (p : LocalKeyProvider) (kid : String) : LocalKeyProvider :=
  if p.activating then p.enter (.rejected "key activation is already in progress")
  else { p with activating := true }.enter (.awaitingSigners kid p.signing)

/-- The mutation of call `n` has settled. -/
def settleMutation (p : LocalKeyProvider) (n : ℕ) (change : Change) (outcome : Except String (Option String)) :
    LocalKeyProvider :=
  let p := { p with running := none }
  match change, outcome with
  | .activate _, .ok _ => p.move n (.finishing (.ok ()))
  | .activate _, .error message => p.move n (.finishing (.error message))
  | _, .ok result => p.move n (.mutated result)
  | _, .error message => p.move n (.rejected message)

/-- The change of a mutation up to its first `await`. -/
def startChange (store : KeyStore) : Change → Except String Phase
  | .generateKey algorithm => do
    let algorithm ← selectedAlgorithm store algorithm
    return .generating store algorithm
  | .activate kid => do
    let next ← Update.apply store (.activate kid)
    return .changed next (.activate kid)
  | .supersede kid => do
    let next ← Update.apply store (.supersede kid)
    return .changed next (.supersede kid)

def beginMutation (p : LocalKeyProvider) : Option LocalKeyProvider :=
  match p.running, p.queue with
  | none, (n, change) :: queue =>
    let p := { p with queue }
    match startChange p.store change with
    | .error message => some (p.settleMutation n change (.error message))
    | .ok phase => some { p with running := some ⟨n, change, phase⟩ }
  | _, _ => none

def setPhase (p : LocalKeyProvider) (m : Mutation) (phase : Phase) : LocalKeyProvider :=
  { p with running := some { m with phase } }

/-- The backup has been renamed into place. -/
def setBackup (p : LocalKeyProvider) : LocalKeyProvider :=
  { p with files := p.files.map fun files => { files with backup := some p.store } }

/-- The copy has been renamed into place, and memory follows. -/
def commit (p : LocalKeyProvider) (next : KeyStore) : LocalKeyProvider :=
  { p with store := next, files := p.files.map fun files => { files with content := next } }

def settleBackup (p : LocalKeyProvider) (m : Mutation) (next : KeyStore) (update : Update) (stage : WriteStage)
    (result : Except String Unit) : LocalKeyProvider :=
  match writeStore stage result with
  | .inl stage' => (if stage = .renamingFile ∧ result.isOk then p.setBackup else p).setPhase m (.backingUp next update stage')
  | .inr (.ok ()) => p.setPhase m (.writing next update .opening false)
  | .inr (.error message) => p.settleMutation m.call m.change (.error message)

def settleWrite (p : LocalKeyProvider) (m : Mutation) (next : KeyStore) (update : Update) (stage : WriteStage)
    (replaced : Bool) (result : Except String Unit) : LocalKeyProvider :=
  match writeStore stage result with
  | .inl stage' =>
    if stage = .renamingFile ∧ result.isOk then (p.commit next).setPhase m (.writing next update stage' true)
    else p.setPhase m (.writing next update stage' replaced)
  | .inr (.ok ()) => p.settleMutation m.call m.change (.ok update.result)
  | .inr (.error message) => p.settleMutation m.call m.change (.error message)

def settleRunning (p : LocalKeyProvider) (m : Mutation) (answer : Answer) : Option LocalKeyProvider :=
  match m.phase with
  | .generating next _ =>
    match answer with
    | .key key => some (p.setPhase m (.changed { next with pending := next.pending ++ [key] } (.push key)))
    | .failed message => some (p.settleMutation m.call m.change (.error message))
    | .done => none
  | .changed next update =>
    match answer with
    | .done =>
      if p.files.isSome then some (p.setPhase m (.backingUp next update .opening))
      else some ((p.commit next).settleMutation m.call m.change (.ok update.result))
    | _ => none
  | .backingUp next update stage => answer.settled.map (p.settleBackup m next update stage)
  | .writing next update stage replaced => answer.settled.map (p.settleWrite m next update stage replaced)

def settleCallOf (p : LocalKeyProvider) (n : ℕ) (answer : Answer) : Call → Option LocalKeyProvider
  | .signing _ =>
    match answer with
    | .done => some (p.move n .signed)
    | .failed message => some (p.move n (.rejected message))
    | .key _ => none
  | .awaitingSigners kid operations =>
    if operations.any p.isSigning then none
    else some ({ p with queue := p.queue ++ [(n, Change.activate kid)] }.move n (.mutating (.activate kid)))
  | .finishing outcome =>
    match outcome with
    | .ok () => some ({ p with activating := false }.move n (.mutated none))
    | .error message => some ({ p with activating := false }.move n (.rejected message))
  | _ => none

end LocalKeyProvider

open LocalKeyProvider

def step : Action → LocalKeyProvider → Option LocalKeyProvider
  | .sign, p => some (p.startSigning p.store.active.kid)
  | .signKey kid, p => some (p.startSigning kid)
  | .generateKey algorithm, p => some (p.mutate (.generateKey algorithm))
  | .activate kid, p => some (p.startActivate kid)
  | .supersede kid, p => some (p.mutate (.supersede kid))
  | .settleCall n answer, p => p.calls[n]?.bind (p.settleCallOf n answer)
  | .begin, p => p.beginMutation
  | .settle answer, p => p.running.bind fun m => p.settleRunning m answer

/-! ## What a step stands for -/

/-- The call whose mutation the action commits, and the update. -/
def committedBy (p : LocalKeyProvider) : Action → Option (ℕ × Update)
  | .settle .done => p.running.bind fun m =>
    match m.phase with
    | .changed _ update => if p.files.isNone then some (m.call, update) else none
    | .writing _ update .renamingFile _ => some (m.call, update)
    | _ => none
  | _ => none

/-- The kid whose key a signing operation starts with. -/
def signsWith (p : LocalKeyProvider) : Action → Option String
  | .sign => if p.activating then none else some p.store.active.kid
  | .signKey kid =>
    if p.activating = false ∧ (kid = p.store.active.kid ∨ kid ∈ p.store.pending.map StoredKey.kid) then some kid
    else none
  | _ => none

/-- The kid of the key that the action generates. -/
def generatedBy : Action → Option String
  | .settle (.key key) => some key.kid
  | _ => none

/-- The updates that are committed along the run. -/
def commits : List Action → LocalKeyProvider → List (ℕ × Update)
  | [], _ => []
  | a :: acts, p =>
    match step a p with
    | none => []
    | some p' => (committedBy p a).toList ++ commits acts p'

/-- The store once all updates were made, each to the store that the one before left. -/
def replay (store : KeyStore) (updates : List (ℕ × Update)) : Except String KeyStore :=
  updates.foldlM (fun store u => u.2.apply store) store

/-- A provider that was just loaded. -/
structure Loaded (p : LocalKeyProvider) : Prop where
  files : ∀ files, p.files = some files → files.content = p.store
  activating : p.activating = false
  calls : p.calls = []
  queue : p.queue = []
  running : p.running = none

end Dnsid.Keys.Local

import Dnsid.Notes.Evidence
import Dnsid.Protocol.StrictJson

/-! # What the policy reads of a note

The policy reads a parsed checkpoint as a `NoteCheckpoint`, whose texts are strings of characters. Bytes that were decoded
have no lone surrogates, a parsed note of such a text is cut where none can come about, and so the policy sees all of it but
the raw lines (`noteCheckpoint_inj`).
-/
namespace Dnsid.Notes
open Dnsid.Foundations Dnsid.Foundations.Utf16 Dnsid.Protocol
open Dnsid.Checkpoint (isJsSpace NoteCheckpoint)
set_option autoImplicit false

def noteSignature (sig : NoteSignature) : Checkpoint.NoteSignature := ⟨toText sig.name, sig.keyHash, sig.signature⟩

def noteCheckpoint (checkpoint : Checkpoint) : NoteCheckpoint where
  origin := toText checkpoint.origin
  treeSize := checkpoint.treeSize
  rootHash := checkpoint.rootHash
  signatures := checkpoint.signatures.map noteSignature
  signedText := toText checkpoint.signedText

/-! ## Cuts -/

/-- White space is no surrogate: of a surrogate there is no character. -/
theorem plain_of_isSpace {u : UInt16} (h : isSpace u = true) : Plain u := by
  have hvisible : ∀ u, isHigh u = true ∨ isLow u = true → isSpace u = false := by
    intro u hu
    have hinvalid : ¬ u.toNat.isValidChar := by
      simp only [isHigh, isLow, Bool.and_eq_true, decide_eq_true_eq] at hu
      simp only [Nat.isValidChar]
      omega
    rw [isSpace, unitChar, Char.ofNat, dif_neg hinvalid]
    decide
  constructor
  · rw [Bool.eq_false_iff]
    intro hhigh
    rw [hvisible u (.inl hhigh)] at h
    cases h
  · rw [Bool.eq_false_iff]
    intro hlow
    rw [hvisible u (.inr hlow)] at h
    cases h

theorem plain_of_all {text : CodeUnits} (h : text.all isSpace = true) : ∀ u ∈ text, Plain u :=
  fun u hu => plain_of_isSpace (List.all_eq_true.mp h u hu)

/-- A checkpoint without lone surrogates. -/
structure WellFormedNote (checkpoint : Checkpoint) : Prop where
  origin : IsWellFormed checkpoint.origin
  signedText : IsWellFormed checkpoint.signedText
  names : ∀ sig ∈ checkpoint.signatures, IsWellFormed sig.name

/-- The same signature in what is read of it. -/
def SameSignature (a b : NoteSignature) : Prop := a.name = b.name ∧ a.keyHash = b.keyHash ∧ a.signature = b.signature

theorem map_noteSignature_inj {as bs : List NoteSignature} (ha : ∀ a ∈ as, IsWellFormed a.name)
    (hb : ∀ b ∈ bs, IsWellFormed b.name) :
    as.map noteSignature = bs.map noteSignature ↔ List.Forall₂ SameSignature as bs := by
  induction as generalizing bs with
  | nil => cases bs <;> simp
  | cons a as ih =>
    cases bs with
    | nil => simp
    | cons b bs =>
      rw [List.forall_mem_cons] at ha hb
      rw [List.map_cons, List.map_cons, List.cons.injEq, ih ha.2 hb.2, List.forall₂_cons, noteSignature, noteSignature,
        Checkpoint.NoteSignature.mk.injEq, toText_inj ha.1 hb.1, SameSignature]

/-- **The policy sees the whole note.** What it reads of two parsed notes is the same iff they are the same but for the raw
lines of their signatures. -/
theorem noteCheckpoint_inj {checkpoint checkpoint' : Checkpoint} (h : WellFormedNote checkpoint)
    (h' : WellFormedNote checkpoint') :
    noteCheckpoint checkpoint = noteCheckpoint checkpoint' ↔
      checkpoint.origin = checkpoint'.origin ∧ checkpoint.treeSize = checkpoint'.treeSize ∧
        checkpoint.rootHash = checkpoint'.rootHash ∧
          List.Forall₂ SameSignature checkpoint.signatures checkpoint'.signatures ∧
            checkpoint.signedText = checkpoint'.signedText := by
  rw [noteCheckpoint, noteCheckpoint, Checkpoint.NoteCheckpoint.mk.injEq, toText_inj h.origin h'.origin,
    map_noteSignature_inj h.names h'.names, toText_inj h.signedText h'.signedText]

/-- The bytes that a signature is checked over are those of the note. -/
theorem utf8_toText (units : CodeUnits) : utf8 (toText units).toList = textEncode units := by
  rw [toText, String.toList_ofList]
  rfl

end Dnsid.Notes

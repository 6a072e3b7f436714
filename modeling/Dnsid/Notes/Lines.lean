import Dnsid.Notes.ParseCheckpoint

/-! # Lines of a note

The signed text ends with a line feed and has no blank line in it; a signature line starts and ends with a visible
character. These two facts say how a note comes apart again after its parts were put together.
-/
namespace Dnsid.Notes
open Dnsid.Foundations Dnsid.Foundations.Utf16 Dnsid.Protocol
open Dnsid.Checkpoint (isJsSpace fromB64)
set_option autoImplicit false

/-! ## Blank lines -/

def NoBlank (text : CodeUnits) : Prop := ∀ a b, text ≠ a ++ lf :: lf :: b

theorem blankLine_spec (text : CodeUnits) :
    (blankLine text = none ∧ NoBlank text) ∨
      ∃ a b, text = a ++ lf :: lf :: b ∧ blankLine text = some a.length ∧ NoBlank (a ++ [lf]) := by
  induction text with
  | nil => exact .inl ⟨rfl, fun a b h => by cases a <;> cases h⟩
  | cons u rest ih =>
    cases rest with
    | nil =>
      refine .inl ⟨rfl, fun a b h => ?_⟩
      have hlen := congrArg List.length h
      simp at hlen
      omega
    | cons v rest =>
      by_cases huv : u = lf ∧ v = lf
      · obtain ⟨rfl, rfl⟩ := huv
        refine .inr ⟨[], rest, rfl, by rw [blankLine, if_pos ⟨rfl, rfl⟩]; rfl, fun a b h => ?_⟩
        have hlen := congrArg List.length h
        simp at hlen
        omega
      · rw [blankLine, if_neg huv]
        rcases ih with ⟨hnone, hno⟩ | ⟨a, b, heq, hsome, hno⟩
        · refine .inl ⟨by rw [hnone]; rfl, fun a b h => ?_⟩
          cases a with
          | nil =>
            obtain ⟨hu, htail⟩ := List.cons_eq_cons.mp h
            exact huv ⟨hu, (List.cons_eq_cons.mp htail).1⟩
          | cons c a => exact hno a b (List.cons_eq_cons.mp h).2
        · refine .inr ⟨u :: a, b, by rw [heq]; rfl, by rw [hsome]; rfl, fun a' b' h => ?_⟩
          cases a' with
          | nil =>
            obtain ⟨hu, htail⟩ := List.cons_eq_cons.mp h
            cases a with
            | nil => exact huv ⟨hu, (List.cons_eq_cons.mp heq).1⟩
            | cons c a => exact huv ⟨hu, (List.cons_eq_cons.mp heq).1.trans (List.cons_eq_cons.mp htail).1⟩
          | cons c a' => exact hno a' b' (List.cons_eq_cons.mp h).2

theorem noBlank_of_append {s t : CodeUnits} (h : NoBlank (s ++ t)) : NoBlank s := by
  intro a b hs
  exact h a (b ++ t) (by rw [hs, List.append_assoc, List.cons_append, List.cons_append])

/-- The first blank line of a text is where the part without one ends. -/
theorem blankLine_append {s : CodeUnits} (h : NoBlank (s ++ [lf])) (rest : CodeUnits) :
    blankLine (s ++ lf :: lf :: rest) = some s.length := by
  rcases blankLine_spec (s ++ lf :: lf :: rest) with ⟨-, hno⟩ | ⟨a, b, heq, hsome, hno⟩
  · exact absurd rfl (hno s rest)
  · rw [hsome, Option.some.injEq]
    rcases Nat.lt_trichotomy a.length s.length with hlt | hlen | hlt
    · -- the blank line would lie within the first part
      have hpre : a ++ [lf, lf] <+: s ++ [lf] := by
        have hl : a ++ [lf, lf] <+: s ++ lf :: lf :: rest := by
          refine ⟨b, ?_⟩
          rw [heq, List.append_assoc]
          rfl
        have hr : s ++ [lf] <+: s ++ lf :: lf :: rest := by
          refine ⟨lf :: rest, ?_⟩
          rw [List.append_assoc]
          rfl
        apply List.prefix_of_prefix_length_le hl hr
        simp
        omega
      obtain ⟨t, ht⟩ := hpre
      exact absurd (by rw [← ht, List.append_assoc]; rfl) (h a t)
    · exact hlen
    · have hpre : s ++ [lf, lf] <+: a ++ [lf] := by
        have hl : s ++ [lf, lf] <+: s ++ lf :: lf :: rest := by
          refine ⟨rest, ?_⟩
          rw [List.append_assoc]
          rfl
        have hr : a ++ [lf] <+: s ++ lf :: lf :: rest := by
          refine ⟨lf :: b, ?_⟩
          rw [heq, List.append_assoc]
          rfl
        apply List.prefix_of_prefix_length_le hl hr
        simp
        omega
      obtain ⟨t, ht⟩ := hpre
      exact absurd (by rw [← ht, List.append_assoc]; rfl) (hno s t)

theorem splitNote_append {s : CodeUnits} (h : NoBlank (s ++ [lf])) (rest : CodeUnits) :
    splitNote (s ++ lf :: lf :: rest) = (s ++ [lf], trim rest) := by
  rw [splitNote, blankLine_append h]
  have htake : (s ++ lf :: lf :: rest).take (s.length + 1) = s ++ [lf] := by
    rw [List.take_append, List.take_of_length_le (Nat.le_succ _), Nat.add_sub_cancel_left]
    rfl
  have hdrop : (s ++ lf :: lf :: rest).drop (s.length + 2) = rest := by
    rw [List.drop_append, List.drop_of_length_le (by omega), Nat.add_sub_cancel_left]
    rfl
  simp only [htake, hdrop]

theorem isSpace_lf : isSpace lf = true := by decide

theorem isSpace_cr : isSpace cr = true := by decide

/-- The signed text ends with a line feed and has no blank line. -/
theorem splitNote_signed (normalized : CodeUnits) :
    ∃ s, (splitNote normalized).1 = s ++ [lf] ∧ NoBlank (s ++ [lf]) := by
  rcases blankLine_spec normalized with ⟨hnone, hno⟩ | ⟨a, b, rfl, -, hno⟩
  · refine ⟨trimEnd normalized, by rw [splitNote, hnone], fun a b h => ?_⟩
    rcases List.eq_nil_or_concat b with rfl | ⟨b', u, rfl⟩
    · -- the trimmed text would end with a line feed
      have htrim : trimEnd normalized = a ++ [lf] := by
        have hsplit : trimEnd normalized ++ [lf] = (a ++ [lf]) ++ [lf] := by rw [h, List.append_assoc]; rfl
        exact List.append_cancel_right hsplit
      rw [trimEnd] at htrim
      rcases trimEnd_cases isSpace normalized with hnil | ⟨init, u, hu, hvisible⟩
      · rw [hnil] at htrim
        simp at htrim
      · rw [hu] at htrim
        obtain ⟨-, hlast⟩ := List.append_inj' htrim rfl
        rw [List.singleton_inj.mp hlast, isSpace_lf] at hvisible
        cases hvisible
    · have hsplit : trimEnd normalized = a ++ lf :: lf :: b' := by
        have h' : trimEnd normalized ++ [lf] = (a ++ lf :: lf :: b') ++ [u] := by
          rw [h, List.append_assoc, List.cons_append, List.cons_append, List.concat_eq_append]
        exact (List.append_inj' h' rfl).1
      obtain ⟨t, ht⟩ := trimEnd_isPrefix isSpace normalized
      exact noBlank_of_append (ht ▸ hno) a b' hsplit
  · rw [splitNote_append hno]
    exact ⟨a, rfl, hno⟩

/-! ## Signature lines -/

/-- A visible character that is no surrogate. -/
structure Visible (u : UInt16) : Prop where
  space : isSpace u = false
  high : isHigh u = false
  low : isLow u = false

/-- A line that starts and ends with a visible character. -/
structure Line (line : CodeUnits) : Prop where
  noLf : lf ∉ line
  first : ∃ u rest, line = u :: rest ∧ Visible u
  last : ∃ init u, line = init ++ [u] ∧ Visible u

theorem visible_of_base64 {u : UInt16} (h : isBase64Unit u = true) : Visible u := by
  have hlt : u.toNat < 128 := by
    have hu := u.toNat_lt
    have hchar : (unitChar u).toNat = u.toNat ∨ (unitChar u) = '\x00' := by
      by_cases hv : u.toNat.isValidChar
      · left
        rw [unitChar, Char.ofNat, dif_pos hv]
        rfl
      · right
        rw [unitChar, Char.ofNat, dif_neg hv]
        rfl
    rcases hchar with hchar | hchar
    · simp only [isBase64Unit, base64Value, Bool.or_eq_true, decide_eq_true_eq] at h
      by_contra hge
      have hbig : ∀ c : Char, c.toNat < 128 → unitChar u ≠ c := by
        rintro c hc rfl
        omega
      have hle : ∀ c : Char, c.toNat < 128 → ¬ unitChar u ≤ c := by
        intro c hc hle
        have hval : (unitChar u).toNat ≤ c.toNat := hle
        omega
      simp [hbig, hle] at h
    · rw [isBase64Unit, hchar] at h
      exact absurd h (by decide)
  have hall : ∀ n < 128, isBase64Unit (.ofNat n) = true →
      isSpace (.ofNat n) = false ∧ isHigh (.ofNat n) = false ∧ isLow (.ofNat n) = false := by decide
  have hu : UInt16.ofNat u.toNat = u := UInt16.ofNat_toNat
  obtain ⟨hspace, hhigh, hlow⟩ := hall u.toNat hlt (by rw [hu]; exact h)
  rw [hu] at hspace hhigh hlow
  exact ⟨hspace, hhigh, hlow⟩

theorem visible_mark : Visible 0x2014 ∧ Visible 0x2d := ⟨⟨by decide, by decide, by decide⟩, by decide, by decide, by decide⟩

/-- A signature line that is read is a line, and is kept as it is. -/
theorem line_of_parsed {line : CodeUnits} {sig : NoteSignature} (hlf : lf ∉ line)
    (h : parseNoteSignature line = .ok sig) : Line line ∧ sig.raw = line := by
  simp only [parseNoteSignature, bind_eq_ok, orThrow_eq_ok] at h
  obtain ⟨m, hparts, bytes, -, h⟩ := h
  have hraw : sig.raw = line := by
    split at h <;> · obtain rfl := pure_eq_ok.mp h; rfl
  simp only [signatureParts, Option.bind_eq_bind, Option.bind_eq_some_iff] at hparts
  obtain ⟨rest, hmark, hparts⟩ := hparts
  split at hparts
  case isFalse => cases hparts
  case isTrue hcond =>
    obtain ⟨-, -, hvalue, hall⟩ := hcond
    refine ⟨⟨hlf, ?_, ?_⟩, hraw⟩
    · unfold afterMark at hmark
      split at hmark
      · next u v rest' =>
        split at hmark
        · next hdash => exact ⟨u, v :: rest', rfl, hdash.1 ▸ visible_mark.1⟩
        · split at hmark
          · next hdash => exact ⟨u, v :: rest', rfl, hdash.1 ▸ visible_mark.2⟩
          · cases hmark
      · cases hmark
    · -- the line ends with the base64 part
      obtain ⟨init, u, hu⟩ := (List.eq_nil_or_concat _).resolve_left hvalue
      have hlast : Visible u := by
        refine visible_of_base64 (List.all_eq_true.mp hall u ?_)
        rw [hu, List.concat_eq_append]
        exact List.mem_append_right _ List.mem_cons_self
      have hsuffix : (rest.dropWhile fun u => !isSpace u).dropWhile isSpace <:+ line := by
        refine (List.dropWhile_suffix _).trans ((List.dropWhile_suffix _).trans ?_)
        unfold afterMark at hmark
        split at hmark
        · next a b rest' =>
          split at hmark
          · obtain rfl := Option.some.inj hmark
            exact ⟨[a, b], rfl⟩
          · split at hmark
            · obtain rfl := Option.some.inj hmark
              exact (List.tail_suffix _).trans ⟨[a, b], rfl⟩
            · cases hmark
        · cases hmark
      obtain ⟨pre, hpre⟩ := hsuffix
      refine ⟨pre ++ init, u, ?_, hlast⟩
      rw [← hpre, hu, List.concat_eq_append, List.append_assoc]

theorem not_mem_splitOn {text line : CodeUnits} (h : line ∈ text.splitOn lf) : lf ∉ line := by
  induction text generalizing line with
  | nil =>
    rw [List.splitOn_nil, List.mem_singleton] at h
    rw [h]
    exact List.not_mem_nil
  | cons u text ih =>
    rw [List.splitOn_cons_eq_if_modifyHead] at h
    split at h
    · rcases List.mem_cons.mp h with rfl | h
      · exact List.not_mem_nil
      · exact ih h
    · next hne =>
      cases hsplit : text.splitOn lf with
      | nil => exact absurd hsplit (List.splitOn_ne_nil _ _)
      | cons first rest =>
        rw [hsplit, List.modifyHead_cons] at h
        rcases List.mem_cons.mp h with rfl | h
        · rw [List.mem_cons, not_or]
          exact ⟨fun heq => hne (by rw [heq]; exact beq_self_eq_true _), ih (hsplit ▸ List.mem_cons_self)⟩
        · exact ih (hsplit ▸ List.mem_cons_of_mem _ h)

def joinLines (lines : List CodeUnits) : CodeUnits := [lf].intercalate lines

theorem joinLines_cons_cons (line next : CodeUnits) (lines : List CodeUnits) :
    joinLines (line :: next :: lines) = line ++ lf :: joinLines (next :: lines) := by
  rw [joinLines, List.intercalate_cons_cons, List.append_assoc]
  rfl

theorem joinLines_ends {line : CodeUnits} {lines : List CodeUnits} (h : ∀ l ∈ line :: lines, Line l) :
    (∃ u rest, joinLines (line :: lines) = u :: rest ∧ Visible u) ∧
      ∃ init u, joinLines (line :: lines) = init ++ [u] ∧ Visible u := by
  induction lines generalizing line with
  | nil =>
    rw [joinLines, List.intercalate_singleton]
    exact ⟨(h line List.mem_cons_self).first, (h line List.mem_cons_self).last⟩
  | cons next lines ih =>
    obtain ⟨u, rest, hfirst, hu⟩ := (h line List.mem_cons_self).first
    obtain ⟨-, init, v, hlast, hv⟩ := ih fun l hl => h l (List.mem_cons_of_mem _ hl)
    rw [joinLines_cons_cons]
    refine ⟨⟨u, rest ++ lf :: joinLines (next :: lines), by rw [hfirst]; rfl, hu⟩, line ++ lf :: init, v, ?_, hv⟩
    rw [hlast, List.append_assoc]
    rfl

/-- Lines that were put together are read one by one. -/
theorem signatureLines_joined {lines : List CodeUnits} (h : ∀ l ∈ lines, Line l) :
    signatureLines (trim (joinLines lines ++ [lf])) = lines := by
  cases lines with
  | nil => decide
  | cons line lines =>
    obtain ⟨⟨u, rest, hfirst, hu⟩, init, v, hlast, hv⟩ := joinLines_ends h
    have hsolid : Solid isSpace (joinLines (line :: lines)) := ⟨⟨u, rest, hfirst, hu.space⟩, ⟨init, v, hlast, hv.space⟩⟩
    have hback : [lf].all isSpace = true := by decide
    have htrim : trim ([] ++ joinLines (line :: lines) ++ [lf]) = joinLines (line :: lines) :=
      trimBoth_solid (fun _ hc => hc) rfl hback hsolid
    rw [List.nil_append] at htrim
    rw [htrim, signatureLines, joinLines, List.splitOn_intercalate lf (fun l hl => (h l hl).noLf) (List.cons_ne_nil _ _),
      List.filter_eq_self]
    intro l hl
    obtain ⟨u, rest, heq, -⟩ := (h l hl).first
    rw [heq]
    rfl

end Dnsid.Notes

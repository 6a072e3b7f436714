import Dnsid.Foundations.ExceptRun
import Dnsid.Notes.Lines

/-! # Exported checkpoints

The evidence of a checkpoint is its signed text, a blank line and its signature lines. Reading it back goes through
UTF-8, which mends lone surrogates and drops a byte order mark, and through the line ends once more: what these leave
alone is read as it was.
-/
namespace Dnsid.Notes
open Dnsid.Foundations Dnsid.Foundations.Utf16 Dnsid.Protocol
set_option autoImplicit false

/-! ## Line ends -/

theorem lf_ne_cr : lf ≠ cr := by decide

theorem crlfToLf_cons {u : UInt16} (h : u ≠ cr) (t : CodeUnits) : crlfToLf (u :: t) = u :: crlfToLf t := by
  cases t with
  | nil => rfl
  | cons v t => rw [crlfToLf, if_neg fun hcr => h hcr.1]

/-- A line feed parts a text in two. -/
theorem crlfToLf_append (s t : CodeUnits) : crlfToLf (s ++ lf :: t) = crlfToLf (s ++ [lf]) ++ crlfToLf t := by
  induction s using crlfToLf.induct with
  | case1 => rw [List.nil_append, List.nil_append, crlfToLf_cons lf_ne_cr]; rfl
  | case2 u =>
    rw [List.singleton_append, List.singleton_append, crlfToLf, crlfToLf]
    split
    · rfl
    · rw [crlfToLf_cons lf_ne_cr]
      rfl
  | case3 u v rest h ih =>
    show crlfToLf (u :: v :: (rest ++ lf :: t)) = crlfToLf (u :: v :: (rest ++ [lf])) ++ crlfToLf t
    rw [crlfToLf, crlfToLf, if_pos h, if_pos h, ih]
    rfl
  | case4 u v rest h ih =>
    show crlfToLf (u :: v :: (rest ++ lf :: t)) = crlfToLf (u :: v :: (rest ++ [lf])) ++ crlfToLf t
    rw [crlfToLf, crlfToLf, if_neg h, if_neg h, ← List.cons_append, ih]
    rfl

/-- And stays. -/
theorem crlfToLf_lf (s : CodeUnits) : ∃ s', crlfToLf (s ++ [lf]) = s' ++ [lf] := by
  induction s using crlfToLf.induct with
  | case1 => exact ⟨[], rfl⟩
  | case2 u =>
    rw [List.singleton_append, crlfToLf]
    split
    · exact ⟨[], rfl⟩
    · exact ⟨[u], rfl⟩
  | case3 u v rest h ih =>
    obtain ⟨s', hs'⟩ := ih
    exact ⟨lf :: s', by rw [List.cons_append, List.cons_append, crlfToLf, if_pos h, hs']; rfl⟩
  | case4 u v rest h ih =>
    obtain ⟨s', hs'⟩ := ih
    exact ⟨u :: s', by rw [List.cons_append, List.cons_append, crlfToLf, if_neg h, ← List.cons_append, hs']; rfl⟩

/-- After a text with its line ends settled the next line starts afresh. -/
theorem crlfToLf_settled {s : CodeUnits} (h : crlfToLf (s ++ [lf]) = s ++ [lf]) (t : CodeUnits) :
    crlfToLf ((s ++ [lf]) ++ lf :: t) = (s ++ [lf]) ++ lf :: crlfToLf t := by
  rw [List.append_assoc, List.singleton_append, crlfToLf_append, h, crlfToLf_cons lf_ne_cr]

theorem crlfToLf_eq_self {text : CodeUnits} : crlfToLf text = text ↔ ¬ [cr, lf] <:+: text := by
  induction text using crlfToLf.induct with
  | case1 => simp [crlfToLf]
  | case2 u =>
    refine iff_of_true rfl fun h => ?_
    have hlen := h.length_le
    simp at hlen
  | case3 u v rest h ih =>
    obtain ⟨rfl, rfl⟩ := h
    refine iff_of_false (fun heq => ?_) fun hno => hno ⟨[], rest, rfl⟩
    rw [crlfToLf, if_pos ⟨rfl, rfl⟩] at heq
    exact lf_ne_cr (List.cons_eq_cons.mp heq).1
  | case4 u v rest h ih =>
    have hinfix : [cr, lf] <:+: u :: v :: rest ↔ [cr, lf] <+: u :: v :: rest ∨ [cr, lf] <:+: v :: rest :=
      List.infix_cons_iff
    rw [crlfToLf, if_neg h, List.cons_inj_right, ih, hinfix, not_or]
    refine ⟨fun hno => ⟨fun hpre => ?_, hno⟩, fun hno => hno.2⟩
    obtain ⟨hu, hpre⟩ := List.cons_prefix_cons.mp hpre
    exact h ⟨hu.symm, ((List.cons_prefix_cons.mp hpre).1).symm⟩

theorem Line.crlfToLf {line : CodeUnits} (h : Line line) (t : CodeUnits) :
    Notes.crlfToLf (line ++ lf :: t) = line ++ lf :: Notes.crlfToLf t := by
  obtain ⟨init, u, rfl, hu⟩ := h.last
  have hnoLf := h.noLf
  have hcr : u ≠ cr := by
    rintro rfl
    exact Bool.false_ne_true (hu.space.symm.trans isSpace_cr)
  clear h
  induction init with
  | nil => rw [List.nil_append, List.singleton_append, crlfToLf_cons hcr, crlfToLf_cons lf_ne_cr]; rfl
  | cons v init ih =>
    rw [List.cons_append, List.mem_cons, not_or] at hnoLf
    have hrest := ih hnoLf.2
    by_cases hv : v = cr
    · cases init with
      | nil =>
        rw [List.nil_append, List.mem_singleton] at hnoLf
        rw [List.cons_append, List.cons_append, List.nil_append, List.singleton_append, Notes.crlfToLf,
          if_neg fun h => hnoLf.2 h.2.symm]
        rw [List.nil_append, List.singleton_append] at hrest
        rw [hrest]
        rfl
      | cons w init =>
        have hw : lf ≠ w := fun heq => hnoLf.2 (by rw [heq]; exact List.mem_cons_self)
        rw [List.cons_append, List.cons_append, List.cons_append, List.cons_append, Notes.crlfToLf,
          if_neg fun h => hw h.2.symm]
        rw [List.cons_append, List.cons_append] at hrest
        rw [hrest]
        rfl
    · rw [List.cons_append, List.cons_append, crlfToLf_cons hv, hrest]
      rfl

theorem crlfToLf_joined {lines : List CodeUnits} (h : ∀ l ∈ lines, Line l) :
    crlfToLf (joinLines lines ++ [lf]) = joinLines lines ++ [lf] := by
  induction lines with
  | nil => rfl
  | cons line lines ih =>
    cases lines with
    | nil =>
      rw [joinLines, List.intercalate_singleton, (h line List.mem_cons_self).crlfToLf]
      rfl
    | cons next lines =>
      rw [joinLines_cons_cons, List.append_assoc, List.cons_append, (h line List.mem_cons_self).crlfToLf,
        ih fun l hl => h l (List.mem_cons_of_mem _ hl)]

/-! ## Surrogates -/

theorem lf_plain : isHigh lf = false ∧ isLow lf = false := by decide

theorem toWellFormed_lf (s t : CodeUnits) : toWellFormed (s ++ lf :: t) = toWellFormed s ++ lf :: toWellFormed t :=
  toWellFormed_append lf_plain.1 lf_plain.2 s t

theorem mem_toWellFormed {u : UInt16} {s : CodeUnits} (h : u ∈ toWellFormed s) : u = 0xfffd ∨ u ∈ s := by
  have hmend : ∀ v, u = mendUnit v → u = 0xfffd ∨ u = v := by
    rintro v rfl
    rcases mendUnit_eq v with ⟨heq, -⟩ | ⟨heq, -⟩
    · exact .inr heq
    · exact .inl heq
  induction s using toWellFormed.induct with
  | case1 => cases h
  | case2 v => exact (hmend v (List.mem_singleton.mp h)).imp_right fun heq => List.mem_singleton.mpr heq
  | case3 v w rest hpair ih =>
    rw [toWellFormed, if_pos hpair, List.mem_cons, List.mem_cons] at h
    rcases h with rfl | rfl | h
    · exact .inr List.mem_cons_self
    · exact .inr (List.mem_cons_of_mem _ List.mem_cons_self)
    · exact (ih h).imp_right fun hmem => List.mem_cons_of_mem _ (List.mem_cons_of_mem _ hmem)
  | case4 v w rest hpair ih =>
    rw [toWellFormed, if_neg hpair, List.mem_cons] at h
    rcases h with h | h
    · exact (hmend v h).imp_right fun heq => by rw [heq]; exact List.mem_cons_self
    · exact (ih h).imp_right (List.mem_cons_of_mem _)

theorem Line.toWellFormed {line : CodeUnits} (h : Line line) : Line (toWellFormed line) := by
  refine ⟨fun hmem => ?_, ?_, ?_⟩
  · rcases mem_toWellFormed hmem with heq | hmem
    · exact absurd heq (by decide)
    · exact h.noLf hmem
  · obtain ⟨u, rest, rfl, hu⟩ := h.first
    exact ⟨u, _, toWellFormed_append hu.high hu.low [] rest, hu⟩
  · obtain ⟨init, u, rfl, hu⟩ := h.last
    exact ⟨_, u, toWellFormed_append hu.high hu.low init [], hu⟩

theorem toWellFormed_joined (lines : List CodeUnits) :
    Utf16.toWellFormed (joinLines lines ++ [lf]) = joinLines (lines.map Utf16.toWellFormed) ++ [lf] := by
  induction lines with
  | nil => exact toWellFormed_lf [] []
  | cons line lines ih =>
    cases lines with
    | nil =>
      rw [joinLines, List.intercalate_singleton, List.map_singleton, joinLines, List.intercalate_singleton]
      exact toWellFormed_lf line []
    | cons next lines =>
      have hmap : (line :: next :: lines).map Utf16.toWellFormed =
          Utf16.toWellFormed line :: Utf16.toWellFormed next :: lines.map Utf16.toWellFormed := rfl
      rw [joinLines_cons_cons, List.append_assoc, List.cons_append, toWellFormed_lf, ih, hmap, joinLines_cons_cons,
        List.append_assoc, List.cons_append]
      rfl

/-! ## A text that survives -/

/-- The mended text starts like the original with the original's first unit, or with U+FFFD. -/
theorem toWellFormed_head (u : UInt16) (t : CodeUnits) :
    (∃ rest, Utf16.toWellFormed (u :: t) = u :: rest) ∨ ∃ rest, Utf16.toWellFormed (u :: t) = 0xfffd :: rest := by
  cases t with
  | nil =>
    rcases mendUnit_eq u with ⟨heq, -⟩ | ⟨heq, -⟩
    · exact .inl ⟨[], by rw [Utf16.toWellFormed, heq]⟩
    · exact .inr ⟨[], by rw [Utf16.toWellFormed, heq]⟩
  | cons v t =>
    rw [Utf16.toWellFormed]
    split
    · exact .inl ⟨_, rfl⟩
    · rcases mendUnit_eq u with ⟨heq, -⟩ | ⟨heq, -⟩
      · exact .inl ⟨_, by rw [heq]⟩
      · exact .inr ⟨_, by rw [heq]⟩

/-- If the beginning is there again, nothing in it was mended and no line end in it was changed. -/
theorem unchanged_of_isPrefix {s t : CodeUnits} (h : s <+: crlfToLf (Utf16.toWellFormed (s ++ lf :: t))) :
    Utf16.toWellFormed s = s ∧ crlfToLf s = s := by
  -- a mended unit at the head is the original one
  have hhead : ∀ {u : UInt16} {x y : CodeUnits}, u :: x <+: crlfToLf (mendUnit u :: y) →
      mendUnit u = u ∧ ¬ (u = cr ∧ y.head? = some lf) ∧ x <+: crlfToLf y := by
    intro u x y hpre
    have hkeep : ¬ (mendUnit u = cr ∧ y.head? = some lf) := by
      rintro ⟨hcr, hlf⟩
      cases y with
      | nil => cases hlf
      | cons v y =>
        obtain rfl := Option.some.inj hlf
        rw [crlfToLf, if_pos ⟨hcr, rfl⟩, List.cons_prefix_cons] at hpre
        rcases mendUnit_eq u with ⟨heq, -⟩ | ⟨heq, -⟩
        · exact lf_ne_cr (hpre.1.symm.trans (heq.symm.trans hcr))
        · rw [heq] at hcr
          exact absurd hcr (by decide)
    have hcons : crlfToLf (mendUnit u :: y) = mendUnit u :: crlfToLf y := by
      cases y with
      | nil => rfl
      | cons v y => rw [crlfToLf, if_neg fun hc => hkeep ⟨hc.1, congrArg some hc.2⟩]
    rw [hcons, List.cons_prefix_cons] at hpre
    refine ⟨hpre.1.symm, ?_, hpre.2⟩
    rw [← hpre.1] at hkeep
    exact hkeep
  induction s using Utf16.toWellFormed.induct with
  | case1 => exact ⟨rfl, rfl⟩
  | case2 u =>
    rw [List.singleton_append, Utf16.toWellFormed, lf_plain.2, Bool.and_false, if_neg Bool.false_ne_true] at h
    exact ⟨congrArg (fun w => [w]) (hhead h).1, rfl⟩
  | case3 u v rest hpair ih =>
    rw [List.cons_append, List.cons_append, Utf16.toWellFormed, if_pos hpair] at h
    rw [Bool.and_eq_true] at hpair
    have hu : u ≠ cr := by
      rintro rfl
      exact absurd hpair.1 (by decide)
    have hv : v ≠ cr := by
      rintro rfl
      exact absurd hpair.2 (by decide)
    rw [crlfToLf_cons hu, crlfToLf_cons hv, List.cons_prefix_cons, List.cons_prefix_cons] at h
    obtain ⟨hwf, hcrlf⟩ := ih h.2.2
    refine ⟨?_, by rw [crlfToLf_cons hu, crlfToLf_cons hv, hcrlf]⟩
    rw [Utf16.toWellFormed, if_pos (by rw [Bool.and_eq_true]; exact hpair), hwf]
  | case4 u v rest hpair ih =>
    rw [List.cons_append, List.cons_append, Utf16.toWellFormed, if_neg hpair] at h
    obtain ⟨hmend, hkeep, hrest⟩ := hhead h
    obtain ⟨hwf, hcrlf⟩ := ih hrest
    refine ⟨by rw [Utf16.toWellFormed, if_neg hpair, hmend, hwf], ?_⟩
    rw [crlfToLf, if_neg, hcrlf]
    rintro ⟨hu, rfl⟩
    refine hkeep ⟨hu, ?_⟩
    have hplain := toWellFormed_append lf_plain.1 lf_plain.2 [] (rest ++ lf :: t)
    rw [List.nil_append] at hplain
    rw [hplain]
    rfl

/-- A byte order mark at the start is missed. -/
theorem mark_missed {s t : CodeUnits} :
    ¬ 0xfeff :: s <+: crlfToLf (Utf16.toWellFormed (s ++ lf :: t)) := by
  induction s with
  | nil =>
    intro h
    have hplain := toWellFormed_lf [] t
    rw [hplain, show Utf16.toWellFormed [] = [] from rfl, List.nil_append, crlfToLf_cons lf_ne_cr,
      List.cons_prefix_cons] at h
    exact absurd h.1 (by decide)
  | cons u s ih =>
    intro h
    have hu : u = 0xfeff := by
      rcases toWellFormed_head u (s ++ lf :: t) with ⟨rest, heq⟩ | ⟨rest, heq⟩
      · rw [List.cons_append, heq] at h
        by_cases hcr : u = cr
        · cases rest with
          | nil =>
            rw [crlfToLf, List.cons_prefix_cons, hcr] at h
            exact absurd h.1 (by decide)
          | cons v rest =>
            rw [crlfToLf] at h
            split at h
            · exact absurd (List.cons_prefix_cons.mp h).1 (by decide)
            · exact (List.cons_prefix_cons.mp h).1.symm
        · rw [crlfToLf_cons hcr, List.cons_prefix_cons] at h
          exact h.1.symm
      · rw [List.cons_append, heq, crlfToLf_cons (by decide), List.cons_prefix_cons] at h
        exact absurd h.1 (by decide)
    subst hu
    have hplain := toWellFormed_append (u := 0xfeff) (by decide) (by decide) [] (s ++ lf :: t)
    rw [List.nil_append] at hplain
    rw [List.cons_append, hplain, show Utf16.toWellFormed [] = [] from rfl, List.nil_append, crlfToLf_cons (by decide),
      List.cons_prefix_cons] at h
    exact ih h.2

/-! ## Reading the evidence -/

/-- What comes before the first blank line, with the line ends of the source. -/
def signedPart (text : CodeUnits) : CodeUnits := (splitNote (crlfToLf text)).1

def noteLines (text : CodeUnits) : List CodeUnits := signatureLines (splitNote (crlfToLf text)).2

theorem parseCheckpoint_eq_ok {text : CodeUnits} {checkpoint : Checkpoint} :
    parseCheckpoint text = .ok checkpoint ↔ ∃ body signatures, readBody (signedPart text) = .ok body ∧
      (noteLines text).mapM parseNoteSignature = .ok signatures ∧
        checkpoint = ⟨body.1, body.2.1, body.2.2, signatures, signedPart text⟩ := by
  simp only [parseCheckpoint, bind_eq_ok, pure_eq_ok]
  constructor
  · rintro ⟨body, hbody, signatures, hsignatures, rfl⟩
    exact ⟨body, signatures, hbody, hsignatures, rfl⟩
  · rintro ⟨body, signatures, hbody, hsignatures, rfl⟩
    exact ⟨body, hbody, signatures, hsignatures, rfl⟩

/-- A text with the same parts is the same checkpoint. -/
theorem parseCheckpoint_congr {text text' : CodeUnits} (hsigned : signedPart text' = signedPart text)
    (hlines : noteLines text' = noteLines text) : parseCheckpoint text' = parseCheckpoint text := by
  simp only [signedPart, noteLines] at hsigned hlines
  simp only [parseCheckpoint]
  rw [hsigned, hlines]

theorem parsed_lines {lines : List CodeUnits} {signatures : List NoteSignature} (hlf : ∀ line ∈ lines, lf ∉ line)
    (h : lines.mapM parseNoteSignature = .ok signatures) :
    (∀ line ∈ lines, Line line) ∧ signatures.map NoteSignature.raw = lines ∧ signatures.map evidenceLine = lines := by
  rw [mapM_eq_ok] at h
  induction h with
  | nil => exact ⟨by simp, rfl, rfl⟩
  | cons hfirst _ ih =>
    rw [List.forall_mem_cons] at hlf
    obtain ⟨hline, hraw⟩ := line_of_parsed hlf.1 hfirst
    obtain ⟨hlines, hraws, hevidence⟩ := ih hlf.2
    have hne : ∀ {line : CodeUnits}, Line line → line ≠ [] := by
      intro line hl
      obtain ⟨u, rest, heq, -⟩ := hl.first
      rw [heq]
      exact List.cons_ne_nil _ _
    refine ⟨List.forall_mem_cons.mpr ⟨hline, hlines⟩, ?_, ?_⟩
    · rw [List.map_cons, hraw, hraws]
    · rw [List.map_cons, hevidence, evidenceLine, hraw, if_pos (hne hline)]

theorem noteLines_noLf {text line : CodeUnits} (h : line ∈ noteLines text) : lf ∉ line :=
  not_mem_splitOn (List.mem_filter.mp h).1

/-- The evidence of a parsed checkpoint, and what its text is made of. -/
theorem evidence_of_parsed {text : CodeUnits} {checkpoint : Checkpoint} (h : parseCheckpoint text = .ok checkpoint) :
    (∀ line ∈ noteLines text, Line line) ∧
      checkpointEvidenceText checkpoint = signedPart text ++ lf :: (joinLines (noteLines text) ++ [lf]) := by
  obtain ⟨body, signatures, -, hsignatures, rfl⟩ := parseCheckpoint_eq_ok.mp h
  obtain ⟨hlines, -, hevidence⟩ := parsed_lines (fun _ => noteLines_noLf) hsignatures
  refine ⟨hlines, ?_⟩
  rw [checkpointEvidenceText, hevidence, List.append_assoc, List.append_assoc]
  rfl

/-- A note whose parts are these is read as these. -/
theorem parts_of_joined {text s : CodeUnits} {lines : List CodeUnits} (hblank : NoBlank (s ++ [lf]))
    (hlines : ∀ line ∈ lines, Line line) (h : crlfToLf text = (s ++ [lf]) ++ lf :: (joinLines lines ++ [lf])) :
    signedPart text = s ++ [lf] ∧ noteLines text = lines := by
  rw [signedPart, noteLines, h, List.append_assoc, List.singleton_append, splitNote_append hblank]
  exact ⟨rfl, signatureLines_joined hlines⟩

/-- Reading the evidence of the text changes nothing in it. -/
structure Reproducible (text : CodeUnits) : Prop where
  lineEnds : ¬ [cr, lf] <:+: signedPart text
  mark : (signedPart text).head? ≠ some 0xfeff
  signedText : Utf16.toWellFormed (signedPart text) = signedPart text
  lines : ∀ line ∈ noteLines text, Utf16.toWellFormed line = line

variable {repaired : Bytes → CodeUnits} {text : CodeUnits}

theorem Reproducible.reparse {checkpoint : Checkpoint} (hrep : Reproducible text)
    (h : parseCheckpoint text = .ok checkpoint) :
    parseCheckpoint (textDecode repaired (checkpointEvidenceBytes checkpoint)) = .ok checkpoint := by
  obtain ⟨hlines, hevidence⟩ := evidence_of_parsed h
  obtain ⟨s, hsigned, hblank⟩ := splitNote_signed (crlfToLf text)
  have hsigned : signedPart text = s ++ [lf] := hsigned
  have hwell : Utf16.toWellFormed (checkpointEvidenceText checkpoint) = checkpointEvidenceText checkpoint := by
    have hmap : (noteLines text).map Utf16.toWellFormed = noteLines text := by
      rw [List.map_congr_left hrep.lines, List.map_id']
    rw [hevidence, toWellFormed_lf, toWellFormed_joined, hmap, hrep.signedText]
  have hmark : dropMark (checkpointEvidenceText checkpoint) = checkpointEvidenceText checkpoint := by
    have hhead := hrep.mark
    rw [hevidence]
    cases hs : signedPart text with
    | nil =>
      rw [hs] at hsigned
      simp at hsigned
    | cons u rest =>
      rw [hs] at hhead
      rw [List.cons_append, dropMark, if_neg fun hu => hhead (congrArg some hu)]
  have hcrlf : crlfToLf (checkpointEvidenceText checkpoint) = signedPart text ++ lf :: (joinLines (noteLines text) ++ [lf]) := by
    have hself := crlfToLf_eq_self.mpr hrep.lineEnds
    rw [hevidence]
    rw [hsigned] at hself ⊢
    rw [crlfToLf_settled hself, crlfToLf_joined hlines]
  rw [checkpointEvidenceBytes, textDecode_textEncode, hwell, hmark]
  rw [hsigned] at hcrlf
  obtain ⟨hsigned', hlines'⟩ := parts_of_joined hblank hlines hcrlf
  rw [← h]
  exact parseCheckpoint_congr (hsigned'.trans hsigned.symm) hlines'

/-- A blank line survives. -/
theorem blank_kept (s t : CodeUnits) :
    ∃ s' t', crlfToLf (dropMark (Utf16.toWellFormed (s ++ lf :: lf :: t))) = s' ++ lf :: lf :: t' := by
  have hlf := toWellFormed_lf [] t
  rw [List.nil_append] at hlf
  have hmark : ∃ x, dropMark (Utf16.toWellFormed (s ++ lf :: lf :: t)) = x ++ lf :: lf :: Utf16.toWellFormed t := by
    rw [toWellFormed_lf, hlf]
    cases Utf16.toWellFormed s with
    | nil => exact ⟨[], rfl⟩
    | cons u rest =>
      rw [List.cons_append, dropMark]
      split
      · exact ⟨rest, rfl⟩
      · exact ⟨u :: rest, rfl⟩
  obtain ⟨x, hx⟩ := hmark
  obtain ⟨y, hy⟩ := crlfToLf_lf x
  refine ⟨y, crlfToLf (Utf16.toWellFormed t), ?_⟩
  rw [hx, crlfToLf_append, hy, crlfToLf_cons lf_ne_cr, List.append_assoc]
  rfl

theorem signedPart_isPrefix (s t : CodeUnits) {text : CodeUnits} (h : crlfToLf text = s ++ lf :: lf :: t) :
    signedPart text <+: crlfToLf text := by
  rcases blankLine_spec (crlfToLf text) with ⟨-, hno⟩ | ⟨a, b, heq, -, hno⟩
  · exact absurd h (hno s t)
  · refine ⟨lf :: b, ?_⟩
    rw [signedPart, heq, splitNote_append hno, List.append_assoc]
    rfl

theorem reproducible_of_reparse {checkpoint : Checkpoint} (h : parseCheckpoint text = .ok checkpoint)
    (hreparse : parseCheckpoint (textDecode repaired (checkpointEvidenceBytes checkpoint)) = .ok checkpoint) :
    Reproducible text := by
  obtain ⟨hlines, hevidence⟩ := evidence_of_parsed h
  obtain ⟨s, hsigned, hblank⟩ := splitNote_signed (crlfToLf text)
  have hsigned : signedPart text = s ++ [lf] := hsigned
  rw [checkpointEvidenceBytes, textDecode_textEncode, hevidence] at hreparse
  -- the second checkpoint has the parts of the first
  obtain ⟨body, signatures, -, hsignatures, rfl⟩ := parseCheckpoint_eq_ok.mp h
  obtain ⟨body', signatures', -, hsignatures', heq⟩ := parseCheckpoint_eq_ok.mp hreparse
  obtain ⟨-, -, -, rfl, hsame⟩ := Checkpoint.mk.inj heq
  have hsameLines := ((parsed_lines (fun _ => noteLines_noLf) hsignatures').2.1).symm.trans
    (parsed_lines (fun _ => noteLines_noLf) hsignatures).2.1
  have hpre : signedPart text <+:
      crlfToLf (dropMark (Utf16.toWellFormed (signedPart text ++ lf :: (joinLines (noteLines text) ++ [lf])))) := by
    obtain ⟨s', t', hblank'⟩ := blank_kept s (joinLines (noteLines text) ++ [lf])
    have hsplit : s ++ lf :: lf :: (joinLines (noteLines text) ++ [lf]) =
        signedPart text ++ lf :: (joinLines (noteLines text) ++ [lf]) := by
      rw [hsigned, List.append_assoc]
      rfl
    rw [hsplit] at hblank'
    have hkept := signedPart_isPrefix s' t' hblank'
    rw [← hsame] at hkept
    exact hkept
  have hmark : (signedPart text).head? ≠ some 0xfeff := by
    intro hhead
    obtain ⟨rest, hrest⟩ := List.head?_eq_some_iff.mp hhead
    have hplain := toWellFormed_append (u := 0xfeff) (by decide) (by decide) []
      (rest ++ lf :: (joinLines (noteLines text) ++ [lf]))
    rw [List.nil_append] at hplain
    rw [hrest, List.cons_append, hplain] at hpre
    exact mark_missed hpre
  have hkept : dropMark (Utf16.toWellFormed (signedPart text ++ lf :: (joinLines (noteLines text) ++ [lf]))) =
      Utf16.toWellFormed (signedPart text ++ lf :: (joinLines (noteLines text) ++ [lf])) := by
    cases hs : signedPart text with
    | nil =>
      rw [hs] at hsigned
      simp at hsigned
    | cons u rest =>
      rw [hs] at hmark
      rcases toWellFormed_head u (rest ++ lf :: (joinLines (noteLines text) ++ [lf])) with ⟨_, hhead⟩ | ⟨_, hhead⟩
      · rw [List.cons_append, hhead, dropMark, if_neg fun hu => hmark (congrArg some hu)]
      · rw [List.cons_append, hhead, dropMark, if_neg (by decide)]
  rw [hkept] at hpre
  obtain ⟨hwell, hcrlf⟩ := unchanged_of_isPrefix hpre
  -- so only the lines could have been mended
  have hmended : crlfToLf (dropMark (Utf16.toWellFormed (signedPart text ++ lf :: (joinLines (noteLines text) ++ [lf])))) =
      (s ++ [lf]) ++ lf :: (joinLines ((noteLines text).map Utf16.toWellFormed) ++ [lf]) := by
    have hmapped : ∀ line ∈ (noteLines text).map Utf16.toWellFormed, Line line := by
      intro line hline
      obtain ⟨l, hl, rfl⟩ := List.mem_map.mp hline
      exact (hlines l hl).toWellFormed
    rw [hkept, toWellFormed_lf, hwell, toWellFormed_joined]
    rw [hsigned] at hcrlf ⊢
    rw [crlfToLf_settled hcrlf, crlfToLf_joined hmapped]
  have hmapLines := (parts_of_joined hblank (fun line hline => by
    obtain ⟨l, hl, rfl⟩ := List.mem_map.mp hline
    exact (hlines l hl).toWellFormed) hmended).2
  rw [hsameLines] at hmapLines
  refine ⟨crlfToLf_eq_self.mp hcrlf, hmark, hwell, fun line hline => ?_⟩
  exact List.map_inj_left.mp (hmapLines.symm.trans (List.map_id _).symm) line hline

/-- **Evidence reads back.** The exported evidence of a parsed checkpoint is the same checkpoint exactly when its signed
part has no line end to change and no byte order mark at its start, and no surrogate is alone. -/
theorem evidence_reparses_iff {checkpoint : Checkpoint} (h : parseCheckpoint text = .ok checkpoint) :
    parseCheckpoint (textDecode repaired (checkpointEvidenceBytes checkpoint)) = .ok checkpoint ↔ Reproducible text :=
  ⟨reproducible_of_reparse h, fun hrep => hrep.reparse h⟩

/-- A decoder that mends no sequence. -/
def replaceAll (bytes : Bytes) : CodeUnits := bytes.map fun _ => 0xfffd

/-- A note with a signature line of each kind. -/
def sampleNote : CodeUnits :=
  ofScalars "example.com/log\n12\nAAAAAAAAAAAAAAAAAAAAAAAAAAAAAAAAAAAAAAAAAAA=\nextra\n\n— wit AAAAAAAA\n-- wit2  AAAA\n".toList

theorem sampleNote_reparses : ∃ checkpoint, parseCheckpoint sampleNote = .ok checkpoint ∧
    parseCheckpoint (textDecode replaceAll (checkpointEvidenceBytes checkpoint)) = .ok checkpoint ∧ Reproducible sampleNote := by
  have hok : (parseCheckpoint sampleNote).isOk = true := by
    rw [sampleNote, String.toList_ofList]
    decide
  have hsame : (parseCheckpoint sampleNote >>= fun c =>
      parseCheckpoint (textDecode replaceAll (checkpointEvidenceBytes c))) = parseCheckpoint sampleNote := by
    rw [sampleNote, String.toList_ofList]
    decide
  cases hparse : parseCheckpoint sampleNote with
  | error e =>
    rw [hparse] at hok
    cases hok
  | ok checkpoint =>
    rw [hparse, ok_bind] at hsame
    exact ⟨checkpoint, rfl, hsame, (evidence_reparses_iff hparse).mp hsame⟩

/-- Of two carriage returns before a line end the second reading takes the one that was left. -/
def doubledReturn : CodeUnits :=
  ofScalars "example.com/log\n12\nAAAAAAAAAAAAAAAAAAAAAAAAAAAAAAAAAAAAAAAAAAA=\nextra\r\r\n\n".toList

theorem doubledReturn_changes : ¬ ∀ checkpoint, parseCheckpoint doubledReturn = .ok checkpoint →
    parseCheckpoint (textDecode replaceAll (checkpointEvidenceBytes checkpoint)) = .ok checkpoint := by
  intro hall
  have hok : (parseCheckpoint doubledReturn).isOk = true := by
    rw [doubledReturn, String.toList_ofList]
    decide
  have hother : (parseCheckpoint doubledReturn >>= fun c =>
      parseCheckpoint (textDecode replaceAll (checkpointEvidenceBytes c))) ≠ parseCheckpoint doubledReturn := by
    rw [doubledReturn, String.toList_ofList]
    decide
  cases hparse : parseCheckpoint doubledReturn with
  | error e =>
    rw [hparse] at hok
    cases hok
  | ok checkpoint =>
    rw [hparse, ok_bind] at hother
    exact hother (hall checkpoint hparse)

end Dnsid.Notes

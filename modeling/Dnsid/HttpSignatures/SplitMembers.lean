import Dnsid.HttpSignatures.MemberScan

/-! # Members of a dictionary as `splitDictionary` cuts them

The cuts are at the commas between members exactly if the scanner is back between members at the end of each member.
-/
namespace Dnsid.HttpSignatures
open Dnsid.Foundations
set_option autoImplicit false

/-! ## Texts of members -/

namespace Sf
variable {V : Values}

def Closes (text : Text) : Prop := ∃ front c, text = front ++ [c] ∧ isTrimmed c = false

theorem Closes.after {text : Text} (h : Closes text) (front : Text) : Closes (front ++ text) := by
  obtain ⟨init, c, rfl, hc⟩ := h
  exact ⟨front ++ init, c, (List.append_assoc _ _ _).symm, hc⟩

theorem closes_of_all {p : Char → Bool} {text : Text}
    (hp : [' ', '\t', '\n', '\x0b', '\x0c', '\r', '\xa0'].all (fun c => !p c) = true) (hne : text ≠ [])
    (h : text.all p = true) : Closes text := by
  obtain ⟨front, c, rfl⟩ := (List.eq_nil_or_concat' text).resolve_left hne
  refine ⟨front, c, rfl, ?_⟩
  rw [isTrimmed, decide_eq_false_iff_not]
  intro hmem
  have hnot := List.all_eq_true.mp hp c hmem
  rw [List.all_eq_true.mp h c (List.mem_append_right _ (List.mem_singleton_self c))] at hnot
  cases hnot

theorem Key.closes (key : Key) : Closes key.text := by
  obtain ⟨c, rest, htext, -⟩ := key.exists_cons
  exact closes_of_all (by decide) (by simp [htext]) key.all_isKeyChar

theorem Number.closes (number : Number) : Closes number.text := by
  have hbounded := number.bounded
  rw [Number.text]
  cases hfraction : number.fraction with
  | none =>
    rw [Option.elim_none, List.append_nil]
    exact (closes_of_all (by decide) number.digits.1 number.digits.2).after _
  | some fraction =>
    rw [hfraction, Option.elim_some] at hbounded
    exact ((closes_of_all (by decide) hbounded.2.1 hbounded.2.2.2).after ['.']).after _

theorem BareItem.closes (bare : BareItem V) : Closes bare.text := by
  cases bare with
  | string content valid => exact ⟨_, '"', rfl, rfl⟩
  | number numeral => exact numeral.closes
  | token text valid =>
    refine closes_of_all (by decide) ?_ (isToken_all valid)
    rintro rfl
    cases valid
  | bytes content value valid decodes => exact ⟨_, ':', rfl, rfl⟩
  | boolean value =>
    cases value
    · exact ⟨['?'], '0', rfl, rfl⟩
    · exact ⟨['?'], '1', rfl, rfl⟩

theorem Parameter.closes (parameter : Parameter V) : Closes parameter.text := by
  rw [Parameter.text]
  cases parameter.value with
  | none =>
    rw [Option.elim_none, List.append_nil]
    exact parameter.key.closes.after _
  | some bare => exact (bare.closes.after ['=']).after _

theorem closes_params {text : Text} (h : Closes text) (params : List (Parameter V)) : Closes (text ++ paramsText params) := by
  cases hparams : params.reverse with
  | nil =>
    obtain rfl := List.reverse_eq_nil_iff.mp hparams
    simpa [paramsText] using h
  | cons last before =>
    obtain rfl := List.reverse_eq_cons_iff.mp hparams
    rw [paramsText, List.flatMap_append, List.flatMap_singleton, ← List.append_assoc]
    exact last.closes.after _

theorem Member.solid (member : Member V) : Solid isTrimmed member.text := by
  obtain ⟨c, rest, htext, hstart, -⟩ := member.key.exists_cons
  refine ⟨⟨c, rest ++ member.content.text, by rw [Member.text, htext, List.cons_append], ?_⟩, ?_⟩
  · rw [isTrimmed, decide_eq_false_iff_not]
    intro hmem
    have hnone : [' ', '\t', '\n', '\x0b', '\x0c', '\r', '\xa0'].all (fun c => !isKeyStart c) = true := by decide
    have hnot := List.all_eq_true.mp hnone c hmem
    rw [hstart] at hnot
    cases hnot
  · rw [Member.text]
    show Closes _
    cases member.content with
    | flag params => exact closes_params member.key.closes params
    | item single =>
      rw [Content.text, Item.text, ← List.cons_append]
      exact (closes_params (single.bare.closes.after ['=']) single.params).after _
    | innerList list =>
      have hlist : Content.text (.innerList list) =
          '=' :: '(' :: spaces list.lead ++ itemsText list.items ++ [')'] ++ paramsText list.params := by
        simp [Content.text, InnerList.text]
      rw [hlist]
      exact (closes_params ⟨_, ')', rfl, rfl⟩ list.params).after _

theorem blank_trimmed {text : Text} (h : text.all isBlank = true) : text.all isTrimmed = true := by
  rw [List.all_eq_true] at h ⊢
  intro c hc
  have hblank := h c hc
  simp only [isBlank, Bool.or_eq_true, decide_eq_true_eq] at hblank
  rcases hblank with rfl | rfl
  · rfl
  · rfl

theorem blank_plain {text : Text} (h : text.all isBlank = true) : text.all isPlain = true := plain_of_all (by decide) h

end Sf

/-! ## Cuts -/

/-- A backslash is noticed in a string only. -/
def Scan.Sound (s : Scan) : Prop := s.escape = true → s.inString = true

theorem Scan.next_sound (s : Scan) (c : Char) : (s.next c).Sound := by
  intro hescape
  by_cases hold : s.escape = true
  · rw [Scan.next, if_pos hold] at hescape
    cases hescape
  · by_cases hslash : (s.inString && decide (c = '\\')) = true
    · rw [Scan.next, if_neg hold, if_pos hslash]
      exact (Bool.and_eq_true_iff.mp hslash).1
    · rw [Scan.next, if_neg hold, if_neg hslash] at hescape
      dsimp only at hescape
      split_ifs at hescape <;> exact absurd hescape hold

theorem Scan.Sound.reads {s s' : Scan} (h : s.Sound) {text : Text} (hreads : s.reads text = some s') : s'.Sound := by
  induction text generalizing s with
  | nil => exact Option.some.inj hreads ▸ h
  | cons c text ih =>
    rw [Scan.reads] at hreads
    split_ifs at hreads
    exact ih (s.next_sound c) hreads

/-- Whitespace only ends an escape. -/
theorem Scan.start_of_blank {s : Scan} (h : s.Sound) {blank : Text} (hblank : blank.all Sf.isBlank = true)
    (hreads : s.reads blank = some .start) : s = .start := by
  induction blank generalizing s with
  | nil => exact Option.some.inj hreads
  | cons c blank ih =>
    rw [List.all_cons, Bool.and_eq_true] at hblank
    rw [Scan.reads] at hreads
    split_ifs at hreads
    have hnext := ih (s.next_sound c) hblank.2 hreads
    have hc : c = ' ' ∨ c = '\t' := by simpa [Sf.isBlank] using hblank.1
    have hsame : s.next c = { s with escape := false } := by
      obtain ⟨depth, inString, inBytes, escape⟩ := s
      rcases hc with rfl | rfl <;> cases escape <;> cases inString <;> cases inBytes <;> rfl
    rw [hsame, Scan.start, Scan.mk.injEq] at hnext
    obtain ⟨hdepth, hstring, hbytes, -⟩ := hnext
    have hescape : s.escape = false := by
      rw [Bool.eq_false_iff]
      intro hescape
      rw [h hescape] at hstring
      cases hstring
    obtain ⟨depth, inString, inBytes, escape⟩ := s
    simp_all [Scan.start]

/-- The first cut, or none. -/
theorem splitFrom_first {text current : Text} {s : Scan} {parts : List Text} (h : splitFrom text s current = .ok parts) :
    (∃ before after more, text = before ++ ',' :: after ∧ s.reads before = some .start ∧
      parts = trim (current ++ before) :: more ∧ splitFrom after .start [] = .ok more) ∨
    (s.reads text = some .start ∧ parts = if trim (current ++ text) = [] then [] else [trim (current ++ text)]) := by
  induction text generalizing s current with
  | nil =>
    simp only [splitFrom, bind_eq_ok, throwIf_eq_ok, pure_eq_ok, not_not] at h
    obtain ⟨_, rfl, rfl⟩ := h
    exact .inr ⟨rfl, by rw [List.append_nil]⟩
  | cons c text ih =>
    rw [splitFrom] at h
    by_cases hsplits : s.splits c = true
    · obtain ⟨rfl, rfl⟩ : c = ',' ∧ s = .start := by simpa [Scan.splits] using hsplits
      rw [if_pos hsplits] at h
      obtain ⟨more, hmore, hparts⟩ := bind_eq_ok.mp h
      obtain rfl := pure_eq_ok.mp hparts
      exact .inl ⟨[], text, more, rfl, rfl, by rw [List.append_nil], hmore⟩
    · rw [if_neg hsplits] at h
      obtain ⟨_, hdepth, hrest⟩ := bind_eq_ok.mp h
      have hreads : ∀ rest, s.reads (c :: rest) = (s.next c).reads rest := fun rest => by
        rw [Scan.reads, if_neg (not_or.mpr ⟨hsplits, throwIf_eq_ok.mp hdepth⟩)]
      rcases ih hrest with ⟨before, after, more, rfl, hbefore, hparts, hmore⟩ | ⟨hall, hparts⟩
      · refine .inl ⟨c :: before, after, more, rfl, (hreads before).trans hbefore, ?_, hmore⟩
        rw [hparts, List.append_assoc]
        rfl
      · refine .inr ⟨(hreads text).trans hall, ?_⟩
        rw [hparts, List.append_assoc]
        rfl

theorem Scan.start_sound : Scan.start.Sound := fun h => absurd h Bool.false_ne_true

section Cuts
variable {V : Sf.Values} {occurrences : List (Sf.Occurrence V)} {current : Text}

theorem reads_blank {blank : Text} (h : blank.all Sf.isBlank = true) : Scan.start.reads blank = some .start := by
  have hread := Sf.start_reads_plain (Sf.blank_plain h) []
  rwa [List.append_nil] at hread

theorem splitFrom_occurrences (hne : occurrences ≠ []) (hcurrent : current.all isTrimmed = true)
    (h : ∀ occurrence ∈ occurrences, Scan.start.reads occurrence.member.text = some .start) :
    splitFrom (Sf.occurrencesText occurrences) .start current =
      .ok (occurrences.map fun occurrence => occurrence.member.text) := by
  induction occurrences generalizing current with
  | nil => exact absurd rfl hne
  | cons occurrence occurrences ih =>
    obtain ⟨hafter, hnext⟩ := occurrence.blank
    have hmember := h occurrence List.mem_cons_self
    have hreads : Scan.start.reads (occurrence.member.text ++ occurrence.after) = some .start := by
      rw [Scan.reads_append, hmember, Option.bind_some, reads_blank hafter]
    have htrim : trim (current ++ (occurrence.member.text ++ occurrence.after)) = occurrence.member.text := by
      rw [← List.append_assoc]
      exact trimBoth_solid (fun _ hc => hc) hcurrent (Sf.blank_trimmed hafter) occurrence.member.solid
    by_cases hnil : occurrences = []
    · subst hnil
      have hsplit := splitFrom_reads hreads [] current
      have hsolid : occurrence.member.text ≠ [] := by
        obtain ⟨c, rest, htext, -⟩ := occurrence.member.solid.starts
        simp [htext]
      rw [List.append_nil] at hsplit
      rw [Sf.occurrencesText, hsplit, splitFrom, htrim, if_neg hsolid]
      rfl
    · have hrest := ih hnil (Sf.blank_trimmed hnext) fun other hother => h other (List.mem_cons_of_mem _ hother)
      have hblank := splitFrom_reads (reads_blank hnext) (Sf.occurrencesText occurrences) []
      have hfirst := splitFrom_reads hreads (',' :: (occurrence.next ++ Sf.occurrencesText occurrences)) current
      rw [List.nil_append] at hblank
      rw [Sf.occurrencesText_cons occurrence hnil, ← List.append_assoc, hfirst, splitFrom,
        if_pos (by simp [Scan.splits]), hblank, hrest, htrim]
      rfl

/-- A first cut behind a text that it gives. -/
theorem first_cut {text tail before after : Text} (hcurrent : current.all isTrimmed = true) (hsolid : Solid isTrimmed text)
    (htext : text ++ tail = before ++ ',' :: after) (htrim : trim (current ++ before) = text) :
    ∃ back, back.all isTrimmed = true ∧ before = text ++ back ∧ tail = back ++ ',' :: after := by
  obtain ⟨front, back, hparts, hfront, hback⟩ := exists_trimBoth isTrimmed (current ++ before)
  rw [← trim, htrim, List.append_assoc] at hparts
  obtain ⟨c, rest, hstart, hc⟩ := hsolid.starts
  have hall : front ++ (text ++ back ++ ',' :: after) = current ++ (text ++ tail) := by
    rw [htext, ← List.append_assoc current, hparts]
    simp
  obtain ⟨rfl, hrest⟩ := front_unique hfront hcurrent ⟨c, rest ++ back ++ ',' :: after, by simp [hstart], hc⟩
    ⟨c, rest ++ tail, by simp [hstart], hc⟩ hall
  rw [List.append_assoc] at hrest
  exact ⟨back, hback, List.append_cancel_left hparts, (List.append_cancel_left hrest).symm⟩

theorem reads_member_of_blank {text blank : Text} (hblank : blank.all Sf.isBlank = true)
    (h : Scan.start.reads (text ++ blank) = some .start) : Scan.start.reads text = some .start := by
  rw [Scan.reads_append, Option.bind_eq_some_iff] at h
  obtain ⟨s', hs', hrest⟩ := h
  rw [hs', Scan.start_of_blank (Scan.start_sound.reads hs') hblank hrest]

/-- Where the cuts give the members, the scanner is back after each. -/
theorem reads_of_splitFrom (hcurrent : current.all isTrimmed = true)
    (h : splitFrom (Sf.occurrencesText occurrences) .start current =
      .ok (occurrences.map fun occurrence => occurrence.member.text)) :
    ∀ occurrence ∈ occurrences, Scan.start.reads occurrence.member.text = some .start := by
  induction occurrences generalizing current with
  | nil =>
    intro occurrence hmem
    cases hmem
  | cons occurrence occurrences ih =>
    obtain ⟨hafter, hnext⟩ := occurrence.blank
    have hsolid := occurrence.member.solid
    by_cases hnil : occurrences = []
    · subst hnil
      intro other hother
      obtain rfl := List.mem_singleton.mp hother
      rw [Sf.occurrencesText] at h
      rcases splitFrom_first h with ⟨before, after, more, htext, -, hparts, -⟩ | ⟨hreads, -⟩
      · obtain ⟨back, -, -, hcomma⟩ := first_cut hcurrent hsolid htext (List.cons.inj hparts).1.symm
        have hmem : ',' ∈ other.after := hcomma ▸ List.mem_append_right back List.mem_cons_self
        cases List.all_eq_true.mp hafter ',' hmem
      · exact reads_member_of_blank hafter hreads
    · rw [Sf.occurrencesText_cons occurrence hnil] at h
      rcases splitFrom_first h with ⟨before, after, more, htext, hreads, hparts, hmore⟩ | ⟨-, hparts⟩
      · rw [List.map_cons, List.cons.injEq] at hparts
        obtain ⟨htrim, rfl⟩ := hparts
        obtain ⟨back, hback, rfl, hcomma⟩ := first_cut hcurrent hsolid htext htrim.symm
        obtain ⟨rfl, hrest⟩ := front_unique (Sf.blank_trimmed hafter) hback ⟨',', _, rfl, rfl⟩ ⟨',', _, rfl, rfl⟩ hcomma
        obtain rfl := (List.cons.inj hrest).2
        have hblank := splitFrom_reads (reads_blank hnext) (Sf.occurrencesText occurrences) []
        rw [hblank, List.nil_append] at hmore
        have hothers := ih (Sf.blank_trimmed hnext) hmore
        intro other hother
        rcases List.mem_cons.mp hother with rfl | hother
        · exact reads_member_of_blank hafter hreads
        · exact hothers other hother
      · have hlength := congrArg List.length hparts
        have hpos := List.length_pos_of_ne_nil hnil
        rw [List.length_map, List.length_cons] at hlength
        split_ifs at hlength
        rw [List.length_singleton] at hlength
        omega

/-- The cuts give the members exactly if the scanner is back between members at the end of each. -/
theorem splitDictionary_eq_ok (dictionary : Sf.Dictionary V) :
    splitDictionary dictionary.text = .ok (dictionary.members.map Sf.Member.text) ↔
      ∀ member ∈ dictionary.members, Scan.start.reads member.text = some .start := by
  obtain ⟨lead, occurrences⟩ := dictionary
  have hlead : (Sf.spaces lead).all Sf.isBlank = true := by
    rw [List.all_eq_true]
    intro c hc
    obtain rfl := List.eq_of_mem_replicate hc
    rfl
  have hsplit : splitDictionary (Sf.spaces lead ++ Sf.occurrencesText occurrences) =
      splitFrom (Sf.occurrencesText occurrences) .start (Sf.spaces lead) := splitFrom_reads (reads_blank hlead) _ _
  rw [Sf.Dictionary.text, Sf.Dictionary.members, hsplit, List.map_map]
  simp only [List.forall_mem_map]
  constructor
  · exact reads_of_splitFrom (Sf.blank_trimmed hlead)
  · intro h
    by_cases hnil : occurrences = []
    · subst hnil
      rw [Sf.occurrencesText, splitFrom, trim, trimBoth_eq_nil.mpr (Sf.blank_trimmed hlead)]
      rfl
    · exact splitFrom_occurrences hnil (Sf.blank_trimmed hlead) h

end Cuts

end Dnsid.HttpSignatures

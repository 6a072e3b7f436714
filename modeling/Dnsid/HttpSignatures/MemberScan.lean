import Mathlib.Algebra.Ring.Parity
import Dnsid.HttpSignatures.StructuredFields

/-! # The scanner of `splitDictionary` on one member

Outside strings the scanner takes every colon for the end of a byte sequence, also one in a token. Between an unpaired
colon of a token and the next colon it follows neither quotes nor parentheses nor commas. Where that next colon is one in a
string, the scanner is inside of the string without noticing, and the count of colons says no more where it will be.
-/
namespace Dnsid.HttpSignatures
open Dnsid.Foundations
set_option autoImplicit false

/-! ## Runs of the scanner -/

/-- The state after a text in which no comma ends a member. -/
def Scan.reads : Scan → Text → Option Scan
  | s, [] => some s
  | s, c :: rest => if s.splits c = true ∨ (s.next c).depth < 0 then none else (s.next c).reads rest

theorem Scan.reads_append (s : Scan) (a b : Text) : s.reads (a ++ b) = (s.reads a).bind fun s' => s'.reads b := by
  induction a generalizing s with
  | nil => rfl
  | cons c a ih =>
    rw [List.cons_append, Scan.reads, Scan.reads]
    split_ifs
    · rfl
    · exact ih _

theorem Scan.reads_cons {s : Scan} {c : Char} (hsplits : s.splits c = false) (hdepth : 0 ≤ (s.next c).depth) (rest : Text) :
    s.reads (c :: rest) = (s.next c).reads rest := by
  rw [Scan.reads, if_neg]
  rw [hsplits, not_or]
  exact ⟨Bool.false_ne_true, not_lt.mpr hdepth⟩

theorem splitFrom_reads {text : Text} {s s' : Scan} (h : s.reads text = some s') (rest current : Text) :
    splitFrom (text ++ rest) s current = splitFrom rest s' (current ++ text) := by
  induction text generalizing s current with
  | nil =>
    obtain rfl := Option.some.inj h
    rw [List.append_nil, List.nil_append]
  | cons c text ih =>
    rw [Scan.reads] at h
    split_ifs at h with hc
    rw [not_or] at hc
    rw [List.cons_append, splitFrom, if_neg hc.1, throwIf, if_neg hc.2]
    have hrest := ih h (current ++ [c])
    rw [List.append_assoc] at hrest
    exact hrest

/-- Between the parts of a member, at a depth, and perhaps after an unpaired colon. -/
def Scan.region (depth : ℤ) (opened : Bool) : Scan := ⟨depth, false, opened, false⟩

/-- In a string. -/
def Scan.quoted (depth : ℤ) : Scan := ⟨depth, true, false, false⟩

/-- A character that no flag depends on. -/
def isPlain (c : Char) : Bool := c ∉ ['"', ':', '(', ')', ',']

section Steps
variable {depth : ℤ} {opened : Bool}

theorem Scan.next_plain {c : Char} (h : isPlain c = true) : (Scan.region depth opened).next c = .region depth opened := by
  simp only [isPlain, List.mem_cons, List.not_mem_nil, or_false, not_or, decide_eq_true_eq] at h
  obtain ⟨hquote, hcolon, hopen, hclose, -⟩ := h
  cases opened <;> simp [Scan.next, Scan.region, hquote, hcolon, hopen, hclose]

theorem Scan.reads_plain {text : Text} (hdepth : 0 ≤ depth) (h : text.all isPlain = true) (rest : Text) :
    (Scan.region depth opened).reads (text ++ rest) = (Scan.region depth opened).reads rest := by
  induction text with
  | nil => rfl
  | cons c text ih =>
    rw [List.all_cons, Bool.and_eq_true] at h
    have hsplits : (Scan.region depth opened).splits c = false := by
      have hcomma : c ≠ ',' := by
        rintro rfl
        cases h.1
      simp [Scan.splits, hcomma]
    have hnext : (Scan.region depth opened).next c = .region depth opened := Scan.next_plain h.1
    rw [List.cons_append, Scan.reads_cons hsplits (by rwa [hnext]), hnext]
    exact ih h.2

theorem Scan.reads_colon (hdepth : 0 ≤ depth) (rest : Text) :
    (Scan.region depth opened).reads (':' :: rest) = (Scan.region depth !opened).reads rest := by
  have hnext : (Scan.region depth opened).next ':' = .region depth !opened := by
    cases opened <;> simp [Scan.next, Scan.region]
  rw [Scan.reads_cons (by simp [Scan.splits]) (by rwa [hnext]), hnext]

/-- After an unpaired colon only a colon counts. -/
theorem Scan.reads_opened {text : Text} (hdepth : 0 ≤ depth) (h : ':' ∉ text) (rest : Text) :
    (Scan.region depth true).reads (text ++ rest) = (Scan.region depth true).reads rest := by
  induction text with
  | nil => rfl
  | cons c text ih =>
    rw [List.mem_cons, not_or] at h
    have hnext : (Scan.region depth true).next c = .region depth true := by
      simp [Scan.next, Scan.region, Ne.symm h.1]
    have hsplits : (Scan.region depth true).splits c = false := by simp [Scan.splits, Scan.region, Scan.start]
    rw [List.cons_append, Scan.reads_cons hsplits (by rwa [hnext]), hnext]
    exact ih h.2

theorem Scan.reads_quoted (hdepth : 0 ≤ depth) (content rest : Text) :
    (Scan.quoted depth).reads (content.flatMap Sf.escaped ++ '"' :: rest) = (Scan.region depth false).reads rest := by
  induction content with
  | nil =>
    have hnext : (Scan.quoted depth).next '"' = .region depth false := by simp [Scan.next, Scan.quoted, Scan.region]
    rw [List.flatMap_nil, List.nil_append, Scan.reads_cons (by simp [Scan.splits]) (by rwa [hnext]), hnext]
  | cons c content ih =>
    have hsplits : ∀ c, (Scan.quoted depth).splits c = false := by
      intro c
      simp [Scan.splits, Scan.quoted, Scan.start]
    rw [List.flatMap_cons, Sf.escaped]
    split_ifs with hc
    · have hescape : (Scan.quoted depth).next '\\' = ⟨depth, true, false, true⟩ := by simp [Scan.next, Scan.quoted]
      have hnext : (⟨depth, true, false, true⟩ : Scan).next c = .quoted depth := by simp [Scan.next, Scan.quoted]
      have hsplits' : (⟨depth, true, false, true⟩ : Scan).splits c = false := by simp [Scan.splits, Scan.start]
      show (Scan.quoted depth).reads ('\\' :: c :: (content.flatMap Sf.escaped ++ '"' :: rest)) = _
      rw [Scan.reads_cons (hsplits _) (by rwa [hescape]), hescape, Scan.reads_cons hsplits' (by rwa [hnext]), hnext]
      exact ih
    · rw [not_or] at hc
      have hnext : (Scan.quoted depth).next c = .quoted depth := by simp [Scan.next, Scan.quoted, hc.1, hc.2]
      rw [List.cons_append, List.cons_append, List.nil_append, Scan.reads_cons (hsplits c) (by rwa [hnext]), hnext]
      exact ih

theorem Scan.reads_quote (hdepth : 0 ≤ depth) (rest : Text) :
    (Scan.region depth false).reads ('"' :: rest) = (Scan.quoted depth).reads rest := by
  have hnext : (Scan.region depth false).next '"' = .quoted depth := by simp [Scan.next, Scan.quoted, Scan.region]
  rw [Scan.reads_cons (by simp [Scan.splits]) (by rwa [hnext]), hnext]

theorem Scan.reads_open (hdepth : 0 ≤ depth) (rest : Text) :
    (Scan.region depth false).reads ('(' :: rest) = (Scan.region (depth + 1) false).reads rest := by
  have hnext : (Scan.region depth false).next '(' = .region (depth + 1) false := by simp [Scan.next, Scan.region]
  have hdepth' : 0 ≤ (Scan.region (depth + 1) false).depth := by
    show 0 ≤ depth + 1
    omega
  rw [Scan.reads_cons (by simp [Scan.splits]) (by rwa [hnext]), hnext]

theorem Scan.reads_close (hdepth : 0 ≤ depth) (rest : Text) :
    (Scan.region (depth + 1) false).reads (')' :: rest) = (Scan.region depth false).reads rest := by
  have hnext : (Scan.region (depth + 1) false).next ')' = .region depth false := by simp [Scan.next, Scan.region]
  rw [Scan.reads_cons (by simp [Scan.splits]) (by rwa [hnext]), hnext]

end Steps

/-! ## Colons of a member -/

namespace Sf
variable {V : Values}

/-- Whether a colon is unpaired after the item, if one was before it. A string that has a colon ends the count. -/
def BareItem.colonsAfter (opened : Bool) : BareItem V → Option Bool
  | .string content _ => if opened = true ∧ ':' ∈ content then none else some opened
  | .token text _ => some (xor opened (decide (Odd (text.count ':'))))
  | _ => some opened

def colonsAfter (opened : Bool) (bares : List (BareItem V)) : Option Bool := bares.foldlM BareItem.colonsAfter opened

def paramBares (params : List (Parameter V)) : List (BareItem V) := params.filterMap Parameter.value

def Item.bares (item : Item V) : List (BareItem V) := item.bare :: paramBares item.params

def itemBares (items : List (Item V × ℕ)) : List (BareItem V) := items.flatMap fun item => item.1.bares

def Content.bares : Content V → List (BareItem V)
  | .flag params => paramBares params
  | .item single => single.bares
  | .innerList list => itemBares list.items ++ paramBares list.params

/-- The colons of the tokens in the list are paired, and so are those of its parameters. -/
def Content.paired : Content V → Bool
  | .flag params => colonsAfter false (paramBares params) = some false
  | .item single => colonsAfter false single.bares = some false
  | .innerList list =>
    colonsAfter false (itemBares list.items) = some false && colonsAfter false (paramBares list.params) = some false

/-- A string with a colon stands after an unpaired colon. -/
def Content.exposed (content : Content V) : Bool := colonsAfter false content.bares = none

/-! ## The scanner on a member -/

section Scans
variable {depth : ℤ} {opened opened' : Bool}

/-- A class of characters without the five that a flag depends on. -/
theorem plain_of_all {p : Char → Bool} {text : Text} (hp : ['"', ':', '(', ')', ','].all (fun c => !p c) = true)
    (h : text.all p = true) : text.all isPlain = true := by
  rw [List.all_eq_true] at h ⊢
  intro c hc
  rw [isPlain, decide_eq_true_eq]
  intro hmem
  have hnot := List.all_eq_true.mp hp c hmem
  rw [h c hc] at hnot
  cases hnot

theorem Key.plain (key : Key) : key.text.all isPlain = true := plain_of_all (by decide) key.all_isKeyChar

theorem spaces_plain (n : ℕ) : (spaces n).all isPlain = true := by
  rw [List.all_eq_true]
  intro c hc
  obtain rfl := List.eq_of_mem_replicate hc
  rfl

theorem Number.plain (number : Number) : number.text.all isPlain = true := by
  have hwhole := plain_of_all (by decide) number.digits.2
  have hsign : (if number.negative then ['-'] else [] : Text).all isPlain = true := by
    cases number.negative <;> rfl
  rw [Number.text, List.all_append, List.all_append, hsign, hwhole]
  have hbounded := number.bounded
  cases hfraction : number.fraction with
  | none => rfl
  | some fraction =>
    rw [hfraction, Option.elim_some] at hbounded
    simp only [Option.elim_some, List.all_cons, plain_of_all (by decide) hbounded.2.2.2]
    rfl

theorem colon_mem_escaped {content : Text} : ':' ∈ content.flatMap escaped ↔ ':' ∈ content := by
  have hone : ∀ c, ':' ∈ escaped c ↔ ':' = c := by
    intro c
    rw [escaped]
    split_ifs <;> simp
  simp [List.mem_flatMap, hone]

theorem reads_token {text : Text} (hdepth : 0 ≤ depth) (h : text.all isTokenChar = true) (rest : Text) :
    (Scan.region depth opened).reads (text ++ rest) =
      (Scan.region depth (xor opened (decide (Odd (text.count ':'))))).reads rest := by
  induction text generalizing opened with
  | nil => simp
  | cons c text ih =>
    rw [List.all_cons, Bool.and_eq_true] at h
    by_cases hc : c = ':'
    · subst hc
      have hodd : xor (!opened) (decide (Odd (text.count ':'))) = xor opened (decide (Odd ((':' :: text).count ':'))) := by
        rw [List.count_cons_self]
        by_cases hodd : Odd (text.count ':')
        · cases opened <;> simp [hodd, Nat.odd_add_one]
        · cases opened <;> simp [hodd, Nat.odd_add_one]
      rw [List.cons_append, Scan.reads_colon hdepth, ih h.2, hodd]
    · have hplain : [c].all isPlain = true := plain_of_all (p := fun d => isTokenChar d && d ≠ ':') (by decide)
        (by simp [h.1, hc])
      rw [List.count_cons_of_ne hc, List.cons_append]
      exact (Scan.reads_plain hdepth hplain (text ++ rest)).trans (ih h.2)

theorem reads_bare (bare : BareItem V) (hdepth : 0 ≤ depth) (h : bare.colonsAfter opened = some opened') (rest : Text) :
    (Scan.region depth opened).reads (bare.text ++ rest) = (Scan.region depth opened').reads rest := by
  cases bare with
  | string content valid =>
    rw [BareItem.colonsAfter] at h
    split_ifs at h with hc
    obtain rfl := Option.some.inj h
    cases opened with
    | true =>
      have hcolon : ':' ∉ (BareItem.string (V := V) content valid).text := by
        rw [BareItem.text, List.mem_append, List.mem_cons, colon_mem_escaped]
        simpa using hc
      exact Scan.reads_opened hdepth hcolon rest
    | false =>
      rw [BareItem.text, List.cons_append, List.cons_append, List.append_assoc, Scan.reads_quote hdepth]
      exact Scan.reads_quoted hdepth content rest
  | number numeral =>
    obtain rfl := Option.some.inj h
    exact Scan.reads_plain hdepth numeral.plain rest
  | token text valid =>
    obtain rfl := Option.some.inj h
    exact reads_token hdepth (isToken_all valid) rest
  | bytes content value valid decodes =>
    obtain rfl := Option.some.inj h
    have hplain := plain_of_all (by decide) valid
    rw [BareItem.text, List.cons_append, List.cons_append, Scan.reads_colon hdepth, List.append_assoc,
      Scan.reads_plain hdepth hplain, List.cons_append, Scan.reads_colon hdepth, Bool.not_not]
    rfl
  | boolean value =>
    obtain rfl := Option.some.inj h
    have hplain : (BareItem.boolean (V := V) value).text.all isPlain = true := by cases value <;> rfl
    exact Scan.reads_plain hdepth hplain rest

theorem colonsAfter_cons (bare : BareItem V) (bares : List (BareItem V)) :
    colonsAfter opened (bare :: bares) = (bare.colonsAfter opened).bind fun opened => colonsAfter opened bares :=
  List.foldlM_cons

theorem colonsAfter_append (a b : List (BareItem V)) :
    colonsAfter opened (a ++ b) = (colonsAfter opened a).bind fun opened => colonsAfter opened b := by
  rw [colonsAfter, List.foldlM_append]
  rfl

theorem reads_params (params : List (Parameter V)) (hdepth : 0 ≤ depth)
    (h : colonsAfter opened (paramBares params) = some opened') (rest : Text) :
    (Scan.region depth opened).reads (paramsText params ++ rest) = (Scan.region depth opened').reads rest := by
  induction params generalizing opened with
  | nil =>
    obtain rfl := Option.some.inj h
    rfl
  | cons parameter params ih =>
    obtain ⟨gap, key, value⟩ := parameter
    have hname : (';' :: spaces gap ++ key.text).all isPlain = true := by
      rw [List.cons_append, List.all_cons, List.all_append, spaces_plain, key.plain]
      rfl
    rw [paramsText, List.flatMap_cons, ← paramsText, Parameter.text, List.append_assoc, List.append_assoc,
      Scan.reads_plain hdepth hname]
    cases value with
    | none => exact ih h
    | some bare =>
      have hcons : paramBares (⟨gap, key, some bare⟩ :: params) = bare :: paramBares params := List.filterMap_cons_some rfl
      rw [hcons, colonsAfter_cons, Option.bind_eq_some_iff] at h
      obtain ⟨middle, hbare, hrest⟩ := h
      have hequals : ['='].all isPlain = true := rfl
      exact (Scan.reads_plain hdepth hequals _).trans ((reads_bare bare hdepth hbare _).trans (ih hrest))

theorem reads_item (item : Item V) (hdepth : 0 ≤ depth) (h : colonsAfter opened item.bares = some opened') (rest : Text) :
    (Scan.region depth opened).reads (item.text ++ rest) = (Scan.region depth opened').reads rest := by
  rw [Item.bares, colonsAfter_cons, Option.bind_eq_some_iff] at h
  obtain ⟨middle, hbare, hparams⟩ := h
  rw [Item.text, List.append_assoc, reads_bare item.bare hdepth hbare, reads_params item.params hdepth hparams]

theorem reads_items (items : List (Item V × ℕ)) (hdepth : 0 ≤ depth)
    (h : colonsAfter opened (itemBares items) = some opened') (rest : Text) :
    (Scan.region depth opened).reads (itemsText items ++ rest) = (Scan.region depth opened').reads rest := by
  induction items generalizing opened with
  | nil =>
    obtain rfl := Option.some.inj h
    rfl
  | cons item items ih =>
    obtain ⟨n, htext, -⟩ := itemsText_next item items
    rw [itemBares, List.flatMap_cons, ← itemBares, colonsAfter_append, Option.bind_eq_some_iff] at h
    obtain ⟨middle, hitem, hrest⟩ := h
    rw [htext, List.append_assoc, reads_item item.1 hdepth hitem, List.append_assoc,
      Scan.reads_plain hdepth (spaces_plain n), ih hrest]

/-- Inside of an unpaired colon the end of the list is not seen. -/
theorem reads_list (list : InnerList V) {after : Bool} (h : colonsAfter false (itemBares list.items) = some opened)
    (h' : colonsAfter opened (paramBares list.params) = some after) :
    Scan.start.reads list.text = some (.region (if opened then 1 else 0) after) := by
  have hparams : ∀ depth : ℤ, 0 ≤ depth →
      (Scan.region depth opened).reads (paramsText list.params) = some (.region depth after) := by
    intro depth hdepth
    have hread := reads_params list.params hdepth h' []
    rwa [List.append_nil] at hread
  have htext : list.text = '(' :: (spaces list.lead ++ (itemsText list.items ++ ')' :: paramsText list.params)) := by
    simp [InnerList.text]
  rw [htext]
  refine (Scan.reads_open le_rfl _).trans ?_
  rw [Scan.reads_plain (by omega) (spaces_plain list.lead), reads_items list.items (by omega) h]
  cases opened with
  | false => exact (Scan.reads_close le_rfl _).trans (hparams 0 le_rfl)
  | true =>
    have hclose : ':' ∉ [')'] := by simp
    exact (Scan.reads_opened (by omega) hclose _).trans (hparams 1 (by omega))

theorem start_reads_plain {text : Text} (h : text.all isPlain = true) (rest : Text) :
    Scan.start.reads (text ++ rest) = Scan.start.reads rest := Scan.reads_plain le_rfl h rest

theorem reads_equals (rest : Text) : Scan.start.reads ('=' :: rest) = Scan.start.reads rest :=
  start_reads_plain (show ['='].all isPlain = true from rfl) rest

/-- Where no string with a colon is exposed, the scanner is back between members exactly if the colons are paired. -/
theorem reads_content {content : Content V} (h : content.exposed = false) :
    Scan.start.reads content.text = some .start ↔ content.paired = true := by
  have hcount : ∃ after, colonsAfter false content.bares = some after := by
    rw [Content.exposed, decide_eq_false_iff_not] at h
    exact Option.ne_none_iff_exists'.mp h
  obtain ⟨after, hafter⟩ := hcount
  cases content with
  | flag params =>
    have hread : Scan.start.reads (paramsText params ++ []) = some (.region 0 after) := reads_params params le_rfl hafter []
    rw [List.append_nil] at hread
    rw [Content.bares] at hafter
    rw [Content.text, Content.paired, hafter, hread]
    simp [Scan.region, Scan.start]
  | item single =>
    have hread : Scan.start.reads (single.text ++ []) = some (.region 0 after) := reads_item single le_rfl hafter []
    rw [List.append_nil] at hread
    rw [Content.bares] at hafter
    rw [Content.text, reads_equals, Content.paired, hafter, hread]
    simp [Scan.region, Scan.start]
  | innerList list =>
    rw [Content.bares, colonsAfter_append, Option.bind_eq_some_iff] at hafter
    obtain ⟨middle, hitems, hparams⟩ := hafter
    rw [Content.text, reads_equals, reads_list list hitems hparams, Content.paired, hitems]
    cases middle with
    | false => simp [Scan.region, Scan.start, hparams]
    | true => simp [Scan.region, Scan.start]

end Scans

/-- Where the colons are paired, no string with a colon stands after an unpaired one. -/
theorem Content.exposed_of_paired {content : Content V} (h : content.paired = true) : content.exposed = false := by
  rw [Content.exposed, decide_eq_false_iff_not]
  cases content with
  | flag params =>
    rw [Content.paired, decide_eq_true_eq] at h
    simp [Content.bares, h]
  | item single =>
    rw [Content.paired, decide_eq_true_eq] at h
    simp [Content.bares, h]
  | innerList list =>
    rw [Content.paired, Bool.and_eq_true, decide_eq_true_eq, decide_eq_true_eq] at h
    simp [Content.bares, colonsAfter_append, h.1, h.2]

theorem reads_member (member : Member V) : Scan.start.reads member.text = Scan.start.reads member.content.text :=
  start_reads_plain member.key.plain member.content.text

theorem reads_member_of_paired {member : Member V} (h : member.content.paired = true) :
    Scan.start.reads member.text = some .start := by
  rw [reads_member]
  exact (reads_content (Content.exposed_of_paired h)).mpr h

theorem paired_of_reads_member {member : Member V} (hexposed : member.content.exposed = false)
    (h : Scan.start.reads member.text = some .start) : member.content.paired = true := by
  rw [reads_member] at h
  exact (reads_content hexposed).mp h

end Sf

end Dnsid.HttpSignatures

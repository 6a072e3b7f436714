import Mathlib.Algebra.Order.BigOperators.Group.List
import Mathlib.Algebra.Order.Group.Nat
import Mathlib.Algebra.GroupWithZero.Nat
import Dnsid.Foundations.UrlEncoded
import Dnsid.HttpSignatures.BaseInjective

/-! # Covered query parameters (`http-signatures/src/index.ts`)

`canonicalQueryParamValues` splits the query at the ampersands and gives each part to `URLSearchParams`. That constructor drops
a question mark at the start of its text, which in the whole query only the first character is.
-/
namespace Dnsid.HttpSignatures
open Dnsid.Foundations
set_option autoImplicit false

/-- `new URLSearchParams(text)` by the URL Standard. -/
def formEntries (text : String) : List (String × String) :=
  (UrlEncoded.entries text.toList).map fun entry => (String.ofList entry.1, String.ofList entry.2)

/-- What a server that parses the whole query sees under a name, in the form that is signed. -/
def formValues (search paramName : String) : List String :=
  (formEntries search).filterMap fun entry =>
    if formPercentEncode entry.1 = paramName then some (formPercentEncode entry.2) else none

/-- The parts of a query. -/
def queryParts (search : String) : List (List Char) := (UrlEncoded.dropQuestionMark search.toList).splitOn '&'

/-- A part that `URLSearchParams` does not read as it stands. -/
def startsAsQuery (part : List Char) : Bool := part.head? = some '?'

/-- The pair of a part, if it has one. -/
def pairOf (part : List Char) : Option (String × String) :=
  (UrlEncoded.pair (utf8Bytes part)).map fun entry => (String.ofList entry.1, String.ofList entry.2)

theorem formEntries_eq (search : String) : formEntries search = (queryParts search).filterMap pairOf := by
  rw [formEntries, UrlEncoded.entries, UrlEncoded.parse, UrlEncoded.splitOn_utf8Bytes, List.filterMap_map,
    List.map_filterMap]
  rfl

theorem formValues_eq (search paramName : String) :
    formValues search paramName = ((queryParts search).filterMap pairOf).filterMap fun entry =>
      if formPercentEncode entry.1 = paramName then some (formPercentEncode entry.2) else none := by
  rw [formValues, formEntries_eq]

section Platform
variable {P : HttpPlatform} (hP : ∀ text, P.searchParams text = formEntries text)
include hP

theorem searchParams_part {part : List Char} (h : '&' ∉ part) :
    P.searchParams (String.ofList part) = (pairOf (UrlEncoded.dropQuestionMark part)).toList := by
  rw [hP, formEntries, String.toList_ofList, UrlEncoded.entries_piece h, pairOf]
  cases UrlEncoded.pair (utf8Bytes (UrlEncoded.dropQuestionMark part)) <;> rfl

/-- The code reads every part without its question mark. -/
theorem canonicalQueryParamValues_eq (search paramName : String) : canonicalQueryParamValues P search paramName =
    ((queryParts search).filterMap fun part => pairOf (UrlEncoded.dropQuestionMark part)).filterMap fun entry =>
      if formPercentEncode entry.1 = paramName then some (formPercentEncode entry.2) else none := by
  rw [canonicalQueryParamValues]
  have hquery : (if search.toList.head? = some '?' then search.toList.tail else search.toList) =
      UrlEncoded.dropQuestionMark search.toList := rfl
  rw [hquery, queryParts, List.filterMap_filterMap]
  split_ifs with hempty
  · rw [hempty]
    rfl
  · refine List.filterMap_congr fun part hpart => ?_
    rw [searchParams_part hP (not_mem_of_mem_splitOn hpart)]
    cases pairOf (UrlEncoded.dropQuestionMark part) <;> rfl

end Platform

/-! ## The encoded names -/

def encodedChar (c : Char) : List Char :=
  (if c.isAlphanum || "-_.!~*'()".toList.contains c then [c] else (percentEncode c).toList).flatMap fun c =>
    if "!'()~".toList.contains c then (percentEncode c).toList else [c]

theorem join_map_toList (f : Char → String) (text : List Char) :
    (String.join (text.map f)).toList = text.flatMap fun c => (f c).toList := by
  rw [join_toList, List.map_map, List.flatMap_def]
  rfl

theorem formPercentEncode_toList (value : String) : (formPercentEncode value).toList = value.toList.flatMap encodedChar := by
  rw [formPercentEncode, join_map_toList, encodeURIComponent, join_map_toList, List.flatMap_assoc]
  congr
  funext c
  have hsecond : (fun c : Char => (if "!'()~".toList.contains c then percentEncode c else String.singleton c).toList) =
      fun c => if "!'()~".toList.contains c then (percentEncode c).toList else [c] := by
    funext c
    split <;> simp
  rw [hsecond, encodedChar]
  split <;> simp

/-- The length of the encoded name of a part. -/
def nameLength (part : List Char) : ℕ := (pairOf part).elim 0 fun entry => (formPercentEncode entry.1).toList.length

theorem nameLength_eq (part : List Char) :
    nameLength part = ((UrlEncoded.component (UrlEncoded.nameBytes (utf8Bytes part))).flatMap encodedChar).length := by
  rw [nameLength, pairOf, UrlEncoded.pair]
  split_ifs with hempty
  · rw [hempty]
    have hname : UrlEncoded.nameBytes [] = [] := rfl
    rw [hname, UrlEncoded.component_nil]
    rfl
  · rw [Option.map_some, Option.elim_some, formPercentEncode_toList, String.toList_ofList]

/-- A question mark at the start of a part belongs to its name. -/
theorem nameLength_question (part : List Char) : nameLength part < nameLength ('?' :: part) := by
  have hbytes : UrlEncoded.nameBytes (utf8Bytes ('?' :: part)) = 0x3f :: UrlEncoded.nameBytes (utf8Bytes part) := rfl
  rw [nameLength_eq, nameLength_eq, hbytes, UrlEncoded.component_cons (by decide) (by decide) (by decide), List.flatMap_cons,
    List.length_append]
  have hmark : 0 < (encodedChar (.ofNat (0x3f : UInt8).toNat)).length := by decide
  omega

/-- Pairs that agree under every name have the same names. -/
theorem names_perm {entries entries' : List (String × String)}
    (h : ∀ paramName, (entries.filterMap fun entry =>
        if formPercentEncode entry.1 = paramName then some (formPercentEncode entry.2) else none) =
      entries'.filterMap fun entry =>
        if formPercentEncode entry.1 = paramName then some (formPercentEncode entry.2) else none) :
    (entries.map fun entry => formPercentEncode entry.1).Perm (entries'.map fun entry => formPercentEncode entry.1) := by
  have hcount : ∀ (entries : List (String × String)) (paramName : String),
      (entries.map fun entry => formPercentEncode entry.1).count paramName = (entries.filterMap fun entry =>
        if formPercentEncode entry.1 = paramName then some (formPercentEncode entry.2) else none).length := by
    intro entries paramName
    induction entries with
    | nil => rfl
    | cons entry entries ih =>
      rw [List.map_cons, List.count_cons, ih, List.filterMap_cons]
      by_cases hname : formPercentEncode entry.1 = paramName
      · simp [hname]
      · simp [hname]
  rw [List.perm_iff_count]
  intro paramName
  rw [hcount, hcount, h]

theorem sum_nameLength (parts : List (List Char)) (f : List Char → List Char) :
    (((parts.filterMap fun part => pairOf (f part)).map fun entry => formPercentEncode entry.1).map fun name =>
      name.toList.length).sum = (parts.map fun part => nameLength (f part)).sum := by
  induction parts with
  | nil => rfl
  | cons part parts ih =>
    rw [List.filterMap_cons, List.map_cons, List.sum_cons, nameLength]
    cases pairOf (f part) with
    | none =>
      dsimp only
      rw [ih, Option.elim_none, Nat.zero_add]
    | some entry =>
      dsimp only
      rw [List.map_cons, List.map_cons, List.sum_cons, ih, Option.elim_some]

theorem nameLength_drop_le (part : List Char) : nameLength (UrlEncoded.dropQuestionMark part) ≤ nameLength part := by
  rw [UrlEncoded.dropQuestionMark]
  split_ifs with hhead
  · obtain ⟨rest, rfl⟩ : ∃ rest, part = '?' :: rest := ⟨part.tail, (List.cons_head?_tail hhead).symm⟩
    exact (nameLength_question rest).le
  · exact le_rfl

/-- **When the signed parameters are the real ones.** For a search string, the code gives under every name the values of
the pairs that the parse of the whole query has under it, iff no part of the query begins with a question mark. -/
theorem canonicalQueryParamValues_iff (P : HttpPlatform) (hP : ∀ text, P.searchParams text = formEntries text)
    (search : String) : (∀ paramName, canonicalQueryParamValues P search paramName = formValues search paramName) ↔
      ∀ part ∈ queryParts search, startsAsQuery part = false := by
  simp only [canonicalQueryParamValues_eq hP, formValues_eq]
  constructor
  · intro h part hpart
    rw [← Bool.not_eq_true]
    intro hstart
    have hsum := ((names_perm h).map fun name => name.toList.length).sum_nat
    have hall := sum_nameLength (queryParts search) id
    simp only [id] at hall
    rw [sum_nameLength, hall] at hsum
    refine absurd hsum (ne_of_lt (List.sum_lt_sum _ _ (fun part _ => nameLength_drop_le part) ⟨part, hpart, ?_⟩))
    rw [startsAsQuery, decide_eq_true_eq] at hstart
    obtain ⟨rest, rfl⟩ : ∃ rest, part = '?' :: rest := ⟨part.tail, (List.cons_head?_tail hstart).symm⟩
    exact nameLength_question rest
  · intro h paramName
    have hparts : ((queryParts search).filterMap fun part => pairOf (UrlEncoded.dropQuestionMark part)) =
        (queryParts search).filterMap pairOf := by
      refine List.filterMap_congr fun part hpart => ?_
      have hstart := h part hpart
      rw [startsAsQuery, decide_eq_false_iff_not] at hstart
      rw [UrlEncoded.dropQuestionMark, if_neg hstart]
    rw [hparts]

/-- `samplePlatform` with the real `URLSearchParams`. -/
def formPlatform : HttpPlatform := { samplePlatform with searchParams := formEntries }

theorem canonicalQueryParamValues_iff_plus :
    (∀ paramName, canonicalQueryParamValues formPlatform "?a=+1&b=%20" paramName = formValues "?a=+1&b=%20" paramName) ↔
      ∀ part ∈ queryParts "?a=+1&b=%20", startsAsQuery part = false :=
  canonicalQueryParamValues_iff formPlatform (fun _ => rfl) "?a=+1&b=%20"

/-- Of `?a=1&?b=2` the code signs a parameter `b`; a server reads `a` and `?b`. -/
theorem canonicalQueryParamValues_question : ¬ ∀ search paramName,
    canonicalQueryParamValues formPlatform search paramName = formValues search paramName := by
  intro h
  have hcode : canonicalQueryParamValues formPlatform "?a=1&?b=2" "b" = ["2"] := by decide +kernel
  have hserver : formValues "?a=1&?b=2" "b" = [] := by decide +kernel
  have hsame := h "?a=1&?b=2" "b"
  rw [hcode, hserver] at hsame
  cases hsame

end Dnsid.HttpSignatures

import Dnsid.Foundations.MapSet
import Dnsid.HttpSignatures.SignatureHeaders

/-! # Parts of a dictionary header

A header is cut at commas between its members. Where the two readings of each part have the same number of members, the
header has the members of its parts, in order.
-/
namespace Dnsid.HttpSignatures
open Dnsid.Foundations
set_option autoImplicit false

/-! ## The scanner -/

/-- The text ends in an entry of whitespace. -/
def OpenEnd (text : Text) : Prop := ∃ blank : Text, trim blank = [] ∧ (text = blank ∨ ∃ front, text = front ++ ',' :: blank)

theorem OpenEnd.of_after {text : Text} (h : OpenEnd text) (front : Text) : OpenEnd (front ++ ',' :: text) := by
  obtain ⟨blank, hblank, rfl | ⟨front', rfl⟩⟩ := h
  · exact ⟨text, hblank, .inr ⟨front, rfl⟩⟩
  · exact ⟨blank, hblank, .inr ⟨front ++ ',' :: front', by simp⟩⟩

theorem splitFrom_comma {text rest current : Text} {s : Scan} {entries : List Text}
    (h : splitFrom text s current = .ok entries) (hend : ¬ OpenEnd (current ++ text)) :
    splitFrom (text ++ ',' :: rest) s current =
      (do let parts ← splitFrom rest .start []; return entries ++ parts) := by
  induction text generalizing s current entries with
  | nil =>
    simp only [splitFrom, bind_eq_ok, throwIf_eq_ok, pure_eq_ok] at h
    obtain ⟨_, hs, rfl⟩ := h
    rw [not_not] at hs
    have hblank : trim current ≠ [] := fun hnil => hend ⟨current, hnil, .inl (List.append_nil current)⟩
    rw [if_neg hblank, hs, List.nil_append, splitFrom, if_pos (by simp [Scan.splits])]
    rfl
  | cons c text ih =>
    simp only [splitFrom] at h
    by_cases hsplits : s.splits c = true
    · obtain ⟨rfl, rfl⟩ : c = ',' ∧ s = .start := by simpa [Scan.splits] using hsplits
      rw [if_pos hsplits] at h
      obtain ⟨parts, hparts, hentries⟩ := bind_eq_ok.mp h
      obtain rfl := pure_eq_ok.mp hentries
      have hopen : ¬ OpenEnd ([] ++ text) := fun hopen => hend (hopen.of_after current)
      rw [List.cons_append, splitFrom, if_pos hsplits, ih hparts hopen, bind_assoc]
      rfl
    · rw [if_neg hsplits] at h
      obtain ⟨_, hdepth, hrest⟩ := bind_eq_ok.mp h
      have hopen : ¬ OpenEnd ((current ++ [c]) ++ text) := by rwa [List.append_assoc]
      rw [List.cons_append, splitFrom, if_neg hsplits, throwIf, if_neg (throwIf_eq_ok.mp hdepth)]
      exact ih hrest hopen

/-! ## Parts -/

/-- Optional whitespace after a comma. -/
def isOws (c : Char) : Bool := c = ' ' || c = '\t'

/-- How the structured-field library reads a dictionary: one member after the other, a later one with the same key in
the place of the earlier one, and none after a comma at the end. -/
structure HttpPlatform.DictionaryLaws (P : HttpPlatform) : Prop where
  distinct : ∀ text dictionary, P.parseDictionary text = some dictionary → DistinctNames dictionary
  members : ∀ (text ows next : Text) (dictionary rest : List (String × Member)),
    P.parseDictionary (String.ofList text) = some dictionary → dictionary ≠ [] →
    P.parseDictionary (String.ofList next) = some rest → rest ≠ [] → (∀ c ∈ ows, isOws c = true) →
    P.parseDictionary (String.ofList (text ++ ',' :: (ows ++ next))) = some (rest.foldl setMember dictionary)
  ends : ∀ (ows next : Text) (dictionary : List (String × Member)), (∀ c ∈ ows, isOws c = true) →
    P.parseDictionary (String.ofList next) = some dictionary → OpenEnd (ows ++ next) → dictionary = []

/-- A text in which both readings find these members. -/
structure IsPart (P : HttpPlatform) (text : Text) (read : List ((String × Member) × Text)) : Prop where
  parsed : ∃ ows next, text = ows ++ next ∧ (∀ c ∈ ows, isOws c = true) ∧
    P.parseDictionary (String.ofList next) = some (read.map Prod.fst)
  split : splitDictionary text = .ok (read.map Prod.snd)
  nonempty : read ≠ []

/-- Header values do not start with whitespace. -/
def Stripped (text : Text) : Prop := text.head?.all (fun c => !isOws c) = true

/-- Texts with commas between them. -/
def joined (texts : List Text) : Text := [','].intercalate texts

theorem joined_cons {text : Text} {texts : List Text} (h : texts ≠ []) :
    joined (text :: texts) = text ++ ',' :: joined texts := by
  cases texts with
  | nil => exact absurd rfl h
  | cons next texts => rfl

section Parts
variable {P : HttpPlatform} {text : Text} {read : List ((String × Member) × Text)} {texts : List Text}
  {reads : List (List ((String × Member) × Text))}

theorem IsPart.not_openEnd (hP : P.DictionaryLaws) (h : IsPart P text read) : ¬ OpenEnd text := by
  intro hopen
  obtain ⟨ows, next, rfl, hows, hparsed⟩ := h.parsed
  exact h.nonempty (List.map_eq_nil_iff.mp (hP.ends ows next _ hows hparsed hopen))

theorem splitDictionary_joined (hP : P.DictionaryLaws) (h : List.Forall₂ (IsPart P) texts reads) (hne : texts ≠ []) :
    splitDictionary (joined texts) = .ok (reads.flatten.map Prod.snd) := by
  induction h with
  | nil => exact absurd rfl hne
  | @cons text read texts reads hpart hrest ih =>
    by_cases hnil : texts = []
    · subst hnil
      obtain rfl := List.forall₂_nil_left_iff.mp hrest
      simpa [joined] using hpart.split
    · have hsplit := ih hnil
      unfold splitDictionary at hsplit ⊢
      rw [joined_cons hnil, splitFrom_comma hpart.split (hpart.not_openEnd hP), hsplit, List.flatten_cons, List.map_append]
      rfl

theorem parseDictionary_after (hP : P.DictionaryLaws) (h : List.Forall₂ (IsPart P) texts reads) (hne : texts ≠ [])
    {first : Text} {dictionary : List (String × Member)} (hfirst : P.parseDictionary (String.ofList first) = some dictionary)
    (hdictionary : dictionary ≠ []) :
    P.parseDictionary (String.ofList (first ++ ',' :: joined texts)) =
      some ((reads.flatten.map Prod.fst).foldl setMember dictionary) := by
  induction h generalizing first dictionary with
  | nil => exact absurd rfl hne
  | @cons text read texts reads hpart hrest ih =>
    obtain ⟨ows, next, rfl, hows, hparsed⟩ := hpart.parsed
    have hmembers : read.map Prod.fst ≠ [] := fun h => hpart.nonempty (List.map_eq_nil_iff.mp h)
    have hnext := hP.members first ows next dictionary _ hfirst hdictionary hparsed hmembers hows
    rw [List.flatten_cons, List.map_append, List.foldl_append]
    by_cases hnil : texts = []
    · subst hnil
      obtain rfl := List.forall₂_nil_left_iff.mp hrest
      simpa [joined] using hnext
    · have hall := ih hnil hnext (foldl_setMember_ne_nil hdictionary _)
      rw [joined_cons hnil]
      simpa using hall

/-- The first part is at the start of the header. -/
theorem IsPart.parsed_first (h : IsPart P text read) {rest : Text}
    (hstripped : Stripped (text ++ rest)) : P.parseDictionary (String.ofList text) = some (read.map Prod.fst) := by
  obtain ⟨ows, next, rfl, hows, hparsed⟩ := h.parsed
  cases ows with
  | nil => exact hparsed
  | cons c ows =>
    have hc : isOws c = true := hows c List.mem_cons_self
    have hnot : isOws c = false := by simpa [Stripped] using hstripped
    rw [hc] at hnot
    cases hnot

theorem parseDictionary_joined (hP : P.DictionaryLaws) (h : List.Forall₂ (IsPart P) texts reads) (hne : texts ≠ [])
    (hstripped : Stripped (joined texts)) :
    ∃ first rest, reads.flatten.map Prod.fst = first ++ rest ∧ DistinctNames first ∧
      P.parseDictionary (String.ofList (joined texts)) = some (rest.foldl setMember first) := by
  cases h with
  | nil => exact absurd rfl hne
  | @cons text read texts reads hpart hrest =>
    have hmembers : read.map Prod.fst ≠ [] := fun h => hpart.nonempty (List.map_eq_nil_iff.mp h)
    by_cases hnil : texts = []
    · subst hnil
      obtain rfl := List.forall₂_nil_left_iff.mp hrest
      have hone : joined [text] = text := by simp [joined]
      rw [hone] at hstripped ⊢
      have hparsed : P.parseDictionary (String.ofList text) = some (read.map Prod.fst) :=
        hpart.parsed_first (List.append_nil text ▸ hstripped)
      exact ⟨read.map Prod.fst, [], by simp, hP.distinct _ _ hparsed, hparsed⟩
    · rw [joined_cons hnil] at hstripped ⊢
      have hparsed := hpart.parsed_first hstripped
      refine ⟨read.map Prod.fst, reads.flatten.map Prod.fst, by simp, hP.distinct _ _ hparsed, ?_⟩
      exact parseDictionary_after hP hrest hnil hparsed hmembers

theorem zip_of_read (read : List ((String × Member) × Text)) : (read.map Prod.fst).zip (read.map Prod.snd) = read := by
  have hzip := List.zip_unzip read
  rwa [List.unzip_fst, List.unzip_snd] at hzip

/-- Both readings of a header whose parts are known. -/
theorem readDictionary_joined (hP : P.DictionaryLaws) (h : List.Forall₂ (IsPart P) texts reads) (hne : texts ≠ [])
    (hstripped : Stripped (joined texts)) {failure : HttpError} {read : List ((String × Member) × Text)} :
    readDictionary P failure (joined texts) = .ok read ↔
      (joined texts).length ≤ 16 * 1024 ∧ reads.flatten.length ≤ 16 ∧ DistinctNames (reads.flatten.map Prod.fst) ∧
        read = reads.flatten := by
  obtain ⟨first, rest, hmembers, hfirst, hparsed⟩ := parseDictionary_joined hP h hne hstripped
  have hlength : reads.flatten.length = first.length + rest.length := by
    rw [← List.length_append, ← hmembers, List.length_map]
  simp only [readDictionary, assertHeaderBound, bind_eq_ok, throwIf_eq_ok, mapError_eq_ok, orThrow_eq_ok, pure_eq_ok,
    splitDictionary_joined hP h hne, hparsed, Except.ok.injEq, Option.some.injEq]
  constructor
  · rintro ⟨_, hbound, entries, rfl, dictionary, rfl, _, hsize, rfl⟩
    obtain ⟨hsize, hcount⟩ := not_or.mp hsize
    rw [not_not, List.length_map] at hcount
    have hdistinct := distinct_of_foldl_length hfirst (hcount.trans hlength)
    rw [foldl_setMember_of_distinct hdistinct] at hsize ⊢
    rw [← hmembers] at hdistinct hsize ⊢
    rw [List.length_map] at hsize
    exact ⟨by omega, by omega, hdistinct, zip_of_read _⟩
  · rintro ⟨hbound, hcount, hdistinct, rfl⟩
    have hfold : rest.foldl setMember first = reads.flatten.map Prod.fst := by
      rw [hmembers]
      exact foldl_setMember_of_distinct (by rwa [← hmembers])
    refine ⟨(), by omega, _, rfl, _, rfl, (), ?_, by rw [hfold]; exact zip_of_read _⟩
    rw [hfold, List.length_map, List.length_map]
    omega

theorem parseDictionary_distinct (hP : P.DictionaryLaws) (h : List.Forall₂ (IsPart P) texts reads) (hne : texts ≠ [])
    (hstripped : Stripped (joined texts)) (hdistinct : DistinctNames (reads.flatten.map Prod.fst)) :
    P.parseDictionary (String.ofList (joined texts)) = some (reads.flatten.map Prod.fst) := by
  obtain ⟨first, rest, hmembers, -, hparsed⟩ := parseDictionary_joined hP h hne hstripped
  rw [hparsed, hmembers, foldl_setMember_of_distinct (by rwa [← hmembers])]

end Parts

end Dnsid.HttpSignatures

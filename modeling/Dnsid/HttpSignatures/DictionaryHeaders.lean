import Dnsid.HttpSignatures.Coexisting
import Dnsid.HttpSignatures.SplitMembers
import Dnsid.HttpSignatures.StructuredParser
import Dnsid.Protocol.Encoding

/-! # Counting the members of a dictionary header

The structured-field library overwrites a member that is repeated, so the readers of a header compare the number of its
members with the number of the cuts. `setDictionaryMember` writes a header again from its cuts.
-/
namespace Dnsid.HttpSignatures
open Dnsid.Foundations
set_option autoImplicit false

/-! ## Setting a member -/

/-- What `Headers` drops at the ends of a value. -/
def isHttpWhitespace (c : Char) : Bool := c ∈ [' ', '\t', '\n', '\r']

def normalizeHeaderValue (value : Text) : Text :=
  trimBoth isHttpWhitespace value

def isHeaderValueChar (c : Char) : Bool := c.toNat < 256 && c ∉ ['\x00', '\n', '\r']

/-- `headers.set`. -/
def setHeader (headers : List (String × Text)) (name : String) (value : Text) : Except HttpError (List (String × Text)) := do
  throwIf ((normalizeHeaderValue value).all isHeaderValueChar = false) (.other "invalid header value")
  return setMember headers (asciiLowerCase name, normalizeHeaderValue value)

/-- `entries` are the cuts of the header, one for each member. -/
def replaceEntry (dictionary : List (String × Member)) (entries : List Text) (label : String) (replacementText : Text) :
    List Text :=
  match (dictionary.map Prod.fst).findIdx? (· = label) with
  | some index => entries.set index replacementText
  | none => entries ++ [replacementText]

section Headers
variable (P : HttpPlatform)

/-- The text of the header with the member. -/
def dictionaryWith (current : Option Text) (label : String) (value : Text) : Except HttpError Text := do
  let replacementText := label.toList ++ '=' :: value
  let replacement ← orThrow (.other "malformed structured field") (P.parseDictionary (String.ofList replacementText))
  throwIf (replacement.length ≠ 1 ∨ (replacement.lookup label).isSome = false)
    (.other "invalid replacement dictionary member")
  match current.filter (· ≠ []) with
  | some current => do
    let entries ← splitDictionary current
    let dictionary ← orThrow (.other "malformed structured field") (P.parseDictionary (String.ofList current))
    throwIf (dictionary.length ≠ entries.length) (.other "duplicate dictionary member")
    return [',', ' '].intercalate (replaceEntry dictionary entries label replacementText)
  | none => return replacementText

def setDictionaryMember (headers : List (String × Text)) (name label : String) (value : Text) :
    Except HttpError (List (String × Text)) :=
  (do
    let text ← dictionaryWith P (headers.lookup (asciiLowerCase name)) label value
    setHeader headers name text).mapError fun _ => .argumentError s!"malformed {name} structured field dictionary"

end Headers

/-! ## Texts written from members -/

namespace Sf
variable {V : Values}

def Occurrence.of (member : Member V) : Occurrence V := ⟨member, [], [], rfl, rfl⟩

theorem exists_join {a b : List (Occurrence V)} (ha : a ≠ []) (hb : b ≠ []) :
    ∃ occurrences, occurrences ≠ [] ∧ occurrencesText occurrences = occurrencesText a ++ ',' :: ' ' :: occurrencesText b ∧
      occurrences.map Occurrence.member = a.map Occurrence.member ++ b.map Occurrence.member := by
  induction a with
  | nil => exact absurd rfl ha
  | cons first a ih =>
    by_cases hnil : a = []
    · subst hnil
      refine ⟨{ first with next := [' '], blank := ⟨first.blank.1, rfl⟩ } :: b, by simp, ?_, rfl⟩
      rw [occurrencesText_cons _ hb, occurrencesText, List.append_assoc]
      rfl
    · obtain ⟨rest, hne, htext, hmembers⟩ := ih hnil
      refine ⟨first :: rest, by simp, ?_, ?_⟩
      · rw [occurrencesText_cons first hne, occurrencesText_cons first hnil, htext]
        simp
      · rw [List.map_cons, hmembers]
        rfl

/-- Groups of members that are written with `, ` between them. -/
theorem exists_intercalate {groups : List (List (Occurrence V))} (hgroups : ∀ group ∈ groups, group ≠ []) (hne : groups ≠ []) :
    ∃ occurrences, occurrences ≠ [] ∧ occurrencesText occurrences = [',', ' '].intercalate (groups.map occurrencesText) ∧
      occurrences.map Occurrence.member = groups.flatten.map Occurrence.member := by
  induction groups with
  | nil => exact absurd rfl hne
  | cons first groups ih =>
    have hfirst := hgroups first List.mem_cons_self
    by_cases hnil : groups = []
    · subst hnil
      exact ⟨first, hfirst, by simp, by simp⟩
    · obtain ⟨rest, hrest, htext, hmembers⟩ := ih (fun group hgroup => hgroups group (List.mem_cons_of_mem _ hgroup)) hnil
      obtain ⟨occurrences, hall, htext', hmembers'⟩ := exists_join hfirst hrest
      refine ⟨occurrences, hall, ?_, ?_⟩
      · obtain ⟨second, groups, rfl⟩ := List.exists_cons_of_ne_nil hnil
        rw [htext', htext]
        rfl
      · rw [hmembers', hmembers, List.flatten_cons, List.map_append]

/-- The whitespace at the end of the text can be dropped. -/
theorem exists_solid {occurrences : List (Occurrence V)} (hne : occurrences ≠ []) :
    ∃ occurrences' blank, occurrencesText occurrences = occurrencesText occurrences' ++ blank ∧ blank.all isBlank = true ∧
      Solid isTrimmed (occurrencesText occurrences') ∧ occurrences'.map Occurrence.member = occurrences.map Occurrence.member := by
  induction occurrences with
  | nil => exact absurd rfl hne
  | cons first occurrences ih =>
    have hsolid := first.member.solid
    by_cases hnil : occurrences = []
    · subst hnil
      refine ⟨[.of first.member], first.after, ?_, first.blank.1, ?_, rfl⟩
      · simp [occurrencesText, Occurrence.of]
      · simpa [occurrencesText, Occurrence.of] using hsolid
    · obtain ⟨rest, blank, htext, hblank, hrest, hmembers⟩ := ih hnil
      have hne' : rest ≠ [] := by
        rintro rfl
        exact hnil (List.map_eq_nil_iff.mp hmembers.symm)
      refine ⟨first :: rest, blank, ?_, hblank, ⟨?_, ?_⟩, by rw [List.map_cons, hmembers]; rfl⟩
      · rw [occurrencesText_cons first hnil, occurrencesText_cons first hne', htext]
        simp
      · obtain ⟨c, tail, hstart, hc⟩ := hsolid.starts
        exact ⟨c, _, by rw [occurrencesText_cons first hne', hstart, List.cons_append], hc⟩
      · obtain ⟨front, c, hend, hc⟩ := hrest.ends
        refine ⟨first.member.text ++ (first.after ++ ',' :: (first.next ++ front)), c, ?_, hc⟩
        rw [occurrencesText_cons first hne', hend]
        simp

/-! ## Values -/

theorem BareItem.not_rfc9651 (bare : BareItem V) : isRfc9651Only bare.value = false := by
  cases bare <;> rfl

theorem paramsMap_not_rfc9651 (params : List (Parameter V)) : ∀ bare ∈ (paramsMap params).map Prod.snd, isRfc9651Only bare = false := by
  intro bare hbare
  obtain ⟨entry, hentry, rfl⟩ := List.mem_map.mp hbare
  have hmem := (mem_foldl_setMember _ hentry).resolve_left (List.not_mem_nil)
  obtain ⟨parameter, -, rfl⟩ := List.mem_map.mp hmem
  rw [Parameter.entry]
  cases parameter.value with
  | none => rfl
  | some bare => exact bare.not_rfc9651

theorem Content.not_rfc9651 (content : Content V) : ∀ bare ∈ content.value.bareItems, isRfc9651Only bare = false := by
  intro bare hbare
  cases content with
  | flag params =>
    rcases List.mem_append.mp hbare with hparam | hvalue
    · exact paramsMap_not_rfc9651 params bare hparam
    · obtain rfl := List.mem_singleton.mp hvalue
      rfl
  | item single =>
    rcases List.mem_append.mp hbare with hparam | hvalue
    · exact paramsMap_not_rfc9651 single.params bare hparam
    · obtain rfl := List.mem_singleton.mp hvalue
      exact single.bare.not_rfc9651
  | innerList list =>
    rcases List.mem_append.mp hbare with hparam | hitem
    · exact paramsMap_not_rfc9651 list.params bare hparam
    · obtain ⟨entry, hentry, hbare⟩ := List.mem_flatMap.mp hitem
      obtain ⟨item, -, rfl⟩ := List.mem_map.mp hentry
      rcases List.mem_cons.mp hbare with rfl | hparam
      · exact item.1.bare.not_rfc9651
      · exact paramsMap_not_rfc9651 item.1.params bare hparam

variable (dictionary : Dictionary V)

theorem Dictionary.not_rfc9651 : (dictionary.value.any fun member => member.2.bareItems.any isRfc9651Only) = false := by
  rw [List.any_eq_false]
  intro entry hentry
  have hmem := (mem_foldl_setMember _ hentry).resolve_left (List.not_mem_nil)
  obtain ⟨member, -, rfl⟩ := List.mem_map.mp hmem
  rw [Bool.not_eq_true, List.any_eq_false]
  intro bare hbare
  rw [member.content.not_rfc9651 bare hbare]
  exact Bool.false_ne_true

theorem Dictionary.distinct_iff : DistinctNames (dictionary.members.map Member.entry) ↔ dictionary.keys.Nodup := by
  rw [DistinctNames, List.map_map]
  rfl

/-- No member is lost exactly if the keys are distinct. -/
theorem Dictionary.length_value : dictionary.value.length = dictionary.members.length ↔ dictionary.keys.Nodup := by
  rw [← dictionary.distinct_iff, ← length_foldl_setMember_nil, List.length_map]
  rfl

theorem Dictionary.value_of_distinct (h : dictionary.keys.Nodup) : dictionary.value = dictionary.members.map Member.entry := by
  rw [Dictionary.value, foldl_setMember_nil (dictionary.distinct_iff.mpr h)]

/-- Dictionaries with the same members of a key have the same value for it. -/
theorem Dictionary.lookup_of_filter {a b : Dictionary V} {key : String}
    (h : a.members.filter (·.key.value = key) = b.members.filter (·.key.value = key)) :
    a.value.lookup key = b.value.lookup key := by
  have hfilter : ∀ dictionary : Dictionary V, (dictionary.members.map Member.entry).filter (·.1 = key) =
      (dictionary.members.filter (·.key.value = key)).map Member.entry := by
    intro dictionary
    rw [List.filter_map]
    rfl
  rw [Dictionary.value, Dictionary.value, lookup_foldl_filter (a.members.map Member.entry),
    lookup_foldl_filter (b.members.map Member.entry), hfilter, hfilter, h]

end Sf

/-! ## Readers of a header -/

section Readings
variable {Identity : Type} {E : ProfileEnvironment Identity} {V : Sf.Values} {dictionary : Sf.Dictionary V}

theorem parseDictionaryField_text (hE : E.toHttpPlatform.Reads V)
    (h : splitDictionary dictionary.text = .ok (dictionary.members.map Sf.Member.text)) :
    parseDictionaryField E dictionary.text = (do
      assertHeaderBound dictionary.text
      throwIf (¬ dictionary.keys.Nodup) (recordInvalid "malformed structured field dictionary")
      return dictionary.value) := by
  have hlength := dictionary.length_value
  have hvalues := dictionary.not_rfc9651
  rw [parseDictionaryField, hE dictionary, h]
  simp only [orThrow_some, Except.mapError, ok_bind, List.length_map, hvalues, ne_eq, hlength]
  rfl

theorem readDictionary_text {P : HttpPlatform} (hP : P.Reads V) (failure : HttpError)
    (h : splitDictionary dictionary.text = .ok (dictionary.members.map Sf.Member.text)) :
    readDictionary P failure dictionary.text = (do
      assertHeaderBound dictionary.text
      throwIf (16 < dictionary.value.length ∨ ¬ dictionary.keys.Nodup) failure
      return dictionary.value.zip (dictionary.members.map Sf.Member.text)) := by
  have hlength := dictionary.length_value
  rw [readDictionary, hP dictionary, h]
  simp only [orThrow_some, Except.mapError, ok_bind, List.length_map, ne_eq, hlength]

end Readings

/-! ## The header that `setDictionaryMember` writes -/

section Setting
variable {V : Sf.Values} {P : HttpPlatform} {dictionary replacement : Sf.Dictionary V} {label : String} {value : Text}

/-- The members that a text `label=value` of one key has. -/
structure Replaces (replacement : Sf.Dictionary V) (label : String) (value : Text) : Prop where
  text : Sf.occurrencesText replacement.occurrences = label.toList ++ '=' :: value
  nonempty : replacement.occurrences ≠ []
  keys : ∀ occurrence ∈ replacement.occurrences, occurrence.member.key.value = label

theorem Replaces.of_one (htext : replacement.text = label.toList ++ '=' :: value) (hone : replacement.value.length = 1)
    (hhas : (replacement.value.lookup label).isSome = true) : Replaces replacement label value := by
  obtain ⟨entry, hentry⟩ := List.length_eq_one_iff.mp hone
  obtain ⟨member, hlookup⟩ := Option.isSome_iff_exists.mp hhas
  have hlabel : entry.1 = label := by
    have hmem := mem_names_of_lookup hlookup
    rw [hentry] at hmem
    exact (List.mem_singleton.mp hmem).symm
  have hkeys : ∀ occurrence ∈ replacement.occurrences, occurrence.member.key.value = label := by
    intro occurrence hoccurrence
    have hmem : occurrence.member.key.value ∈ replacement.value.map Prod.fst := by
      refine mem_names_foldl_setMember (.inr ?_)
      exact List.mem_map.mpr ⟨occurrence.member.entry, List.mem_map_of_mem (List.mem_map_of_mem hoccurrence), rfl⟩
    rw [hentry] at hmem
    exact (List.mem_singleton.mp hmem).trans hlabel
  have hne : replacement.occurrences ≠ [] := by
    intro hnil
    rw [Sf.Dictionary.value, Sf.Dictionary.members, hnil] at hone
    cases hone
  refine ⟨?_, hne, hkeys⟩
  obtain ⟨lead, occurrences⟩ := replacement
  cases lead with
  | zero => exact htext
  | succ lead =>
    obtain ⟨first, rest, rfl⟩ := List.exists_cons_of_ne_nil hne
    obtain ⟨c, tail, hkey, hc, -⟩ := first.member.key.exists_cons
    have hfirst := hkeys first List.mem_cons_self
    rw [← hfirst, Sf.Key.value, String.toList_ofList, hkey] at htext
    obtain rfl := (List.cons.inj htext).1
    cases hc

theorem exists_replaced (h : Replaces replacement label value) (hdistinct : dictionary.keys.Nodup) :
    ∃ groups : List (List (Sf.Occurrence V)),
      groups.map Sf.occurrencesText =
        replaceEntry dictionary.value (dictionary.members.map Sf.Member.text) label (label.toList ++ '=' :: value) ∧
      groups ≠ [] ∧ (∀ group ∈ groups, group ≠ []) ∧
      ∀ key, key ≠ label → (groups.flatten.map Sf.Occurrence.member).filter (·.key.value = key) =
        dictionary.members.filter (·.key.value = key) := by
  have hnames : dictionary.value.map Prod.fst = dictionary.keys := by
    rw [dictionary.value_of_distinct hdistinct, List.map_map]
    rfl
  have htexts : (dictionary.members.map fun member => [Sf.Occurrence.of member]).map Sf.occurrencesText =
      dictionary.members.map Sf.Member.text := by
    rw [List.map_map]
    exact List.map_congr_left fun member _ => List.append_nil _
  have hreplacement : ∀ key, key ≠ label →
      (replacement.occurrences.map Sf.Occurrence.member).filter (·.key.value = key) = [] := by
    intro key hkey
    rw [List.filter_eq_nil_iff]
    intro member hmember
    obtain ⟨occurrence, hoccurrence, rfl⟩ := List.mem_map.mp hmember
    rw [h.keys occurrence hoccurrence]
    simpa using Ne.symm hkey
  have hflat : ∀ (key : String) (groups : List (List (Sf.Occurrence V))),
      (groups.flatten.map Sf.Occurrence.member).filter (·.key.value = key) =
        (groups.map fun group => (group.map Sf.Occurrence.member).filter (·.key.value = key)).flatten := by
    intro key groups
    rw [List.map_flatten, List.filter_flatten, List.map_map]
    rfl
  have hsame : ((dictionary.members.map fun member => [Sf.Occurrence.of member]).flatten.map Sf.Occurrence.member) =
      dictionary.members := by
    rw [List.map_flatten, List.map_map]
    exact List.flatMap_singleton' _
  have hgroups : ∀ group ∈ dictionary.members.map fun member => [Sf.Occurrence.of member], group ≠ [] := by
    intro group hgroup
    obtain ⟨member, -, rfl⟩ := List.mem_map.mp hgroup
    exact List.cons_ne_nil _ _
  rw [replaceEntry, hnames]
  cases hindex : dictionary.keys.findIdx? (· = label) with
  | none =>
    refine ⟨(dictionary.members.map fun member => [.of member]) ++ [replacement.occurrences], ?_, by simp, ?_, ?_⟩
    · rw [List.map_append, htexts, List.map_singleton, h.text]
    · intro group hgroup
      rcases List.mem_append.mp hgroup with hold | hnew
      · exact hgroups group hold
      · rw [List.mem_singleton.mp hnew]
        exact h.nonempty
    · intro key hkey
      rw [List.flatten_append, List.map_append, List.filter_append, hsame, List.flatten_singleton, hreplacement key hkey,
        List.append_nil]
  | some index =>
    obtain ⟨hbound, hlabel, -⟩ := List.findIdx?_eq_some_iff_getElem.mp hindex
    have hindex' : index < dictionary.members.length := by simpa [Sf.Dictionary.keys] using hbound
    refine ⟨(dictionary.members.map fun member => [.of member]).set index replacement.occurrences, ?_, ?_, ?_, ?_⟩
    · rw [List.map_set, htexts, h.text]
    · refine List.ne_nil_of_length_pos ?_
      rw [List.length_set, List.length_map]
      omega
    · intro group hgroup
      rcases List.mem_or_eq_of_mem_set hgroup with hold | hnew
      · exact hgroups group hold
      · rw [hnew]
        exact h.nonempty
    · intro key hkey
      -- The replaced member has no other key, and neither has what replaces it.
      have hold : ((dictionary.members.map fun member => [Sf.Occurrence.of member]).map fun group =>
          (group.map Sf.Occurrence.member).filter (·.key.value = key))[index]? = some [] := by
        have hvalue : dictionary.members[index].key.value = label := by simpa [Sf.Dictionary.keys] using hlabel
        simp [Sf.Occurrence.of, List.getElem?_eq_getElem hindex', hvalue, Ne.symm hkey]
      obtain ⟨hlength, hget⟩ := List.getElem?_eq_some_iff.mp hold
      rw [hflat, List.map_set, hreplacement key hkey, ← hget, List.set_getElem_self, ← hflat, hsame]

/-- The text with the member is valid, and has the other members as they were. -/
theorem dictionaryWith_text (hP : P.Reads V)
    (hsplit : splitDictionary dictionary.text = .ok (dictionary.members.map Sf.Member.text))
    (hreplacement : replacement.text = label.toList ++ '=' :: value) {text : Text}
    (h : dictionaryWith P (some dictionary.text) label value = .ok text) :
    ∃ occurrences : List (Sf.Occurrence V), occurrences ≠ [] ∧ Sf.occurrencesText occurrences = text ∧
      ∀ key, key ≠ label → (occurrences.map Sf.Occurrence.member).filter (·.key.value = key) =
        dictionary.members.filter (·.key.value = key) := by
  rw [dictionaryWith, ← hreplacement, hP replacement, orThrow_some, ok_bind] at h
  obtain ⟨_, hone, h⟩ := bind_eq_ok.mp h
  obtain ⟨hone, hhas⟩ := not_or.mp (throwIf_eq_ok.mp hone)
  have hreplaces := Replaces.of_one hreplacement (not_not.mp hone) (Bool.not_eq_false _ ▸ hhas)
  by_cases hempty : dictionary.text = []
  · rw [hempty, Option.filter_some_neg (by simp)] at h
    have hnone : dictionary.members = [] := by
      obtain ⟨lead, occurrences⟩ := dictionary
      by_contra hne
      obtain ⟨first, rest, rfl⟩ := List.exists_cons_of_ne_nil fun hnil : occurrences = [] => hne (hnil ▸ rfl)
      obtain ⟨c, tail, hstart, -⟩ := Sf.occurrencesText_exists (List.cons_ne_nil first rest)
      rw [Sf.Dictionary.text, hstart] at hempty
      simp at hempty
    refine ⟨replacement.occurrences, hreplaces.nonempty, hreplaces.text.trans (hreplacement.symm.trans (pure_eq_ok.mp h)), ?_⟩
    intro key hkey
    rw [hnone, List.filter_nil, List.filter_eq_nil_iff]
    intro member hmember
    obtain ⟨occurrence, hoccurrence, rfl⟩ := List.mem_map.mp hmember
    rw [hreplaces.keys occurrence hoccurrence]
    simpa using Ne.symm hkey
  · rw [Option.filter_some_pos (by simpa using hempty)] at h
    dsimp only at h
    rw [hsplit, hP dictionary, ok_bind, orThrow_some, ok_bind] at h
    obtain ⟨_, hcount, h⟩ := bind_eq_ok.mp h
    have hdistinct : dictionary.keys.Nodup := by
      rw [← dictionary.length_value]
      simpa using throwIf_eq_ok.mp hcount
    obtain ⟨groups, htexts, hne, hgroups, hkept⟩ := exists_replaced hreplaces hdistinct
    obtain ⟨occurrences, hoccurrences, htext, hmembers⟩ := Sf.exists_intercalate hgroups hne
    refine ⟨occurrences, hoccurrences, ?_, fun key hkey => by rw [hmembers, hkept key hkey]⟩
    rw [htext, htexts, ← hreplacement]
    exact pure_eq_ok.mp h

theorem setDictionaryMember_text (hP : P.Reads V) {headers headers' : List (String × Text)} {name : String}
    (hsplit : splitDictionary dictionary.text = .ok (dictionary.members.map Sf.Member.text))
    (hcurrent : headers.lookup (asciiLowerCase name) = some dictionary.text)
    (hreplacement : replacement.text = label.toList ++ '=' :: value)
    (h : setDictionaryMember P headers name label value = .ok headers') :
    ∃ dictionary' : Sf.Dictionary V, headers' = setMember headers (asciiLowerCase name, dictionary'.text) ∧
      ∀ key, key ≠ label → dictionary'.value.lookup key = dictionary.value.lookup key := by
  rw [setDictionaryMember, mapError_eq_ok, hcurrent] at h
  obtain ⟨text, htext, hset⟩ := bind_eq_ok.mp h
  obtain ⟨_, -, hset⟩ := bind_eq_ok.mp hset
  obtain rfl := pure_eq_ok.mp hset
  obtain ⟨occurrences, hne, rfl, hkept⟩ := dictionaryWith_text hP hsplit hreplacement htext
  obtain ⟨occurrences', blank, htext', hblank, hsolid, hmembers⟩ := Sf.exists_solid hne
  have hnormal : normalizeHeaderValue (Sf.occurrencesText occurrences) = Sf.occurrencesText occurrences' := by
    rw [htext', ← List.nil_append (Sf.occurrencesText occurrences')]
    refine trimBoth_solid ?_ rfl ?_ hsolid
    · intro c hc
      rw [isTrimmed, decide_eq_false_iff_not] at hc
      rw [isHttpWhitespace, decide_eq_false_iff_not]
      intro hmem
      have hsub : [' ', '\t', '\n', '\r'] ⊆ [' ', '\t', '\n', '\x0b', '\x0c', '\r', '\xa0'] := by decide
      exact hc (hsub hmem)
    · rw [List.all_eq_true] at hblank ⊢
      intro c hc
      have hspace : c = ' ' ∨ c = '\t' := by simpa [Sf.isBlank] using hblank c hc
      rcases hspace with rfl | rfl
      · rfl
      · rfl
  refine ⟨⟨0, occurrences'⟩, ?_, ?_⟩
  · rw [hnormal]
    rfl
  · intro key hkey
    refine Sf.Dictionary.lookup_of_filter ?_
    rw [Sf.Dictionary.members, hmembers]
    exact hkept key hkey

end Setting

/-! ## What the cuts decide -/

/-- The readers of a header tell repeated keys from others, and setting a member keeps the others. -/
structure AgreesWithGrammar {Identity : Type} (E : ProfileEnvironment Identity) {V : Sf.Values} (dictionary : Sf.Dictionary V) :
    Prop where
  split : splitDictionary dictionary.text = .ok (dictionary.members.map Sf.Member.text)
  dictionaryField : parseDictionaryField E dictionary.text = (do
    assertHeaderBound dictionary.text
    throwIf (¬ dictionary.keys.Nodup) (recordInvalid "malformed structured field dictionary")
    return dictionary.value)
  signatureInput : parseSignatureInput E.toHttpPlatform dictionary.text = (do
    assertHeaderBound dictionary.text
    throwIf (16 < dictionary.value.length ∨ ¬ dictionary.keys.Nodup) (recordInvalid "malformed Signature-Input header")
    (dictionary.value.zip (dictionary.members.map Sf.Member.text)).mapM fun member =>
      parseInputMember E.toHttpPlatform member.1.1 member.1.2 member.2)
  signature : parseSignature E.toHttpPlatform dictionary.text = (do
    assertHeaderBound dictionary.text
    throwIf (16 < dictionary.value.length ∨ ¬ dictionary.keys.Nodup) (recordInvalid "malformed Signature header")
    (dictionary.value.zip (dictionary.members.map Sf.Member.text)).mapM parseSignatureMember)
  setMember : ∀ (headers headers' : List (String × Text)) (name label : String) (value : Text),
    headers.lookup (asciiLowerCase name) = some dictionary.text →
    (∃ replacement : Sf.Dictionary V, replacement.text = label.toList ++ '=' :: value) →
    setDictionaryMember E.toHttpPlatform headers name label value = .ok headers' →
    ∃ dictionary' : Sf.Dictionary V, headers' = Foundations.setMember headers (asciiLowerCase name, dictionary'.text) ∧
      ∀ key, key ≠ label → dictionary'.value.lookup key = dictionary.value.lookup key

theorem agreesWithGrammar_of_split {Identity : Type} {E : ProfileEnvironment Identity} {V : Sf.Values}
    (hE : E.toHttpPlatform.Reads V) {dictionary : Sf.Dictionary V}
    (hsplit : splitDictionary dictionary.text = .ok (dictionary.members.map Sf.Member.text)) :
    AgreesWithGrammar E dictionary := by
  refine ⟨hsplit, parseDictionaryField_text hE hsplit, ?_, ?_, ?_⟩
  · rw [parseSignatureInput, readDictionary_text hE _ hsplit]
    simp only [bind_assoc, pure_bind]
  · rw [parseSignature, readDictionary_text hE _ hsplit]
    simp only [bind_assoc, pure_bind]
  · rintro headers headers' name label value hcurrent ⟨replacement, hreplacement⟩ hset
    exact setDictionaryMember_text hE hsplit hcurrent hreplacement hset

/-- **Splitting agrees with the grammar** where the colons inside the tokens of every member are paired. Where it agrees,
they are paired in every member without a string that holds a colon after an unpaired one. -/
theorem agreesWithGrammar_paired {Identity : Type} {E : ProfileEnvironment Identity} {V : Sf.Values}
    (hE : E.toHttpPlatform.Reads V) (dictionary : Sf.Dictionary V) :
    ((∀ member ∈ dictionary.members, member.content.paired = true) → AgreesWithGrammar E dictionary) ∧
      (AgreesWithGrammar E dictionary →
        ∀ member ∈ dictionary.members, member.content.exposed = false → member.content.paired = true) := by
  constructor
  · intro hpaired
    have hreads : ∀ member ∈ dictionary.members, Scan.start.reads member.text = some .start :=
      fun member hmember => Sf.reads_member_of_paired (hpaired member hmember)
    exact agreesWithGrammar_of_split hE ((splitDictionary_eq_ok dictionary).mpr hreads)
  · intro hagrees member hmember hexposed
    have hreads := (splitDictionary_eq_ok dictionary).mp hagrees.split member hmember
    exact Sf.paired_of_reads_member hexposed hreads

/-! Headers that the parser above reads. -/

def digitsValue (digits : Text) : ℚ := (digits.foldl (fun n c => 10 * n + (c.toNat - '0'.toNat)) 0 : ℕ)

/-- The value of an integer; decimals are not read. -/
def integerValue (text : Text) : JsNumber :=
  match Sf.after '-' text with
  | some digits => .finite (-digitsValue digits)
  | none => .finite (digitsValue text)

def parsingValues : Sf.Values where
  number := integerValue
  decode := Protocol.atob

def parsingProfile : ProfileEnvironment String :=
  { sampleProfile with parseDictionary := fun text => Sf.parseDictionary parsingValues text.toList }

theorem parsingProfile_reads : parsingProfile.toHttpPlatform.Reads parsingValues := by
  intro dictionary
  show Sf.parseDictionary parsingValues (String.ofList dictionary.text).toList = _
  rw [String.toList_ofList]
  exact Sf.parseDictionary_text dictionary

def one : Sf.BareItem parsingValues := .number ⟨false, ['1'], none, by decide, by show 1 ≤ 15; decide⟩

/-- A member and the space after the comma behind it. -/
def spaced (key : Sf.Key) (content : Sf.Content parsingValues) : Sf.Occurrence parsingValues :=
  ⟨⟨key, content⟩, [], [' '], rfl, rfl⟩

/-- `a=("x,:" p:q:r);n=1, b=:AQ==:, c;s`. -/
def mixedHeader : Sf.Dictionary parsingValues where
  lead := 0
  occurrences := [
    spaced ⟨['a'], rfl⟩ (.innerList ⟨0, [(⟨.string ['x', ',', ':'] rfl, []⟩, 0), (⟨.token "p:q:r".toList (by decide), []⟩, 0)],
      [⟨0, ⟨['n'], rfl⟩, some one⟩]⟩),
    spaced ⟨['b'], rfl⟩ (.item ⟨.bytes "AQ==".toList [1] (by decide) (by decide), []⟩),
    spaced ⟨['c'], rfl⟩ (.flag [⟨0, ⟨['s'], rfl⟩, none⟩])]

theorem mixedHeader_agrees :
    mixedHeader.text = "a=(\"x,:\" p:q:r);n=1, b=:AQ==:, c;s".toList ∧ AgreesWithGrammar parsingProfile mixedHeader :=
  ⟨by decide, (agreesWithGrammar_paired parsingProfile_reads mixedHeader).1 (by decide)⟩

/-- `a=x:y, a=z:w, b=1`. -/
def unpairedHeader : Sf.Dictionary parsingValues where
  lead := 0
  occurrences := [
    spaced ⟨['a'], rfl⟩ (.item ⟨.token "x:y".toList (by decide), []⟩),
    spaced ⟨['a'], rfl⟩ (.item ⟨.token "z:w".toList (by decide), []⟩),
    spaced ⟨['b'], rfl⟩ (.item ⟨one, []⟩)]

/-- The first of two members with one key is dropped, and the header is read. -/
theorem unpairedHeader_read :
    parsingProfile.toHttpPlatform.Reads parsingValues ∧ unpairedHeader.text = "a=x:y, a=z:w, b=1".toList ∧
      splitDictionary unpairedHeader.text = .ok ["a=x:y, a=z:w".toList, "b=1".toList] ∧
      parseDictionaryField parsingProfile unpairedHeader.text =
        .ok [("a", .item (.token "z:w", [])), ("b", .item (.num (.finite 1), []))] ∧
      ¬ AgreesWithGrammar parsingProfile unpairedHeader := by
  refine ⟨parsingProfile_reads, by decide, by decide, by decide, ?_⟩
  intro h
  have hsplit := h.split
  revert hsplit
  decide

end Dnsid.HttpSignatures

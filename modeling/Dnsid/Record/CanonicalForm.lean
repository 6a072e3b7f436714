import Dnsid.Record.TagMaps

/-! # Codec and canonical form of TXT records

What `parse` and `parseUnsignedCanonical` accept, said of the tags of a text, and the texts that `serialize` and
`canonical` write. The canonical form of a record is the sorted list of its tags without `sg`.
-/
namespace Dnsid.Record
open Dnsid.Foundations DnsIdTxtRecord
set_option autoImplicit false

/-! ## What is accepted -/

/-- The tags of a text that `parse` accepts. -/
structure SignedTags (tags : List (Text × Text)) : Prop where
  good : GoodTags true [] tags
  version : ∃ version ∈ supportedVersions, tags.head? = some (tagV, version)
  complete : Complete requiredTags tags

/-- The tags of a text that is accepted without a signature. -/
structure UnsignedTags (tags : List (Text × Text)) : Prop where
  good : GoodTags false [] tags
  version : ∃ version ∈ supportedVersions, tags.lookup tagV = some version
  complete : Complete requiredUnsignedTags tags

theorem assertRequiredTags_ok {record : DnsIdTxtRecord} {required : List Text} {u : Unit} :
    record.assertRequiredTags required = .ok u ↔ ∀ name ∈ required, record.field name ≠ [] := by
  unfold assertRequiredTags
  split
  next name hfind =>
    refine ⟨fun h => (by cases h), fun h => ?_⟩
    have hempty := List.find?_some hfind
    exact absurd (of_decide_eq_true hempty) (h name (List.mem_of_find?_eq_some hfind))
  next hfind =>
    refine ⟨fun _ name hname => ?_, fun _ => rfl⟩
    simpa using List.find?_eq_none.mp hfind name hname

theorem versionOf?_eq {pair version : Text} : versionOf? pair = some version ↔ pair = element (tagV, version) := by
  unfold versionOf?
  split
  next => simp [element, tagV, eq_comm]
  next hother =>
    refine ⟨fun h => (by cases h), fun h => ?_⟩
    exact absurd h (hother version)

theorem elementsOf_head {raw pair : Text} (hpair : pair ≠ []) :
    (elementsOf raw).head? = some pair ↔ (raw.splitOn ';').head? = some pair := by
  simp only [elementsOf]
  split
  next hlast =>
    rw [List.head?_dropLast]
    split
    · rfl
    next hshort =>
      refine ⟨fun h => (by cases h), fun h => ?_⟩
      obtain ⟨rest, hrest⟩ := List.head?_eq_some_iff.mp h
      rw [hrest] at hlast hshort
      cases rest with
      | nil => simp at hlast; exact absurd hlast hpair
      | cons => simp at hshort
  next => rfl

theorem trimElement_zero (pair : Text) : trimElement 0 pair = pair := by
  unfold trimElement
  split <;> simp

theorem readElements_head {elements : List Text} {tags : List (Text × Text)} {version : Text}
    (h : readElements 0 elements = some tags) :
    tags.head? = some (tagV, version) ↔ elements.head? = some (element (tagV, version)) := by
  cases elements with
  | nil =>
    obtain rfl := Option.some.inj h
    simp
  | cons pair rest =>
    obtain ⟨m, hm, htags⟩ := Option.bind_eq_some_iff.mp h
    obtain ⟨tags', -, htags⟩ := Option.bind_eq_some_iff.mp htags
    obtain rfl := Option.some.inj htags
    rw [readElement, trimElement_zero] at hm
    simp only [List.head?_cons, Option.some.injEq]
    constructor
    · rintro rfl
      exact (cutAt_some hm).1
    · rintro rfl
      rw [element, cutAt_append (by simp [tagV])] at hm
      exact (Option.some.inj hm).symm

theorem complete_iff {tags : List (Text × Text)} (h : DistinctNames tags) {required : List Text}
    (hrequired : ∀ name ∈ required, name ∈ requiredTags) :
    (∀ name ∈ required, (recordOf tags).field name ≠ []) ↔ Complete required tags := by
  refine forall₂_congr fun name hname => ?_
  rw [recordOf_field h (hrequired name hname)]

theorem parse_ok_iff {raw : Text} {record : DnsIdTxtRecord} :
    parse raw = .ok record ↔ ∃ tags, tagPairs raw = some tags ∧ SignedTags tags ∧ record = recordOf tags := by
  simp only [parse, parseTagPairs, bind_eq_ok, orThrow_eq_ok, throwIf_eq_ok, pure_eq_ok, not_not, if_true,
    parsePairs_ok, assertRequiredTags_ok, Option.bind_eq_some_iff, exists_and_left, exists_const]
  constructor
  · rintro ⟨version, ⟨pair, hpair, hversion⟩, hsupported, _, ⟨tags, htags, hgood, rfl⟩, hcomplete, rfl⟩
    obtain rfl := versionOf?_eq.mp hversion
    refine ⟨tags, htags, ⟨hgood, ⟨version, hsupported, ?_⟩, (complete_iff hgood.distinct (by simp)).mp hcomplete⟩, rfl⟩
    exact (readElements_head htags).mpr ((elementsOf_head (by simp [element])).mpr hpair)
  · rintro ⟨tags, htags, ⟨hgood, ⟨version, hsupported, hhead⟩, hcomplete⟩, rfl⟩
    refine ⟨version, ⟨_, ?_, versionOf?_eq.mpr rfl⟩, hsupported, recordOf tags, ⟨tags, htags, hgood, rfl⟩,
      (complete_iff hgood.distinct (by simp)).mpr hcomplete, rfl⟩
    exact (elementsOf_head (by simp [element])).mp ((readElements_head htags).mp hhead)

/-! ## Reading what was written -/

theorem isTagName_chars {name : Text} (h : isTagName name = true) :
    name ≠ [] ∧ ∀ c ∈ name, (c.isAlphanum || c = '_') = true := by
  cases name with
  | nil => cases h
  | cons c rest =>
    simp only [isTagName, Bool.and_eq_true, List.all_eq_true] at h
    refine ⟨by simp, fun d hd => ?_⟩
    rcases List.mem_cons.mp hd with rfl | hd
    · simp [Char.isAlphanum, h.1]
    · exact h.2 d hd

theorem isTagName_not_mem {name : Text} (h : isTagName name = true) {c : Char}
    (hc : (c.isAlphanum || c = '_') = false) : c ∉ name := by
  intro hmem
  rw [(isTagName_chars h).2 c hmem] at hc
  cases hc

theorem element_no_semicolon {m : Text × Text} (hname : isTagName m.1 = true) (hvalue : isTagValue m.2 = true) :
    ';' ∉ element m := by
  intro hmem
  rcases List.mem_append.mp hmem with hmem | hmem
  · exact isTagName_not_mem hname (by decide) hmem
  · rcases List.mem_cons.mp hmem with heq | hmem
    · cases heq
    · have := List.all_eq_true.mp hvalue ';' hmem
      revert this
      decide

theorem readElement_element {m : Text × Text} (hname : isTagName m.1 = true) (i : ℕ) :
    readElement i (element m) = some m := by
  have htrim : trimElement i (element m) = element m := by
    unfold trimElement
    split
    next rest hrest =>
      exfalso
      obtain ⟨name, value⟩ := m
      cases name with
      | nil => cases hname
      | cons c name =>
        have hc : c = ' ' := (List.cons.inj hrest).1
        subst hc
        exact isTagName_not_mem hname (by decide) List.mem_cons_self
    next => rfl
  rw [readElement, htrim, element, cutAt_append (isTagName_not_mem hname (by decide))]

theorem readElements_elements {tags : List (Text × Text)} (hnames : ∀ m ∈ tags, isTagName m.1 = true) (i : ℕ) :
    readElements i (tags.map element) = some tags := by
  induction tags generalizing i with
  | nil => rfl
  | cons m tags ih =>
    obtain ⟨hname, htail⟩ := List.forall_mem_cons.mp hnames
    rw [List.map_cons, readElements, readElement_element hname, ih htail]
    rfl

section Joined
variable {requireSignature : Bool} {tags : List (Text × Text)}

theorem splitOn_joinElements (h : GoodTags requireSignature [] tags) (hne : tags ≠ []) :
    (joinElements tags).splitOn ';' = tags.map element := by
  refine List.splitOn_intercalate ';' ?_ (by simpa using hne)
  intro pair hpair
  obtain ⟨m, hm, rfl⟩ := List.mem_map.mp hpair
  exact element_no_semicolon (h.names m hm) (h.values m hm)

theorem tagPairs_joinElements (h : GoodTags requireSignature [] tags) (hne : tags ≠ []) :
    tagPairs (joinElements tags) = some tags := by
  have hlast : (tags.map element).getLast? ≠ some [] := by
    intro hlast
    obtain ⟨m, -, hm⟩ := List.mem_map.mp (List.mem_of_getLast? hlast)
    simp [element] at hm
  rw [tagPairs, elementsOf, splitOn_joinElements h hne]
  simp only [hlast, if_false]
  exact readElements_elements h.names 0

/-- Written tags are known by the text. -/
theorem joinElements_injective {tags' : List (Text × Text)} (h : GoodTags requireSignature [] tags)
    (h' : GoodTags requireSignature [] tags') (hne : tags ≠ []) (hne' : tags' ≠ [])
    (heq : joinElements tags = joinElements tags') : tags = tags' := by
  have := tagPairs_joinElements h hne
  rw [heq, tagPairs_joinElements h' hne'] at this
  exact (Option.some.inj this).symm

theorem parse_joinElements (h : SignedTags tags) : parse (joinElements tags) = .ok (recordOf tags) := by
  have hne : tags ≠ [] := by
    obtain ⟨version, -, hhead⟩ := h.version
    rintro rfl
    cases hhead
  exact parse_ok_iff.mpr ⟨tags, tagPairs_joinElements h.good hne, h, rfl⟩

end Joined

/-! ## Unsigned texts -/

theorem readElements_mem {elements : List Text} {i : ℕ} {tags : List (Text × Text)} {m : Text × Text}
    (h : readElements i elements = some tags) (hmem : element m ∈ elements) (hname : isTagName m.1 = true) :
    m ∈ tags := by
  induction elements generalizing i tags with
  | nil => cases hmem
  | cons pair rest ih =>
    obtain ⟨m', hm', htags⟩ := Option.bind_eq_some_iff.mp h
    obtain ⟨tags', htags', htags⟩ := Option.bind_eq_some_iff.mp htags
    obtain rfl := Option.some.inj htags
    rcases List.mem_cons.mp hmem with rfl | hmem
    · rw [readElement_element hname] at hm'
      exact Option.some.inj hm' ▸ List.mem_cons_self
    · exact List.mem_cons_of_mem _ (ih htags' hmem)

theorem mem_elementsOf {raw pair : Text} (hpair : pair ≠ []) (h : pair ∈ raw.splitOn ';') : pair ∈ elementsOf raw := by
  simp only [elementsOf]
  split
  next hlast =>
    obtain ⟨elements, hpairs⟩ := List.getLast?_eq_some_iff.mp hlast
    rw [hpairs] at h ⊢
    rw [List.dropLast_concat]
    rcases List.mem_append.mp h with h | h
    · exact h
    · exact absurd (List.mem_singleton.mp h) hpair
  next => exact h

theorem element_injective {m m' : Text × Text} (hname : isTagName m.1 = true) (hname' : isTagName m'.1 = true)
    (h : element m = element m') : m = m' := by
  have := readElement_element hname 0
  rw [h, readElement_element hname'] at this
  exact (Option.some.inj this).symm

theorem parseUnsigned_ok {raw : Text} {record : DnsIdTxtRecord} (h : parseTagPairs raw false false = .ok record) :
    ∃ tags, tagPairs raw = some tags ∧ UnsignedTags tags ∧ record = recordOf tags := by
  simp only [parseTagPairs, bind_eq_ok, orThrow_eq_ok, throwIf_eq_ok, pure_eq_ok, not_not, Bool.false_eq_true,
    if_false, parsePairs_ok, assertRequiredTags_ok, Option.bind_eq_some_iff, exists_and_left, exists_const] at h
  obtain ⟨version, ⟨pair, hpair, hversion⟩, hsupported, _, ⟨tags, htags, hgood, rfl⟩, hcomplete, rfl⟩ := h
  obtain rfl := versionOf?_eq.mp hversion
  have hmem : (tagV, version) ∈ tags :=
    readElements_mem htags (mem_elementsOf (by simp [element]) (List.mem_of_find?_eq_some hpair)) (by rfl)
  have hrequired : ∀ name ∈ requiredUnsignedTags, name ∈ requiredTags := fun name hname =>
    List.mem_append_left _ hname
  exact ⟨tags, htags, ⟨hgood, ⟨version, hsupported, (hgood.distinct.mem_iff _ _).mp hmem⟩,
    (complete_iff hgood.distinct hrequired).mp hcomplete⟩, rfl⟩

theorem parseUnsigned_joinElements {tags : List (Text × Text)} (h : UnsignedTags tags) :
    parseTagPairs (joinElements tags) false false = .ok (recordOf tags) := by
  obtain ⟨version, hsupported, hlookup⟩ := h.version
  have hmem := (h.good.distinct.mem_iff _ _).mpr hlookup
  have hne : tags ≠ [] := List.ne_nil_of_mem hmem
  have hfind : ((tags.map element).find? fun pair => (versionOf? pair).isSome) = some (element (tagV, version)) := by
    cases hfound : (tags.map element).find? fun pair => (versionOf? pair).isSome with
    | none =>
      have := List.find?_eq_none.mp hfound _ (List.mem_map_of_mem hmem)
      rw [versionOf?_eq.mpr rfl] at this
      simp at this
    | some pair =>
      have hsome := List.find?_some hfound
      obtain ⟨version', hversion'⟩ := Option.isSome_iff_exists.mp hsome
      obtain ⟨m, hm, hpair⟩ := List.mem_map.mp (List.mem_of_find?_eq_some hfound)
      rw [versionOf?_eq] at hversion'
      obtain rfl := element_injective (h.good.names m hm) (by rfl) (hpair.trans hversion')
      rw [(h.good.distinct.mem_iff _ _).mp hm] at hlookup
      rw [hversion', Option.some.inj hlookup]
  have hrequired : ∀ name ∈ requiredUnsignedTags, name ∈ requiredTags := fun name hname =>
    List.mem_append_left _ hname
  simp only [parseTagPairs, bind_eq_ok, orThrow_eq_ok, throwIf_eq_ok, pure_eq_ok, not_not, Bool.false_eq_true,
    if_false, parsePairs_ok, assertRequiredTags_ok, Option.bind_eq_some_iff, exists_and_left, exists_const]
  rw [splitOn_joinElements h.good hne]
  exact ⟨version, ⟨_, hfind, versionOf?_eq.mpr rfl⟩, hsupported, recordOf tags,
    ⟨tags, tagPairs_joinElements h.good hne, h.good, rfl⟩, (complete_iff h.good.distinct hrequired).mpr h.complete, rfl⟩

/-! ## Both ways of writing a record -/

section Forms
variable {tags tags' : List (Text × Text)}

/-- The tags that the canonical form has. -/
def unsignedPart (tags : List (Text × Text)) : List (Text × Text) := tags.filter fun m => m.1 ≠ tagSg

theorem mem_unsignedPart {m : Text × Text} : m ∈ unsignedPart tags ↔ m ∈ tags ∧ m.1 ≠ tagSg := by
  simp [unsignedPart, List.mem_filter]

theorem mem_canonicalOrder {name : Text} : name ∈ canonicalOrder ∨ name ∉ knownTags ↔ name ≠ tagSg := by
  have hknown : name ∈ knownTags ↔ name ∈ canonicalOrder ∨ name = tagSg := by
    simp only [knownTags, requiredTags, requiredUnsignedTags, canonicalOrder, List.cons_append, List.nil_append,
      List.mem_cons, List.not_mem_nil, or_false]
    tauto
  have hsg : tagSg ∉ canonicalOrder := by decide
  rw [hknown]
  constructor
  · rintro (hmem | hnot) rfl
    · exact hsg hmem
    · exact hnot (.inr rfl)
  · intro hne
    by_cases hmem : name ∈ canonicalOrder
    · exact .inl hmem
    · exact .inr fun h => h.elim hmem hne

/-- The canonical form is the sorted list of the tags other than `sg`. -/
theorem recordOf_canonical (h : DistinctNames tags) (hcomplete : Complete requiredUnsignedTags tags) :
    (recordOf tags).canonical = canonicalJoin (unsignedPart tags) := by
  unfold canonical canonicalJoin
  rw [recordOf_knownCanonicalPairs h hcomplete, recordOf_unknownTags]
  congr 1
  have hunsigned : DistinctNames (unsignedPart tags) := h.filter _
  refine (sortByName_eq_iff ?_ hunsigned).mpr fun m => ?_
  · refine (pick_distinct (by decide) tags).append (h.filter _) fun m hm m' hm' heq => ?_
    have hunknown := (List.mem_filter.mp hm').2
    rw [← heq] at hunknown
    have hknown : m.1 ∈ knownTags := by
      by_contra hnot
      have horder := (mem_pick.mp hm).1
      revert hnot
      simp only [canonicalOrder, List.mem_cons, List.not_mem_nil, or_false] at horder
      rcases horder with h | h | h | h | h | h | h | h | h <;> rw [h] <;> decide
    exact of_decide_eq_true hunknown hknown
  · rw [List.mem_append, mem_pick, List.mem_filter, mem_unsignedPart, ← h.mem_iff, ← mem_canonicalOrder]
    simp only [decide_eq_true_eq]
    tauto

theorem unsignedPart_good (h : GoodTags true [] tags) : GoodTags false [] (unsignedPart tags) where
  names m hm := h.names m (mem_unsignedPart.mp hm).1
  values m hm := h.values m (mem_unsignedPart.mp hm).1
  distinct := h.distinct.filter _
  fresh _ hm := h.fresh _ (mem_unsignedPart.mp hm).1
  unsigned _ _ hm := (mem_unsignedPart.mp hm).2

theorem lookup_unsignedPart (h : DistinctNames tags) {name : Text} (hname : name ≠ tagSg) :
    (unsignedPart tags).lookup name = tags.lookup name := by
  ext value
  have hfilter : DistinctNames (unsignedPart tags) := h.filter _
  rw [← hfilter.mem_iff, ← h.mem_iff, mem_unsignedPart]
  exact and_iff_left hname

theorem canonicalJoin_congr (h : DistinctNames tags) (h' : DistinctNames tags')
    (hmem : ∀ m, m ∈ unsignedPart tags ↔ m ∈ unsignedPart tags') :
    canonicalJoin (unsignedPart tags) = canonicalJoin (unsignedPart tags') := by
  have hdistinct : DistinctNames (unsignedPart tags) := h.filter _
  have hdistinct' : DistinctNames (unsignedPart tags') := h'.filter _
  rw [canonicalJoin, canonicalJoin, (sortByName_eq_iff hdistinct hdistinct').mpr hmem]

theorem SignedTags.completeUnsigned (h : SignedTags tags) : Complete requiredUnsignedTags tags := fun name hname =>
  h.complete name (List.mem_append_left _ hname)

/-- The tags of an accepted text without `sg` are accepted unsigned, also sorted. -/
theorem SignedTags.unsigned (h : SignedTags tags) : UnsignedTags (sortByName (unsignedPart tags)) := by
  have hgood := unsignedPart_good h.good
  have hmem : ∀ {m}, m ∈ sortByName (unsignedPart tags) ↔ m ∈ unsignedPart tags := mem_sortByName
  have hdistinct := sortByName_distinct hgood.distinct
  have hlookup : ∀ name, name ≠ tagSg → (sortByName (unsignedPart tags)).lookup name = tags.lookup name := by
    intro name hname
    rw [← lookup_unsignedPart h.good.distinct hname]
    exact (hdistinct.lookup_eq_iff hgood.distinct).mpr (fun m => hmem) name
  refine ⟨⟨fun m hm => hgood.names m (hmem.mp hm), fun m hm => hgood.values m (hmem.mp hm), hdistinct,
    fun m hm => hgood.fresh m (hmem.mp hm), fun hno m hm => hgood.unsigned hno m (hmem.mp hm)⟩, ?_, fun name hname => ?_⟩
  · obtain ⟨version, hsupported, hhead⟩ := h.version
    refine ⟨version, hsupported, ?_⟩
    rw [hlookup _ (by decide), ← h.good.distinct.mem_iff]
    exact List.mem_of_head? hhead
  · rw [hlookup name (by rintro rfl; revert hname; decide)]
    exact h.complete name (List.mem_append_left _ hname)

/-- `sg` at the end and the version in front: the text of an unsigned list once it is signed. -/
def signedWith (signature version : Text) (tags : List (Text × Text)) : List (Text × Text) :=
  (tagV, version) :: ((tags.filter fun m => m.1 ≠ tagV) ++ [(tagSg, signature)])

theorem mem_signedWith {signature version : Text} (h : DistinctNames tags) (hversion : tags.lookup tagV = some version)
    {m : Text × Text} : m ∈ signedWith signature version tags ↔ m ∈ tags ∨ m = (tagSg, signature) := by
  have hmem := (h.mem_iff _ _).mpr hversion
  simp only [signedWith, List.mem_cons, List.mem_append, List.mem_filter, decide_eq_true_eq, List.not_mem_nil, or_false]
  constructor
  · rintro (rfl | ⟨hm, -⟩ | rfl)
    · exact .inl hmem
    · exact .inl hm
    · exact .inr rfl
  · rintro (hm | rfl)
    · by_cases hv : m.1 = tagV
      · left
        have hvalue := (h.mem_iff m.1 m.2).mp hm
        rw [hv, hversion] at hvalue
        exact Prod.ext hv (Option.some.inj hvalue).symm
      · exact .inr (.inl ⟨hm, hv⟩)
    · exact .inr (.inr rfl)

theorem signedWith_distinct {signature version : Text} (h : DistinctNames tags) (hsg : ∀ m ∈ tags, m.1 ≠ tagSg) :
    DistinctNames (signedWith signature version tags) := by
  have hlater : DistinctNames ((tags.filter fun m => m.1 ≠ tagV) ++ [(tagSg, signature)]) := by
    refine (h.filter _).append (by simp [DistinctNames]) fun m hm m' hm' => ?_
    obtain rfl := List.mem_singleton.mp hm'
    exact hsg m (List.mem_filter.mp hm).1
  rw [DistinctNames, signedWith, List.map_cons, List.nodup_cons]
  refine ⟨fun hmem => ?_, hlater⟩
  obtain ⟨m, hm, heq⟩ := List.mem_map.mp hmem
  rcases List.mem_append.mp hm with hm | hm
  · exact of_decide_eq_true (List.mem_filter.mp hm).2 heq
  · obtain rfl := List.mem_singleton.mp hm
    revert heq
    simp [tagSg, tagV]

theorem UnsignedTags.signed {signature : Text} (h : UnsignedTags tags) (hvalue : isTagValue signature = true)
    (hne : signature ≠ []) : ∃ tags', SignedTags tags' ∧ ∀ m, m ∈ unsignedPart tags' ↔ m ∈ tags := by
  obtain ⟨version, hsupported, hversion⟩ := h.version
  have hsg : ∀ m ∈ tags, m.1 ≠ tagSg := h.good.unsigned rfl
  have hmem : ∀ {m}, m ∈ signedWith signature version tags ↔ m ∈ tags ∨ m = (tagSg, signature) :=
    mem_signedWith h.good.distinct hversion
  have hdistinct := @signedWith_distinct tags signature version h.good.distinct hsg
  have hlookup : ∀ {m}, m ∈ tags → (signedWith signature version tags).lookup m.1 = some m.2 := fun hm =>
    (hdistinct.mem_iff _ _).mp (hmem.mpr (.inl hm))
  refine ⟨signedWith signature version tags, ⟨⟨?_, ?_, hdistinct, fun _ _ => List.not_mem_nil, by simp⟩,
    ⟨version, hsupported, rfl⟩, fun name hname => ?_⟩, fun m => ?_⟩
  · intro m hm
    rcases hmem.mp hm with hm | rfl
    · exact h.good.names m hm
    · rfl
  · intro m hm
    rcases hmem.mp hm with hm | rfl
    · exact h.good.values m hm
    · exact hvalue
  · rcases List.mem_append.mp hname with hname | hname
    · have hcomplete := h.complete name hname
      cases hfound : tags.lookup name with
      | none => simp [hfound] at hcomplete
      | some value =>
        rw [hlookup ((h.good.distinct.mem_iff name value).mpr hfound)]
        rwa [hfound] at hcomplete
    · obtain rfl := List.mem_singleton.mp hname
      rw [(hdistinct.mem_iff tagSg signature).mp (hmem.mpr (.inr rfl))]
      exact hne
  · rw [mem_unsignedPart, hmem]
    constructor
    · rintro ⟨hm | rfl, hne⟩
      · exact hm
      · exact absurd rfl hne
    · intro hm
      exact ⟨.inl hm, hsg m hm⟩

end Forms

/-! ## The tag map of a record -/

/-- The value of a tag in a record: a field, or an entry of `unknownTags`. -/
def DnsIdTxtRecord.tag? (record : DnsIdTxtRecord) (tag : Text) : Option Text :=
  if tag ∈ requiredTags then present (record.field tag)
  else if tag ∈ [tagFl, tagKa, tagCu] then (record.optionalPair tag (optionalField record tag)).lookup tag
  else record.unknownTags.lookup tag

theorem recordOf_tag? {tags : List (Text × Text)} (h : DistinctNames tags)
    (hvalues : ∀ name ∈ requiredTags, ∀ value, tags.lookup name = some value → value ≠ []) (tag : Text) :
    (recordOf tags).tag? tag = tags.lookup tag := by
  unfold DnsIdTxtRecord.tag?
  split_ifs with hrequired hoptional
  · rw [recordOf_field h hrequired]
    cases hlookup : tags.lookup tag with
    | none => rfl
    | some value => simp [present, hvalues tag hrequired value hlookup]
  · rw [optionalPair_field h hoptional]
    cases tags.lookup tag <;> simp
  · rw [recordOf_unknownTags]
    ext value
    have hfilter : DistinctNames (tags.filter fun m => m.1 ∉ knownTags) := h.filter _
    have hknown : tag ∉ knownTags := fun hmem => (List.mem_append.mp hmem).elim hrequired hoptional
    rw [← hfilter.mem_iff, ← h.mem_iff, List.mem_filter]
    simp [hknown]

theorem SignedTags.tag? {tags : List (Text × Text)} (h : SignedTags tags) (tag : Text) :
    (recordOf tags).tag? tag = tags.lookup tag :=
  recordOf_tag? h.good.distinct (fun _ hname _ hlookup => h.complete.value_ne_nil hname hlookup) tag

/-- `serialize` writes the tags of the text in another order. -/
theorem SignedTags.serialize {tags : List (Text × Text)} (h : SignedTags tags) :
    ∃ tags', (recordOf tags).serialize = joinElements tags' ∧ SignedTags tags' ∧
      ∀ tag, tags'.lookup tag = tags.lookup tag := by
  obtain ⟨version, hsupported, hhead⟩ := h.version
  have hversion : tags.lookup tagV = some version := (h.good.distinct.mem_iff _ _).mp (List.mem_of_head? hhead)
  have hknown : ∀ {name}, name ∈ serialOrder ↔ name ∈ knownTags := by
    intro name
    simp [serialOrder, knownTags, requiredTags, requiredUnsignedTags]
  have hmem : ∀ m, m ∈ pick serialOrder tags ++ tags.filter (fun m => m.1 ∉ knownTags) ↔ m ∈ tags := by
    intro m
    rw [List.mem_append, mem_pick, List.mem_filter, hknown, ← h.good.distinct.mem_iff]
    simp only [decide_eq_true_eq]
    tauto
  have hdistinct : DistinctNames (pick serialOrder tags ++ tags.filter fun m => m.1 ∉ knownTags) := by
    refine (pick_distinct (by decide) tags).append (h.good.distinct.filter _) fun m hm m' hm' heq => ?_
    have hunknown := (List.mem_filter.mp hm').2
    rw [← heq] at hunknown
    exact of_decide_eq_true hunknown (hknown.mp (mem_pick.mp hm).1)
  have hlookup : ∀ tag, (pick serialOrder tags ++ tags.filter fun m => m.1 ∉ knownTags).lookup tag = tags.lookup tag :=
    (hdistinct.lookup_eq_iff h.good.distinct).mpr hmem
  refine ⟨pick serialOrder tags ++ tags.filter fun m => m.1 ∉ knownTags, ?_, ⟨⟨?_, ?_, hdistinct, ?_, by simp⟩, ?_, ?_⟩,
    hlookup⟩
  · rw [DnsIdTxtRecord.serialize, recordOf_serialPairs h.good.distinct h.complete]
  · exact fun m hm => h.good.names m ((hmem m).mp hm)
  · exact fun m hm => h.good.values m ((hmem m).mp hm)
  · exact fun _ _ => List.not_mem_nil
  · refine ⟨version, hsupported, ?_⟩
    rw [serialOrder, pick_cons, hversion]
    rfl
  · intro name hname
    rw [hlookup]
    exact h.complete name hname

/-- The known tags in order. -/
theorem UnsignedTags.known {tags : List (Text × Text)} (h : UnsignedTags tags) :
    GoodTags false [] (sortByName (pick canonicalOrder tags)) ∧ sortByName (pick canonicalOrder tags) ≠ [] := by
  have hmem : ∀ {m}, m ∈ sortByName (pick canonicalOrder tags) ↔ m.1 ∈ canonicalOrder ∧ m ∈ tags := by
    intro m
    rw [mem_sortByName, mem_pick, ← h.good.distinct.mem_iff]
  have hdistinct : DistinctNames (pick canonicalOrder tags) := pick_distinct (by decide) tags
  refine ⟨⟨fun m hm => h.good.names m (hmem.mp hm).2, fun m hm => h.good.values m (hmem.mp hm).2,
    sortByName_distinct hdistinct, fun _ _ => List.not_mem_nil, fun hno m hm => h.good.unsigned hno m (hmem.mp hm).2⟩, ?_⟩
  obtain ⟨version, -, hversion⟩ := h.version
  have hv : tagV ∈ canonicalOrder := by decide
  exact List.ne_nil_of_mem (hmem.mpr ⟨hv, (h.good.distinct.mem_iff tagV version).mpr hversion⟩)

/-- Equal projections to the known tags say that each known tag has the same value, or is absent in both. -/
theorem lookup_of_knownTagsCanonical {tags tags' : List (Text × Text)} (h : UnsignedTags tags)
    (h' : UnsignedTags tags') (heq : (recordOf tags).knownTagsCanonical = (recordOf tags').knownTagsCanonical)
    {tag : Text} (htag : tag ∈ canonicalOrder) : tags.lookup tag = tags'.lookup tag := by
  unfold knownTagsCanonical canonicalJoin at heq
  rw [recordOf_knownCanonicalPairs h.good.distinct h.complete,
    recordOf_knownCanonicalPairs h'.good.distinct h'.complete] at heq
  have hsorted := joinElements_injective h.known.1 h'.known.1 h.known.2 h'.known.2 heq
  have hsame := (sortByName_eq_iff (pick_distinct (by decide) tags) (pick_distinct (by decide) tags')).mp hsorted
  ext value
  have := hsame (tag, value)
  simpa [mem_pick, htag] using this

/-- Canonical forms agree exactly when the tags other than `sg` do. -/
theorem canonical_eq_iff {tags tags' : List (Text × Text)} (h : SignedTags tags) (h' : SignedTags tags') :
    (recordOf tags).canonical = (recordOf tags').canonical ↔
      ∀ tag, tag ≠ tagSg → tags.lookup tag = tags'.lookup tag := by
  have hunsigned : ∀ {tags}, SignedTags tags → DistinctNames (unsignedPart tags) := fun h => h.good.distinct.filter _
  have hne : ∀ {tags}, UnsignedTags tags → tags ≠ [] := by
    intro tags h
    obtain ⟨version, -, hversion⟩ := h.version
    exact List.ne_nil_of_mem ((h.good.distinct.mem_iff _ _).mpr hversion)
  rw [recordOf_canonical h.good.distinct h.completeUnsigned, recordOf_canonical h'.good.distinct h'.completeUnsigned]
  constructor
  · intro heq tag htag
    have hsorted := joinElements_injective h.unsigned.good h'.unsigned.good (hne h.unsigned) (hne h'.unsigned) heq
    have hmem := (sortByName_eq_iff (hunsigned h) (hunsigned h')).mp hsorted
    rw [← lookup_unsignedPart h.good.distinct htag, ← lookup_unsignedPart h'.good.distinct htag]
    exact ((hunsigned h).lookup_eq_iff (hunsigned h')).mpr hmem tag
  · intro hlookup
    refine canonicalJoin_congr h.good.distinct h'.good.distinct fun m => ?_
    rw [mem_unsignedPart, mem_unsignedPart, show m = (m.1, m.2) from rfl, h.good.distinct.mem_iff,
      h'.good.distinct.mem_iff]
    constructor
    · rintro ⟨hm, hne⟩
      exact ⟨hlookup m.1 hne ▸ hm, hne⟩
    · rintro ⟨hm, hne⟩
      exact ⟨(hlookup m.1 hne).symm ▸ hm, hne⟩

/-! ## Main result -/

/-- Serializing keeps the tag-to-value map of an accepted text; the canonical form keeps exactly the map without
`sg`; and the canonical forms of accepted texts are what `parseUnsignedCanonical` accepts. -/
theorem txt_record_codec (P : RecordPlatform) :
    (∀ s r, parse s = .ok r → (∀ tag, r.tag? tag = tagMap s tag) ∧
      ∃ r', parse r.serialize = .ok r' ∧ ∀ tag, r'.tag? tag = r.tag? tag) ∧
    (∀ s s' r r', parse s = .ok r → parse s' = .ok r' →
      (r.canonical = r'.canonical ↔ ∀ tag, tag ≠ tagSg → tagMap s tag = tagMap s' tag)) ∧
    ∀ x, (∃ r, parseUnsignedCanonical P x none = .ok r) ↔ ∃ s r, parse s = .ok r ∧ x = r.canonical := by
  have hmap : ∀ {s tags tag}, tagPairs s = some tags → tagMap s tag = tags.lookup tag := by
    intro s tags tag h
    rw [tagMap, h]
    rfl
  refine ⟨fun s r h => ?_, fun s s' r r' h h' => ?_, fun x => ⟨?_, ?_⟩⟩
  · obtain ⟨tags, htags, hsigned, rfl⟩ := parse_ok_iff.mp h
    obtain ⟨tags', hserialize, hsigned', hlookup⟩ := hsigned.serialize
    refine ⟨fun tag => by rw [hsigned.tag?, hmap htags], recordOf tags', ?_, fun tag => ?_⟩
    · rw [hserialize, parse_joinElements hsigned']
    · rw [hsigned'.tag?, hsigned.tag?, hlookup]
  · obtain ⟨tags, htags, hsigned, rfl⟩ := parse_ok_iff.mp h
    obtain ⟨tags', htags', hsigned', rfl⟩ := parse_ok_iff.mp h'
    simp only [hmap htags, hmap htags']
    exact canonical_eq_iff hsigned hsigned'
  · rintro ⟨r, h⟩
    simp only [parseUnsignedCanonical, bind_eq_ok, throwIf_eq_ok, not_not] at h
    obtain ⟨record, hparse, -, hcanonical, -⟩ := h
    obtain ⟨tags, -, hunsigned, rfl⟩ := parseUnsigned_ok hparse
    obtain ⟨tags', hsigned, hmem⟩ := @UnsignedTags.signed tags ['A'] hunsigned (by decide) (by simp)
    refine ⟨joinElements tags', recordOf tags', parse_joinElements hsigned, ?_⟩
    rw [← hcanonical, recordOf_canonical hunsigned.good.distinct hunsigned.complete,
      recordOf_canonical hsigned.good.distinct hsigned.completeUnsigned]
    refine canonicalJoin_congr hunsigned.good.distinct hsigned.good.distinct fun m => ?_
    rw [hmem]
    exact ⟨fun hm => (mem_unsignedPart.mp hm).1, fun hm => mem_unsignedPart.mpr ⟨hm, hunsigned.good.unsigned rfl m hm⟩⟩
  · rintro ⟨s, r, h, rfl⟩
    obtain ⟨tags, -, hsigned, rfl⟩ := parse_ok_iff.mp h
    have hunsigned := hsigned.unsigned
    have hcanonical : (recordOf (sortByName (unsignedPart tags))).canonical = (recordOf tags).canonical := by
      rw [recordOf_canonical hunsigned.good.distinct hunsigned.complete,
        recordOf_canonical hsigned.good.distinct hsigned.completeUnsigned]
      refine canonicalJoin_congr hunsigned.good.distinct hsigned.good.distinct fun m => ?_
      rw [mem_unsignedPart, mem_sortByName, mem_unsignedPart]
      tauto
    refine ⟨recordOf (sortByName (unsignedPart tags)), ?_⟩
    have hparse : parseTagPairs (recordOf tags).canonical false false =
        .ok (recordOf (sortByName (unsignedPart tags))) := by
      rw [recordOf_canonical hsigned.good.distinct hsigned.completeUnsigned, canonicalJoin]
      exact parseUnsigned_joinElements hunsigned
    simp only [parseUnsignedCanonical, bind_eq_ok, throwIf_eq_ok, not_not]
    exact ⟨_, hparse, (), hcanonical, rfl⟩

end Dnsid.Record

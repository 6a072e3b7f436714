import Dnsid.Record.TxtRecord

/-! # Tag maps of TXT records

A text is accepted exactly when its elements read as a list of tags that meets the rules (`parse_ok_iff`); the
record is the one of that list (`recordOf`), and both ways of writing it put the tags of the list in an order of
their own. So a text is known by its tag-to-value map, and the canonical form by the map without `sg`.
-/
namespace Dnsid.Record
open Dnsid.Foundations DnsIdTxtRecord
set_option autoImplicit false

/-! ## The elements of a text -/

/-- The elements of a text; an empty last one is the end of a text that ends in `;`. -/
def elementsOf (raw : Text) : List Text :=
  let pairs := raw.splitOn ';'
  if pairs.getLast? = some [] then pairs.dropLast else pairs

/-- Tag and value of the element at position `i`. -/
def readElement (i : ℕ) (pair : Text) : Option (Text × Text) := cutAt '=' (trimElement i pair)

/-- Tags and values of the elements from position `i` on. -/
def readElements : ℕ → List Text → Option (List (Text × Text))
  | _, [] => some []
  | i, pair :: rest => do
    let m ← readElement i pair
    let tags ← readElements (i + 1) rest
    return m :: tags

def tagPairs (raw : Text) : Option (List (Text × Text)) := readElements 0 (elementsOf raw)

/-- The tag-to-value map of a text. -/
def tagMap (raw : Text) (tag : Text) : Option Text := (tagPairs raw).bind fun tags => tags.lookup tag

theorem cutAt_some {separator : Char} {text : Text} {m : Text × Text} (h : cutAt separator text = some m) :
    text = m.1 ++ separator :: m.2 ∧ separator ∉ m.1 := by
  induction text generalizing m with
  | nil => cases h
  | cons c rest ih =>
    unfold cutAt at h
    split at h
    next hc =>
      obtain rfl := Option.some.inj h
      exact ⟨by rw [hc]; rfl, List.not_mem_nil⟩
    next hc =>
      obtain ⟨m', hm', rfl⟩ := Option.map_eq_some_iff.mp h
      obtain ⟨hrest, hnot⟩ := ih hm'
      refine ⟨by rw [hrest]; rfl, fun hmem => ?_⟩
      rcases List.mem_cons.mp hmem with hsep | hmem
      · exact hc hsep.symm
      · exact hnot hmem

theorem cutAt_append {separator : Char} {front : Text} (h : separator ∉ front) (rest : Text) :
    cutAt separator (front ++ separator :: rest) = some (front, rest) := by
  induction front with
  | nil => simp [cutAt]
  | cons c front ih =>
    have hc : c ≠ separator := fun hc => h (hc ▸ List.mem_cons_self)
    have hfront : separator ∉ front := fun hmem => h (List.mem_cons_of_mem _ hmem)
    rw [List.cons_append, cutAt, if_neg hc, ih hfront]
    rfl

/-! ## What the loop accepts -/

/-- The record once all the tags were read. -/
def addTags (record : DnsIdTxtRecord) (tags : List (Text × Text)) : DnsIdTxtRecord :=
  tags.foldl (fun record m => record.addTag m.1 m.2) record

def recordOf (tags : List (Text × Text)) : DnsIdTxtRecord := addTags {} tags

/-- The rules on the elements of a text, after the tags of `seen`. -/
structure GoodTags (requireSignature : Bool) (seen : List Text) (tags : List (Text × Text)) : Prop where
  names : ∀ m ∈ tags, isTagName m.1 = true
  values : ∀ m ∈ tags, isTagValue m.2 = true
  distinct : DistinctNames tags
  fresh : ∀ m ∈ tags, m.1 ∉ seen
  unsigned : requireSignature = false → ∀ m ∈ tags, m.1 ≠ tagSg

@[simp] theorem setKnownTag_parsedTags (record : DnsIdTxtRecord) (tag value : Text) :
    (record.setKnownTag tag value).parsedTags = record.parsedTags := by
  unfold setKnownTag
  split_ifs <;> rfl

@[simp] theorem addTag_parsedTags (record : DnsIdTxtRecord) (tag value : Text) :
    (record.addTag tag value).parsedTags = record.parsedTags ++ [tag] := by
  unfold addTag
  split_ifs <;> simp

theorem goodTags_cons {requireSignature : Bool} {seen : List Text} {m : Text × Text} {tags : List (Text × Text)} :
    GoodTags requireSignature seen (m :: tags) ↔
      isTagName m.1 = true ∧ isTagValue m.2 = true ∧ m.1 ∉ seen ∧ (requireSignature = false → m.1 ≠ tagSg) ∧
        GoodTags requireSignature (seen ++ [m.1]) tags := by
  constructor
  · intro h
    obtain ⟨hnew, hdistinct⟩ := h.distinct.tail
    have hmem : ∀ m' ∈ tags, m' ∈ m :: tags := fun m' hm' => List.mem_cons_of_mem m hm'
    refine ⟨h.names m List.mem_cons_self, h.values m List.mem_cons_self, h.fresh m List.mem_cons_self,
      fun hunsigned => h.unsigned hunsigned m List.mem_cons_self, fun m' hm' => h.names m' (hmem m' hm'),
      fun m' hm' => h.values m' (hmem m' hm'), hdistinct, fun m' hm' hseen => ?_,
      fun hunsigned m' hm' => h.unsigned hunsigned m' (hmem m' hm')⟩
    rcases List.mem_append.mp hseen with hseen | hseen
    · exact h.fresh m' (hmem m' hm') hseen
    · exact hnew (List.mem_map.mpr ⟨m', hm', List.mem_singleton.mp hseen⟩)
  · rintro ⟨hname, hvalue, hfresh, hunsigned, h⟩
    refine ⟨List.forall_mem_cons.mpr ⟨hname, h.names⟩, List.forall_mem_cons.mpr ⟨hvalue, h.values⟩, ?_,
      List.forall_mem_cons.mpr ⟨hfresh, fun m' hm' hseen => h.fresh m' hm' (List.mem_append_left _ hseen)⟩,
      fun hno => List.forall_mem_cons.mpr ⟨hunsigned hno, h.unsigned hno⟩⟩
    rw [DistinctNames, List.map_cons, List.nodup_cons]
    refine ⟨fun hmem => ?_, h.distinct⟩
    obtain ⟨m', hm', heq⟩ := List.mem_map.mp hmem
    exact h.fresh m' hm' (List.mem_append_right _ (List.mem_singleton.mpr heq))

/-- One element that is not the empty end of the text. -/
theorem parseElement_ok {requireSignature : Bool} {count i : ℕ} {record record' : DnsIdTxtRecord} {pair : Text}
    (hend : pair = [] → i ≠ count - 1) :
    parseElement requireSignature count record (pair, i) = .ok record' ↔
      ∃ m, readElement i pair = some m ∧ isTagName m.1 = true ∧ isTagValue m.2 = true ∧
        m.1 ∉ record.parsedTags ∧ (requireSignature = false → m.1 ≠ tagSg) ∧ record' = record.addTag m.1 m.2 := by
  by_cases hempty : pair = []
  · subst hempty
    simp [parseElement, hend rfl, readElement, trimElement, cutAt]
  · unfold parseElement
    rw [if_neg hempty]
    simp only [bind_eq_ok, throwIf_eq_ok, orThrow_eq_ok, pure_eq_ok, readElement, Bool.not_eq_false, not_and,
      exists_and_left, exists_const]
    constructor
    · rintro ⟨m, hm, hname, hvalue, hfresh, hsigned, hrecord⟩
      exact ⟨m, hm, hname, hvalue, hfresh, hsigned, hrecord.symm⟩
    · rintro ⟨m, hm, hname, hvalue, hfresh, hsigned, hrecord⟩
      exact ⟨m, hm, hname, hvalue, hfresh, hsigned, hrecord.symm⟩

/-- The loop over elements none of which is the empty end of the text. -/
theorem parseElements_ok {requireSignature : Bool} {count : ℕ} {elements : List Text} {i : ℕ}
    {record record' : DnsIdTxtRecord} (hend : ∀ e ∈ elements.zipIdx i, e.1 = [] → e.2 ≠ count - 1) :
    (elements.zipIdx i).foldlM (parseElement requireSignature count) record = .ok record' ↔
      ∃ tags, readElements i elements = some tags ∧ GoodTags requireSignature record.parsedTags tags ∧
        record' = addTags record tags := by
  induction elements generalizing i record with
  | nil =>
    simp only [List.zipIdx_nil, List.foldlM_nil, pure_eq_ok, readElements, Option.some.injEq, exists_eq_left']
    constructor
    · rintro rfl
      exact ⟨⟨by simp, by simp, List.nodup_nil, by simp, by simp⟩, rfl⟩
    · rintro ⟨-, rfl⟩
      rfl
  | cons pair rest ih =>
    rw [List.zipIdx_cons] at hend ⊢
    obtain ⟨hhead, htail⟩ := List.forall_mem_cons.mp hend
    simp only [List.foldlM_cons, bind_eq_ok, parseElement_ok hhead, ih htail, readElements]
    constructor
    · rintro ⟨_, ⟨m, hm, hname, hvalue, hfresh, hsigned, rfl⟩, tags, htags, hgood, rfl⟩
      rw [addTag_parsedTags] at hgood
      exact ⟨m :: tags, by rw [hm, htags]; rfl, goodTags_cons.mpr ⟨hname, hvalue, hfresh, hsigned, hgood⟩, rfl⟩
    · rintro ⟨tags, htags, hgood, rfl⟩
      obtain ⟨m, hm, htags⟩ := Option.bind_eq_some_iff.mp htags
      obtain ⟨tags', htags', htags⟩ := Option.bind_eq_some_iff.mp htags
      obtain rfl := Option.some.inj htags
      obtain ⟨hname, hvalue, hfresh, hsigned, hgood⟩ := goodTags_cons.mp hgood
      rw [← addTag_parsedTags record m.1 m.2] at hgood
      exact ⟨_, ⟨m, hm, hname, hvalue, hfresh, hsigned, rfl⟩, tags', htags', hgood, rfl⟩

/-- The loop over all elements of a text. -/
theorem parsePairs_ok {requireSignature : Bool} {raw : Text} {record : DnsIdTxtRecord} :
    (raw.splitOn ';').zipIdx.foldlM (parseElement requireSignature (raw.splitOn ';').length) {} = .ok record ↔
      ∃ tags, tagPairs raw = some tags ∧ GoodTags requireSignature [] tags ∧ record = recordOf tags := by
  unfold tagPairs elementsOf recordOf
  by_cases hlast : (raw.splitOn ';').getLast? = some []
  · obtain ⟨elements, hpairs⟩ := List.getLast?_eq_some_iff.mp hlast
    have hcount : elements.length = (raw.splitOn ';').length - 1 := by simp [hpairs]
    have hend : ∀ e ∈ elements.zipIdx 0, e.1 = [] → e.2 ≠ (raw.splitOn ';').length - 1 := by
      intro e he _
      have := List.snd_lt_of_mem_zipIdx he
      omega
    have hloop := @parseElements_ok requireSignature _ elements 0 {} record hend
    simp only [hlast, if_true]
    rw [show (raw.splitOn ';').dropLast = elements by simp [hpairs], ← hloop]
    generalize hn : (raw.splitOn ';').length = count at hcount
    rw [hpairs, List.zipIdx_append, List.foldlM_append, bind_eq_ok]
    have hstop : ∀ r, List.foldlM (parseElement requireSignature count) r
        (List.zipIdx [([] : Text)] (0 + elements.length)) = .ok r := by
      intro r
      simp [parseElement, hcount]
    simp only [hstop, Except.ok.injEq, exists_eq_right]
  · have hend : ∀ e ∈ (raw.splitOn ';').zipIdx 0, e.1 = [] → e.2 ≠ (raw.splitOn ';').length - 1 := by
      rintro ⟨pair, i⟩ he hempty hi
      have hget := List.mem_zipIdx_iff_getElem?.mp he
      rw [List.getLast?_eq_getElem?] at hlast
      simp only at hempty hi
      rw [hempty, hi] at hget
      exact hlast hget
    simp only [hlast, if_false]
    exact parseElements_ok hend

/-! ## The record of a list of tags -/

/-- An optional field of the record by its tag. -/
def optionalField (record : DnsIdTxtRecord) (tag : Text) : Option Text :=
  if tag = tagFl then record.fl
  else if tag = tagKa then record.ka
  else if tag = tagCu then record.cu
  else none

theorem addTag_field (record : DnsIdTxtRecord) (tag value : Text) {name : Text} (hname : name ∈ requiredTags) :
    (record.addTag tag value).field name = if tag = name then value else record.field name := by
  simp only [requiredTags, requiredUnsignedTags, List.cons_append, List.nil_append, List.mem_cons,
    List.not_mem_nil, or_false] at hname
  by_cases hknown : tag ∈ knownTags
  · unfold addTag
    rw [if_pos hknown]
    simp only [knownTags, requiredTags, requiredUnsignedTags, List.cons_append, List.nil_append, List.mem_cons,
      List.not_mem_nil, or_false] at hknown
    rcases hname with rfl | rfl | rfl | rfl | rfl | rfl | rfl <;>
      rcases hknown with rfl | rfl | rfl | rfl | rfl | rfl | rfl | rfl | rfl | rfl <;> rfl
  · have hne : tag ≠ name := by
      rintro rfl
      apply hknown
      rcases hname with rfl | rfl | rfl | rfl | rfl | rfl | rfl <;> decide
    unfold addTag
    rw [if_neg hknown, if_neg hne]
    rfl

theorem addTag_optionalField (record : DnsIdTxtRecord) (tag value : Text) {name : Text}
    (hname : name ∈ [tagFl, tagKa, tagCu]) :
    optionalField (record.addTag tag value) name =
      if tag = name then (present value).or (optionalField record name) else optionalField record name := by
  simp only [List.mem_cons, List.not_mem_nil, or_false] at hname
  by_cases hknown : tag ∈ knownTags
  · unfold addTag
    rw [if_pos hknown]
    simp only [knownTags, requiredTags, requiredUnsignedTags, List.cons_append, List.nil_append, List.mem_cons,
      List.not_mem_nil, or_false] at hknown
    rcases hname with rfl | rfl | rfl <;>
      rcases hknown with rfl | rfl | rfl | rfl | rfl | rfl | rfl | rfl | rfl | rfl <;> rfl
  · have hne : tag ≠ name := by
      rintro rfl
      apply hknown
      rcases hname with rfl | rfl | rfl <;> decide
    unfold addTag
    rw [if_neg hknown, if_neg hne]
    rfl

theorem setKnownTag_unknownTags (record : DnsIdTxtRecord) (tag value : Text) :
    (record.setKnownTag tag value).unknownTags = record.unknownTags := by
  unfold setKnownTag
  split_ifs <;> rfl

theorem addTag_unknownTags (record : DnsIdTxtRecord) (tag value : Text) :
    (record.addTag tag value).unknownTags =
      record.unknownTags ++ if tag ∈ knownTags then [] else [(tag, value)] := by
  unfold addTag
  split_ifs
  · rw [setKnownTag_unknownTags, List.append_nil]
  · rfl

/-- What a list of tags with distinct names leaves in the record. -/
theorem addTags_field {tags : List (Text × Text)} (h : DistinctNames tags) (record : DnsIdTxtRecord) {name : Text}
    (hname : name ∈ requiredTags) :
    (addTags record tags).field name = (tags.lookup name).getD (record.field name) := by
  induction tags generalizing record with
  | nil => rfl
  | cons m tags ih =>
    obtain ⟨hnew, htail⟩ := h.tail
    show (addTags (record.addTag m.1 m.2) tags).field name = _
    rw [ih htail, addTag_field record m.1 m.2 hname, List.lookup_cons]
    by_cases hm : m.1 = name
    · subst hm
      simp [lookup_eq_none_of_not_mem hnew]
    · rw [if_neg hm, beq_false_of_ne fun hne => hm hne.symm]

theorem addTags_optionalField {tags : List (Text × Text)} (h : DistinctNames tags) (record : DnsIdTxtRecord)
    {name : Text} (hname : name ∈ [tagFl, tagKa, tagCu]) :
    optionalField (addTags record tags) name =
      ((tags.lookup name).bind present).or (optionalField record name) := by
  induction tags generalizing record with
  | nil => rfl
  | cons m tags ih =>
    obtain ⟨hnew, htail⟩ := h.tail
    show optionalField (addTags (record.addTag m.1 m.2) tags) name = _
    rw [ih htail, addTag_optionalField record m.1 m.2 hname, List.lookup_cons]
    by_cases hm : m.1 = name
    · subst hm
      simp [lookup_eq_none_of_not_mem hnew]
    · rw [if_neg hm, beq_false_of_ne fun hne => hm hne.symm]

theorem addTags_unknownTags (tags : List (Text × Text)) (record : DnsIdTxtRecord) :
    (addTags record tags).unknownTags = record.unknownTags ++ tags.filter fun m => m.1 ∉ knownTags := by
  induction tags generalizing record with
  | nil => simp [addTags]
  | cons m tags ih =>
    show (addTags (record.addTag m.1 m.2) tags).unknownTags = _
    rw [ih, addTag_unknownTags, List.filter_cons]
    by_cases hm : m.1 ∈ knownTags <;> simp [hm]

theorem addTags_parsedTags (tags : List (Text × Text)) (record : DnsIdTxtRecord) :
    (addTags record tags).parsedTags = record.parsedTags ++ tags.map Prod.fst := by
  induction tags generalizing record with
  | nil => simp [addTags]
  | cons m tags ih =>
    show (addTags (record.addTag m.1 m.2) tags).parsedTags = _
    rw [ih, addTag_parsedTags, List.map_cons, List.append_assoc]
    rfl

/-! ## The tags that a record writes -/

/-- The order in which the known tags stand in `knownCanonicalPairs`. -/
def canonicalOrder : List Text := [tagV, tagGi, tagEk, tagKu, tagLr, tagSu, tagFl, tagKa, tagCu]

/-- The order in which the known tags stand in `serialize`. -/
def serialOrder : List Text := [tagV, tagGi, tagEk, tagKu, tagLr, tagSu, tagSg, tagFl, tagKa, tagCu]

/-- Every required tag is there, with a value. -/
def Complete (required : List Text) (tags : List (Text × Text)) : Prop :=
  ∀ name ∈ required, (tags.lookup name).getD [] ≠ []

section Written
variable {tags : List (Text × Text)}

theorem recordOf_field (h : DistinctNames tags) {name : Text} (hname : name ∈ requiredTags) :
    (recordOf tags).field name = (tags.lookup name).getD [] := by
  rw [recordOf, addTags_field h {} hname]
  congr 1
  simp only [requiredTags, requiredUnsignedTags, List.cons_append, List.nil_append, List.mem_cons,
    List.not_mem_nil, or_false] at hname
  rcases hname with rfl | rfl | rfl | rfl | rfl | rfl | rfl <;> rfl

theorem recordOf_optionalField (h : DistinctNames tags) {name : Text} (hname : name ∈ [tagFl, tagKa, tagCu]) :
    optionalField (recordOf tags) name = (tags.lookup name).bind present := by
  rw [recordOf, addTags_optionalField h {} hname]
  have hnone : optionalField {} name = none := by
    simp only [List.mem_cons, List.not_mem_nil, or_false] at hname
    rcases hname with rfl | rfl | rfl <;> rfl
  rw [hnone, Option.or_none]

theorem recordOf_unknownTags (tags : List (Text × Text)) :
    (recordOf tags).unknownTags = tags.filter fun m => m.1 ∉ knownTags := by
  rw [recordOf, addTags_unknownTags]
  rfl

theorem recordOf_parsedTags (tags : List (Text × Text)) : (recordOf tags).parsedTags = tags.map Prod.fst := by
  rw [recordOf, addTags_parsedTags]
  rfl

/-- A required tag is written if it has a value. -/
theorem pairIf_field (h : DistinctNames tags) {name : Text} (hname : name ∈ requiredTags)
    (hvalue : ∀ value, tags.lookup name = some value → value ≠ []) :
    pairIf name ((recordOf tags).field name) = ((tags.lookup name).map (Prod.mk name)).toList := by
  rw [recordOf_field h hname, pairIf]
  cases hlookup : tags.lookup name with
  | none => rfl
  | some value =>
    have hne := hvalue value hlookup
    simp [hne]

/-- An optional tag is written if the text had it. -/
theorem optionalPair_field (h : DistinctNames tags) {name : Text} (hname : name ∈ [tagFl, tagKa, tagCu]) :
    (recordOf tags).optionalPair name (optionalField (recordOf tags) name) =
      ((tags.lookup name).map (Prod.mk name)).toList := by
  rw [recordOf_optionalField h hname, optionalPair, recordOf_parsedTags]
  cases hlookup : tags.lookup name with
  | none =>
    have hnot : name ∉ tags.map Prod.fst := by
      intro hmem
      obtain ⟨m, hm, rfl⟩ := List.mem_map.mp hmem
      have := (h.mem_iff m.1 m.2).mp hm
      rw [hlookup] at this
      cases this
    simp [hnot]
  | some value =>
    have hmem := mem_names_of_lookup hlookup
    have hpresent : ((some value).bind present).getD [] = value := by
      rw [Option.bind_some, present]
      split
      next hempty => rw [hempty]; rfl
      next => rfl
    rw [hpresent, if_pos (.inr hmem)]
    rfl

/-- The required tags of a text are not empty. -/
theorem Complete.value_ne_nil {required : List Text} (h : Complete required tags) {name : Text}
    (hname : name ∈ required) {value : Text} (hlookup : tags.lookup name = some value) : value ≠ [] := by
  have := h name hname
  rwa [hlookup] at this

theorem recordOf_requiredPairs (h : DistinctNames tags) (hcomplete : Complete requiredUnsignedTags tags) :
    (recordOf tags).requiredPairs = pick [tagGi, tagEk, tagKu, tagLr, tagSu] tags := by
  have hfield : ∀ name ∈ requiredUnsignedTags, pairIf name ((recordOf tags).field name) =
      ((tags.lookup name).map (Prod.mk name)).toList := fun name hname =>
    pairIf_field h (List.mem_append_left _ hname) fun value hlookup => hcomplete.value_ne_nil hname hlookup
  simp only [pick_cons, ← List.append_assoc]
  rw [← hfield tagGi (by decide), ← hfield tagEk (by decide), ← hfield tagKu (by decide),
    ← hfield tagLr (by decide), ← hfield tagSu (by decide)]
  simp [requiredPairs, field, pick, tagGi, tagEk, tagKu, tagLr, tagSu, tagV]

theorem recordOf_optionalPairs (h : DistinctNames tags) :
    (recordOf tags).optionalPairs = pick [tagFl, tagKa, tagCu] tags := by
  simp only [pick_cons, ← List.append_assoc]
  rw [← @optionalPair_field tags h tagFl (by decide), ← @optionalPair_field tags h tagKa (by decide),
    ← @optionalPair_field tags h tagCu (by decide)]
  simp [optionalPairs, optionalField, pick, tagFl, tagKa, tagCu]

theorem recordOf_v (h : DistinctNames tags) : (recordOf tags).v = (tags.lookup tagV).getD [] :=
  @recordOf_field tags h tagV (by decide)

/-- The known tags, in the order of `knownCanonicalPairs`. -/
theorem recordOf_knownCanonicalPairs (h : DistinctNames tags) (hcomplete : Complete requiredUnsignedTags tags) :
    (recordOf tags).knownCanonicalPairs = pick canonicalOrder tags := by
  have hv : pairIf tagV (recordOf tags).v = ((tags.lookup tagV).map (Prod.mk tagV)).toList :=
    pairIf_field h (by decide) fun value hlookup => hcomplete.value_ne_nil (by decide) hlookup
  rw [knownCanonicalPairs, recordOf_requiredPairs h hcomplete, recordOf_optionalPairs h, hv]
  simp only [canonicalOrder, pick_cons, List.append_assoc]
  rfl

/-- The tags of the record, in the order of `serialize`. -/
theorem recordOf_serialPairs (h : DistinctNames tags) (hcomplete : Complete requiredTags tags) :
    (tagV, (recordOf tags).v) :: ((recordOf tags).requiredPairs ++ pairIf tagSg (recordOf tags).sg ++
      (recordOf tags).optionalPairs ++ (recordOf tags).unknownTags) =
      pick serialOrder tags ++ tags.filter fun m => m.1 ∉ knownTags := by
  have hunsigned : Complete requiredUnsignedTags tags := fun name hname =>
    hcomplete name (List.mem_append_left _ hname)
  have hsg : pairIf tagSg (recordOf tags).sg = ((tags.lookup tagSg).map (Prod.mk tagSg)).toList :=
    pairIf_field h (by decide) fun value hlookup => hcomplete.value_ne_nil (by decide) hlookup
  obtain ⟨version, hversion⟩ : ∃ version, tags.lookup tagV = some version := by
    have := hcomplete tagV (by decide)
    cases hlookup : tags.lookup tagV with
    | none => simp [hlookup] at this
    | some version => exact ⟨version, rfl⟩
  rw [recordOf_requiredPairs h hunsigned, recordOf_optionalPairs h, recordOf_unknownTags, hsg, recordOf_v h]
  simp only [serialOrder, pick_cons, List.append_assoc, hversion]
  rfl

end Written

end Dnsid.Record

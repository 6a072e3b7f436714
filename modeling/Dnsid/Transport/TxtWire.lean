import Dnsid.Protocol.StrictJson

/-! # TXT lookups over the wire (`transport/src/txt-wire.ts`)

`resolveTxtWithTtl` asks for the TXT records of a name, follows the CNAME answers of a response, and asks again for the name
they end at. The server controls every response: what is bounded is bounded by `hops` and `seen`, which live through the
whole lookup. `String.prototype.toLowerCase` is a parameter.
-/
namespace Dnsid.Transport
open Dnsid.Foundations
open Dnsid.Protocol (Bytes decodeUtf8)
set_option autoImplicit false

/-! ## Responses -/

inductive RecordType where
  | cname
  | txt
  | other
  deriving DecidableEq, Repr

inductive AnswerData where
  | text (value : CodeUnits)
  | buffers (parts : List Bytes)
  | other

/-- An answer as `dns-packet` decodes it. A TTL that is `undefined`, `NaN` or infinite is `none`. -/
structure Answer where
  name : CodeUnits
  type : RecordType
  isIn : Bool
  ttl : Option ℚ
  data : AnswerData

inductive Rcode where
  | noerror
  | nxdomain
  | other (text : String)
  deriving DecidableEq, Repr

/-- A response that passed `valid`; no answers when they are missing. -/
structure Response where
  rcode : Rcode
  answers : List Answer

inductive DnsError where
  | aborted
  | transport (message : String)
  /-- `DNS query failed: ${response.rcode}`. -/
  | queryFailed (rcode : String)
  /-- `invalid DNS TXT response`. -/
  | badResponse
  /-- The `TypeError` of the fatal decoder. -/
  | notUtf8
  deriving DecidableEq, Repr

structure TxtRecord where
  strings : List (List Char)
  ttl : ℕ
  deriving DecidableEq, Repr

def remainingTtl (ttl : Option ℚ) : ℕ :=
  match ttl with
  | some ttl => if ttl.den = 1 ∧ 0 ≤ ttl ∧ ttl ≤ 0x7fffffff then ttl.num.toNat else 0
  | none => 0

/-- `Math.min(ttl, other)`; `none` is `Infinity`. -/
def minTtl (ttl : Option ℕ) (other : ℕ) : Option ℕ := some (min (ttl.getD other) other)

/-! ## The lookup -/

section Lookup
variable (toLowerCase : CodeUnits → CodeUnits)

def normalize (name : CodeUnits) : CodeUnits :=
  toLowerCase (if name.getLast? = some 0x2e then name.dropLast else name)

/-- The variables that live through the loops. -/
structure Lookup where
  owner : CodeUnits
  seen : List CodeUnits
  hops : ℕ
  ttl : Option ℕ

def startLookup (name : CodeUnits) : Lookup :=
  ⟨normalize toLowerCase name, [normalize toLowerCase name], 0, none⟩

def Answer.isAnswer (answer : Answer) (type : RecordType) (owner : CodeUnits) : Bool :=
  answer.type = type && normalize toLowerCase answer.name = owner && answer.isIn

/-- The inner loop. -/
def followCnames (answers : List Answer) (lookup : Lookup) : Except DnsError Lookup :=
  match answers.filter fun a => a.isAnswer toLowerCase .cname lookup.owner with
  | [] => .ok lookup
  | cname :: more =>
    if more ≠ [] ∨ 8 < lookup.hops + 1 then .error .badResponse
    else
      match cname.data with
      | .text target =>
        if normalize toLowerCase target ∈ lookup.seen then .error .badResponse
        else followCnames answers ⟨normalize toLowerCase target, normalize toLowerCase target :: lookup.seen, lookup.hops + 1,
          minTtl lookup.ttl (remainingTtl cname.ttl)⟩
      | _ => .error .badResponse
termination_by 8 - lookup.hops
decreasing_by simp only [not_or, not_lt] at *; omega

/-- One record of the result. -/
def readTxt (ttl : Option ℕ) (answer : Answer) : Except DnsError TxtRecord :=
  match answer.data with
  | .buffers parts => do
    let strings ← parts.mapM fun part => orThrow .notUtf8 (decodeUtf8 part)
    return ⟨strings, min (ttl.getD 86400) 86400⟩
  | _ => .error .badResponse

/-- What one turn of the outer loop ends in. -/
inductive Turn where
  | returned (records : List TxtRecord)
  | again (lookup : Lookup)

/-- One turn of the outer loop with the response to its query. -/
def onResponse (lookup : Lookup) (response : Response) : Except DnsError Turn :=
  match response.rcode with
  | .nxdomain => .ok (.returned [])
  | .other rcode => .error (.queryFailed rcode)
  | .noerror => do
    let next ← followCnames toLowerCase response.answers lookup
    let txt := response.answers.filter fun a => a.isAnswer toLowerCase .txt next.owner
    if txt ≠ [] then
      let records ← txt.mapM (readTxt (txt.foldl (fun ttl a => minTtl ttl (remainingTtl a.ttl)) next.ttl))
      return .returned records
    else if next.owner = lookup.owner then return .returned []
    else return .again next

/-- The outer loop on the outcomes of the queries it makes, in order; `none` while it waits for another one. A query fails
with a transport error or with the reason of an abort. -/
def runLookup : List (Except DnsError Response) → Lookup → Option (Except DnsError (List TxtRecord))
  | [], _ => none
  | .error e :: _, _ => some (.error e)
  | .ok response :: outcomes, lookup =>
    match onResponse toLowerCase lookup response with
    | .error e => some (.error e)
    | .ok (.returned records) => some (.ok records)
    | .ok (.again next) => runLookup outcomes next

def resolveTxtWithTtl (name : CodeUnits) (outcomes : List (Except DnsError Response)) :
    Option (Except DnsError (List TxtRecord)) :=
  runLookup toLowerCase outcomes (startLookup toLowerCase name)

/-! ## TTLs -/

/-- The running TTL is at most `bound`. -/
def AtMost (ttl : Option ℕ) (bound : ℕ) : Prop := ∃ t, ttl = some t ∧ t ≤ bound

theorem atMost_minTtl (ttl : Option ℕ) (other : ℕ) : AtMost (minTtl ttl other) other :=
  ⟨_, rfl, Nat.min_le_right _ _⟩

theorem AtMost.minTtl {ttl : Option ℕ} {bound : ℕ} (h : AtMost ttl bound) (other : ℕ) : AtMost (minTtl ttl other) bound := by
  obtain ⟨t, rfl, ht⟩ := h
  exact ⟨_, rfl, (Nat.min_le_left _ _).trans ht⟩

theorem AtMost.foldl {ttl : Option ℕ} {bound : ℕ} (h : AtMost ttl bound) (answers : List Answer) :
    AtMost (answers.foldl (fun ttl a => Transport.minTtl ttl (remainingTtl a.ttl)) ttl) bound := by
  induction answers generalizing ttl with
  | nil => exact h
  | cons a answers ih => exact ih (h.minTtl _)

theorem atMost_foldl (ttl : Option ℕ) {answers : List Answer} {a : Answer} (ha : a ∈ answers) :
    AtMost (answers.foldl (fun ttl a => minTtl ttl (remainingTtl a.ttl)) ttl) (remainingTtl a.ttl) := by
  induction answers generalizing ttl with
  | nil => cases ha
  | cons b answers ih =>
    rw [List.foldl_cons]
    cases ha with
    | head => exact (atMost_minTtl _ _).foldl answers
    | tail _ ha => exact ih _ ha

theorem AtMost.capped {ttl : Option ℕ} {bound : ℕ} (h : AtMost ttl bound) : min (ttl.getD 86400) 86400 ≤ bound := by
  obtain ⟨t, rfl, ht⟩ := h
  exact (Nat.min_le_left _ _).trans ht

/-! ## The chain -/

/-- CNAME answers, each of which is an answer for the name at which the one before it points. -/
inductive CnameChain : CodeUnits → List Answer → CodeUnits → Prop where
  | start (owner : CodeUnits) : CnameChain owner [] owner
  | follow {first owner target : CodeUnits} {chain : List Answer} {cname : Answer} (hchain : CnameChain first chain owner)
      (hcname : cname.isAnswer toLowerCase .cname owner = true) (hdata : cname.data = .text target) :
      CnameChain first (chain ++ [cname]) (normalize toLowerCase target)

/-- The names that a chain goes through. -/
def chainOwners (chain : List Answer) (final : CodeUnits) : List CodeUnits :=
  chain.map (fun cname => normalize toLowerCase cname.name) ++ [final]

/-- The lookup stands at the end of a chain of answers it has heard. -/
structure Followed (name : CodeUnits) (heard : List (Except DnsError Response)) (lookup : Lookup) (chain : List Answer) :
    Prop where
  chained : CnameChain toLowerCase (normalize toLowerCase name) chain lookup.owner
  hops : chain.length = lookup.hops
  bounded : lookup.hops ≤ 8
  seen : lookup.seen = (chainOwners toLowerCase chain lookup.owner).reverse
  distinct : (chainOwners toLowerCase chain lookup.owner).Nodup
  answered : ∀ cname ∈ chain, ∃ response, .ok response ∈ heard ∧ cname ∈ response.answers
  ttl : ∀ cname ∈ chain, AtMost lookup.ttl (remainingTtl cname.ttl)

variable {toLowerCase} {name : CodeUnits} {heard : List (Except DnsError Response)}

theorem followed_start (name : CodeUnits) (heard : List (Except DnsError Response)) :
    Followed toLowerCase name heard (startLookup toLowerCase name) [] where
  chained := .start _
  hops := rfl
  bounded := Nat.zero_le _
  seen := rfl
  distinct := List.nodup_singleton _
  answered := List.forall_mem_nil _
  ttl := List.forall_mem_nil _

theorem Followed.mono {lookup : Lookup} {chain : List Answer} (h : Followed toLowerCase name heard lookup chain)
    {more : List (Except DnsError Response)} (hmore : heard ⊆ more) : Followed toLowerCase name more lookup chain :=
  { h with answered := fun cname hcname => (h.answered cname hcname).imp fun _ hr => ⟨hmore hr.1, hr.2⟩ }

/-- What the loop does when it does not stop at the lookup it has. -/
theorem followCnames_ok {answers : List Answer} {lookup next : Lookup}
    (h : followCnames toLowerCase answers lookup = .ok next) : next = lookup ∨
      ∃ cname ∈ answers, ∃ target, cname.isAnswer toLowerCase .cname lookup.owner = true ∧ cname.data = .text target ∧
        lookup.hops < 8 ∧ normalize toLowerCase target ∉ lookup.seen ∧
        followCnames toLowerCase answers ⟨normalize toLowerCase target, normalize toLowerCase target :: lookup.seen,
          lookup.hops + 1, minTtl lookup.ttl (remainingTtl cname.ttl)⟩ = .ok next := by
  rw [followCnames.eq_def] at h
  split at h
  next =>
    cases h
    exact .inl rfl
  next cname more hcnames =>
    right
    have hmem : cname ∈ answers.filter fun a => a.isAnswer toLowerCase .cname lookup.owner := by
      rw [hcnames]
      exact List.mem_cons_self
    obtain ⟨hanswer, hcname⟩ := List.mem_filter.mp hmem
    split_ifs at h with hstop
    split at h
    next target hdata =>
      split_ifs at h with hseen
      have hhops := (not_or.mp hstop).2
      exact ⟨cname, hanswer, target, hcname, hdata, by omega, hseen, h⟩
    next => cases h

theorem Followed.step {lookup : Lookup} {chain : List Answer} (h : Followed toLowerCase name heard lookup chain)
    {response : Response} (hheard : .ok response ∈ heard) {cname : Answer} (hcname : cname ∈ response.answers)
    {target : CodeUnits} (hanswer : cname.isAnswer toLowerCase .cname lookup.owner = true)
    (hdata : cname.data = .text target) (hhops : lookup.hops < 8) (hseen : normalize toLowerCase target ∉ lookup.seen) :
    Followed toLowerCase name heard ⟨normalize toLowerCase target, normalize toLowerCase target :: lookup.seen,
      lookup.hops + 1, minTtl lookup.ttl (remainingTtl cname.ttl)⟩ (chain ++ [cname]) := by
  have howner : normalize toLowerCase cname.name = lookup.owner := by
    simp only [Answer.isAnswer, Bool.and_eq_true, decide_eq_true_eq] at hanswer
    exact hanswer.1.2
  have howners : chainOwners toLowerCase (chain ++ [cname]) (normalize toLowerCase target) =
      chainOwners toLowerCase chain lookup.owner ++ [normalize toLowerCase target] := by
    rw [chainOwners, chainOwners, List.map_append, List.map_singleton, howner]
  have hnew : normalize toLowerCase target ∉ chainOwners toLowerCase chain lookup.owner := by
    rw [h.seen, List.mem_reverse] at hseen
    exact hseen
  constructor
  · exact .follow h.chained hanswer hdata
  · rw [List.length_append, h.hops]
    rfl
  · exact hhops
  · rw [howners, List.reverse_append, ← h.seen]
    rfl
  · rw [howners, List.nodup_append]
    refine ⟨h.distinct, List.nodup_singleton _, fun a ha b hb => ?_⟩
    rw [List.mem_singleton] at hb
    rintro rfl
    exact hnew (hb ▸ ha)
  · rw [List.forall_mem_append, List.forall_mem_singleton]
    exact ⟨h.answered, response, hheard, hcname⟩
  · rw [List.forall_mem_append, List.forall_mem_singleton]
    exact ⟨fun other hother => (h.ttl other hother).minTtl _, atMost_minTtl _ _⟩

/-- The inner loop keeps the chain, and each turn of it is a hop. -/
theorem Followed.followCnames {response : Response} (hheard : .ok response ∈ heard) {lookup next : Lookup}
    {chain : List Answer} (h : Followed toLowerCase name heard lookup chain)
    (hfollow : followCnames toLowerCase response.answers lookup = .ok next) :
    (∃ chain, Followed toLowerCase name heard next chain) ∧ (next = lookup ∨ lookup.hops < next.hops) := by
  induction hn : 8 - lookup.hops generalizing lookup chain with
  | zero =>
    rcases followCnames_ok hfollow with rfl | ⟨cname, -, target, -, -, hhops, -⟩
    · exact ⟨⟨chain, h⟩, .inl rfl⟩
    · omega
  | succ n ih =>
    rcases followCnames_ok hfollow with rfl | ⟨cname, hcname, target, hanswer, hdata, hhops, hseen, hrest⟩
    · exact ⟨⟨chain, h⟩, .inl rfl⟩
    · have hstep := h.step hheard hcname hanswer hdata hhops hseen
      obtain ⟨hnext, hmore⟩ := ih hstep hrest (by dsimp only; omega)
      refine ⟨hnext, .inr ?_⟩
      rcases hmore with rfl | hlt
      · exact Nat.lt_succ_self _
      · exact (Nat.lt_succ_self _).trans hlt

/-! ## The whole lookup -/

theorem onResponse_again {lookup next : Lookup} {response : Response}
    (h : onResponse toLowerCase lookup response = .ok (.again next)) :
    followCnames toLowerCase response.answers lookup = .ok next ∧ next ≠ lookup := by
  rw [onResponse] at h
  split at h
  next => cases h
  next => cases h
  next =>
    obtain ⟨found, hfollow, h⟩ := bind_eq_ok.mp h
    dsimp only at h
    split_ifs at h with htxt howner
    · obtain ⟨records, -, h⟩ := bind_eq_ok.mp h
      cases h
    · cases h
    · cases h
      refine ⟨hfollow, ?_⟩
      rintro rfl
      exact howner rfl

theorem onResponse_returned {lookup : Lookup} {response : Response} {records : List TxtRecord}
    (h : onResponse toLowerCase lookup response = .ok (.returned records)) : records = [] ∨
      ∃ next, followCnames toLowerCase response.answers lookup = .ok next ∧
        (response.answers.filter fun a => a.isAnswer toLowerCase .txt next.owner).mapM
          (readTxt ((response.answers.filter fun a => a.isAnswer toLowerCase .txt next.owner).foldl
            (fun ttl a => minTtl ttl (remainingTtl a.ttl)) next.ttl)) = .ok records := by
  rw [onResponse] at h
  split at h
  next =>
    cases h
    exact .inl rfl
  next => cases h
  next =>
    obtain ⟨next, hfollow, h⟩ := bind_eq_ok.mp h
    dsimp only at h
    split_ifs at h with htxt howner
    · obtain ⟨read, hread, h⟩ := bind_eq_ok.mp h
      cases h
      exact .inr ⟨next, hfollow, hread⟩
    · cases h
      exact .inl rfl
    · cases h

/-- Every query but the last costs a hop. -/
theorem runLookup_ends {outcomes : List (Except DnsError Response)} {lookup : Lookup} {chain : List Answer}
    (h : Followed toLowerCase name outcomes lookup chain) (hlong : 9 ≤ outcomes.length + lookup.hops) :
    ∃ result, runLookup toLowerCase outcomes lookup = some result := by
  suffices hall : ∀ remaining lookup chain, remaining ⊆ outcomes → Followed toLowerCase name outcomes lookup chain →
      9 ≤ remaining.length + lookup.hops → ∃ result, runLookup toLowerCase remaining lookup = some result from
    hall outcomes lookup chain (List.Subset.refl _) h hlong
  intro remaining
  induction remaining with
  | nil =>
    intro lookup chain _ h hlong
    have hbound := h.bounded
    rw [List.length_nil] at hlong
    omega
  | cons outcome remaining ih =>
    intro lookup chain hsub h hlong
    obtain ⟨hhead, hrest⟩ := List.cons_subset.mp hsub
    cases outcome with
    | error e => exact ⟨_, rfl⟩
    | ok response =>
      rw [runLookup]
      cases hturn : onResponse toLowerCase lookup response with
      | error e => exact ⟨_, rfl⟩
      | ok turn =>
        cases turn with
        | returned records => exact ⟨_, rfl⟩
        | again next =>
          obtain ⟨hfollow, hne⟩ := onResponse_again hturn
          obtain ⟨⟨chain', hnext⟩, hhops⟩ := h.followCnames hhead hfollow
          have hlt := hhops.resolve_left hne
          rw [List.length_cons] at hlong
          exact ih next chain' hrest hnext (by omega)

/-- The record has the strings of the answer. -/
def Answer.ReadsAs (answer : Answer) (record : TxtRecord) : Prop :=
  ∃ parts, answer.data = .buffers parts ∧
    List.Forall₂ (fun part text => decodeUtf8 part = some text) parts record.strings

theorem readTxt_ok {ttl : Option ℕ} {answer : Answer} {record : TxtRecord} (h : readTxt ttl answer = .ok record) :
    answer.ReadsAs record ∧ record.ttl = min (ttl.getD 86400) 86400 := by
  rw [readTxt] at h
  split at h
  next parts hdata =>
    obtain ⟨strings, hstrings, h⟩ := bind_eq_ok.mp h
    cases h
    rw [mapM_eq_ok] at hstrings
    exact ⟨⟨parts, hdata, hstrings.imp fun _ _ hpart => orThrow_eq_ok.mp hpart⟩, rfl⟩
  next => cases h

variable (toLowerCase) in
/-- What holds of the records that come with the last response. -/
structure Justified (name : CodeUnits) (heard : List (Except DnsError Response)) (last : Response)
    (records : List TxtRecord) (chain : List Answer) (final : CodeUnits) : Prop where
  chained : CnameChain toLowerCase (normalize toLowerCase name) chain final
  bounded : chain.length ≤ 8
  distinct : (chainOwners toLowerCase chain final).Nodup
  answered : ∀ cname ∈ chain, ∃ response, .ok response ∈ heard ∧ cname ∈ response.answers
  read : ∀ record ∈ records, ∃ answer ∈ last.answers, answer.isAnswer toLowerCase .txt final = true ∧ answer.ReadsAs record
  ttl : ∀ record ∈ records, record.ttl ≤ 86400 ∧ (∀ cname ∈ chain, record.ttl ≤ remainingTtl cname.ttl) ∧
    ∀ answer ∈ last.answers, answer.isAnswer toLowerCase .txt final = true → record.ttl ≤ remainingTtl answer.ttl

theorem Followed.justified {lookup : Lookup} {chain : List Answer} (h : Followed toLowerCase name heard lookup chain)
    {last : Response} {records : List TxtRecord}
    (hread : (last.answers.filter fun a => a.isAnswer toLowerCase .txt lookup.owner).mapM
      (readTxt ((last.answers.filter fun a => a.isAnswer toLowerCase .txt lookup.owner).foldl
        (fun ttl a => minTtl ttl (remainingTtl a.ttl)) lookup.ttl)) = .ok records) :
    Justified toLowerCase name heard last records chain lookup.owner := by
  refine ⟨h.chained, h.hops ▸ h.bounded, h.distinct, h.answered, fun record hrecord => ?_, fun record hrecord => ?_⟩
  · obtain ⟨answer, hanswer, hrow⟩ := mem_of_mapM hread hrecord
    obtain ⟨hmem, his⟩ := List.mem_filter.mp hanswer
    exact ⟨answer, hmem, his, (readTxt_ok hrow).1⟩
  · obtain ⟨answer, hanswer, hrow⟩ := mem_of_mapM hread hrecord
    rw [(readTxt_ok hrow).2]
    refine ⟨Nat.min_le_right _ _, fun cname hcname => ?_, fun other hother his => ?_⟩
    · exact ((h.ttl cname hcname).foldl _).capped
    · exact (atMost_foldl _ (List.mem_filter.mpr ⟨hother, his⟩)).capped

/-- A lookup that has ended makes no further query. -/
theorem runLookup_append {outcomes : List (Except DnsError Response)} {lookup : Lookup}
    {result : Except DnsError (List TxtRecord)} (h : runLookup toLowerCase outcomes lookup = some result)
    (rest : List (Except DnsError Response)) : runLookup toLowerCase (outcomes ++ rest) lookup = some result := by
  induction outcomes generalizing lookup with
  | nil => cases h
  | cons outcome outcomes ih =>
    cases outcome with
    | error e => exact h
    | ok response =>
      rw [runLookup] at h
      rw [List.cons_append, runLookup]
      cases hturn : onResponse toLowerCase lookup response with
      | error e =>
        rw [hturn] at h
        exact h
      | ok turn =>
        rw [hturn] at h
        cases turn with
        | returned records => exact h
        | again next => exact ih h

/-- Records that are returned come with a response that ends the lookup. -/
theorem runLookup_records {outcomes : List (Except DnsError Response)} {lookup : Lookup} {chain : List Answer}
    (h : Followed toLowerCase name heard lookup chain) {records : List TxtRecord}
    (hrun : runLookup toLowerCase outcomes lookup = some (.ok records)) (hrecords : records ≠ []) :
    ∃ before last chain final, before ++ [.ok last] <+: outcomes ∧ runLookup toLowerCase before lookup = none ∧
      Justified toLowerCase name (heard ++ (before ++ [.ok last])) last records chain final := by
  induction outcomes generalizing lookup chain heard with
  | nil => cases hrun
  | cons outcome outcomes ih =>
    cases outcome with
    | error e => cases hrun
    | ok response =>
      have hheard : .ok response ∈ heard ++ [.ok response] := List.mem_append_right _ List.mem_cons_self
      have hmore := h.mono (List.subset_append_left heard [.ok response])
      rw [runLookup] at hrun
      cases hturn : onResponse toLowerCase lookup response with
      | error e =>
        rw [hturn] at hrun
        cases hrun
      | ok turn =>
        rw [hturn] at hrun
        cases turn with
        | returned found =>
          cases hrun
          obtain ⟨next, hfollow, hread⟩ := (onResponse_returned hturn).resolve_left hrecords
          obtain ⟨⟨chain', hnext⟩, -⟩ := hmore.followCnames hheard hfollow
          exact ⟨[], response, chain', next.owner, ⟨outcomes, rfl⟩, rfl, hnext.justified hread⟩
        | again next =>
          obtain ⟨hfollow, -⟩ := onResponse_again hturn
          obtain ⟨⟨chain', hnext⟩, -⟩ := hmore.followCnames hheard hfollow
          obtain ⟨before, last, chain'', final, hprefix, hnone, hjustified⟩ := ih hnext hrun
          refine ⟨.ok response :: before, last, chain'', final, List.cons_prefix_cons.mpr ⟨rfl, hprefix⟩, ?_, ?_⟩
          · rw [runLookup, hturn]
            exact hnone
          · rw [List.append_assoc] at hjustified
            exact hjustified

end Lookup

/-- **One bounded chain.** Nine query outcomes always end a lookup. If it returns records, there is a last response, heard
after at most eight others, and a chain of at most eight CNAME answers of these responses, with distinct owners, from the
queried name to the owner of the TXT answers in the last response that the records are; no record has a TTL above 86400,
above the usable TTL of an answer of the chain, or above that of any of the TXT answers. -/
theorem resolveTxtWithTtl_bounded (toLowerCase : CodeUnits → CodeUnits) (name : CodeUnits)
    (outcomes : List (Except DnsError Response)) :
    (9 ≤ outcomes.length → ∃ result, resolveTxtWithTtl toLowerCase name (outcomes.take 9) = some result ∧
      resolveTxtWithTtl toLowerCase name outcomes = some result) ∧
      ∀ records, resolveTxtWithTtl toLowerCase name outcomes = some (.ok records) → records ≠ [] →
        ∃ before last chain final, before ++ [.ok last] <+: outcomes ∧ before.length ≤ 8 ∧
          resolveTxtWithTtl toLowerCase name before = none ∧
          Justified toLowerCase name (before ++ [.ok last]) last records chain final := by
  constructor
  · intro hlong
    have hnine : 9 ≤ (outcomes.take 9).length + (startLookup toLowerCase name).hops := by
      rw [List.length_take, Nat.min_eq_left hlong]
      exact Nat.le_refl _
    obtain ⟨result, hresult⟩ := runLookup_ends (followed_start name _) hnine
    have hall := runLookup_append hresult (outcomes.drop 9)
    rw [List.take_append_drop] at hall
    exact ⟨result, hresult, hall⟩
  · intro records hrun hrecords
    obtain ⟨before, last, chain, final, hprefix, hnone, hjustified⟩ :=
      runLookup_records (followed_start name []) hrun hrecords
    refine ⟨before, last, chain, final, hprefix, ?_, hnone, hjustified⟩
    by_contra hlong
    have hnine : 9 ≤ before.length + (startLookup toLowerCase name).hops := by
      have hstart : (startLookup toLowerCase name).hops = 0 := rfl
      omega
    obtain ⟨result, hresult⟩ := runLookup_ends (followed_start name before) hnine
    rw [hnone] at hresult
    cases hresult

/-! Two aliases in the first response, and the records of the second. -/

def sampleText (text : String) : CodeUnits := Utf16.ofScalars text.toList

def aliasAnswer (owner target : String) (ttl : ℚ) : Answer :=
  ⟨sampleText owner, .cname, true, some ttl, .text (sampleText target)⟩

def textAnswer (owner : String) (ttl : ℚ) (parts : List Bytes) : Answer :=
  ⟨sampleText owner, .txt, true, some ttl, .buffers parts⟩

def sampleOutcomes : List (Except DnsError Response) := [
  .ok ⟨.noerror, [aliasAnswer "b.test" "c.test." 60, aliasAnswer "a.test." "b.test" 300]⟩,
  .ok ⟨.noerror, [textAnswer "c.test" 120 [[0x76, 0x3d], [0x31]], textAnswer "d.test" 5 [], textAnswer "c.test" 3600 []]⟩]

/-- Both records of the name at the end of the chain are returned, with the TTL of its second alias. -/
theorem resolveTxtWithTtl_bounded_sample :
    resolveTxtWithTtl id (sampleText "a.test") sampleOutcomes = some (.ok [⟨[['v', '='], ['1']], 60⟩, ⟨[], 60⟩]) ∧
      ∃ before last chain final, before ++ [.ok last] <+: sampleOutcomes ∧ before.length ≤ 8 ∧
        resolveTxtWithTtl id (sampleText "a.test") before = none ∧
        Justified id (sampleText "a.test") (before ++ [.ok last]) last [⟨[['v', '='], ['1']], 60⟩, ⟨[], 60⟩] chain final := by
  have hrun : resolveTxtWithTtl id (sampleText "a.test") sampleOutcomes =
      some (.ok [⟨[['v', '='], ['1']], 60⟩, ⟨[], 60⟩]) := by decide +kernel
  exact ⟨hrun, (resolveTxtWithTtl_bounded id (sampleText "a.test") sampleOutcomes).2 _ hrun (by simp)⟩

end Dnsid.Transport

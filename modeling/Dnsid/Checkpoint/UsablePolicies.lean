import Dnsid.Checkpoint.PolicyFile
import Dnsid.Checkpoint.Quorum

/-! # Accepted policy files

A policy file declares keys, groups and a quorum; a name stands for the rule tree that its declaration and those of its
members spell out. An accepted file gives each of its logs the keys declared for it and the tree the quorum names, and
that policy is usable exactly when no witness stands twice in the tree.
-/
namespace Dnsid.Checkpoint
open Dnsid.Foundations List
set_option autoImplicit false

/-! ## What a text declares -/

inductive Declaration where
  | log (key : SignedNoteKey)
  | witness (name : PolicyText) (key : SignedNoteKey)
  | group (name : PolicyText) (threshold : ℕ) (members : List PolicyText)
  | quorum (name : PolicyText)
  deriving DecidableEq

namespace Declaration

def logKey : Declaration → Option SignedNoteKey
  | log key => some key
  | _ => none

def witnessEntry : Declaration → Option (PolicyText × SignedNoteKey)
  | witness name key => some (name, key)
  | _ => none

/-- The name a rule gets. -/
def ruleName : Declaration → Option PolicyText
  | witness name _ => some name
  | group name _ _ => some name
  | _ => none

def quorumName : Declaration → Option PolicyText
  | quorum name => some name
  | _ => none

end Declaration

/-- The declaration that the fields of a line make, if it is a well-formed one. -/
def fieldsDeclaration : List PolicyText → Option Declaration
  | [directive, a] =>
    if directive = "log".toList then (parseSignedNoteVerifierKey (String.ofList a)).toOption.map .log
    else some (.quorum a)
  | directive :: a :: b :: members =>
    if directive = "log".toList then (parseSignedNoteVerifierKey (String.ofList a)).toOption.map .log
    else if directive = "witness".toList then
      (parseSignedNoteVerifierKey (String.ofList b)).toOption.map (.witness a)
    else (groupThreshold b members.length).toOption.map fun threshold => .group a threshold members
  | _ => none

/-- Blank lines and comments declare nothing. -/
def lineDeclaration (rawLine : PolicyText) : Option Declaration :=
  if trimBlanks rawLine = [] ∨ (trimBlanks rawLine).head? = some '#' then none
  else fieldsDeclaration (fields (trimBlanks rawLine))

def declarations (text : PolicyText) : List Declaration := (text.splitOn '\n').filterMap lineDeclaration

/-- The log keys that a text declares, in order. -/
def declaredLogs (text : PolicyText) : List SignedNoteKey := (declarations text).filterMap Declaration.logKey

/-- The rule tree that a name stands for. -/
inductive Named (declared : List Declaration) : PolicyText → NormalizedQuorumRule → Prop where
  | witness {name : PolicyText} {key : SignedNoteKey} : .witness name key ∈ declared → Named declared name (.witness key)
  | group {name : PolicyText} {threshold : ℕ} {members : List PolicyText} {rules : List NormalizedQuorumRule} :
      .group name threshold members ∈ declared → members.length = rules.length →
      (∀ pair ∈ members.zip rules, Named declared pair.1 pair.2) → Named declared name (.threshold threshold rules)

/-- The rule tree that the quorum directive names. -/
inductive QuorumNamed (declared : List Declaration) : NormalizedQuorumRule → Prop where
  | none : .quorum "none".toList ∈ declared → QuorumNamed declared .none
  | named {name : PolicyText} {rule : NormalizedQuorumRule} : .quorum name ∈ declared → name ≠ "none".toList →
      Named declared name rule → QuorumNamed declared rule

/-! ## What a line does -/

/-- A name that no rule has. -/
structure Fresh (state : PolicyState) (name : PolicyText) : Prop where
  notReserved : name ≠ "none".toList
  witnesses : name ∉ state.witnesses.map Prod.fst
  rules : name ∉ state.rules.map Prod.fst

/-- What a declaration does to the state of the loop. -/
inductive Step (state : PolicyState) : Declaration → PolicyState → Prop where
  | log (key : SignedNoteKey) : Step state (.log key) { state with logs := state.logs ++ [key] }
  | witness {name : PolicyText} (key : SignedNoteKey) : Fresh state name → Step state (.witness name key) { state with
      witnesses := state.witnesses ++ [(name, key)]
      rules := state.rules ++ [(name, .witness (.key key))] }
  | group {name : PolicyText} {threshold : ℕ} {members : List PolicyText} {rules : List C2spTlogQuorumRule} :
      Fresh state name → Forall₂ (fun member rule => state.rules.lookup member = some rule) members rules →
      1 ≤ threshold → threshold ≤ members.length →
      Step state (.group name threshold members)
        { state with rules := state.rules ++ [(name, .threshold (some threshold) rules)] }
  | quorum {name : PolicyText} {rule : C2spTlogQuorumRule} : state.quorumLines = 0 →
      (name = "none".toList ∧ rule = .none ∨ name ≠ "none".toList ∧ state.rules.lookup name = some rule) →
      Step state (.quorum name) { state with quorumRule := some rule, quorumLines := 1 }

theorem fresh_of_assertNewPolicyName {state : PolicyState} {name : PolicyText} {u : Unit}
    (h : assertNewPolicyName name state = .ok u) : Fresh state name := by
  simp only [assertNewPolicyName, bind_eq_ok, throwIf_eq_ok] at h
  obtain ⟨-, hreserved, hnew⟩ := h
  exact ⟨hreserved, (not_or.mp hnew).1, (not_or.mp hnew).2⟩

theorem setMember_of_notMem {V : Type} {entries : List (PolicyText × V)} {name : PolicyText} {value : V}
    (h : name ∉ entries.map Prod.fst) : setMember entries (name, value) = entries ++ [(name, value)] := by
  rw [setMember, if_neg h]

section Line
variable {state state' : PolicyState}

theorem readLog_step {keyText : PolicyText} (h : readLog state keyText = .ok state') :
    ∃ key, (parseSignedNoteVerifierKey (String.ofList keyText)).toOption = some key ∧ Step state (.log key) state' := by
  simp only [readLog, bind_eq_ok, pure_eq_ok] at h
  obtain ⟨key, hkey, rfl⟩ := h
  exact ⟨key, toOption_eq_some.mpr hkey, .log key⟩

theorem readWitness_step {name keyText : PolicyText} (h : readWitness state name keyText = .ok state') :
    ∃ key, (parseSignedNoteVerifierKey (String.ofList keyText)).toOption = some key ∧
      Step state (.witness name key) state' := by
  simp only [readWitness, bind_eq_ok, pure_eq_ok] at h
  obtain ⟨_, hnew, key, hkey, rfl⟩ := h
  have hfresh := fresh_of_assertNewPolicyName hnew
  rw [setMember_of_notMem hfresh.witnesses, setMember_of_notMem hfresh.rules]
  exact ⟨key, toOption_eq_some.mpr hkey, .witness key hfresh⟩

theorem readGroup_step {name thresholdText : PolicyText} {memberNames : List PolicyText}
    (h : readGroup state name thresholdText memberNames = .ok state') :
    ∃ threshold, (groupThreshold thresholdText memberNames.length).toOption = some threshold ∧
      Step state (.group name threshold memberNames) state' := by
  simp only [readGroup, bind_eq_ok, throwIf_eq_ok, pure_eq_ok, mapM_eq_ok] at h
  obtain ⟨_, hnew, -, -, rules, hrules, threshold, hthreshold, rfl⟩ := h
  have hfresh := fresh_of_assertNewPolicyName hnew
  rw [← hrules.length_eq] at hthreshold
  have hbounds : 1 ≤ threshold ∧ threshold ≤ memberNames.length := by
    simp only [groupThreshold, bind_eq_ok, throwIf_eq_ok, pure_eq_ok] at hthreshold
    obtain ⟨_, -, -, hrange, rfl⟩ := hthreshold
    omega
  rw [setMember_of_notMem hfresh.rules]
  refine ⟨threshold, toOption_eq_some.mpr hthreshold, .group hfresh ?_ hbounds.1 hbounds.2⟩
  exact hrules.imp fun member rule hrule => orThrow_eq_ok.mp hrule

theorem readQuorum_step {name : PolicyText} (h : readQuorum state name = .ok state') :
    Step state (.quorum name) state' := by
  simp only [readQuorum, bind_eq_ok, throwIf_eq_ok, pure_eq_ok] at h
  obtain ⟨-, hfirst, rule, hrule, rfl⟩ := h
  have hzero : state.quorumLines = 0 := by omega
  rw [hzero]
  refine .quorum hzero ?_
  rw [quorumRuleNamed] at hrule
  split at hrule
  · next hnone => exact .inl ⟨hnone, (Except.ok.inj hrule).symm⟩
  · next hname => exact .inr ⟨hname, orThrow_eq_ok.mp hrule⟩

/-- A directive that is accepted is a declaration. -/
theorem readDirective_step {parts : List PolicyText} (h : readDirective state parts = .ok state') :
    ∃ declaration, fieldsDeclaration parts = some declaration ∧ Step state declaration state' := by
  rcases parts with _ | ⟨directive, _ | ⟨a, _ | ⟨b, _ | ⟨c, rest⟩⟩⟩⟩
  · cases h
  · cases h
  · rw [readDirective] at h
    rw [fieldsDeclaration]
    split at h
    · next hlog =>
      obtain ⟨key, hkey, hstep⟩ := readLog_step h
      exact ⟨.log key, by rw [if_pos hlog, hkey]; rfl, hstep⟩
    · next hlog =>
      split at h
      · exact ⟨.quorum a, by rw [if_neg hlog], readQuorum_step h⟩
      · cases h
  · rw [readDirective] at h
    rw [fieldsDeclaration]
    split at h
    · next hlog =>
      obtain ⟨key, hkey, hstep⟩ := readLog_step h
      exact ⟨.log key, by rw [if_pos hlog, hkey]; rfl, hstep⟩
    · next hlog =>
      split at h
      · next hwitness =>
        obtain ⟨key, hkey, hstep⟩ := readWitness_step h
        exact ⟨.witness a key, by rw [if_neg hlog, if_pos hwitness, hkey]; rfl, hstep⟩
      · cases h
  · rw [readDirective] at h
    rw [fieldsDeclaration]
    split at h
    · next hwitness =>
      obtain ⟨key, hkey, hstep⟩ := readWitness_step h
      have hlog : directive ≠ "log".toList := by rw [hwitness.1]; decide
      exact ⟨.witness a key, by rw [if_neg hlog, if_pos hwitness.1, hkey]; rfl, hstep⟩
    · split at h
      · next hgroup =>
        obtain ⟨threshold, hthreshold, hstep⟩ := readGroup_step h
        have hlog : directive ≠ "log".toList := by rw [hgroup]; decide
        have hwitness : directive ≠ "witness".toList := by rw [hgroup]; decide
        exact ⟨.group a threshold (c :: rest), by rw [if_neg hlog, if_neg hwitness, hthreshold]; rfl, hstep⟩
      · cases h

/-- A line that is accepted leaves the state as it is or makes one declaration. -/
theorem readLine_step {entry : PolicyText × ℕ} (h : readLine state entry = .ok state') :
    (lineDeclaration entry.1 = none ∧ state' = state) ∨
      ∃ declaration, lineDeclaration entry.1 = some declaration ∧ Step state declaration state' := by
  rw [readLine] at h
  split at h
  · next hnone => exact .inl ⟨by rw [lineDeclaration, if_pos hnone], (Except.ok.inj h).symm⟩
  · next hsome =>
    obtain ⟨declaration, hdeclaration, hstep⟩ := readDirective_step (mapError_eq_ok.mp h)
    exact .inr ⟨declaration, by rw [lineDeclaration, if_neg hsome, hdeclaration], hstep⟩

end Line

/-! ## Rules as the parser builds them -/

mutual

/-- The rule tree with the keys that were read. -/
def ofNormalized : NormalizedQuorumRule → C2spTlogQuorumRule
  | .none => .none
  | .witness key => .witness (.key key)
  | .threshold threshold members => .threshold (some threshold) (ofNormalizedMembers members)

def ofNormalizedMembers : List NormalizedQuorumRule → List C2spTlogQuorumRule
  | [] => []
  | member :: members => ofNormalized member :: ofNormalizedMembers members

end

theorem ofNormalizedMembers_eq (members : List NormalizedQuorumRule) :
    ofNormalizedMembers members = members.map ofNormalized := by
  induction members with
  | nil => rw [ofNormalizedMembers, List.map_nil]
  | cons member members ih => rw [ofNormalizedMembers, ih, List.map_cons]

/-- A rule tree that passes the checks on thresholds, over the given keys. -/
inductive SafeRule (keys : List SignedNoteKey) : NormalizedQuorumRule → Prop where
  | none : SafeRule keys .none
  | witness {key : SignedNoteKey} : key ∈ keys → SafeRule keys (.witness key)
  | threshold {threshold : ℕ} {members : List NormalizedQuorumRule} : 1 ≤ threshold → threshold ≤ members.length →
      members.length ≤ 2 ^ 53 - 1 → (∀ member ∈ members, SafeRule keys member) →
      SafeRule keys (.threshold threshold members)

theorem safeFrom_natCast {least n : ℕ} (hleast : least ≤ n) (hsafe : n ≤ 2 ^ 53 - 1) :
    safeFrom least (some (n : ℤ)) = some n := by
  rw [safeFrom, if_pos (by omega), Int.toNat_natCast]

theorem SafeRule.normalize {keys : List SignedNoteKey} {rule : NormalizedQuorumRule} (h : SafeRule keys rule) :
    normalizeQuorumRule (ofNormalized rule) = .ok rule := by
  induction h with
  | none => rw [ofNormalized, normalizeQuorumRule]
  | witness _ =>
    rw [ofNormalized, normalizeQuorumRule, asKey]
    rfl
  | @threshold threshold members hpos hle hsafe _ ih =>
    have hmembers : normalizeMembers (members.map ofNormalized) = .ok members := by
      rw [normalizeMembers_eq_ok, List.forall₂_map_left_iff, List.forall₂_same]
      exact ih
    rw [ofNormalized, ofNormalizedMembers_eq, normalizeQuorumRule, safeFrom_natCast hpos (by omega), orThrow_some,
      ok_bind, throwIf_bind (by rw [List.length_map]; omega), hmembers, ok_bind]
    rfl

theorem SafeRule.collected {keys : List SignedNoteKey} {rule : NormalizedQuorumRule} (h : SafeRule keys rule) :
    ∀ key ∈ collectWitnessKeys rule, key ∈ keys := by
  induction h with
  | none =>
    intro key hkey
    rw [collectWitnessKeys] at hkey
    cases hkey
  | witness hmem =>
    intro key hkey
    rw [collectWitnessKeys, List.mem_singleton] at hkey
    rw [hkey]
    exact hmem
  | threshold _ _ _ _ ih =>
    intro key hkey
    rw [collectWitnessKeys, collectMembersKeys_eq, List.mem_flatMap] at hkey
    obtain ⟨member, hmember, hkey⟩ := hkey
    exact ih member hmember key hkey

/-! ## The tree a name stands for -/

theorem declaration_unique {declared : List Declaration} (h : (declared.filterMap Declaration.ruleName).Nodup)
    {d d' : Declaration} {name : PolicyText} (hd : d ∈ declared) (hd' : d' ∈ declared)
    (hname : d.ruleName = some name) (hname' : d'.ruleName = some name) : d = d' := by
  induction declared with
  | nil => cases hd
  | cons first rest ih =>
    have habsent : ∀ e ∈ rest, first.ruleName = some name → e.ruleName ≠ some name := by
      intro e he hfirst hsame
      rw [List.filterMap_cons_some hfirst, List.nodup_cons] at h
      exact h.1 (List.mem_filterMap.mpr ⟨e, he, hsame⟩)
    have hrest : (rest.filterMap Declaration.ruleName).Nodup := by
      rw [List.filterMap_cons] at h
      split at h
      · exact h
      · exact (List.nodup_cons.mp h).2
    rcases List.mem_cons.mp hd with heq | hmem
    · rcases List.mem_cons.mp hd' with heq' | hmem'
      · exact heq.trans heq'.symm
      · exact absurd hname' (habsent d' hmem' (heq ▸ hname))
    · rcases List.mem_cons.mp hd' with heq' | hmem'
      · exact absurd hname (habsent d hmem (heq' ▸ hname'))
      · exact ih hrest hmem hmem'

/-- A name stands for one tree. -/
theorem Named.unique {declared : List Declaration} (hdistinct : (declared.filterMap Declaration.ruleName).Nodup)
    {name : PolicyText} {rule rule' : NormalizedQuorumRule} (h : Named declared name rule)
    (h' : Named declared name rule') : rule = rule' := by
  induction h generalizing rule' with
  | witness hmem =>
    cases h' with
    | witness hmem' =>
      have hsame := declaration_unique hdistinct hmem hmem' rfl rfl
      cases hsame
      rfl
    | group hmem' _ _ => cases declaration_unique hdistinct hmem hmem' rfl rfl
  | @group name threshold members rules hmem hlen _ ih =>
    cases h' with
    | witness hmem' => cases declaration_unique hdistinct hmem hmem' rfl rfl
    | @group _ _ _ rules' hmem' hlen' hall' =>
      have hsame := declaration_unique hdistinct hmem hmem' rfl rfl
      cases hsame
      congr 1
      apply List.ext_getElem (hlen.symm.trans hlen')
      intro i hi hi'
      have hpair : (members[i], rules[i]) ∈ members.zip rules := by
        rw [List.mem_iff_getElem]
        exact ⟨i, by rw [List.length_zip]; omega, List.getElem_zip⟩
      have hpair' : (members[i], rules'[i]) ∈ members.zip rules' := by
        rw [List.mem_iff_getElem]
        exact ⟨i, by rw [List.length_zip]; omega, List.getElem_zip⟩
      exact ih _ hpair (hall' _ hpair')

/-! ## The loop -/

/-- What the state of the loop says of the lines that are `done`, of all that are `declared`. -/
structure Invariant (declared done : List Declaration) (state : PolicyState) : Prop where
  logs : state.logs = done.filterMap Declaration.logKey
  witnesses : state.witnesses = done.filterMap Declaration.witnessEntry
  names : state.rules.map Prod.fst = done.filterMap Declaration.ruleName
  distinct : (done.filterMap Declaration.ruleName).Nodup
  thresholds : ∀ name threshold members, .group name threshold members ∈ done → 1 ≤ threshold ∧ threshold ≤ members.length
  rules : ∀ entry ∈ state.rules, ∃ rule, entry.2 = ofNormalized rule ∧ Named declared entry.1 rule
  quorumLines : state.quorumLines = (done.filterMap Declaration.quorumName).length
  quorumRule : ∀ given, state.quorumRule = some given → ∃ rule, given = ofNormalized rule ∧ QuorumNamed declared rule

variable {declared done : List Declaration} {state state' : PolicyState}

theorem Invariant.lookup (hinv : Invariant declared done state) {name : PolicyText} {given : C2spTlogQuorumRule}
    (h : state.rules.lookup name = some given) : ∃ rule, given = ofNormalized rule ∧ Named declared name rule := by
  obtain ⟨before, after, hrules, -⟩ := List.lookup_eq_some_iff.mp h
  exact hinv.rules (name, given) (by rw [hrules]; simp)

/-- The trees of the members of a group. -/
theorem Invariant.members (hinv : Invariant declared done state) {members : List PolicyText}
    {rules : List C2spTlogQuorumRule}
    (h : Forall₂ (fun member rule => state.rules.lookup member = some rule) members rules) :
    ∃ trees, rules = trees.map ofNormalized ∧ members.length = trees.length ∧
      ∀ pair ∈ members.zip trees, Named declared pair.1 pair.2 := by
  induction h with
  | nil => exact ⟨[], rfl, rfl, fun pair hpair => absurd hpair List.not_mem_nil⟩
  | @cons member given members rules hlookup _ ih =>
    obtain ⟨trees, hrules, hlen, hnamed⟩ := ih
    obtain ⟨tree, htree, hmember⟩ := hinv.lookup hlookup
    refine ⟨tree :: trees, ?_, ?_, ?_⟩
    · rw [hrules, htree, List.map_cons]
    · rw [List.length_cons, List.length_cons, hlen]
    · intro pair hpair
      rw [List.zip_cons_cons] at hpair
      rcases List.mem_cons.mp hpair with rfl | hpair
      · exact hmember
      · exact hnamed pair hpair

/-- A fresh name is added to the names. -/
theorem Invariant.fresh_names (hinv : Invariant declared done state) {name : PolicyText} (hfresh : Fresh state name) :
    (done.filterMap Declaration.ruleName ++ [name]).Nodup := by
  rw [← hinv.names, List.nodup_append]
  refine ⟨hinv.names ▸ hinv.distinct, List.nodup_singleton _, ?_⟩
  intro a ha b hb heq
  rw [List.mem_singleton] at hb
  exact hfresh.rules (hb ▸ heq ▸ ha)

/-- One declaration keeps the invariant. -/
theorem Invariant.step (hinv : Invariant declared done state) {declaration : Declaration}
    (h : Step state declaration state') (hmem : declaration ∈ declared) :
    Invariant declared (done ++ [declaration]) state' := by
  have hthresholds : (∀ name threshold members, .group name threshold members = declaration →
      1 ≤ threshold ∧ threshold ≤ members.length) → ∀ name threshold members,
      .group name threshold members ∈ done ++ [declaration] → 1 ≤ threshold ∧ threshold ≤ members.length := by
    intro hlast name threshold members hgroup
    rcases List.mem_append.mp hgroup with hgroup | hgroup
    · exact hinv.thresholds name threshold members hgroup
    · exact hlast name threshold members (List.mem_singleton.mp hgroup)
  cases h with
  | log key =>
    exact {
      logs := by simp [Declaration.logKey, hinv.logs]
      witnesses := by simp [Declaration.witnessEntry, hinv.witnesses]
      names := by simp [Declaration.ruleName, hinv.names]
      distinct := by
        rw [List.filterMap_append]
        show (done.filterMap Declaration.ruleName ++ []).Nodup
        rw [List.append_nil]
        exact hinv.distinct
      thresholds := hthresholds fun _ _ _ heq => by cases heq
      rules := hinv.rules
      quorumLines := by simp [Declaration.quorumName, hinv.quorumLines]
      quorumRule := hinv.quorumRule }
  | @witness name key hfresh =>
    exact {
      logs := by simp [Declaration.logKey, hinv.logs]
      witnesses := by simp [Declaration.witnessEntry, hinv.witnesses]
      names := by simp [Declaration.ruleName, hinv.names]
      distinct := by
        rw [List.filterMap_append]
        exact hinv.fresh_names hfresh
      thresholds := hthresholds fun _ _ _ heq => by cases heq
      rules := by
        intro entry hentry
        rcases List.mem_append.mp hentry with hentry | hentry
        · exact hinv.rules entry hentry
        · rw [List.mem_singleton.mp hentry]
          exact ⟨.witness key, by rw [ofNormalized], .witness hmem⟩
      quorumLines := by simp [Declaration.quorumName, hinv.quorumLines]
      quorumRule := hinv.quorumRule }
  | @group name threshold members rules hfresh hlookup hpos hle =>
    obtain ⟨trees, hrules, hlen, hnamed⟩ := hinv.members hlookup
    exact {
      logs := by simp [Declaration.logKey, hinv.logs]
      witnesses := by simp [Declaration.witnessEntry, hinv.witnesses]
      names := by simp [Declaration.ruleName, hinv.names]
      distinct := by
        rw [List.filterMap_append]
        exact hinv.fresh_names hfresh
      thresholds := hthresholds fun _ _ _ heq => by
        cases heq
        exact ⟨hpos, hle⟩
      rules := by
        intro entry hentry
        rcases List.mem_append.mp hentry with hentry | hentry
        · exact hinv.rules entry hentry
        · rw [List.mem_singleton.mp hentry]
          exact ⟨.threshold threshold trees, by rw [ofNormalized, ofNormalizedMembers_eq, hrules], .group hmem hlen hnamed⟩
      quorumLines := by simp [Declaration.quorumName, hinv.quorumLines]
      quorumRule := hinv.quorumRule }
  | @quorum name rule hfirst hrule =>
    exact {
      logs := by simp [Declaration.logKey, hinv.logs]
      witnesses := by simp [Declaration.witnessEntry, hinv.witnesses]
      names := by simp [Declaration.ruleName, hinv.names]
      distinct := by
        rw [List.filterMap_append]
        show (done.filterMap Declaration.ruleName ++ []).Nodup
        rw [List.append_nil]
        exact hinv.distinct
      thresholds := hthresholds fun _ _ _ heq => by cases heq
      rules := hinv.rules
      quorumLines := by
        rw [List.filterMap_append, List.length_append, ← hinv.quorumLines, hfirst]
        rfl
      quorumRule := by
        intro given hgiven
        cases hgiven
        rcases hrule with ⟨hnone, rfl⟩ | ⟨hname, hlookup⟩
        · exact ⟨.none, by rw [ofNormalized], .none (hnone ▸ hmem)⟩
        · obtain ⟨tree, htree, hnamed⟩ := hinv.lookup hlookup
          exact ⟨tree, htree, .named hmem hname hnamed⟩ }

theorem Invariant.run (lines : List (PolicyText × ℕ)) (hinv : Invariant declared done state)
    (h : lines.foldlM readLine state = .ok state') (hmem : ∀ d ∈ (lines.map Prod.fst).filterMap lineDeclaration, d ∈ declared) :
    Invariant declared (done ++ (lines.map Prod.fst).filterMap lineDeclaration) state' := by
  induction lines generalizing done state with
  | nil =>
    cases h
    rw [List.map_nil, List.filterMap_nil, List.append_nil]
    exact hinv
  | cons line lines ih =>
    rw [List.foldlM_cons, bind_eq_ok] at h
    obtain ⟨next, hline, hrest⟩ := h
    rcases readLine_step hline with ⟨hnone, rfl⟩ | ⟨declaration, hsome, hstep⟩
    · rw [List.map_cons, List.filterMap_cons_none hnone] at hmem ⊢
      exact ih hinv hrest hmem
    · rw [List.map_cons, List.filterMap_cons_some hsome] at hmem ⊢
      have hnext := hinv.step hstep (hmem declaration List.mem_cons_self)
      have hfinal := ih hnext hrest fun d hd => hmem d (List.mem_cons_of_mem _ hd)
      rw [List.append_assoc] at hfinal
      exact hfinal

theorem readLines_invariant {text : PolicyText} (h : readLines text = .ok state) :
    Invariant (declarations text) (declarations text) state := by
  have hinit : Invariant (declarations text) [] ⟨[], [], [], none, 0⟩ := {
    logs := rfl
    witnesses := rfl
    names := rfl
    distinct := List.nodup_nil
    thresholds := fun _ _ _ hmem => absurd hmem List.not_mem_nil
    rules := fun _ hmem => absurd hmem List.not_mem_nil
    quorumLines := rfl
    quorumRule := fun _ hgiven => by cases hgiven }
  have hlines : ((text.splitOn '\n').zipIdx.map Prod.fst).filterMap lineDeclaration = declarations text := by
    rw [List.zipIdx_map_fst]
    rfl
  have hrun := hinit.run _ h (by rw [hlines]; exact fun d hd => hd)
  rw [hlines, List.nil_append] at hrun
  exact hrun

/-! ## Sizes -/

theorem flatten_splitOnP {p : Char → Bool} (text : PolicyText) :
    (text.splitOnP p).flatten = text.filter fun c => !p c := by
  induction text with
  | nil => rfl
  | cons c text ih =>
    rw [List.splitOnP_cons_eq_if_modifyHead]
    cases hc : p c with
    | true => simp [hc, ih]
    | false =>
      obtain ⟨first, rest, hsplit⟩ := List.exists_cons_of_ne_nil (List.splitOnP_ne_nil p text)
      rw [hsplit, List.flatten_cons] at ih
      simp [hc, hsplit, ih]

theorem length_le_flatten {ls : List PolicyText} (h : ∀ l ∈ ls, l ≠ []) : ls.length ≤ ls.flatten.length := by
  induction ls with
  | nil => exact Nat.zero_le _
  | cons l ls ih =>
    have hl := List.length_pos_of_ne_nil (h l List.mem_cons_self)
    have hrest := ih fun m hm => h m (List.mem_cons_of_mem _ hm)
    rw [List.length_cons, List.flatten_cons, List.length_append]
    omega

theorem fields_length_le (line : PolicyText) : (fields line).length ≤ line.length := by
  calc (fields line).length ≤ (fields line).flatten.length := by
        apply length_le_flatten
        intro l hl
        exact of_decide_eq_true (List.mem_filter.mp hl).2
    _ = (line.filter fun c => !isBlank c).length := by
        rw [fields, List.flatten_filter_ne_nil, flatten_splitOnP]
    _ ≤ line.length := List.length_filter_le _ _

theorem line_length_le {text line : PolicyText} (h : line ∈ text.splitOn '\n') : line.length ≤ text.length := by
  rw [List.splitOn_eq_splitOnP] at h
  calc line.length ≤ (text.splitOnP (· == '\n')).flatten.length := (List.sublist_flatten_of_mem h).length_le
    _ = (text.filter fun c => !(c == '\n')).length := by rw [flatten_splitOnP]
    _ ≤ text.length := List.length_filter_le _ _

theorem members_length_le_fields {parts members : List PolicyText} {name : PolicyText} {threshold : ℕ}
    (h : fieldsDeclaration parts = some (.group name threshold members)) : members.length ≤ parts.length := by
  rcases parts with _ | ⟨directive, _ | ⟨a, _ | ⟨b, rest⟩⟩⟩
  · cases h
  · cases h
  · rw [fieldsDeclaration] at h
    split at h
    · obtain ⟨_, _, hsame⟩ := Option.map_eq_some_iff.mp h
      cases hsame
    · cases h
  · rw [fieldsDeclaration] at h
    split at h
    · obtain ⟨_, _, hsame⟩ := Option.map_eq_some_iff.mp h
      cases hsame
    · split at h
      · obtain ⟨_, _, hsame⟩ := Option.map_eq_some_iff.mp h
        cases hsame
      · obtain ⟨_, _, hsame⟩ := Option.map_eq_some_iff.mp h
        cases hsame
        simp only [List.length_cons]
        omega

/-- A group has no more members than the text has characters. -/
theorem members_length_le {text name : PolicyText} {threshold : ℕ} {members : List PolicyText}
    (h : .group name threshold members ∈ declarations text) : members.length ≤ text.length := by
  obtain ⟨line, hline, hgroup⟩ := List.mem_filterMap.mp h
  have hfields : members.length ≤ (fields (trimBlanks line)).length := by
    rw [lineDeclaration] at hgroup
    split at hgroup
    · cases hgroup
    · exact members_length_le_fields hgroup
  calc members.length ≤ (fields (trimBlanks line)).length := hfields
    _ ≤ (trimBlanks line).length := fields_length_le _
    _ ≤ line.length := trimBoth_length_le isBlank line
    _ ≤ text.length := line_length_le hline

/-- The witness keys that a text declares, in order. -/
def declaredWitnesses (text : PolicyText) : List SignedNoteKey :=
  ((declarations text).filterMap Declaration.witnessEntry).map Prod.snd

/-- The longest text of the language. -/
def maxTextLength : ℕ := 2 ^ 53 - 1

theorem Named.safe {text name : PolicyText} {rule : NormalizedQuorumRule} (hlen : text.length ≤ maxTextLength)
    (hinv : Invariant (declarations text) (declarations text) state) (h : Named (declarations text) name rule) :
    SafeRule (declaredWitnesses text) rule := by
  induction h with
  | @witness name key hmem =>
    refine .witness (List.mem_map.mpr ⟨(name, key), ?_, rfl⟩)
    exact List.mem_filterMap.mpr ⟨_, hmem, rfl⟩
  | @group name threshold members rules hmem hsame _ ih =>
    have hbounds := hinv.thresholds name threshold members hmem
    have hsize := members_length_le hmem
    unfold maxTextLength at hlen
    refine .threshold hbounds.1 (by omega) (by omega) fun rule hrule => ?_
    obtain ⟨i, hi, rfl⟩ := List.mem_iff_getElem.mp hrule
    refine ih (members[i], rules[i]) (List.mem_iff_getElem.mpr ⟨i, by rw [List.length_zip]; omega, List.getElem_zip⟩)

theorem QuorumNamed.safe {text : PolicyText} {rule : NormalizedQuorumRule} (hlen : text.length ≤ maxTextLength)
    (hinv : Invariant (declarations text) (declarations text) state) (h : QuorumNamed (declarations text) rule) :
    SafeRule (declaredWitnesses text) rule := by
  cases h with
  | none _ => exact .none
  | named _ _ hnamed => exact hnamed.safe hlen hinv

/-- A file with one quorum directive names one tree. -/
theorem QuorumNamed.unique {rule rule' : NormalizedQuorumRule}
    (hdistinct : (declared.filterMap Declaration.ruleName).Nodup)
    (hone : (declared.filterMap Declaration.quorumName).length = 1) (h : QuorumNamed declared rule)
    (h' : QuorumNamed declared rule') : rule = rule' := by
  obtain ⟨quorum, hquorum⟩ := List.length_eq_one_iff.mp hone
  have hname : ∀ name, .quorum name ∈ declared → name = quorum := by
    intro name hmem
    have hin : name ∈ declared.filterMap Declaration.quorumName := List.mem_filterMap.mpr ⟨_, hmem, rfl⟩
    rw [hquorum] at hin
    exact List.mem_singleton.mp hin
  cases h with
  | none hmem =>
    cases h' with
    | none _ => rfl
    | named hmem' hne _ => exact absurd ((hname _ hmem').trans (hname _ hmem).symm) hne
  | named hmem hne hnamed =>
    cases h' with
    | none hmem' => exact absurd ((hname _ hmem).trans (hname _ hmem').symm) hne
    | named hmem' _ hnamed' =>
      rw [(hname _ hmem).trans (hname _ hmem').symm] at hnamed
      exact hnamed.unique hdistinct hnamed'

/-! ## The logs of an origin -/

/-- The logs with the name of an origin. -/
def logsOf (logs : List SignedNoteKey) (origin : String) : List SignedNoteKey := logs.filter fun key => key.name = origin

/-- Every origin has its logs, with what they share. -/
def Grouped (shared : C2spTlogOriginPolicy) (logs : List SignedNoteKey)
    (origins : List (String × C2spTlogOriginPolicy)) : Prop :=
  ∀ origin, origins.lookup origin =
    if logsOf logs origin = [] then none else some { shared with logKeys := (logsOf logs origin).map .key }

theorem Grouped.add {shared : C2spTlogOriginPolicy} {logs : List SignedNoteKey} {log : SignedNoteKey}
    {origins origins' : List (String × C2spTlogOriginPolicy)} (h : Grouped shared logs origins)
    (hadd : addLog shared origins log = .ok origins') : Grouped shared (logs ++ [log]) origins' := by
  intro origin
  have hown := h log.name
  have happend : logsOf (logs ++ [log]) origin = logsOf logs origin ++ logsOf [log] origin := List.filter_append _ _
  by_cases horigin : origin = log.name
  · subst horigin
    have hlog : logsOf [log] log.name = [log] := by simp [logsOf]
    have hne : logsOf logs log.name ++ [log] ≠ [] := by simp
    rw [happend, hlog, if_neg hne]
    rw [addLog] at hadd
    cases hcurrent : origins.lookup log.name with
    | some current =>
      rw [hcurrent] at hown hadd
      cases hadd
      split at hown
      · cases hown
      · cases hown
        rw [lookup_setMember_self, List.map_append]
        rfl
    | none =>
      rw [hcurrent] at hown hadd
      split at hown
      · next hnil =>
        simp only at hadd
        split at hadd
        · cases hadd
        · cases hadd
          rw [lookup_setMember_self, hnil]
          rfl
      · cases hown
  · have hlog : logsOf [log] origin = [] := by simp [logsOf, Ne.symm horigin]
    rw [happend, hlog, List.append_nil, ← h origin]
    rw [addLog] at hadd
    split at hadd
    · cases hadd
      exact lookup_setMember_of_ne origins _ horigin
    · split at hadd
      · cases hadd
      · cases hadd
        exact lookup_setMember_of_ne origins _ horigin

theorem Grouped.run {shared : C2spTlogOriginPolicy} {done : List SignedNoteKey} (logs : List SignedNoteKey)
    {origins origins' : List (String × C2spTlogOriginPolicy)} (h : Grouped shared done origins)
    (hrun : logs.foldlM (addLog shared) origins = .ok origins') : Grouped shared (done ++ logs) origins' := by
  induction logs generalizing done origins with
  | nil =>
    cases hrun
    rw [List.append_nil]
    exact h
  | cons log logs ih =>
    rw [List.foldlM_cons, bind_eq_ok] at hrun
    obtain ⟨next, hadd, hrest⟩ := hrun
    have hfinal := ih (h.add hadd) hrest
    rw [List.append_assoc] at hfinal
    exact hfinal

/-! ## Accepted files -/

/-- What an accepted file gives its logs. -/
structure AcceptedFile (text : PolicyText) (policy : C2spTlogPolicy) (rule : NormalizedQuorumRule) : Prop where
  named : QuorumNamed (declarations text) rule
  only : ∀ rule', QuorumNamed (declarations text) rule' → rule' = rule
  safe : SafeRule (declaredWitnesses text) rule
  logTypes : ¬ (declaredLogs text).any unsupportedLogType = true
  witnessTypes : ¬ ((declaredWitnesses text).any fun key => !hasSignatureType 0x04 key) = true
  distinctLogs : ((declaredLogs text).map keyIdentity).Nodup
  distinctWitnesses : ((declaredWitnesses text).map keyIdentity).Nodup
  separate : ¬ sharesKey (declaredWitnesses text) (declaredLogs text) = true
  origins : ∀ origin, policy.origins origin = if logsOf (declaredLogs text) origin = [] then none else some {
    logKeys := (logsOf (declaredLogs text) origin).map .key
    witnessKeys := some ((declaredWitnesses text).map .key)
    quorum := legacyQuorum (ofNormalized rule)
    quorumRule := some (ofNormalized rule) }

variable {text : PolicyText} {policy : C2spTlogPolicy} {rule : NormalizedQuorumRule}

theorem acceptedFile_of_parse (hlen : text.length ≤ maxTextLength) (h : parseC2spPolicyFile text = .ok policy) :
    ∃ rule, AcceptedFile text policy rule := by
  simp only [parseC2spPolicyFile, assertDistinctUnderlyingKeys, bind_eq_ok, throwIf_eq_ok, orThrow_eq_ok, pure_eq_ok] at h
  obtain ⟨_, _, state, hstate, given, hgiven, _, hlogTypes, _, hwitnessTypes, _, hlogs, _, hwitnesses, _, hseparate,
    origins, horigins, rfl⟩ := h
  have hinv := readLines_invariant hstate
  have hone : state.quorumLines = 1 ∧ state.quorumRule = some given := by
    split at hgiven
    · cases hgiven
    · next hone => exact ⟨not_not.mp hone, hgiven⟩
  obtain ⟨rule, rfl, hnamed⟩ := hinv.quorumRule given hone.2
  have hkeys : state.witnesses.map Prod.snd = declaredWitnesses text := by
    rw [hinv.witnesses]
    rfl
  have hlogKeys : state.logs = declaredLogs text := hinv.logs
  rw [hkeys, hlogKeys] at hseparate
  rw [hkeys] at hwitnessTypes hwitnesses horigins
  rw [hlogKeys] at hlogTypes hlogs horigins
  have hstart : Grouped {
      logKeys := [], witnessKeys := some ((declaredWitnesses text).map .key), quorum := legacyQuorum (ofNormalized rule)
      quorumRule := some (ofNormalized rule) } [] [] := fun _ => rfl
  exact ⟨rule, {
    named := hnamed
    only := fun rule' h' => h'.unique hinv.distinct (hinv.quorumLines.symm.trans hone.1) hnamed
    safe := hnamed.safe hlen hinv
    logTypes := hlogTypes
    witnessTypes := hwitnessTypes
    distinctLogs := not_not.mp hlogs
    distinctWitnesses := not_not.mp hwitnesses
    separate := hseparate
    origins := fun origin => hstart.run _ horigins origin }⟩

theorem mapM_asKey (keys : List SignedNoteKey) : (keys.map KeySource.key).mapM asKey = .ok keys := by
  rw [mapM_eq_ok, List.forall₂_map_left_iff, List.forall₂_same]
  exact fun _ _ => rfl

theorem length_collectWitnessKeys {members : List NormalizedQuorumRule}
    (h : (members.map ofNormalized).all isWitness = true) :
    (collectMembersKeys members).length = members.length := by
  induction members with
  | nil => rfl
  | cons member members ih =>
    rw [List.map_cons, List.all_cons, Bool.and_eq_true] at h
    rw [collectMembersKeys, List.length_append, ih h.2]
    cases member with
    | none =>
      rw [ofNormalized] at h
      exact absurd h.1 (by decide)
    | witness key =>
      rw [collectWitnessKeys, List.length_singleton, List.length_cons, Nat.add_comm]
    | threshold count members =>
      rw [ofNormalized] at h
      exact absurd h.1 (by simp [isWitness])

/-- The flat quorum of a tree that names no witness twice does not exceed the witnesses. -/
theorem legacyQuorum_le {keys : List SignedNoteKey} (hsafe : SafeRule keys rule) (hnodup : (collectWitnessKeys rule).Nodup) :
    ∃ quorum, safeFrom 0 ((legacyQuorum (ofNormalized rule)).getD (some 0)) = some quorum ∧ quorum ≤ keys.length := by
  have hcollected := (List.subperm_of_subset hnodup hsafe.collected).length_le
  cases hsafe with
  | none => exact ⟨0, by rw [ofNormalized]; rfl, Nat.zero_le _⟩
  | witness hmem => exact ⟨1, by rw [ofNormalized]; rfl, List.length_pos_of_mem hmem⟩
  | @threshold count members hpos hle hsize _ =>
    rw [ofNormalized, ofNormalizedMembers_eq, legacyQuorum]
    split
    · next hall =>
      rw [collectWitnessKeys, length_collectWitnessKeys hall] at hcollected
      exact ⟨count, safeFrom_natCast (Nat.zero_le _) (by omega), by omega⟩
    · exact ⟨0, rfl, Nat.zero_le _⟩

theorem any_mono {keys keys' : List SignedNoteKey} {p : SignedNoteKey → Bool} (hsub : ∀ key ∈ keys, key ∈ keys')
    (h : ¬ keys'.any p = true) : ¬ keys.any p = true := by
  intro hany
  obtain ⟨key, hkey, hp⟩ := List.any_eq_true.mp hany
  exact h (List.any_eq_true.mpr ⟨key, hsub key hkey, hp⟩)

theorem sharesKey_mono {keys keys' others others' : List SignedNoteKey} (hkeys : ∀ key ∈ keys, key ∈ keys')
    (hothers : ∀ key ∈ others, key ∈ others') (h : ¬ sharesKey keys' others' = true) : ¬ sharesKey keys others = true := by
  intro hshares
  obtain ⟨key, hkey, hcontains⟩ := List.any_eq_true.mp hshares
  refine h (List.any_eq_true.mpr ⟨key, hkeys key hkey, ?_⟩)
  rw [List.contains_iff_mem] at hcontains ⊢
  obtain ⟨other, hother, heq⟩ := List.mem_map.mp hcontains
  exact List.mem_map.mpr ⟨other, hothers other hother, heq⟩

/-- Distinct witnesses of the tree have distinct keys. -/
theorem AcceptedFile.distinctRuleKeys (h : AcceptedFile text policy rule) (hnodup : (collectWitnessKeys rule).Nodup) :
    ((collectWitnessKeys rule).map keyIdentity).Nodup := by
  refine List.Nodup.map_on ?_ hnodup
  intro key hkey other hother heq
  exact List.inj_on_of_nodup_map h.distinctWitnesses (h.safe.collected key hkey) (h.safe.collected other hother) heq

/-- The policy of a log, when no witness stands twice in the tree. -/
theorem AcceptedFile.normalized (h : AcceptedFile text policy rule) (hnodup : (collectWitnessKeys rule).Nodup)
    {origin : String} (hne : logsOf (declaredLogs text) origin ≠ []) :
    normalizedOriginPolicy policy origin =
      .ok ⟨logsOf (declaredLogs text) origin, collectWitnessKeys rule, topLevelThreshold rule, rule⟩ := by
  obtain ⟨quorum, hquorum, hle⟩ := legacyQuorum_le h.safe hnodup
  have horigin := h.origins origin
  rw [if_neg hne] at horigin
  have hsub : ∀ key ∈ logsOf (declaredLogs text) origin, key ∈ declaredLogs text := fun key hkey =>
    List.mem_of_mem_filter hkey
  have hnames : ¬ ((logsOf (declaredLogs text) origin).any fun key => key.name ≠ origin) = true := by
    intro hany
    obtain ⟨key, hkey, hname⟩ := List.any_eq_true.mp hany
    exact of_decide_eq_true hname (of_decide_eq_true (List.mem_filter.mp hkey).2)
  have hlogs : ((logsOf (declaredLogs text) origin).map keyIdentity).Nodup :=
    h.distinctLogs.sublist (List.Sublist.map _ List.filter_sublist)
  simp only [normalizedOriginPolicy, assertDistinctUnderlyingKeys, bind_eq_ok, throwIf_eq_ok, orThrow_eq_ok, pure_eq_ok]
  exact ⟨_, horigin, _, mapM_asKey _, _, mapM_asKey _, quorum, hquorum, (), by omega, (),
    by rw [List.length_eq_zero_iff]; exact hne, (), hnames, (), any_mono hsub h.logTypes, (), h.witnessTypes, (),
    not_not.mpr hlogs, (), not_not.mpr h.distinctWitnesses, (),
    sharesKey_mono (fun _ hkey => hkey) hsub h.separate, rule, h.safe.normalize, (),
    any_mono h.safe.collected h.witnessTypes, (), not_not.mpr (h.distinctRuleKeys hnodup), (),
    sharesKey_mono h.safe.collected hsub h.separate, rfl⟩

/-- What is normalized has the tree of the file, and its witnesses are distinct. -/
theorem AcceptedFile.of_normalized (h : AcceptedFile text policy rule) {origin : String} {n : NormalizedOriginPolicy}
    (hn : normalizedOriginPolicy policy origin = .ok n) : n.quorumRule = rule ∧ (collectWitnessKeys rule).Nodup := by
  simp only [normalizedOriginPolicy, assertDistinctUnderlyingKeys, bind_eq_ok, throwIf_eq_ok, orThrow_eq_ok,
    pure_eq_ok] at hn
  obtain ⟨p, horigin, _, _, _, _, _, _, _, _, _, _, _, _, _, _, _, _, _, _, _, _, _, _, quorumRule, hrule, _, _, _,
    hdistinct, _, _, rfl⟩ := hn
  rw [h.origins origin] at horigin
  split at horigin
  · cases horigin
  · cases horigin
    rw [Option.getD_some, h.safe.normalize] at hrule
    cases hrule
    exact ⟨rfl, (not_not.mp hdistinct).of_map _⟩

/-- **An accepted policy file is usable unless its rule names a witness twice.** The quorum directive names one rule
tree, and for every declared log the policy normalizes exactly when no witness stands twice in the tree; it then has the
keys declared under the name, in order, and the tree. -/
theorem accepted_policy_usable (hlen : text.length ≤ maxTextLength) (h : parseC2spPolicyFile text = .ok policy) :
    ∃ rule, QuorumNamed (declarations text) rule ∧ (∀ rule', QuorumNamed (declarations text) rule' → rule' = rule) ∧
      ∀ key ∈ declaredLogs text,
        ((∃ n, normalizedOriginPolicy policy key.name = .ok n) ↔ (collectWitnessKeys rule).Nodup) ∧
        ∀ n, normalizedOriginPolicy policy key.name = .ok n →
          n.logKeys = logsOf (declaredLogs text) key.name ∧ n.quorumRule = rule := by
  obtain ⟨rule, hfile⟩ := acceptedFile_of_parse hlen h
  refine ⟨rule, hfile.named, hfile.only, fun key hkey => ?_⟩
  have hne : logsOf (declaredLogs text) key.name ≠ [] :=
    List.ne_nil_of_mem (List.mem_filter.mpr ⟨hkey, decide_eq_true rfl⟩)
  refine ⟨⟨?_, fun hnodup => ⟨_, hfile.normalized hnodup hne⟩⟩, ?_⟩
  · rintro ⟨n, hn⟩
    exact (hfile.of_normalized hn).2
  · intro n hn
    have hsame := (hfile.normalized (hfile.of_normalized hn).2 hne).symm.trans hn
    cases hsame
    exact ⟨rfl, rfl⟩

/-! ## Two files -/

def declaredSampleKey (name : String) (type byte : UInt8) : SignedNoteKey :=
  ⟨name, List.replicate 31 0 ++ [byte], some [0, 0, 0, 0], some [type]⟩

/-- A verifier key text: the type byte and 31 zero bytes, then the last byte. -/
def declaredSampleText (name type last : String) : PolicyText :=
  name.toList ++ "+00000000+".toList ++ type.toList ++ List.replicate 41 'A' ++ last.toList

def sampleDeclarations : PolicyText :=
  "log ".toList ++ declaredSampleText "log" "AQ" "C\n" ++ "witness W1 ".toList ++ declaredSampleText "w1" "BA" "A\n" ++
    "witness W2 ".toList ++ declaredSampleText "w2" "BA" "B\n"

def groupFile : PolicyText := sampleDeclarations ++ "group G any W1 W2\nquorum G\n".toList

theorem groupFile_usable : ∃ policy n, parseC2spPolicyFile groupFile = .ok policy ∧
    normalizedOriginPolicy policy "log" = .ok n ∧
    n.quorumRule = .threshold 1 [.witness (declaredSampleKey "w1" 4 0), .witness (declaredSampleKey "w2" 4 1)] := by
  have hok : (parseC2spPolicyFile groupFile).isOk = true := by decide +kernel
  have hdeclarations : declarations groupFile = [.log (declaredSampleKey "log" 1 2),
      .witness "W1".toList (declaredSampleKey "w1" 4 0), .witness "W2".toList (declaredSampleKey "w2" 4 1),
      .group "G".toList 1 ["W1".toList, "W2".toList], .quorum "G".toList] := by
    decide
  cases hparse : parseC2spPolicyFile groupFile with
  | error e =>
    rw [hparse] at hok
    cases hok
  | ok policy =>
    obtain ⟨rule, -, honly, husable⟩ := accepted_policy_usable (by decide +kernel) hparse
    have hnamed : QuorumNamed (declarations groupFile)
        (.threshold 1 [.witness (declaredSampleKey "w1" 4 0), .witness (declaredSampleKey "w2" 4 1)]) := by
      rw [hdeclarations]
      have hmember : .group "G".toList 1 ["W1".toList, "W2".toList] ∈ [.log (declaredSampleKey "log" 1 2),
          .witness "W1".toList (declaredSampleKey "w1" 4 0), .witness "W2".toList (declaredSampleKey "w2" 4 1),
          Declaration.group "G".toList 1 ["W1".toList, "W2".toList], .quorum "G".toList] := by
        simp
      refine .named (List.mem_of_getLast? rfl) (by decide) (.group hmember rfl ?_)
      simp only [List.zip_cons_cons, List.zip_nil_right, List.forall_mem_cons]
      exact ⟨.witness (by simp), .witness (by simp), by simp⟩
    have hlog : declaredSampleKey "log" 1 2 ∈ declaredLogs groupFile := by
      rw [declaredLogs, hdeclarations]
      simp [Declaration.logKey]
    have hrule := honly _ hnamed
    subst hrule
    obtain ⟨n, hn⟩ := (husable _ hlog).1.mpr (by decide)
    exact ⟨policy, n, rfl, hn, ((husable _ hlog).2 n hn).2⟩

/-- Two groups of one rule have a witness in common. -/
def sharedWitnessFile : PolicyText :=
  sampleDeclarations ++ "group A all W1 W2\ngroup B any W1\ngroup Q all A B\nquorum Q\n".toList

theorem sharedWitnessFile_refused : (parseC2spPolicyFile sharedWitnessFile).isOk = true ∧
    ¬ ∀ policy, parseC2spPolicyFile sharedWitnessFile = .ok policy → ∀ key ∈ declaredLogs sharedWitnessFile,
      ∃ n, normalizedOriginPolicy policy key.name = .ok n := by
  have hrefused : (parseC2spPolicyFile sharedWitnessFile).map (fun policy =>
      (normalizedOriginPolicy policy "log").map NormalizedOriginPolicy.logKeys) =
      .ok (.error (.verificationError "checkpoint quorum witness keys must be distinct by underlying public key")) := by
    decide +kernel
  have hlogs : declaredLogs sharedWitnessFile = [declaredSampleKey "log" 1 2] := by decide
  cases hparse : parseC2spPolicyFile sharedWitnessFile with
  | error e =>
    rw [hparse] at hrefused
    cases hrefused
  | ok policy =>
    refine ⟨rfl, fun hall => ?_⟩
    obtain ⟨n, hn⟩ := hall policy rfl (declaredSampleKey "log" 1 2) (by rw [hlogs]; exact List.mem_singleton_self _)
    have hname : normalizedOriginPolicy policy "log" = .ok n := hn
    rw [hparse] at hrefused
    simp only [Except.map, hname] at hrefused
    cases hrefused

end Dnsid.Checkpoint

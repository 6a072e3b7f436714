import Dnsid.Foundations.JsonText

/-! # The JSON parser

A recursive descent over the characters. It returns the tree whose text it read (`parseDocument_eq_some`), so a text is
of one tree at most.
-/
namespace Dnsid.Foundations.JsonText
set_option autoImplicit false

/-! ## Reading tokens -/

def readBlank (text : List Char) : Blank × List Char :=
  (⟨text.takeWhile isBlank, List.all_takeWhile⟩, text.dropWhile isBlank)

/-- The parts of a string up to its closing quote, and what follows that. -/
def readContent : List Char → Option (List StringPart × List Char)
  | [] => none
  | c :: text =>
    if c = '"' then some ([], text)
    else if c = '\\' then
      match text with
      | [] => none
      | e :: text =>
        if e = 'u' then
          match text with
          | h₁ :: h₂ :: h₃ :: h₄ :: text =>
            if h : isHexDigit h₁ = true ∧ isHexDigit h₂ = true ∧ isHexDigit h₃ = true ∧ isHexDigit h₄ = true then
              (readContent text).map fun read =>
                (.unicode ⟨h₁, h.1⟩ ⟨h₂, h.2.1⟩ ⟨h₃, h.2.2.1⟩ ⟨h₄, h.2.2.2⟩ :: read.1, read.2)
            else none
          | _ => none
        else
          match escapes.find? fun escape => escape.char = e with
          | some escape => (readContent text).map fun read => (.escape escape :: read.1, read.2)
          | none => none
    else if h : isPlain c = true then (readContent text).map fun read => (.plain c h :: read.1, read.2)
    else none

def readNumber (text : List Char) : Option (Number × List Char) :=
  if h : isNumber (text.takeWhile isNumberChar) = true then
    some (⟨text.takeWhile isNumberChar, h⟩, text.dropWhile isNumberChar)
  else none

def words : List Word := [.null, .true, .false]

def readWord (text : List Char) : Option (Word × List Char) :=
  (words.find? fun w => w.text.isPrefixOf text).map fun w => (w, text.drop w.text.length)

/-- The text after a string in quotes. -/
def readString (text : List Char) : Option (List StringPart × List Char) :=
  if text.head? = some '"' then readContent text.tail else none

/-! ## Reading trees -/

mutual

def readTree : ℕ → List Char → Option (Tree × List Char)
  | 0, _ => none
  | fuel + 1, text =>
    if text.head? = some '"' then (readContent text.tail).map fun read => (.string read.1, read.2)
    else if text.head? = some '[' then
      let read := readBlank text.tail
      if read.2.head? = some ']' then some (.emptyArray read.1, read.2.tail)
      else (readItems fuel text.tail).map fun read => (.array read.1, read.2)
    else if text.head? = some '\x7b' then
      let read := readBlank text.tail
      if read.2.head? = some '\x7d' then some (.emptyObject read.1, read.2.tail)
      else (readMembers fuel text.tail).map fun read => (.object read.1, read.2)
    else if text.head?.any isNumberChar = true then (readNumber text).map fun read => (.number read.1, read.2)
    else (readWord text).map fun read => (.word read.1, read.2)

def readItems : ℕ → List Char → Option (Items × List Char)
  | 0, _ => none
  | fuel + 1, text => do
    let before := readBlank text
    let item ← readTree fuel before.2
    let after := readBlank item.2
    if after.2.head? = some ']' then return (.last before.1 item.1 after.1, after.2.tail)
    else if after.2.head? = some ',' then
      let rest ← readItems fuel after.2.tail
      return (.more before.1 item.1 after.1 rest.1, rest.2)
    else none

def readMembers : ℕ → List Char → Option (Members × List Char)
  | 0, _ => none
  | fuel + 1, text => do
    let before := readBlank text
    let name ← readString before.2
    let colon := readBlank name.2
    if colon.2.head? = some ':' then
      let space := readBlank colon.2.tail
      let value ← readTree fuel space.2
      let after := readBlank value.2
      if after.2.head? = some '\x7d' then
        return (.last before.1 name.1 colon.1 space.1 value.1 after.1, after.2.tail)
      else if after.2.head? = some ',' then
        let rest ← readMembers fuel after.2.tail
        return (.more before.1 name.1 colon.1 space.1 value.1 after.1 rest.1, rest.2)
      else none
    else none

end

def parseDocument (text : List Char) : Option Document := do
  let before := readBlank text
  let tree ← readTree text.length before.2
  let after := readBlank tree.2
  if after.2 = [] then return ⟨before.1, tree.1, after.1⟩ else none

/-- `JSON.parse`. Members with names that are array indices are not put first. -/
def parse {N : Type} (number : List Char → N) (text : List Char) : Option (Value N) :=
  (parseDocument text).map fun d => d.tree.value number

/-! ## What was read -/

theorem readBlank_text (text : List Char) : (readBlank text).1.1 ++ (readBlank text).2 = text := List.takeWhile_append_dropWhile

theorem cons_of_head {c : Char} {text : List Char} (h : text.head? = some c) : text = c :: text.tail :=
  (List.cons_head?_tail h).symm

theorem readContent_text {text rest : List Char} {parts : List StringPart} (h : readContent text = some (parts, rest)) :
    text = contentText parts ++ '"' :: rest := by
  induction text using readContent.induct generalizing parts with
  | case1 => cases h
  | case2 text =>
    rw [readContent.eq_def] at h
    dsimp only at h
    rw [if_pos rfl] at h
    cases h
    rfl
  | case3 hq =>
    rw [readContent.eq_def] at h
    dsimp only at h
    rw [if_neg hq, if_pos rfl] at h
    cases h
  | case4 h₁ h₂ h₃ h₄ text hhex hq ih =>
    rw [readContent.eq_def] at h
    dsimp only at h
    rw [if_neg hq, if_pos rfl, if_pos rfl, dif_pos hhex] at h
    obtain ⟨read, hread, hparts⟩ := Option.map_eq_some_iff.mp h
    cases hparts
    rw [ih hread]
    rfl
  | case5 h₁ h₂ h₃ h₄ text hhex hq =>
    rw [readContent.eq_def] at h
    dsimp only at h
    rw [if_neg hq, if_pos rfl, if_pos rfl, dif_neg hhex] at h
    cases h
  | case6 text hshort hq =>
    rw [readContent.eq_def] at h
    dsimp only at h
    rw [if_neg hq, if_pos rfl, if_pos rfl] at h
    split at h
    next h₁ h₂ h₃ h₄ text => exact absurd rfl (hshort h₁ h₂ h₃ h₄ text)
    next => cases h
  | case7 e text he escape hescape hq ih =>
    rw [readContent.eq_def] at h
    dsimp only at h
    rw [if_neg hq, if_pos rfl, if_neg he, hescape] at h
    obtain ⟨read, hread, hparts⟩ := Option.map_eq_some_iff.mp h
    cases hparts
    have hchar : escape.char = e := by simpa using List.find?_some hescape
    rw [ih hread, ← hchar]
    rfl
  | case8 e text he hnone hq =>
    rw [readContent.eq_def] at h
    dsimp only at h
    rw [if_neg hq, if_pos rfl, if_neg he, hnone] at h
    cases h
  | case9 c text hq hb hplain ih =>
    rw [readContent.eq_def] at h
    dsimp only at h
    rw [if_neg hq, if_neg hb, dif_pos hplain] at h
    obtain ⟨read, hread, hparts⟩ := Option.map_eq_some_iff.mp h
    cases hparts
    rw [ih hread]
    rfl
  | case10 c text hq hb hplain =>
    rw [readContent.eq_def] at h
    dsimp only at h
    rw [if_neg hq, if_neg hb, dif_neg hplain] at h
    cases h

theorem readString_text {text rest : List Char} {parts : List StringPart} (h : readString text = some (parts, rest)) :
    text = stringText parts ++ rest := by
  rw [readString] at h
  split at h
  next hhead =>
    rw [cons_of_head hhead, readContent_text h]
    simp [stringText]
  next => cases h

theorem readNumber_text {text rest : List Char} {n : Number} (h : readNumber text = some (n, rest)) :
    text = n.1 ++ rest := by
  rw [readNumber] at h
  split at h
  · cases h
    exact List.takeWhile_append_dropWhile.symm
  · cases h

theorem readWord_text {text rest : List Char} {w : Word} (h : readWord text = some (w, rest)) : text = w.text ++ rest := by
  obtain ⟨w', hw', hread⟩ := Option.map_eq_some_iff.mp h
  cases hread
  have hprefix : w.text <+: text := by simpa using List.find?_some hw'
  obtain ⟨rest, rfl⟩ := hprefix
  rw [List.drop_left]

/-- What a parser reads stands at the start of the text, for all three with one bound on the depth. -/
theorem read_text (fuel : ℕ) :
    (∀ text tree rest, readTree fuel text = some (tree, rest) → text = tree.text ++ rest) ∧
      (∀ text items rest, readItems fuel text = some (items, rest) → text = items.text ++ rest) ∧
      ∀ text members rest, readMembers fuel text = some (members, rest) → text = members.text ++ rest := by
  induction fuel with
  | zero =>
    refine ⟨?_, ?_, ?_⟩
    all_goals
      intro text tree rest h
      cases h
  | succ fuel ih =>
    obtain ⟨ihTree, ihItems, ihMembers⟩ := ih
    refine ⟨fun text tree rest h => ?_, fun text items rest h => ?_, fun text members rest h => ?_⟩
    · rw [readTree] at h
      dsimp only at h
      split at h
      next hquote =>
        obtain ⟨read, hread, htree⟩ := Option.map_eq_some_iff.mp h
        cases htree
        rw [cons_of_head hquote, readContent_text hread]
        simp [Tree.text, stringText]
      split at h
      next hbracket =>
        have hblank := readBlank_text text.tail
        generalize readBlank text.tail = read at h hblank
        split at h
        next hclose =>
          cases h
          rw [cons_of_head hbracket, ← hblank, cons_of_head hclose]
          simp [Tree.text]
        next =>
          obtain ⟨read, hread, htree⟩ := Option.map_eq_some_iff.mp h
          cases htree
          rw [cons_of_head hbracket, ihItems _ _ _ hread]
          rfl
      split at h
      next hbrace =>
        have hblank := readBlank_text text.tail
        generalize readBlank text.tail = read at h hblank
        split at h
        next hclose =>
          cases h
          rw [cons_of_head hbrace, ← hblank, cons_of_head hclose]
          simp [Tree.text]
        next =>
          obtain ⟨read, hread, htree⟩ := Option.map_eq_some_iff.mp h
          cases htree
          rw [cons_of_head hbrace, ihMembers _ _ _ hread]
          rfl
      split at h
      next =>
        obtain ⟨read, hread, htree⟩ := Option.map_eq_some_iff.mp h
        cases htree
        exact readNumber_text hread
      next =>
        obtain ⟨read, hread, htree⟩ := Option.map_eq_some_iff.mp h
        cases htree
        exact readWord_text hread
    · simp only [readItems, Option.bind_eq_bind, Option.bind_eq_some_iff] at h
      obtain ⟨item, hitem, h⟩ := h
      have hbefore := readBlank_text text
      have hafter := readBlank_text item.2
      rw [ihTree _ _ _ hitem] at hbefore
      generalize readBlank text = before at h hbefore
      generalize readBlank item.2 = after at h hafter
      split at h
      next hclose =>
        cases h
        rw [← hbefore, ← hafter, cons_of_head hclose]
        simp [Items.text]
      split at h
      next hcomma =>
        simp only [Option.bind_eq_some_iff] at h
        obtain ⟨more, hmore, h⟩ := h
        cases h
        rw [← hbefore, ← hafter, cons_of_head hcomma, ihItems _ _ _ hmore]
        simp [Items.text]
      next => cases h
    · simp only [readMembers, Option.bind_eq_bind, Option.bind_eq_some_iff] at h
      obtain ⟨name, hname, h⟩ := h
      have hbefore := readBlank_text text
      have hcolon := readBlank_text name.2
      rw [readString_text hname] at hbefore
      generalize readBlank text = before at h hbefore
      generalize readBlank name.2 = colon at h hcolon
      split at h
      next hsep =>
        simp only [Option.bind_eq_some_iff] at h
        obtain ⟨value, hvalue, h⟩ := h
        have hspace := readBlank_text colon.2.tail
        have hafter := readBlank_text value.2
        rw [ihTree _ _ _ hvalue] at hspace
        generalize readBlank colon.2.tail = space at h hspace
        generalize readBlank value.2 = after at h hafter
        rw [cons_of_head hsep, ← hspace] at hcolon
        split at h
        next hclose =>
          cases h
          rw [← hbefore, ← hcolon, ← hafter, cons_of_head hclose]
          simp [Members.text]
        split at h
        next hcomma =>
          simp only [Option.bind_eq_some_iff] at h
          obtain ⟨more, hmore, h⟩ := h
          cases h
          rw [← hbefore, ← hcolon, ← hafter, cons_of_head hcomma, ihMembers _ _ _ hmore]
          simp [Members.text]
        next => cases h
      next => cases h

theorem parseDocument_text {text : List Char} {d : Document} (h : parseDocument text = some d) : text = d.text := by
  simp only [parseDocument, Option.bind_eq_bind, Option.bind_eq_some_iff] at h
  obtain ⟨tree, htree, h⟩ := h
  have hbefore := readBlank_text text
  have hafter := readBlank_text tree.2
  rw [(read_text _).1 _ _ _ htree] at hbefore
  generalize readBlank text = before at h hbefore
  generalize readBlank tree.2 = after at h hafter
  split at h
  next hend =>
    cases h
    rw [← hbefore, ← hafter, hend, List.append_nil]
    rfl
  next => cases h

/-! ## What is read of a tree -/

/-- The text does not go on with one of the characters. -/
def StopsAt (p : Char → Bool) (rest : List Char) : Prop := ∀ c, rest.head? = some c → p c = false

theorem StopsAt.nil (p : Char → Bool) : StopsAt p [] := by
  intro c h
  cases h

theorem StopsAt.cons {p : Char → Bool} {c : Char} (h : p c = false) (rest : List Char) : StopsAt p (c :: rest) := by
  intro d hd
  cases hd
  exact h

theorem takeWhile_append {p : Char → Bool} {text rest : List Char} (htext : text.all p = true) (hrest : StopsAt p rest) :
    (text ++ rest).takeWhile p = text ∧ (text ++ rest).dropWhile p = rest := by
  have hnone : rest.takeWhile p = [] ∧ rest.dropWhile p = rest := by
    cases rest with
    | nil => exact ⟨rfl, rfl⟩
    | cons c rest =>
      have hc : ¬ p c = true := by rw [hrest c rfl]; exact Bool.false_ne_true
      exact ⟨List.takeWhile_cons_of_neg hc, List.dropWhile_cons_of_neg hc⟩
  have hall := List.all_eq_true.mp htext
  rw [List.takeWhile_append_of_pos hall, List.dropWhile_append_of_pos hall, hnone.1, hnone.2, List.append_nil]
  exact ⟨rfl, rfl⟩

theorem readBlank_append (blank : Blank) {rest : List Char} (h : StopsAt isBlank rest) :
    readBlank (blank.1 ++ rest) = (blank, rest) := by
  obtain ⟨htake, hdrop⟩ := takeWhile_append blank.2 h
  rw [readBlank]
  exact Prod.ext (Subtype.ext htake) hdrop

/-- A number is not followed by a blank that would belong to it. -/
theorem stopsAt_blank (blank : Blank) {rest : List Char} (h : StopsAt isNumberChar rest) :
    StopsAt isNumberChar (blank.1 ++ rest) := by
  obtain ⟨text, htext⟩ := blank
  cases text with
  | nil => exact h
  | cons c text =>
    refine StopsAt.cons ?_ _
    have hc : isBlank c = true := List.all_eq_true.mp htext c List.mem_cons_self
    simp only [isBlank, Bool.or_eq_true, decide_eq_true_eq] at hc
    rcases hc with ((rfl | rfl) | rfl) | rfl <;> decide

theorem readContent_content (parts : List StringPart) (rest : List Char) :
    readContent (contentText parts ++ '"' :: rest) = some (parts, rest) := by
  have hq : ¬ '\\' = '"' := by decide
  induction parts with
  | nil =>
    rw [readContent.eq_def]
    exact if_pos rfl
  | cons part parts ih =>
    rw [contentText, List.flatMap_cons, ← contentText, List.append_assoc]
    cases part with
    | plain c h =>
      have hc : ¬ c = '"' ∧ ¬ c = '\\' := by
        simp only [isPlain, Bool.and_eq_true, decide_eq_true_eq] at h
        exact h.1
      rw [StringPart.text, List.singleton_append, readContent.eq_def]
      dsimp only
      rw [if_neg hc.1, if_neg hc.2, dif_pos h, ih]
      rfl
    | escape e =>
      have he : ¬ e.char = 'u' ∧ (escapes.find? fun escape => decide (escape.char = e.char)) = some e := by
        cases e <;> decide
      rw [StringPart.text, List.cons_append, List.singleton_append, readContent.eq_def]
      dsimp only
      rw [if_neg hq, if_pos rfl, if_neg he.1, he.2, ih]
      rfl
    | unicode a b c d =>
      rw [StringPart.text]
      simp only [List.cons_append, List.nil_append]
      rw [readContent.eq_def]
      dsimp only
      rw [if_neg hq, if_pos rfl, if_pos rfl, dif_pos ⟨a.2, b.2, c.2, d.2⟩, ih]
      rfl

theorem readString_string (parts : List StringPart) (rest : List Char) :
    readString (stringText parts ++ rest) = some (parts, rest) := by
  have hcons : stringText parts ++ rest = '"' :: (contentText parts ++ '"' :: rest) := by simp [stringText]
  rw [readString, hcons, List.head?_cons, if_pos rfl]
  exact readContent_content parts rest

theorem number_cons (n : Number) : ∃ c rest, n.1 = c :: rest ∧ isNumberChar c = true := by
  obtain ⟨text, hnumber⟩ := n
  cases text with
  | nil => exact absurd hnumber (by decide)
  | cons c rest =>
    rw [isNumber, Bool.and_eq_true] at hnumber
    exact ⟨c, rest, rfl, List.all_eq_true.mp hnumber.1 c List.mem_cons_self⟩

theorem readNumber_number (n : Number) {rest : List Char} (h : StopsAt isNumberChar rest) :
    readNumber (n.1 ++ rest) = some (n, rest) := by
  have hall : n.1.all isNumberChar = true := by
    have hnumber := n.2
    rw [isNumber, Bool.and_eq_true] at hnumber
    exact hnumber.1
  obtain ⟨htake, hdrop⟩ := takeWhile_append hall h
  rw [readNumber, dif_pos (by rw [htake]; exact n.2), hdrop]
  exact congrArg (fun m => some (m, rest)) (Subtype.ext htake)

theorem readWord_word (w : Word) (rest : List Char) : readWord (w.text ++ rest) = some (w, rest) := by
  cases w <;> rfl

/-- The characters that start a token other than a number or a word, or that end one. -/
theorem isNumberChar_ne {c : Char} (h : isNumberChar c = true) :
    isBlank c = false ∧ c ≠ ']' ∧ c ≠ '"' ∧ c ≠ '[' ∧ c ≠ '\x7b' := by
  refine ⟨?_, ?_, ?_, ?_, ?_⟩
  · rw [← Bool.not_eq_true]
    intro hblank
    simp only [isBlank, Bool.or_eq_true, decide_eq_true_eq] at hblank
    rcases hblank with ((rfl | rfl) | rfl) | rfl <;> cases h
  all_goals
    rintro rfl
    cases h

/-- The first character of a value. -/
theorem Tree.text_cons (t : Tree) : ∃ c rest, t.text = c :: rest ∧ isBlank c = false ∧ c ≠ ']' := by
  cases t with
  | word w => cases w <;> exact ⟨_, _, rfl, by decide, by decide⟩
  | number n =>
    obtain ⟨c, rest, hc, hnumber⟩ := number_cons n
    exact ⟨c, rest, hc, (isNumberChar_ne hnumber).1, (isNumberChar_ne hnumber).2.1⟩
  | _ => exact ⟨_, _, rfl, by decide, by decide⟩

theorem Tree.stopsAt (t : Tree) (rest : List Char) : StopsAt isBlank (t.text ++ rest) := by
  obtain ⟨c, more, hc, hblank, -⟩ := t.text_cons
  rw [hc]
  exact StopsAt.cons hblank _

/-- Behind the bracket an array with items is no empty one. -/
theorem Items.not_closed (items : Items) (rest : List Char) : ¬ (readBlank (items.text ++ rest)).2.head? = some ']' := by
  have hitem : ∀ (before : Blank) (item : Tree) (more : List Char),
      ¬ (readBlank (before.1 ++ (item.text ++ more))).2.head? = some ']' := by
    intro before item more
    rw [readBlank_append before (item.stopsAt more)]
    obtain ⟨c, text, hc, -, hne⟩ := item.text_cons
    rw [hc]
    simpa using hne
  cases items with
  | last before item after => simpa [Items.text] using hitem before item (after.1 ++ ']' :: rest)
  | more before item after items => simpa [Items.text] using hitem before item (after.1 ++ ',' :: (items.text ++ rest))

theorem stringText_cons (parts : List StringPart) (rest : List Char) :
    StopsAt isBlank (stringText parts ++ rest) ∧ (stringText parts ++ rest).head? = some '"' :=
  ⟨StopsAt.cons (by decide) _, rfl⟩

theorem Members.not_closed (members : Members) (rest : List Char) :
    ¬ (readBlank (members.text ++ rest)).2.head? = some '\x7d' := by
  have hname : ∀ (before : Blank) (name : List StringPart) (more : List Char),
      ¬ (readBlank (before.1 ++ (stringText name ++ more))).2.head? = some '\x7d' := by
    intro before name more
    rw [readBlank_append before (stringText_cons name more).1, (stringText_cons name more).2]
    decide
  cases members with
  | last before name colon space value after =>
    simpa [Members.text] using
      hname before name (colon.1 ++ ':' :: (space.1 ++ (value.text ++ (after.1 ++ '\x7d' :: rest))))
  | more before name colon space value after members =>
    simpa [Members.text] using
      hname before name (colon.1 ++ ':' :: (space.1 ++ (value.text ++ (after.1 ++ ',' :: (members.text ++ rest)))))

mutual

theorem readTree_tree : ∀ (t : Tree) (fuel : ℕ) (rest : List Char), t.text.length ≤ fuel → StopsAt isNumberChar rest →
    readTree fuel (t.text ++ rest) = some (t, rest)
  | t, 0, rest, hfuel, _ => by
    obtain ⟨c, more, hc, -⟩ := t.text_cons
    rw [hc] at hfuel
    cases hfuel
  | .word w, fuel + 1, rest, _, _ => by
    have hread := readWord_word w rest
    rw [readTree, Tree.text, hread]
    cases w <;> rfl
  | .number n, fuel + 1, rest, _, hrest => by
    obtain ⟨c, more, hc, hnumber⟩ := number_cons n
    obtain ⟨-, -, hquote, hbracket, hbrace⟩ := isNumberChar_ne hnumber
    have hread := readNumber_number n hrest
    have hhead : (n.1 ++ rest).head? = some c := by rw [hc]; rfl
    rw [readTree, Tree.text, hhead, if_neg (by simpa using hquote), if_neg (by simpa using hbracket),
      if_neg (by simpa using hbrace), if_pos (by simpa using hnumber), hread]
    rfl
  | .string parts, fuel + 1, rest, _, _ => by
    have hcons : stringText parts ++ rest = '"' :: (contentText parts ++ '"' :: rest) := by simp [stringText]
    rw [readTree, Tree.text, hcons, List.head?_cons, if_pos rfl, List.tail_cons, readContent_content]
    rfl
  | .emptyArray blank, fuel + 1, rest, _, _ => by
    have hcons : Tree.text (.emptyArray blank) ++ rest = '[' :: (blank.1 ++ ']' :: rest) := by simp [Tree.text]
    rw [readTree, hcons, List.head?_cons, if_neg (by decide), if_pos rfl, List.tail_cons,
      readBlank_append blank (StopsAt.cons (by decide) _)]
    rfl
  | .array items, fuel + 1, rest, hfuel, _ => by
    have hread := readItems_items items fuel rest (by simpa [Tree.text] using hfuel)
    rw [readTree, Tree.text, List.cons_append, List.head?_cons, if_neg (by decide), if_pos rfl, List.tail_cons]
    dsimp only
    rw [if_neg (items.not_closed rest), hread]
    rfl
  | .emptyObject blank, fuel + 1, rest, _, _ => by
    have hcons : Tree.text (.emptyObject blank) ++ rest = '\x7b' :: (blank.1 ++ '\x7d' :: rest) := by simp [Tree.text]
    rw [readTree, hcons, List.head?_cons, if_neg (by decide), if_neg (by decide), if_pos rfl, List.tail_cons,
      readBlank_append blank (StopsAt.cons (by decide) _)]
    rfl
  | .object members, fuel + 1, rest, hfuel, _ => by
    have hread := readMembers_members members fuel rest (by simpa [Tree.text] using hfuel)
    rw [readTree, Tree.text, List.cons_append, List.head?_cons, if_neg (by decide), if_neg (by decide), if_pos rfl, List.tail_cons]
    dsimp only
    rw [if_neg (members.not_closed rest), hread]
    rfl

theorem readItems_items : ∀ (items : Items) (fuel : ℕ) (rest : List Char), items.text.length ≤ fuel →
    readItems fuel (items.text ++ rest) = some (items, rest)
  | .last before item after, fuel, rest, hfuel => by
    have hlen : before.1.length + (item.text.length + (after.1.length + 1)) ≤ fuel := by
      simpa [Items.text] using hfuel
    obtain ⟨fuel, rfl⟩ : ∃ n, fuel = n + 1 := ⟨fuel - 1, by omega⟩
    have htext : Items.text (.last before item after) ++ rest = before.1 ++ (item.text ++ (after.1 ++ ']' :: rest)) := by
      simp [Items.text]
    have hitem := readTree_tree item fuel (after.1 ++ ']' :: rest) (by omega)
      (stopsAt_blank after (StopsAt.cons (by decide) _))
    rw [readItems, htext, readBlank_append before (item.stopsAt _), hitem]
    simp only [Option.bind_eq_bind, Option.bind_some]
    rw [readBlank_append after (StopsAt.cons (by decide) _), List.head?_cons, if_pos rfl]
    rfl
  | .more before item after items, fuel, rest, hfuel => by
    have hlen : before.1.length + (item.text.length + (after.1.length + (items.text.length + 1))) ≤ fuel := by
      simpa [Items.text] using hfuel
    obtain ⟨fuel, rfl⟩ : ∃ n, fuel = n + 1 := ⟨fuel - 1, by omega⟩
    have htext : Items.text (.more before item after items) ++ rest =
        before.1 ++ (item.text ++ (after.1 ++ ',' :: (items.text ++ rest))) := by
      simp [Items.text]
    have hitem := readTree_tree item fuel (after.1 ++ ',' :: (items.text ++ rest)) (by omega)
      (stopsAt_blank after (StopsAt.cons (by decide) _))
    have hitems := readItems_items items fuel rest (by omega)
    rw [readItems, htext, readBlank_append before (item.stopsAt _), hitem]
    simp only [Option.bind_eq_bind, Option.bind_some]
    rw [readBlank_append after (StopsAt.cons (by decide) _), List.head?_cons, if_neg (by decide), if_pos rfl,
      List.tail_cons, hitems]
    rfl

theorem readMembers_members : ∀ (members : Members) (fuel : ℕ) (rest : List Char), members.text.length ≤ fuel →
    readMembers fuel (members.text ++ rest) = some (members, rest)
  | .last before name colon space value after, fuel, rest, hfuel => by
    have hlen : before.1.length + ((stringText name).length + (colon.1.length + (space.1.length + (value.text.length +
        (after.1.length + 1)) + 1))) ≤ fuel := by
      simpa [Members.text] using hfuel
    obtain ⟨fuel, rfl⟩ : ∃ n, fuel = n + 1 := ⟨fuel - 1, by omega⟩
    have htext : Members.text (.last before name colon space value after) ++ rest = before.1 ++ (stringText name ++
        (colon.1 ++ ':' :: (space.1 ++ (value.text ++ (after.1 ++ '\x7d' :: rest))))) := by
      simp [Members.text]
    have hvalue := readTree_tree value fuel (after.1 ++ '\x7d' :: rest) (by omega)
      (stopsAt_blank after (StopsAt.cons (by decide) _))
    rw [readMembers, htext, readBlank_append before (stringText_cons name _).1, readString_string]
    simp only [Option.bind_eq_bind, Option.bind_some]
    rw [readBlank_append colon (StopsAt.cons (by decide) _), List.head?_cons, if_pos rfl, List.tail_cons,
      readBlank_append space (value.stopsAt _), hvalue, Option.bind_some,
      readBlank_append after (StopsAt.cons (by decide) _), List.head?_cons, if_pos rfl]
    rfl
  | .more before name colon space value after members, fuel, rest, hfuel => by
    have hlen : before.1.length + ((stringText name).length + (colon.1.length + (space.1.length + (value.text.length +
        (after.1.length + (members.text.length + 1))) + 1))) ≤ fuel := by
      simpa [Members.text] using hfuel
    obtain ⟨fuel, rfl⟩ : ∃ n, fuel = n + 1 := ⟨fuel - 1, by omega⟩
    have htext : Members.text (.more before name colon space value after members) ++ rest = before.1 ++
        (stringText name ++ (colon.1 ++ ':' :: (space.1 ++ (value.text ++ (after.1 ++ ',' :: (members.text ++ rest)))))) := by
      simp [Members.text]
    have hvalue := readTree_tree value fuel (after.1 ++ ',' :: (members.text ++ rest)) (by omega)
      (stopsAt_blank after (StopsAt.cons (by decide) _))
    have hmembers := readMembers_members members fuel rest (by omega)
    rw [readMembers, htext, readBlank_append before (stringText_cons name _).1, readString_string]
    simp only [Option.bind_eq_bind, Option.bind_some]
    rw [readBlank_append colon (StopsAt.cons (by decide) _), List.head?_cons, if_pos rfl, List.tail_cons,
      readBlank_append space (value.stopsAt _), hvalue, Option.bind_some,
      readBlank_append after (StopsAt.cons (by decide) _), List.head?_cons, if_neg (by decide), if_pos rfl,
      List.tail_cons, hmembers]
    rfl

end

theorem Document.parse (d : Document) : parseDocument d.text = some d := by
  have hfuel : d.tree.text.length ≤ d.text.length := by
    rw [Document.text]
    simp only [List.length_append]
    omega
  have hend : StopsAt isNumberChar (d.after.1 ++ []) := stopsAt_blank d.after (StopsAt.nil _)
  rw [List.append_nil] at hend
  have hafter : readBlank d.after.1 = (d.after, []) := by
    have h := readBlank_append d.after (StopsAt.nil isBlank)
    rwa [List.append_nil] at h
  rw [parseDocument]
  have hbefore : readBlank d.text = (d.before, d.tree.text ++ d.after.1) := readBlank_append d.before (d.tree.stopsAt _)
  rw [hbefore, readTree_tree d.tree _ _ hfuel hend]
  simp only [Option.bind_eq_bind, Option.bind_some]
  rw [hafter, if_pos rfl]
  rfl

/-- **The parser reads JSON.** It accepts the texts of the grammar, and reads the tree that a text is of. -/
theorem parseDocument_eq_some {text : List Char} {d : Document} : parseDocument text = some d ↔ text = d.text := by
  constructor
  · exact parseDocument_text
  · rintro rfl
    exact d.parse

end Dnsid.Foundations.JsonText

import Dnsid.Checkpoint.TrustedStore
import Dnsid.Foundations.JsonParser
import Dnsid.Protocol.Encoding

/-! # JSON without duplicate members (`protocol/src/strict-json.ts`)

`parseJsonNoDuplicateMembers` looks for duplicates in the characters of the text, apart from `JSON.parse`. A decoded text
has no lone surrogate, so it is a list of characters; a decoded name can have one and is a list of code units. What
`JSON.parse` makes of a number is the parameter `number`.
-/
namespace Dnsid.Protocol
open Dnsid.Foundations Dnsid.Foundations.JsonText
open Dnsid.Checkpoint (isJsSpace)
set_option autoImplicit false

inductive StrictJsonError where
  /-- The `TypeError` of the decoder. -/
  | notUtf8
  /-- The `SyntaxError` of `JSON.parse`. -/
  | notJson
  /-- `duplicate JSON member: ${key}`. -/
  | duplicate (key : CodeUnits)
  deriving DecidableEq, Repr

/-! ## UTF-8 -/

def utf8 (text : List Char) : Bytes := text.flatMap String.utf8EncodeChar

def byteOrderMark : Char := '\ufeff'

/-- `new TextDecoder('utf-8', { fatal: true }).decode(bytes)`: one byte order mark at the start is dropped. -/
def decodeUtf8 (bytes : Bytes) : Option (List Char) :=
  bytes.toByteArray.utf8Decode?.map fun chars => dropOne [byteOrderMark] chars.toList

/-! ## The scan -/

/-- The inner loop: the characters up to the closing quote, where a backslash takes the next character along, and the
text from that quote on. -/
def skipString : List Char → List Char × List Char
  | [] => ([], [])
  | c :: text =>
    if c = '"' then ([], c :: text)
    else if c = '\\' then
      match text with
      | [] => ([c], [])
      | e :: text => (c :: e :: (skipString text).1, (skipString text).2)
    else (c :: (skipString text).1, (skipString text).2)

/-- `/\s/` up to `text[next]`. -/
def nextChar (text : List Char) : Option Char := (text.dropWhile isJsSpace).head?

/-- The names of the open objects; `none` for an open array. -/
abbrev Scopes := List (Option (List CodeUnits))

/-- `keys?.has(key)` and `keys?.add(key)`. -/
def addName (stack : Scopes) (key : CodeUnits) : Except StrictJsonError Scopes :=
  match stack with
  | some keys :: below => if key ∈ keys then .error (.duplicate key) else .ok (some (key :: keys) :: below)
  | stack => .ok stack

/-- `JSON.parse` of a text that starts with a quote. -/
def parseName (literal : List Char) : Except StrictJsonError CodeUnits :=
  match parse (fun _ => ()) literal with
  | some (.string key) => .ok key
  | _ => .error .notJson

/-- A string that a colon follows is a name. `content` is what stands between the quotes. -/
def scanString (content closing : List Char) (stack : Scopes) : Except StrictJsonError Scopes :=
  if nextChar closing.tail = some ':' then do
    let key ← parseName ('"' :: (content ++ closing.take 1))
    addName stack key
  else .ok stack

theorem skipString_length (text : List Char) : (skipString text).2.length ≤ text.length := by
  induction text using skipString.induct with
  | case1 => exact Nat.le_refl _
  | case2 text =>
    rw [skipString.eq_def]
    dsimp only
    rw [if_pos rfl]
  | case3 hq => simp [skipString]
  | case4 e text hq ih =>
    rw [skipString.eq_def]
    dsimp only
    rw [if_neg hq, if_pos rfl]
    simp only [List.length_cons]
    omega
  | case5 c text hq hb ih =>
    rw [skipString.eq_def]
    dsimp only
    rw [if_neg hq, if_neg hb]
    simp only [List.length_cons]
    omega

/-- The loop over the text. -/
def scanNames : List Char → Scopes → Except StrictJsonError Unit
  | [], _ => .ok ()
  | c :: text, stack =>
    if c = '"' then
      scanString (skipString text).1 (skipString text).2 stack >>= fun stack => scanNames (skipString text).2.tail stack
    else if c = '\x7b' then scanNames text (some [] :: stack)
    else if c = '[' then scanNames text (none :: stack)
    else if c = '\x7d' ∨ c = ']' then scanNames text stack.tail
    else scanNames text stack
termination_by text => text.length
decreasing_by
  · have := skipString_length text
    simp only [List.length_tail, List.length_cons]
    omega
  all_goals simp

section Parse
variable {N : Type} (number : List Char → N)

def parseJsonNoDuplicateMembers (bytes : Bytes) : Except StrictJsonError (Value N) := do
  let text ← orThrow .notUtf8 (decodeUtf8 bytes)
  let _ ← scanNames text []
  orThrow .notJson (parse number text)

end Parse

/-! ## The scan of a tree -/

/-- What the scan passes over. -/
def isPassed (c : Char) : Bool := c ∉ ['"', '\x7b', '[', '\x7d', ']']

theorem scanNames_passed {text : List Char} (h : text.all isPassed = true) (rest : List Char) (stack : Scopes) :
    scanNames (text ++ rest) stack = scanNames rest stack := by
  induction text with
  | nil => rfl
  | cons c text ih =>
    simp only [List.all_cons, Bool.and_eq_true] at h
    have hc := h.1
    simp only [isPassed, List.mem_cons, List.not_mem_nil, or_false, not_or, decide_eq_true_eq] at hc
    obtain ⟨hquote, hopen, hbracket, hclose, hend⟩ := hc
    rw [List.cons_append, scanNames, if_neg hquote, if_neg hopen, if_neg hbracket, if_neg (by simp [hclose, hend]), ih h.2]

theorem blank_passed (blank : Blank) : blank.1.all isPassed = true := by
  refine List.all_eq_true.mpr fun c hc => ?_
  have hblank : isBlank c = true := List.all_eq_true.mp blank.2 c hc
  simp only [isBlank, Bool.or_eq_true, decide_eq_true_eq] at hblank
  rcases hblank with ((rfl | rfl) | rfl) | rfl <;> decide

theorem number_passed (n : Number) : n.1.all isPassed = true := by
  have hnumber := n.2
  rw [isNumber, Bool.and_eq_true] at hnumber
  refine List.all_eq_true.mpr fun c hc => ?_
  have hchar : isNumberChar c = true := List.all_eq_true.mp hnumber.1 c hc
  obtain ⟨-, hclose, hquote, hbracket, hbrace⟩ := isNumberChar_ne hchar
  have hend : c ≠ '\x7d' := by
    rintro rfl
    cases hchar
  simp [isPassed, hclose, hquote, hbracket, hbrace, hend]

theorem skipString_content (parts : List StringPart) (rest : List Char) :
    skipString (contentText parts ++ '"' :: rest) = (contentText parts, '"' :: rest) := by
  have hq : ¬ '\\' = '"' := by decide
  have hplain : ∀ (c : Char) (text : List Char), c ≠ '"' → c ≠ '\\' →
      skipString (c :: text) = (c :: (skipString text).1, (skipString text).2) := by
    intro c text hc hb
    rw [skipString.eq_def]
    dsimp only
    rw [if_neg hc, if_neg hb]
  have hescape : ∀ (e : Char) (text : List Char),
      skipString ('\\' :: e :: text) = ('\\' :: e :: (skipString text).1, (skipString text).2) := by
    intro e text
    rw [skipString.eq_def]
    dsimp only
    rw [if_neg hq, if_pos rfl]
  have hhex : ∀ d : HexDigit, d.1 ≠ '"' ∧ d.1 ≠ '\\' := by
    intro d
    obtain ⟨c, hc⟩ := d
    constructor
    all_goals
      rintro rfl
      cases hc
  induction parts with
  | nil =>
    rw [skipString.eq_def]
    exact if_pos rfl
  | cons part parts ih =>
    rw [contentText, List.flatMap_cons, ← contentText, List.append_assoc]
    cases part with
    | plain c h =>
      simp only [isPlain, Bool.and_eq_true, decide_eq_true_eq] at h
      rw [StringPart.text, List.singleton_append, hplain _ _ h.1.1 h.1.2, ih]
      rfl
    | escape e =>
      rw [StringPart.text, List.cons_append, List.singleton_append, hescape, ih]
      rfl
    | unicode a b c d =>
      rw [StringPart.text]
      simp only [List.cons_append, List.nil_append]
      rw [hescape, hplain _ _ (hhex a).1 (hhex a).2, hplain _ _ (hhex b).1 (hhex b).2, hplain _ _ (hhex c).1 (hhex c).2,
        hplain _ _ (hhex d).1 (hhex d).2, ih]

/-- A string in the text is scanned with what follows it. -/
theorem scanNames_string (parts : List StringPart) (rest : List Char) (stack : Scopes) :
    scanNames (stringText parts ++ rest) stack =
      scanString (contentText parts) ('"' :: rest) stack >>= fun stack => scanNames rest stack := by
  have hcons : stringText parts ++ rest = '"' :: (contentText parts ++ '"' :: rest) := by simp [stringText]
  rw [hcons, scanNames, if_pos rfl, skipString_content]
  rfl

theorem parseName_string (parts : List StringPart) : parseName ('"' :: (contentText parts ++ ['"'])) = .ok (stringUnits parts) := by
  have hdocument : '"' :: (contentText parts ++ ['"']) = Document.text ⟨⟨[], rfl⟩, .string parts, ⟨[], rfl⟩⟩ := by
    simp [Document.text, Tree.text, stringText]
  rw [parseName, hdocument, parse, Document.parse]
  rfl

/-- What follows a value: no colon after the white space. -/
def NoColon (rest : List Char) : Prop := nextChar rest ≠ some ':'

theorem nextChar_blank (blank : Blank) {c : Char} (h : isJsSpace c = false) (rest : List Char) :
    nextChar (blank.1 ++ c :: rest) = some c := by
  have hall : ∀ d ∈ blank.1, isJsSpace d = true := by
    intro d hd
    have hblank : isBlank d = true := List.all_eq_true.mp blank.2 d hd
    simp only [isBlank, Bool.or_eq_true, decide_eq_true_eq] at hblank
    rcases hblank with ((rfl | rfl) | rfl) | rfl <;> decide
  rw [nextChar, List.dropWhile_append_of_pos hall, List.dropWhile_cons_of_neg (by rw [h]; exact Bool.false_ne_true)]
  rfl

theorem noColon_blank (blank : Blank) {c : Char} (h : isJsSpace c = false) (hc : c ≠ ':') (rest : List Char) :
    NoColon (blank.1 ++ c :: rest) := by
  rw [NoColon, nextChar_blank blank h]
  simpa using hc

theorem scanNames_value {parts : List StringPart} {rest : List Char} (h : NoColon rest) (stack : Scopes) :
    scanNames (stringText parts ++ rest) stack = scanNames rest stack := by
  rw [scanNames_string, scanString, List.tail_cons, if_neg h]
  rfl

theorem scanNames_name (parts : List StringPart) (colon : Blank) (rest : List Char) (keys : List CodeUnits)
    (below : Scopes) :
    scanNames (stringText parts ++ (colon.1 ++ ':' :: rest)) (some keys :: below) = .ok () ↔
      stringUnits parts ∉ keys ∧ scanNames rest (some (stringUnits parts :: keys) :: below) = .ok () := by
  have hpassed : ∀ stack, scanNames (colon.1 ++ ':' :: rest) stack = scanNames rest stack := by
    intro stack
    rw [scanNames_passed (blank_passed colon)]
    have hcolon : [':'].all isPassed = true := by decide
    exact scanNames_passed hcolon rest stack
  rw [scanNames_string, scanString, List.tail_cons, nextChar_blank colon (by decide), if_pos rfl]
  have hliteral : ('"' :: (colon.1 ++ ':' :: rest)).take 1 = ['"'] := rfl
  rw [hliteral, parseName_string, ok_bind, addName]
  split_ifs with hmem
  · constructor
    · intro h
      cases h
    · rintro ⟨hnew, -⟩
      exact absurd hmem hnew
  · rw [ok_bind, hpassed]
    exact ⟨fun h => ⟨hmem, h⟩, fun h => h.2⟩

theorem scanNames_word (w : Word) (rest : List Char) (stack : Scopes) :
    scanNames (w.text ++ rest) stack = scanNames rest stack :=
  scanNames_passed (by cases w <;> decide) rest stack

/-- A bracket or a comma behind blanks. -/
theorem scanNames_mark (blank : Blank) (c : Char) (rest : List Char) (stack : Scopes) :
    scanNames (blank.1 ++ c :: rest) stack = scanNames (c :: rest) stack :=
  scanNames_passed (blank_passed blank) _ stack

theorem scanNames_close {c : Char} (hc : c = '\x7d' ∨ c = ']') (rest : List Char) (stack : Scopes) :
    scanNames (c :: rest) stack = scanNames rest stack.tail := by
  rw [scanNames]
  rcases hc with rfl | rfl
  · rw [if_neg (by decide), if_neg (by decide), if_neg (by decide), if_pos (by decide)]
  · rw [if_neg (by decide), if_neg (by decide), if_neg (by decide), if_pos (by decide)]

theorem scanNames_comma (rest : List Char) (stack : Scopes) : scanNames (',' :: rest) stack = scanNames rest stack :=
  have hcomma : [','].all isPassed = true := by decide
  scanNames_passed hcomma rest stack

theorem scanNames_openArray (rest : List Char) (stack : Scopes) :
    scanNames ('[' :: rest) stack = scanNames rest (none :: stack) := by
  rw [scanNames, if_neg (by decide), if_neg (by decide), if_pos rfl]

theorem scanNames_openObject (rest : List Char) (stack : Scopes) :
    scanNames ('\x7b' :: rest) stack = scanNames rest (some [] :: stack) := by
  rw [scanNames, if_neg (by decide), if_pos rfl]

mutual

/-- The scan goes through a value iff no object in it repeats a name, and then goes on with the scopes it had. -/
theorem scanNames_tree : ∀ (t : Tree) {rest : List Char}, NoColon rest → ∀ stack : Scopes,
    scanNames (t.text ++ rest) stack = .ok () ↔ t.Distinct ∧ scanNames rest stack = .ok ()
  | .word w, rest, _, stack => by
    rw [Tree.text, scanNames_word]
    exact (and_iff_right trivial).symm
  | .number n, rest, _, stack => by
    rw [Tree.text, scanNames_passed (number_passed n)]
    exact (and_iff_right trivial).symm
  | .string parts, rest, hrest, stack => by
    rw [Tree.text, scanNames_value hrest]
    exact (and_iff_right trivial).symm
  | .emptyArray blank, rest, _, stack => by
    have htext : Tree.text (.emptyArray blank) ++ rest = '[' :: (blank.1 ++ ']' :: rest) := by simp [Tree.text]
    rw [htext, scanNames_openArray, scanNames_mark, scanNames_close (.inr rfl), List.tail_cons]
    exact (and_iff_right trivial).symm
  | .array items, rest, _, stack => by
    rw [Tree.text, List.cons_append, scanNames_openArray, scanNames_items items, Tree.Distinct]
  | .emptyObject blank, rest, _, stack => by
    have htext : Tree.text (.emptyObject blank) ++ rest = '\x7b' :: (blank.1 ++ '\x7d' :: rest) := by simp [Tree.text]
    rw [htext, scanNames_openObject, scanNames_mark, scanNames_close (.inl rfl), List.tail_cons]
    exact (and_iff_right trivial).symm
  | .object members, rest, _, stack => by
    have hempty : ∀ name ∈ members.names, name ∉ ([] : List CodeUnits) := fun _ _ => List.not_mem_nil
    rw [Tree.text, List.cons_append, scanNames_openObject, scanNames_members members, Tree.Distinct, and_assoc]
    exact ⟨fun h => ⟨h.2.1, h.2.2⟩, fun h => ⟨hempty, h⟩⟩

theorem scanNames_items : ∀ (items : Items) (rest : List Char) (stack : Scopes),
    scanNames (items.text ++ rest) (none :: stack) = .ok () ↔ items.Distinct ∧ scanNames rest stack = .ok ()
  | .last before item after, rest, stack => by
    have htext : Items.text (.last before item after) ++ rest = before.1 ++ (item.text ++ (after.1 ++ ']' :: rest)) := by
      simp [Items.text]
    rw [htext, scanNames_passed (blank_passed before),
      scanNames_tree item (noColon_blank after (by decide) (by decide) rest), scanNames_mark,
      scanNames_close (.inr rfl), List.tail_cons, Items.Distinct]
  | .more before item after items, rest, stack => by
    have htext : Items.text (.more before item after items) ++ rest =
        before.1 ++ (item.text ++ (after.1 ++ ',' :: (items.text ++ rest))) := by
      simp [Items.text]
    rw [htext, scanNames_passed (blank_passed before),
      scanNames_tree item (noColon_blank after (by decide) (by decide) _), scanNames_mark, scanNames_comma,
      scanNames_items items, Items.Distinct, and_assoc]

/-- `keys` are the names that the object already has. -/
theorem scanNames_members : ∀ (members : Members) (rest : List Char) (keys : List CodeUnits) (stack : Scopes),
    scanNames (members.text ++ rest) (some keys :: stack) = .ok () ↔
      (∀ name ∈ members.names, name ∉ keys) ∧ (members.names.Nodup ∧ members.Distinct) ∧ scanNames rest stack = .ok ()
  | .last before name colon space value after, rest, keys, stack => by
    have htext : Members.text (.last before name colon space value after) ++ rest = before.1 ++ (stringText name ++
        (colon.1 ++ ':' :: (space.1 ++ (value.text ++ (after.1 ++ '\x7d' :: rest))))) := by
      simp [Members.text]
    rw [htext, scanNames_passed (blank_passed before), scanNames_name, scanNames_passed (blank_passed space),
      scanNames_tree value (noColon_blank after (by decide) (by decide) rest), scanNames_mark,
      scanNames_close (.inl rfl), List.tail_cons]
    simp only [Members.names, Members.Distinct, List.forall_mem_singleton, List.nodup_singleton, true_and]
  | .more before name colon space value after members, rest, keys, stack => by
    have htext : Members.text (.more before name colon space value after members) ++ rest = before.1 ++
        (stringText name ++ (colon.1 ++ ':' :: (space.1 ++ (value.text ++ (after.1 ++ ',' :: (members.text ++ rest)))))) := by
      simp [Members.text]
    rw [htext, scanNames_passed (blank_passed before), scanNames_name, scanNames_passed (blank_passed space),
      scanNames_tree value (noColon_blank after (by decide) (by decide) _), scanNames_mark, scanNames_comma,
      scanNames_members members]
    rw [Members.names, Members.Distinct, List.forall_mem_cons, List.nodup_cons]
    simp only [List.mem_cons, not_or]
    constructor
    · rintro ⟨hname, hvalue, hmore, ⟨hnodup, hmembers⟩, hrest⟩
      have hfresh : stringUnits name ∉ members.names := fun hmem => (hmore _ hmem).1 rfl
      exact ⟨⟨hname, fun other hother => (hmore other hother).2⟩, ⟨⟨hfresh, hnodup⟩, hvalue, hmembers⟩, hrest⟩
    · rintro ⟨⟨hname, hmore⟩, ⟨⟨hfresh, hnodup⟩, hvalue, hmembers⟩, hrest⟩
      refine ⟨hname, hvalue, fun other hother => ⟨?_, hmore other hother⟩, ⟨hnodup, hmembers⟩, hrest⟩
      rintro rfl
      exact hfresh hother

end

/-- The scan of a JSON text finds every repeated name, and no other. -/
theorem scanNames_document (d : Document) : scanNames d.text [] = .ok () ↔ d.tree.Distinct := by
  have hend : NoColon d.after.1 := by
    have hall : ∀ c ∈ d.after.1, isJsSpace c = true := by
      intro c hc
      have hblank : isBlank c = true := List.all_eq_true.mp d.after.2 c hc
      simp only [isBlank, Bool.or_eq_true, decide_eq_true_eq] at hblank
      rcases hblank with ((rfl | rfl) | rfl) | rfl <;> decide
    rw [NoColon, nextChar, List.dropWhile_eq_nil_iff.mpr hall]
    intro h
    cases h
  have hafter : scanNames d.after.1 [] = .ok () := by
    have hpassed := scanNames_passed (blank_passed d.after) [] []
    rw [List.append_nil] at hpassed
    rw [hpassed, scanNames]
  rw [Document.text, scanNames_passed (blank_passed d.before), scanNames_tree d.tree hend]
  exact and_iff_left hafter

/-! ## The texts that are read -/

theorem utf8_toByteArray (text : List Char) : (utf8 text).toByteArray = text.utf8Encode := rfl

theorem decodeUtf8_eq_some {bytes : Bytes} {text : List Char} :
    decodeUtf8 bytes = some text ↔ ∃ chars, bytes = utf8 chars ∧ text = dropOne [byteOrderMark] chars := by
  rw [decodeUtf8, Option.map_eq_some_iff]
  constructor
  · rintro ⟨chars, hchars, rfl⟩
    have hsome : bytes.toByteArray.utf8Decode?.isSome := by rw [hchars]; rfl
    have hencode := ByteArray.utf8Encode_get_utf8Decode? (h := hsome)
    simp only [hchars, Option.get_some] at hencode
    refine ⟨chars.toList, ?_, rfl⟩
    rw [← List.toByteArray_inj, utf8_toByteArray, hencode]
  · rintro ⟨chars, rfl, rfl⟩
    refine ⟨chars.toArray, ?_, rfl⟩
    rw [utf8_toByteArray, List.utf8Decode?_utf8Encode]

theorem decodeUtf8_utf8 {text : List Char} (h : text.head? ≠ some byteOrderMark) : decodeUtf8 (utf8 text) = some text := by
  refine decodeUtf8_eq_some.mpr ⟨text, rfl, ?_⟩
  cases text with
  | nil => rfl
  | cons c rest =>
    have hc : c ∉ [byteOrderMark] := fun hmem => h (congrArg some (List.mem_singleton.mp hmem))
    rw [dropOne, if_neg hc]

/-- A byte order mark is no blank and starts no value. -/
theorem readTree_byteOrderMark (fuel : ℕ) (text : List Char) : readTree fuel (byteOrderMark :: text) = none := by
  cases fuel with
  | zero => rw [readTree]
  | succ fuel =>
    rw [readTree, List.head?_cons, if_neg (by decide), if_neg (by decide), if_neg (by decide)]
    rfl

theorem document_ne_byteOrderMark (d : Document) (text : List Char) : d.text ≠ byteOrderMark :: text := by
  intro h
  have hnone : parseDocument (byteOrderMark :: text) = none := by
    have hblank : readBlank (byteOrderMark :: text) = (⟨[], rfl⟩, byteOrderMark :: text) := rfl
    rw [parseDocument, hblank, readTree_byteOrderMark]
    rfl
  have hread := d.parse
  rw [h, hnone] at hread
  cases hread

theorem decodeUtf8_document {bytes : Bytes} {d : Document} :
    decodeUtf8 bytes = some d.text ↔ bytes = utf8 d.text ∨ bytes = utf8 (byteOrderMark :: d.text) := by
  rw [decodeUtf8_eq_some]
  constructor
  · rintro ⟨chars, rfl, htext⟩
    cases chars with
    | nil => exact .inl (by rw [htext]; rfl)
    | cons c chars =>
      rw [dropOne] at htext
      split_ifs at htext with hc
      · rw [List.mem_singleton] at hc
        exact .inr (by rw [htext, hc])
      · exact .inl (by rw [htext])
  · rintro (rfl | rfl)
    · refine decodeUtf8_eq_some.mp (decodeUtf8_utf8 fun hhead => ?_)
      obtain ⟨text, htext⟩ := List.head?_eq_some_iff.mp hhead
      exact document_ne_byteOrderMark d text htext
    · exact ⟨byteOrderMark :: d.text, rfl, rfl⟩

/-- **Duplicate members are found exactly.** The bytes are read iff they are, behind a byte order mark or not, the UTF-8 of
a JSON text in which no object has two members of one decoded name; the result is that of `JSON.parse`. -/
theorem parseJsonNoDuplicateMembers_exact {N : Type} (number : List Char → N) (bytes : Bytes) (value : Value N) :
    parseJsonNoDuplicateMembers number bytes = .ok value ↔
      ∃ d : Document, d.tree.Distinct ∧ (bytes = utf8 d.text ∨ bytes = utf8 (byteOrderMark :: d.text)) ∧
        parse number d.text = some value := by
  simp only [parseJsonNoDuplicateMembers, bind_eq_ok, orThrow_eq_ok]
  constructor
  · rintro ⟨text, htext, _, hscan, hvalue⟩
    obtain ⟨d, hd, hparsed⟩ := Option.map_eq_some_iff.mp hvalue
    obtain rfl := parseDocument_eq_some.mp hd
    exact ⟨d, (scanNames_document d).mp hscan, decodeUtf8_document.mp htext, hvalue⟩
  · rintro ⟨d, hdistinct, hbytes, hvalue⟩
    exact ⟨d.text, decodeUtf8_document.mpr hbytes, (), (scanNames_document d).mpr hdistinct, hvalue⟩

end Dnsid.Protocol

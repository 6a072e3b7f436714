import Dnsid.Foundations.MapSet
import Dnsid.Foundations.Utf16
import Mathlib.Data.List.TakeWhile

/-! # JSON texts

A tree of the JSON grammar keeps how every token is spelled and every blank, so a tree is a text (`Tree.text`), and a
text is JSON when it is one of a tree with blanks around it. `parse` reads the tree (`parse_eq_some`). In the value of a
tree a name is the code units that its spelling stands for, and of several members of one name the last counts.
-/
namespace Dnsid.Foundations.JsonText
open Utf16 (charUnits)
set_option autoImplicit false

/-! ## Tokens -/

def isBlank (c : Char) : Bool := c = ' ' || c = '\t' || c = '\n' || c = '\r'

abbrev Blank := {text : List Char // text.all isBlank = true}

/-- A character that stands for itself in a string. -/
def isPlain (c : Char) : Bool := c ≠ '"' && c ≠ '\\' && 0x20 ≤ c.toNat

inductive Escape where
  | quote
  | backslash
  | slash
  | backspace
  | formFeed
  | lineFeed
  | carriageReturn
  | tab
  deriving DecidableEq, Repr

/-- The character after the backslash. -/
def Escape.char : Escape → Char
  | .quote => '"'
  | .backslash => '\\'
  | .slash => '/'
  | .backspace => 'b'
  | .formFeed => 'f'
  | .lineFeed => 'n'
  | .carriageReturn => 'r'
  | .tab => 't'

def Escape.unit : Escape → UInt16
  | .quote => 0x22
  | .backslash => 0x5c
  | .slash => 0x2f
  | .backspace => 0x08
  | .formFeed => 0x0c
  | .lineFeed => 0x0a
  | .carriageReturn => 0x0d
  | .tab => 0x09

def escapes : List Escape :=
  [.quote, .backslash, .slash, .backspace, .formFeed, .lineFeed, .carriageReturn, .tab]

def isHexDigit (c : Char) : Bool := c.isDigit || ('a' ≤ c && c ≤ 'f') || ('A' ≤ c && c ≤ 'F')

def hexValue (c : Char) : ℕ :=
  if c.isDigit then c.toNat - 0x30 else if 'a' ≤ c then c.toNat - 0x57 else c.toNat - 0x37

abbrev HexDigit := {c : Char // isHexDigit c = true}

inductive StringPart where
  | plain (c : Char) (h : isPlain c = true)
  | escape (e : Escape)
  | unicode (a b c d : HexDigit)

def StringPart.text : StringPart → List Char
  | .plain c _ => [c]
  | .escape e => ['\\', e.char]
  | .unicode a b c d => ['\\', 'u', a.1, b.1, c.1, d.1]

def StringPart.units : StringPart → CodeUnits
  | .plain c _ => charUnits c
  | .escape e => [e.unit]
  | .unicode a b c d => [.ofNat (((hexValue a.1 * 16 + hexValue b.1) * 16 + hexValue c.1) * 16 + hexValue d.1)]

/-- The text between the quotes. -/
def contentText (parts : List StringPart) : List Char := parts.flatMap StringPart.text

def stringText (parts : List StringPart) : List Char := '"' :: (contentText parts ++ ['"'])

def stringUnits (parts : List StringPart) : CodeUnits := parts.flatMap StringPart.units

inductive Word where
  | null
  | true
  | false
  deriving DecidableEq, Repr

def Word.text : Word → List Char
  | .null => ['n', 'u', 'l', 'l']
  | .true => ['t', 'r', 'u', 'e']
  | .false => ['f', 'a', 'l', 's', 'e']

def isNumberChar (c : Char) : Bool := c.isDigit || c = '-' || c = '+' || c = '.' || c = 'e' || c = 'E'

/-- The text without its first character, if that is one of `chars`. -/
def dropOne (chars : List Char) : List Char → List Char
  | [] => []
  | c :: text => if c ∈ chars then text else c :: text

/-- The exponent, if any: `e` or `E`, a sign or none, and digits. -/
def isExponent (text : List Char) : Bool :=
  text = [] || ((text.head?.any fun c => c = 'e' || c = 'E') && dropOne ['+', '-'] text.tail ≠ [] &&
    (dropOne ['+', '-'] text.tail).all Char.isDigit)

/-- The fraction, if any, and what follows it. -/
def isFraction (text : List Char) : Bool :=
  if text.head? = some '.' then
    text.tail.takeWhile Char.isDigit ≠ [] && isExponent (text.tail.dropWhile Char.isDigit)
  else isExponent text

/-- The integer part has no zero before another digit. -/
def isUnsigned (text : List Char) : Bool :=
  let integer := text.takeWhile Char.isDigit
  integer ≠ [] && (integer = ['0'] || integer.head? ≠ some '0') && isFraction (text.dropWhile Char.isDigit)

def isNumber (text : List Char) : Bool := text.all isNumberChar && isUnsigned (dropOne ['-'] text)

abbrev Number := {text : List Char // isNumber text = true}

/-! ## Trees -/

mutual

inductive Tree where
  | word (w : Word)
  | number (n : Number)
  | string (parts : List StringPart)
  | emptyArray (blank : Blank)
  | array (items : Items)
  | emptyObject (blank : Blank)
  | object (members : Members)

/-- The items of an array, each between two blanks. -/
inductive Items where
  | last (before : Blank) (item : Tree) (after : Blank)
  | more (before : Blank) (item : Tree) (after : Blank) (rest : Items)

/-- The members of an object: a name between two blanks, and a value between two blanks. -/
inductive Members where
  | last (before : Blank) (name : List StringPart) (colon : Blank) (space : Blank) (value : Tree) (after : Blank)
  | more (before : Blank) (name : List StringPart) (colon : Blank) (space : Blank) (value : Tree) (after : Blank)
    (rest : Members)

end

mutual

def Tree.text : Tree → List Char
  | .word w => w.text
  | .number n => n.1
  | .string parts => stringText parts
  | .emptyArray blank => '[' :: (blank.1 ++ [']'])
  | .array items => '[' :: items.text
  | .emptyObject blank => '\x7b' :: (blank.1 ++ ['\x7d'])
  | .object members => '\x7b' :: members.text

def Items.text : Items → List Char
  | .last before item after => before.1 ++ (item.text ++ (after.1 ++ [']']))
  | .more before item after rest => before.1 ++ (item.text ++ (after.1 ++ ',' :: rest.text))

def Members.text : Members → List Char
  | .last before name colon space value after =>
    before.1 ++ (stringText name ++ (colon.1 ++ ':' :: (space.1 ++ (value.text ++ (after.1 ++ ['\x7d'])))))
  | .more before name colon space value after rest =>
    before.1 ++ (stringText name ++ (colon.1 ++ ':' :: (space.1 ++ (value.text ++ (after.1 ++ ',' :: rest.text)))))

end

/-- A JSON text: a tree between two blanks. -/
structure Document where
  before : Blank
  tree : Tree
  after : Blank

def Document.text (d : Document) : List Char := d.before.1 ++ (d.tree.text ++ d.after.1)

/-! ## Values -/

/-- The value of a text. A number is what the runtime makes of its text. -/
inductive Value (N : Type) where
  | null
  | bool (value : Bool)
  | number (value : N)
  | string (value : CodeUnits)
  | array (items : List (Value N))
  | object (members : List (CodeUnits × Value N))

section Value
variable {N : Type} (readNumber : List Char → N)

def Word.value : Word → Value N
  | .null => .null
  | .true => .bool Bool.true
  | .false => .bool Bool.false

mutual

/-- `JSON.parse`: a member sets its name. -/
def Tree.value : Tree → Value N
  | .word w => w.value
  | .number n => .number (readNumber n.1)
  | .string parts => .string (stringUnits parts)
  | .emptyArray _ => .array []
  | .array items => .array items.values
  | .emptyObject _ => .object []
  | .object members => .object (members.entries.foldl setMember [])

def Items.values : Items → List (Value N)
  | .last _ item _ => [item.value]
  | .more _ item _ rest => item.value :: rest.values

/-- All members, in the order of the text. -/
def Members.entries : Members → List (CodeUnits × Value N)
  | .last _ name _ _ value _ => [(stringUnits name, value.value)]
  | .more _ name _ _ value _ rest => (stringUnits name, value.value) :: rest.entries

end

end Value

/-- The names of the members as they are decoded. -/
def Members.names : Members → List CodeUnits
  | .last _ name _ _ _ _ => [stringUnits name]
  | .more _ name _ _ _ _ rest => stringUnits name :: rest.names

mutual

/-- No object at any depth has two members of one name. -/
def Tree.Distinct : Tree → Prop
  | .array items => items.Distinct
  | .object members => members.names.Nodup ∧ members.Distinct
  | _ => True

def Items.Distinct : Items → Prop
  | .last _ item _ => item.Distinct
  | .more _ item _ rest => item.Distinct ∧ rest.Distinct

def Members.Distinct : Members → Prop
  | .last _ _ _ _ value _ => value.Distinct
  | .more _ _ _ _ value _ rest => value.Distinct ∧ rest.Distinct

end

end Dnsid.Foundations.JsonText

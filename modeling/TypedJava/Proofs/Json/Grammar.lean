import TypedJava.Json

/-! # The grammar of JSON texts

What a JSON text is, without a reader: the spellings of strings and numbers, values, the items of an
array and the members of an object with the blanks that may stand around them. Of an object the names
of its members and the texts of their values are told as well. -/

namespace TypedJava

namespace Json

/-- A text of blanks. -/
def IsBlank (text : List Char) : Prop :=
  ∀ character ∈ text, character ∈ [' ', '\t', '\n', '\r']

/-! ## Strings -/

/-- The letters of the short escapes with the characters that they stand for. -/
def shortEscapes : List (Char × Char) :=
  [('"', '"'), ('\\', '\\'), ('/', '/'), ('b', '\x08'), ('f', '\x0c'), ('n', '\n'), ('r', '\r'),
    ('t', '\t')]

/-- The character is a hexadecimal digit of a value. -/
def IsHexDigit (character : Char) (value : Nat) : Prop :=
  ['0', '1', '2', '3', '4', '5', '6', '7', '8', '9', 'a', 'b', 'c', 'd', 'e', 'f'][value]? =
      some character ∨
    ['0', '1', '2', '3', '4', '5', '6', '7', '8', '9', 'A', 'B', 'C', 'D', 'E', 'F'][value]? =
      some character

/-- A text that spells a code point or a UTF-16 unit within a string. -/
inductive SpellsUnit : Nat → List Char → Prop
  | plain {character : Char} :
      0x20 ≤ character.toNat → character ≠ '"' → character ≠ '\\' →
      SpellsUnit character.toNat [character]
  | short {letter character : Char} :
      (letter, character) ∈ shortEscapes → SpellsUnit character.toNat ['\\', letter]
  | unicode {first second third fourth : Char} {a b c d : Nat} :
      IsHexDigit first a → IsHexDigit second b → IsHexDigit third c → IsHexDigit fourth d →
      SpellsUnit (((a * 16 + b) * 16 + c) * 16 + d) ['\\', 'u', first, second, third, fourth]

/-- What stands between the quotes of a string, well-formed Unicode or not. -/
inductive IsStringBody : List Char → Prop
  | nil : IsStringBody []
  | cons {unit : Nat} {piece text : List Char} :
      SpellsUnit unit piece → IsStringBody text → IsStringBody (piece ++ text)

/-- A text that spells characters between the quotes of a string. A character beyond the UTF-16 units
may be spelled by a surrogate pair. -/
inductive Spells : List Char → List Char → Prop
  | nil : Spells [] []
  | cons {character : Char} {characters piece text : List Char} :
      SpellsUnit character.toNat piece → Spells characters text →
      Spells (character :: characters) (piece ++ text)
  | pair {character : Char} {characters first second text : List Char} {high low : Nat} :
      SpellsUnit high first → 0xD800 ≤ high → high ≤ 0xDBFF →
      SpellsUnit low second → 0xDC00 ≤ low → low ≤ 0xDFFF →
      character.toNat = 0x10000 + (high - 0xD800) * 0x400 + (low - 0xDC00) →
      Spells characters text → Spells (character :: characters) (first ++ second ++ text)

/-! ## Numbers -/

/-- Digits, at least one. -/
def IsDigits (text : List Char) : Prop :=
  text ≠ [] ∧ ∀ character ∈ text, character.isDigit = true

/-- The digits before the point: a zero, or digits that do not start with one. -/
def IsWhole (text : List Char) : Prop :=
  IsDigits text ∧ (text.head? = some '0' → text = ['0'])

/-- A point with digits, or nothing. -/
inductive IsFraction : List Char → Prop
  | none : IsFraction []
  | some {digits : List Char} : IsDigits digits → IsFraction ('.' :: digits)

/-- An exponent, or nothing. -/
inductive IsExponent : List Char → Prop
  | none : IsExponent []
  | some {mark : Char} {sign digits : List Char} :
      mark ∈ ['e', 'E'] → sign ∈ [[], ['+'], ['-']] → IsDigits digits →
      IsExponent (mark :: (sign ++ digits))

/-- The spelling of a number. -/
inductive IsNumber : List Char → Prop
  | intro {sign whole fraction exponent : List Char} :
      sign ∈ [[], ['-']] → IsWhole whole → IsFraction fraction → IsExponent exponent →
      IsNumber (sign ++ whole ++ fraction ++ exponent)

/-! ## Values -/

/-- The blanks around the parts of a member. -/
structure Spacing where
  beforeName : List Char
  beforeColon : List Char
  beforeValue : List Char
  afterValue : List Char

namespace Spacing

/-- There are no other characters around the parts. -/
structure IsBlank (spacing : Spacing) : Prop where
  beforeName : Json.IsBlank spacing.beforeName
  beforeColon : Json.IsBlank spacing.beforeColon
  beforeValue : Json.IsBlank spacing.beforeValue
  afterValue : Json.IsBlank spacing.afterValue

/-- The text of a member of an object. -/
def member (spacing : Spacing) (name value : List Char) : List Char :=
  spacing.beforeName ++ '"' :: (name ++ '"' :: (spacing.beforeColon ++ ':' ::
    (spacing.beforeValue ++ value ++ spacing.afterValue)))

end Spacing

mutual

/-- The text of a value. -/
inductive IsValue : List Char → Prop
  | nullWord : IsValue ['n', 'u', 'l', 'l']
  | trueWord : IsValue ['t', 'r', 'u', 'e']
  | falseWord : IsValue ['f', 'a', 'l', 's', 'e']
  | number {text : List Char} : IsNumber text → IsValue text
  | string {body : List Char} : IsStringBody body → IsValue ('"' :: (body ++ ['"']))
  | emptyArray {blanks : List Char} : IsBlank blanks → IsValue ('[' :: (blanks ++ [']']))
  | array {items : List Char} : IsItems items → IsValue ('[' :: (items ++ [']']))
  | emptyObject {blanks : List Char} : IsBlank blanks → IsValue ('\x7b' :: (blanks ++ ['\x7d']))
  | object {members : List Char} : IsMembers members → IsValue ('\x7b' :: (members ++ ['\x7d']))

/-- The text of the items of an array, at least one. -/
inductive IsItems : List Char → Prop
  | last {before value after : List Char} :
      IsBlank before → IsValue value → IsBlank after → IsItems (before ++ value ++ after)
  | cons {before value after items : List Char} :
      IsBlank before → IsValue value → IsBlank after → IsItems items →
      IsItems (before ++ value ++ after ++ ',' :: items)

/-- The text of the members of an object, at least one. -/
inductive IsMembers : List Char → Prop
  | last {spacing : Spacing} {name value : List Char} :
      spacing.IsBlank → IsStringBody name → IsValue value → IsMembers (spacing.member name value)
  | cons {spacing : Spacing} {name value members : List Char} :
      spacing.IsBlank → IsStringBody name → IsValue value → IsMembers members →
      IsMembers (spacing.member name value ++ ',' :: members)

end

/-- The text of members with given names and texts of their values, in order. -/
inductive WritesMembers : List (String × String) → List Char → Prop
  | last {spacing : Spacing} {name value : String} {spelling : List Char} :
      spacing.IsBlank → Spells name.toList spelling → IsValue value.toList →
      WritesMembers [(name, value)] (spacing.member spelling value.toList)
  | cons {spacing : Spacing} {name value : String} {spelling text : List Char}
      {members : List (String × String)} :
      spacing.IsBlank → Spells name.toList spelling → IsValue value.toList →
      WritesMembers members text →
      WritesMembers ((name, value) :: members)
        (spacing.member spelling value.toList ++ ',' :: text)

/-- The text of a document that is an object with given members. -/
inductive WritesObject : List (String × String) → List Char → Prop
  | empty {before blanks after : List Char} :
      IsBlank before → IsBlank blanks → IsBlank after →
      WritesObject [] (before ++ '\x7b' :: (blanks ++ '\x7d' :: after))
  | members {members : List (String × String)} {before text after : List Char} :
      IsBlank before → WritesMembers members text → IsBlank after →
      WritesObject members (before ++ '\x7b' :: (text ++ '\x7d' :: after))

end Json

end TypedJava

/-! # Documents in JSON

A strict reader for JSON texts. A number is kept only as far as it is written as a plain natural
number, and a string only if its escapes name whole characters: nothing else is ever asked of a
document here, though every document is read to its end. -/

namespace TypedJava

/-- A JSON value. -/
inductive Json where
  | null
  | boolean (value : Bool)
  /-- A number; its value when it is written with digits only. -/
  | number (natural? : Option Nat)
  /-- A string; its characters unless an escape leaves half a surrogate pair. -/
  | string (value? : Option String)
  | array (items : List Json)
  | object (fields : List (Option String × Json))
  deriving Inhabited

namespace Json

/-- A reader takes what it needs off the front of a text and returns the rest. -/
abbrev Reader (α : Type) := List Char → Option (α × List Char)

/-- The blanks that may stand between the parts of a document. -/
def isSpace (character : Char) : Bool :=
  character == ' ' || character == '\n' || character == '\t' || character == '\r'

/-- What follows the blanks at the front of a text. -/
def skipSpace (text : List Char) : List Char :=
  text.dropWhile isSpace

/-- Takes an exact word off the front of a text. -/
def readWord (word : List Char) : List Char → Option (List Char)
  | text => if word.isPrefixOf text then some (text.drop word.length) else none

/-- The value of a hexadecimal digit. -/
def hexValue? (character : Char) : Option Nat :=
  if '0' ≤ character ∧ character ≤ '9' then some (character.toNat - '0'.toNat)
  else if 'a' ≤ character ∧ character ≤ 'f' then some (character.toNat - 'a'.toNat + 10)
  else if 'A' ≤ character ∧ character ≤ 'F' then some (character.toNat - 'A'.toNat + 10)
  else none

/-- The UTF-16 unit that four hexadecimal digits name. -/
def hexUnit? (first second third fourth : Char) : Option Nat := do
  let a ← hexValue? first
  let b ← hexValue? second
  let c ← hexValue? third
  let d ← hexValue? fourth
  some (((a * 16 + b) * 16 + c) * 16 + d)

/-- The character that a one-letter escape names. -/
def shortEscape? : Char → Option Nat
  | '"' => some 0x22
  | '\\' => some 0x5C
  | '/' => some 0x2F
  | 'b' => some 0x8
  | 'f' => some 0xC
  | 'n' => some 0xA
  | 'r' => some 0xD
  | 't' => some 0x9
  | _ => none

/-- The code points and UTF-16 units of a string up to its closing quote. -/
def readUnits : Reader (List Nat)
  | [] => none
  | '"' :: rest => some ([], rest)
  | '\\' :: 'u' :: a :: b :: c :: d :: rest => do
    let unit ← hexUnit? a b c d
    let (units, rest) ← readUnits rest
    some (unit :: units, rest)
  | '\\' :: letter :: rest => do
    let code ← shortEscape? letter
    let (units, rest) ← readUnits rest
    some (code :: units, rest)
  | character :: rest =>
    if character.toNat < 0x20 || character == '\\' then none
    else do
      let (units, rest) ← readUnits rest
      some (character.toNat :: units, rest)

/-- A unit that begins a surrogate pair. -/
def isHighSurrogate (unit : Nat) : Bool :=
  0xD800 ≤ unit && unit ≤ 0xDBFF

/-- A unit that ends a surrogate pair. -/
def isLowSurrogate (unit : Nat) : Bool :=
  0xDC00 ≤ unit && unit ≤ 0xDFFF

/-- The characters that code points and units spell, unless a surrogate stands alone. -/
def joinUnits? : List Nat → Option (List Char)
  | [] => some []
  | high :: low :: rest =>
    if isHighSurrogate high then
      if isLowSurrogate low then
        (joinUnits? rest).map
          (Char.ofNat (0x10000 + (high - 0xD800) * 0x400 + (low - 0xDC00)) :: ·)
      else none
    else if isLowSurrogate high then none
    else (joinUnits? (low :: rest)).map (Char.ofNat high :: ·)
  | [unit] =>
    if isHighSurrogate unit || isLowSurrogate unit then none else some [Char.ofNat unit]

/-- A string whose opening quote has been read. -/
def readString : Reader (Option String) := fun text => do
  let (units, rest) ← readUnits text
  some ((joinUnits? units).map String.ofList, rest)

/-- The digits at the front of a text; at least one is needed. -/
def readDigits : Reader (List Char) := fun text =>
  match text.takeWhile Char.isDigit with
  | [] => none
  | digits => some (digits, text.dropWhile Char.isDigit)

/-- The digits before the point: a lone zero, or digits that do not start with one. -/
def readWhole : Reader (List Char) := fun text => do
  let (digits, rest) ← readDigits text
  if digits.head? == some '0' && digits.length > 1 then none else some (digits, rest)

/-- A point and the digits after it, or nothing; tells which. -/
def readFraction : Reader Bool
  | '.' :: rest => (readDigits rest).map fun (_, rest) => (true, rest)
  | text => some (false, text)

/-- The sign of an exponent may be left out. -/
def skipSign : List Char → List Char
  | '+' :: rest => rest
  | '-' :: rest => rest
  | text => text

/-- An exponent, or nothing; tells which. -/
def readExponent : Reader Bool
  | 'e' :: rest => (readDigits (skipSign rest)).map fun (_, rest) => (true, rest)
  | 'E' :: rest => (readDigits (skipSign rest)).map fun (_, rest) => (true, rest)
  | text => some (false, text)

/-- The number that decimal digits denote. -/
def naturalOf (digits : List Char) : Nat :=
  digits.foldl (fun value digit => value * 10 + (digit.toNat - '0'.toNat)) 0

/-- A number that does not start with a minus sign. -/
def readUnsigned : Reader (Option Nat) := fun text => do
  let (digits, rest) ← readWhole text
  let (hasFraction, rest) ← readFraction rest
  let (hasExponent, rest) ← readExponent rest
  some (if hasFraction || hasExponent then none else some (naturalOf digits), rest)

/-- A number. -/
def readNumber : Reader (Option Nat)
  | '-' :: rest => (readUnsigned rest).map fun (_, rest) => (none, rest)
  | text => readUnsigned text

mutual

/-- Reads one value; every nested value costs one unit of fuel and at least one character. -/
def readValue : Nat → Reader Json
  | 0, _ => none
  | fuel + 1, text =>
    match skipSpace text with
    | [] => none
    | '"' :: rest => (readString rest).map fun (value, rest) => (string value, rest)
    | '[' :: rest =>
      match skipSpace rest with
      | ']' :: rest => some (array [], rest)
      | rest => (readItems fuel rest).map fun (items, rest) => (array items, rest)
    | '\x7b' :: rest =>
      match skipSpace rest with
      | '\x7d' :: rest => some (object [], rest)
      | rest => (readFields fuel rest).map fun (fields, rest) => (object fields, rest)
    | 'n' :: rest => (readWord ['u', 'l', 'l'] rest).map fun rest => (null, rest)
    | 't' :: rest => (readWord ['r', 'u', 'e'] rest).map fun rest => (boolean true, rest)
    | 'f' :: rest => (readWord ['a', 'l', 's', 'e'] rest).map fun rest => (boolean false, rest)
    | rest => (readNumber rest).map fun (value, rest) => (number value, rest)

/-- Reads the items of an array up to the closing bracket; there is at least one. -/
def readItems : Nat → Reader (List Json)
  | 0, _ => none
  | fuel + 1, text => do
    let (item, rest) ← readValue fuel text
    match skipSpace rest with
    | ']' :: rest => some ([item], rest)
    | ',' :: rest =>
      let (items, rest) ← readItems fuel rest
      some (item :: items, rest)
    | _ => none

/-- Reads the fields of an object up to the closing brace; there is at least one. -/
def readFields : Nat → Reader (List (Option String × Json))
  | 0, _ => none
  | fuel + 1, text =>
    match skipSpace text with
    | '"' :: rest => do
      let (key, rest) ← readString rest
      match skipSpace rest with
      | ':' :: rest =>
        let (value, rest) ← readValue fuel rest
        match skipSpace rest with
        | '\x7d' :: rest => some ([(key, value)], rest)
        | ',' :: rest =>
          let (fields, rest) ← readFields fuel rest
          some ((key, value) :: fields, rest)
        | _ => none
      | _ => none
    | _ => none

end

/-- Reads a whole document: one value with nothing but blanks around it. -/
def ofText? (text : String) : Option Json := do
  let characters := text.toList
  let (value, rest) ← readValue (2 * characters.length + 2) characters
  if (skipSpace rest).isEmpty then some value else none

end Json

end TypedJava

import TypedJava.Text.Visible

/-! # Quoted text

A text between double quotes on one line. The quote, the backslash and four controls have short
escapes; every other character without a visible form is written by its number. -/

namespace TypedJava.Text

/-- The lower-case hexadecimal digits of a number. -/
def hexDigits (number : Nat) : List Char :=
  Nat.toDigits 16 number

/-- The hexadecimal digits of a number, with zeros in front up to the given count. -/
def paddedHex (count number : Nat) : List Char :=
  let digits := hexDigits number
  List.replicate (count - digits.length) '0' ++ digits

/-- One character as it stands between the quotes. -/
def quoteChar (character : Char) : List Char :=
  if character = '"' then ['\\', '"']
  else if character = '\\' then ['\\', '\\']
  else if character = '\x00' then ['\\', '0']
  else if character = '\t' then ['\\', 't']
  else if character = '\n' then ['\\', 'n']
  else if character = '\r' then ['\\', 'r']
  else if isVisible character then [character]
  else ['\\', 'u', '\x7b'] ++ hexDigits character.toNat ++ ['\x7d']

/-- The quoted form of a text. -/
def quoted (text : String) : String :=
  String.ofList (['"'] ++ text.toList.flatMap quoteChar ++ ['"'])

end TypedJava.Text

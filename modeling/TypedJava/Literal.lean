import TypedJava.Decimal.Shortest
import TypedJava.JvmKind
import TypedJava.Text.Quoted

/-! # Literals

Constant values as they stand in an expression. Floating-point literals keep their bits, so that
their equality and their text are exact. -/

namespace TypedJava

open Decimal (BinaryFormat)

/-- A constant value. -/
inductive Literal where
  | boolean (value : Bool)
  | char (unit : UInt16)
  | byte (value : Int8)
  | short (value : Int16)
  | int (value : Int32)
  | long (value : Int64)
  | float (bits : UInt32)
  | double (bits : UInt64)
  | string (value : String)
  deriving DecidableEq, Repr

namespace Literal

/-- The kind of the value; a string is an object and has none. -/
def kind? : Literal → Option JvmKind
  | boolean _ => some .boolean
  | char _ => some .char
  | byte _ => some .byte
  | short _ => some .short
  | int _ => some .int
  | long _ => some .long
  | float _ => some .float
  | double _ => some .double
  | string _ => none

/-- Equality of values of one kind. Floating-point values compare as numbers: one that is not a
number differs from itself, and the two zeros are equal. -/
def sameValue : Literal → Literal → Bool
  | boolean left, boolean right => left == right
  | char left, char right => left == right
  | byte left, byte right => left == right
  | short left, short right => left == right
  | int left, int right => left == right
  | long left, long right => left == right
  | float left, float right => BinaryFormat.single.sameNumber left.toNat right.toNat
  | double left, double right => BinaryFormat.double.sameNumber left.toNat right.toNat
  | string left, string right => left == right
  | _, _ => false

/-- The value of a whole-number literal. -/
def integer? : Literal → Option Int
  | char unit => some unit.toNat
  | byte value => some value.toInt
  | short value => some value.toInt
  | int value => some value.toInt
  | long value => some value.toInt
  | boolean _ | float _ | double _ | string _ => none

/-- The whole numbers that a kind keeps unchanged. A floating-point kind keeps every whole number
up to the first that its significand cannot hold. -/
def integerRepresentable (value : Int) : JvmKind → Bool
  | .byte => -128 ≤ value && value ≤ 127
  | .short => -32768 ≤ value && value ≤ 32767
  | .char => 0 ≤ value && value ≤ 65535
  | .int => -2147483648 ≤ value && value ≤ 2147483647
  | .long => true
  | .float => value.natAbs ≤ Nat.pow 2 24
  | .double => value.natAbs ≤ Nat.pow 2 53
  | .boolean | .object | .array | .typeVariable | .wildcard | .void => false

/-- Does the value survive conversion to the kind unchanged? -/
def representableIn (literal : Literal) (kind : JvmKind) : Bool :=
  literal.kind? == some kind ||
    match literal.integer? with
    | some value => integerRepresentable value kind
    | none => literal.kind? == some .float && kind == .double

/-- The literals for true and false when a boolean turns into a number of the kind. Kinds narrower
than `int` have no literals of their own and take those of `int`. -/
def ofBoolean? : JvmKind → Option (Literal × Literal)
  | .long => some (long 1, long 0)
  | .float => some (float 0x3F800000, float 0)
  | .double => some (double 0x3FF0000000000000, double 0)
  | .byte | .char | .short | .int => some (int 1, int 0)
  | .boolean | .object | .array | .typeVariable | .wildcard | .void => none

/-- The literal zero of exactly the kind. -/
def zero? : JvmKind → Option Literal
  | .char => some (char 0)
  | .byte => some (byte 0)
  | .short => some (short 0)
  | .int => some (int 0)
  | .long => some (long 0)
  | .float => some (float 0)
  | .double => some (double 0)
  | .boolean | .object | .array | .typeVariable | .wildcard | .void => none

/-- A UTF-16 unit that stands alone as a character. -/
def spelledDirectly (unit : UInt16) : Bool :=
  !(0xD800 ≤ unit.toNat && unit.toNat ≤ 0xDFFF) && !Text.isControl (Char.ofNat unit.toNat)

/-- The literal as it is written in source text. -/
def spelling : Literal → String
  | boolean value => toString value
  | char unit =>
    if spelledDirectly unit then String.ofList ['\'', Char.ofNat unit.toNat, '\'']
    else String.ofList (['\'', '\\', 'u'] ++ Text.paddedHex 4 unit.toNat ++ ['\''])
  | byte value => toString value.toInt
  | short value => toString value.toInt
  | int value => toString value.toInt
  | long value => toString value.toInt ++ "L"
  | float bits => BinaryFormat.single.text bits.toNat ++ "f"
  | double bits => BinaryFormat.double.text bits.toNat
  | string value => Text.quoted value

end Literal

end TypedJava

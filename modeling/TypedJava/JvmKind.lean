/-! # Kinds of values

The shape that the virtual machine gives a type: one kind for each primitive type and for `void`,
and one for each way of referring to an object. The promotions and the widening order of the
primitive kinds are the rules of arithmetic that every later typing rule rests on. -/

namespace TypedJava

/-- The shape of a type as the virtual machine sees it. -/
inductive JvmKind where
  | boolean | byte | char | short | int | long | float | double
  | object | array | typeVariable | wildcard | void
  deriving DecidableEq, Repr

namespace JvmKind

/-- The eight kinds of primitive values, in the order of their box classes. -/
def primitives : List JvmKind :=
  [boolean, byte, char, short, int, long, float, double]

/-- A kind whose values are primitive; `void` has no values. -/
def isPrimitive : JvmKind → Bool
  | boolean | byte | char | short | int | long | float | double => true
  | object | array | typeVariable | wildcard | void => false

theorem mem_primitives_iff {kind : JvmKind} : kind ∈ primitives ↔ kind.isPrimitive = true := by
  cases kind <;> decide

/-- A kind of numbers. A `char` is a number, a `boolean` is not. -/
def isNumeric : JvmKind → Bool
  | byte | char | short | int | long | float | double => true
  | boolean | object | array | typeVariable | wildcard | void => false

/-- A kind of whole numbers. -/
def isIntegral : JvmKind → Bool
  | byte | char | short | int | long => true
  | boolean | float | double | object | array | typeVariable | wildcard | void => false

/-- A kind of floating-point numbers. -/
def isFloating : JvmKind → Bool
  | float | double => true
  | boolean | byte | char | short | int | long => false
  | object | array | typeVariable | wildcard | void => false

/-- Bits that a value occupies; kinds without values of their own report none. -/
def width : JvmKind → Nat
  | boolean => 1
  | byte => 8
  | char | short => 16
  | int | float => 32
  | long | double => 64
  | object | array | typeVariable | wildcard | void => 0

/-- The keyword that names the kind in source text. -/
def keyword? : JvmKind → Option String
  | boolean => some "boolean"
  | byte => some "byte"
  | char => some "char"
  | short => some "short"
  | int => some "int"
  | long => some "long"
  | float => some "float"
  | double => some "double"
  | void => some "void"
  | object | array | typeVariable | wildcard => none

/-- The kind that a keyword names. -/
def ofKeyword? (word : String) : Option JvmKind :=
  (primitives ++ [void]).find? fun kind => kind.keyword? == some word

/-- Internal name of the class that boxes a value of the kind. -/
def boxName? : JvmKind → Option String
  | boolean => some "java/lang/Boolean"
  | byte => some "java/lang/Byte"
  | char => some "java/lang/Character"
  | short => some "java/lang/Short"
  | int => some "java/lang/Integer"
  | long => some "java/lang/Long"
  | float => some "java/lang/Float"
  | double => some "java/lang/Double"
  | object | array | typeVariable | wildcard | void => none

/-- Widening between primitive kinds, from the first kind to the second; no kind widens to
itself. -/
def widensTo : JvmKind → JvmKind → Bool
  | byte, short | byte, int | byte, long | byte, float | byte, double => true
  | short, int | short, long | short, float | short, double => true
  | char, int | char, long | char, float | char, double => true
  | int, long | int, float | int, double => true
  | long, float | long, double => true
  | float, double => true
  | _, _ => false

/-- The kind of the result of a unary arithmetic operator: at least an `int`. -/
def unaryPromotion? : JvmKind → Option JvmKind
  | byte | short | char | int => some int
  | long => some long
  | float => some float
  | double => some double
  | boolean | object | array | typeVariable | wildcard | void => none

/-- The kind in which two numbers are combined: the widest of `int`, `long`, `float` and `double`
that an operand asks for. -/
def binaryPromotion? (left right : JvmKind) : Option JvmKind :=
  if !left.isNumeric || !right.isNumeric then none
  else if left = double || right = double then some double
  else if left = float || right = float then some float
  else if left = long || right = long then some long
  else some int

/-- A numeric kind is a primitive kind. -/
theorem isPrimitive_of_isNumeric
    {kind : JvmKind} (numeric : kind.isNumeric = true) :
    kind.isPrimitive = true := by
  revert numeric
  cases kind <;> decide

/-- Promotion does not depend on the order of the operands. -/
theorem binaryPromotion?_comm (left right : JvmKind) :
    binaryPromotion? left right = binaryPromotion? right left := by
  cases left <;> cases right <;> rfl

end JvmKind

end TypedJava

/-! # Operators

The operators of assignments, binary expressions and unary expressions. Each family has a wildcard
that occurs in patterns only and stands for every operator of the family. -/

namespace TypedJava

/-- The operator of an assignment. -/
inductive AssignmentOperator where
  | assign | add | subtract | multiply | divide | modulus
  | shiftLeft | shiftRight | unsignedShiftRight
  | bitwiseAnd | bitwiseOr | exclusiveOr
  | any
  deriving DecidableEq, Repr

/-- The symbol of an assignment operator. -/
def AssignmentOperator.symbol : AssignmentOperator → String
  | assign => "="
  | add => "+="
  | subtract => "-="
  | multiply => "*="
  | divide => "/="
  | modulus => "%="
  | shiftLeft => "<<="
  | shiftRight => ">>="
  | unsignedShiftRight => ">>>="
  | bitwiseAnd => "&="
  | bitwiseOr => "|="
  | exclusiveOr => "^="
  | any => "<any>="

/-- The operator of a binary expression. -/
inductive BinaryOperator where
  | bitwiseAnd | bitwiseOr | logicalAnd | logicalOr | exclusiveOr
  | greaterThan | greaterThanOrEqual | equality | inequality | lessThan | lessThanOrEqual
  | add | subtract | multiply | divide | modulus
  | shiftLeft | shiftRight | unsignedShiftRight
  | any
  deriving DecidableEq, Repr

namespace BinaryOperator

/-- The symbol of a binary operator. -/
def symbol : BinaryOperator → String
  | bitwiseAnd => "&"
  | bitwiseOr => "|"
  | logicalAnd => "&&"
  | logicalOr => "||"
  | exclusiveOr => "^"
  | greaterThan => ">"
  | greaterThanOrEqual => ">="
  | equality => "=="
  | inequality => "!="
  | lessThan => "<"
  | lessThanOrEqual => "<="
  | add => "+"
  | subtract => "-"
  | multiply => "*"
  | divide => "/"
  | modulus => "%"
  | shiftLeft => "<<"
  | shiftRight => ">>"
  | unsignedShiftRight => ">>>"
  | any => "<any>"

/-- An operator that compares its operands. -/
def isComparison (operator : BinaryOperator) : Bool :=
  [greaterThan, greaterThanOrEqual, equality, inequality, lessThan, lessThanOrEqual].contains
    operator

/-- An operator that combines truth values and may skip its right operand. -/
def isLogical (operator : BinaryOperator) : Bool :=
  [logicalAnd, logicalOr].contains operator

/-- An operator that works bit by bit. -/
def isBitwise (operator : BinaryOperator) : Bool :=
  [bitwiseAnd, bitwiseOr, exclusiveOr].contains operator

/-- An operator that shifts its left operand. -/
def isShift (operator : BinaryOperator) : Bool :=
  [shiftLeft, shiftRight, unsignedShiftRight].contains operator

/-- An operator of arithmetic. -/
def isArithmetic (operator : BinaryOperator) : Bool :=
  [add, subtract, multiply, divide, modulus].contains operator

end BinaryOperator

/-- The operator of a unary expression. -/
inductive UnaryOperator where
  | not | bitNot | minus | plus
  | preIncrement | preDecrement | postIncrement | postDecrement
  | any
  deriving DecidableEq, Repr

namespace UnaryOperator

/-- The symbol of a unary operator. -/
def symbol : UnaryOperator → String
  | not => "!"
  | bitNot => "~"
  | minus => "-"
  | plus => "+"
  | preIncrement | postIncrement => "++"
  | preDecrement | postDecrement => "--"
  | any => "<any>"

/-- An operator that is written after its operand. -/
def isTrailing (operator : UnaryOperator) : Bool :=
  [postIncrement, postDecrement].contains operator

/-- An operator that changes its operand. -/
def changesOperand (operator : UnaryOperator) : Bool :=
  [preIncrement, preDecrement, postIncrement, postDecrement].contains operator

end UnaryOperator

/-- The three forms of a wildcard type. -/
inductive WildcardForm where
  | unbounded | upper | lower
  deriving DecidableEq, Repr

/-- The name of a wildcard form in reports. -/
def WildcardForm.name : WildcardForm → String
  | unbounded => "Unbounded"
  | upper => "Extends"
  | lower => "Super"

end TypedJava

/-! # Roles

Every child of a node holds one role under its parent. A single role holds at most one child, a
collection role holds an ordered list, and a token role is a single role for a piece of
punctuation. -/

namespace TypedJava

/-- The part that a child plays under its parent. -/
inductive Role where
  | expression | type | target | argument | typeArgument | left | right
  | condition | trueExpression | falseExpression | statement | initializer
  | leftParenthesis | rightParenthesis | newKeyword | dot
  deriving DecidableEq, Repr

namespace Role

/-- Every role. -/
def all : List Role :=
  [expression, type, target, argument, typeArgument, left, right, condition, trueExpression,
    falseExpression, statement, initializer, leftParenthesis, rightParenthesis, newKeyword, dot]

/-- A number that identifies the role; those of the token roles start at twenty. -/
def number : Role → Nat
  | expression => 1
  | type => 2
  | target => 3
  | argument => 4
  | typeArgument => 5
  | left => 6
  | right => 7
  | condition => 8
  | trueExpression => 9
  | falseExpression => 10
  | statement => 11
  | initializer => 12
  | leftParenthesis => 20
  | rightParenthesis => 21
  | newKeyword => 22
  | dot => 23

/-- The name of the role in messages. -/
def name : Role → String
  | expression => "Expression"
  | type => "Type"
  | target => "Target"
  | argument => "Argument"
  | typeArgument => "TypeArgument"
  | left => "Left"
  | right => "Right"
  | condition => "Condition"
  | trueExpression => "TrueExpression"
  | falseExpression => "FalseExpression"
  | statement => "Statement"
  | initializer => "Initializer"
  | leftParenthesis => "LPar"
  | rightParenthesis => "RPar"
  | newKeyword => "NewKeyword"
  | dot => "Dot"

/-- A role that holds a list of children. -/
def holdsMany (role : Role) : Bool :=
  role == argument || role == typeArgument || role == statement

/-- The text of the token that fills a token role. -/
def punctuation? : Role → Option String
  | leftParenthesis => some "("
  | rightParenthesis => some ")"
  | newKeyword => some "new"
  | dot => some "."
  | expression | type | target | argument | typeArgument | left | right => none
  | condition | trueExpression | falseExpression | statement | initializer => none

/-- A role for punctuation. -/
def isPunctuation (role : Role) : Bool :=
  role.punctuation?.isSome

/-- Every role is listed. -/
theorem mem_all (role : Role) : role ∈ all := by
  cases role <;> decide

end Role

end TypedJava

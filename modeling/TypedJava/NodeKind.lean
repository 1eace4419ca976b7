import TypedJava.Role

/-! # Kinds of nodes

Each kind of node declares the roles that its children may hold. The order of the declaration is
the order in which the children of a node are visited. -/

namespace TypedJava

/-- The kind of a node. `null` is the kind of the absent node. -/
inductive NodeKind where
  | null | primitive | nullReference | identifier | this
  | memberReference | invocation | objectCreation | cast
  | assignment | conditional | binaryOperator | unaryOperator
  | simpleType | wildcardType | composedType
  | block | expressionStatement | returnStatement | variableDeclaration
  | token | patternPlaceholder
  deriving DecidableEq, Repr

namespace NodeKind

/-- The name of the kind in messages and reports. -/
def name : NodeKind → String
  | null => "Null"
  | primitive => "Primitive"
  | nullReference => "NullReference"
  | identifier => "Identifier"
  | this => "This"
  | memberReference => "MemberReference"
  | invocation => "Invocation"
  | objectCreation => "ObjectCreation"
  | cast => "Cast"
  | assignment => "Assignment"
  | conditional => "Conditional"
  | binaryOperator => "BinaryOperator"
  | unaryOperator => "UnaryOperator"
  | simpleType => "SimpleType"
  | wildcardType => "WildcardType"
  | composedType => "ComposedType"
  | block => "Block"
  | expressionStatement => "ExpressionStatement"
  | returnStatement => "ReturnStatement"
  | variableDeclaration => "VariableDeclaration"
  | token => "Token"
  | patternPlaceholder => "PatternPlaceholder"

/-- Every kind. -/
def all : List NodeKind :=
  [null, primitive, nullReference, identifier, this, memberReference, invocation, objectCreation,
    cast, assignment, conditional, binaryOperator, unaryOperator, simpleType, wildcardType,
    composedType, block, expressionStatement, returnStatement, variableDeclaration, token,
    patternPlaceholder]

/-- The roles that children of the kind hold, in the order of visiting. -/
def roles : NodeKind → List Role
  | null | primitive | nullReference | identifier | this | token | patternPlaceholder => []
  | memberReference => [.target, .dot, .typeArgument]
  | invocation => [.target, .leftParenthesis, .argument, .rightParenthesis]
  | objectCreation => [.newKeyword, .type, .leftParenthesis, .argument, .rightParenthesis]
  | cast => [.leftParenthesis, .type, .rightParenthesis, .expression]
  | assignment | binaryOperator => [.left, .right]
  | conditional => [.condition, .trueExpression, .falseExpression]
  | unaryOperator | expressionStatement | returnStatement => [.expression]
  | wildcardType | composedType => [.type]
  | simpleType => [.typeArgument]
  | block => [.statement]
  | variableDeclaration => [.type, .initializer]

/-- The position of a role among the roles of the kind. -/
def positionOf? (kind : NodeKind) (role : Role) : Option Nat :=
  kind.roles.idxOf? role

/-- A kind of expression. -/
def isExpression : NodeKind → Bool
  | primitive | nullReference | identifier | this | memberReference | invocation => true
  | objectCreation | cast | assignment | conditional | binaryOperator | unaryOperator => true
  | null | simpleType | wildcardType | composedType | block | expressionStatement => false
  | returnStatement | variableDeclaration | token | patternPlaceholder => false

/-- A kind of type syntax. -/
def isTypeSyntax (kind : NodeKind) : Bool :=
  [simpleType, wildcardType, composedType].contains kind

/-- A kind of statement. -/
def isStatement (kind : NodeKind) : Bool :=
  [block, expressionStatement, returnStatement, variableDeclaration].contains kind

/-- Every kind is listed. -/
theorem mem_all (kind : NodeKind) : kind ∈ all := by
  cases kind <;> decide

/-- No kind declares a role twice. -/
theorem roles_nodup (kind : NodeKind) : kind.roles.Nodup := by
  cases kind <;> decide

end NodeKind

end TypedJava

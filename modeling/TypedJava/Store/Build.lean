import TypedJava.Store.Edit

/-! # Building nodes

One operation for each kind of node. A node is added first, then its children are put into their
roles, and punctuation comes along by itself. An absent child leaves its role empty. -/

namespace TypedJava

namespace Edit

/-- Adds a node and puts children into its roles, in the order given. -/
def mkNodeWith (payload : Payload) (children : List (Role × NodeRef)) : Edit NodeId := do
  let node ← mkNode payload
  for (role, child) in children do
    attachLast node role child
  return node

/-- Adds the tokens that fill token roles of a node. -/
def attachTokens (node : NodeId) (roles : List Role) : Edit Unit := do
  for role in roles do
    match role.punctuation? with
    | none => pure ()
    | some text =>
      let token ← mkNode (.token text)
      attachLast node role token

/-- Puts children at the end of a role, in order. -/
def attachAll (node : NodeId) (role : Role) (children : List NodeRef) : Edit Unit := do
  for child in children do
    attachLast node role child

/-- A literal. -/
def mkLiteral (value : Literal) : Edit NodeId :=
  mkNode (.literal value)

/-- The null literal. -/
def mkNull : Edit NodeId :=
  mkNode .nullReference

/-- A token. -/
def mkToken (text : String) : Edit NodeId :=
  mkNode (.token text)

/-- A placeholder for a pattern. Its index tells it apart from the placeholders before it. -/
def mkPlaceholder (pattern : Pattern) : Edit NodeId := do
  let number ← ask (·.size)
  mkNode (.placeholder number pattern)

/-- An access to a member of a target, with type arguments. -/
def mkAccess (target : NodeRef) (name : String) (typeArguments : List NodeRef) :
    Edit NodeId := do
  let node ← mkNodeWith (.memberReference name) [(.target, target)]
  attachTokens node [.dot]
  attachAll node .typeArgument typeArguments
  return node

/-- An invocation of a target. -/
def mkInvocation (target : NodeRef) (arguments : List NodeRef) : Edit NodeId := do
  let node ← mkNodeWith .invocation [(.target, target)]
  attachTokens node [.leftParenthesis, .rightParenthesis]
  attachAll node .argument arguments
  return node

/-- An invocation of a method of a target. -/
def mkMethodCall (target : NodeRef) (name : String)
    (typeArguments arguments : List NodeRef) : Edit NodeId := do
  let member ← mkAccess target name typeArguments
  mkInvocation member arguments

/-- The creation of an object. -/
def mkCreation (type : NodeRef) (arguments : List NodeRef) : Edit NodeId := do
  let node ← mkNodeWith .objectCreation [(.type, type)]
  attachTokens node [.newKeyword, .leftParenthesis, .rightParenthesis]
  attachAll node .argument arguments
  return node

/-- A cast of an expression to a type. -/
def mkCast (type expression : NodeRef) : Edit NodeId := do
  let node ← mkNodeWith .cast [(.type, type), (.expression, expression)]
  attachTokens node [.leftParenthesis, .rightParenthesis]
  return node

/-- An assignment. -/
def mkAssignment (operator : AssignmentOperator) (left right : NodeRef) : Edit NodeId :=
  mkNodeWith (.assignment operator) [(.left, left), (.right, right)]

/-- A conditional expression. -/
def mkConditional (condition whenTrue whenFalse : NodeRef) : Edit NodeId :=
  mkNodeWith .conditional
    [(.condition, condition), (.trueExpression, whenTrue), (.falseExpression, whenFalse)]

/-- A binary expression. -/
def mkBinary (operator : BinaryOperator) (left right : NodeRef) : Edit NodeId :=
  mkNodeWith (.binary operator) [(.left, left), (.right, right)]

/-- A unary expression. -/
def mkUnary (operator : UnaryOperator) (expression : NodeRef) : Edit NodeId :=
  mkNodeWith (.unary operator) [(.expression, expression)]

/-- A type written as a name with type arguments. -/
def mkNamedType (name : String) (typeArguments : List NodeRef) : Edit NodeId := do
  let node ← mkNode (.simpleType name)
  attachAll node .typeArgument typeArguments
  return node

/-- A wildcard with its bound. -/
def mkWildcard (form : WildcardForm) (bound : NodeRef) : Edit NodeId :=
  mkNodeWith (.wildcardType form) [(.type, bound)]

/-- An array type of a number of dimensions. -/
def mkArrayType (element : NodeRef) (rank : Nat) : Edit NodeId :=
  mkNodeWith (.composedType rank) [(.type, element)]

/-- A block of statements. -/
def mkBlock (statements : List NodeRef) : Edit NodeId := do
  let node ← mkNode .block
  attachAll node .statement statements
  return node

/-- An expression as a statement. -/
def mkStatement (expression : NodeRef) : Edit NodeId :=
  mkNodeWith .expressionStatement [(.expression, expression)]

/-- A return statement; without a value the expression is absent. -/
def mkReturn (expression : NodeRef) : Edit NodeId :=
  mkNodeWith .returnStatement [(.expression, expression)]

/-- A declaration of a variable. -/
def mkVariable (type : NodeRef) (name : String) (initializer : NodeRef) :
    Edit NodeId :=
  mkNodeWith (.variableDeclaration name) [(.type, type), (.initializer, initializer)]

end Edit

end TypedJava

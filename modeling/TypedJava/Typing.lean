import TypedJava.Context
import TypedJava.Conversion
import TypedJava.Member.Lookup
import TypedJava.Store

/-! # Typing of expressions

The static type of an expression, found from the annotations of its nodes, the catalog and the
context. A type may stay unknown. Each kind of node has its rule, which asks about the nodes below.
Resolution reads the nodes where they are stored and goes down a limited number of levels; beyond
the limit a type is unknown as well. -/

namespace TypedJava

/-- The type of an expression, with its value if it is a literal. -/
structure Resolved where
  type : Ty
  constant : Option Literal
  deriving Repr

/-- The type of an expression that is no literal. -/
def Resolved.ofType (type : Ty) : Resolved := ⟨type, none⟩

/-- The number of levels that the resolution of one expression goes down. -/
def resolveLevels : Nat := 256

namespace Catalog

/-- The type that the annotation of a member gives to an access through a receiver. -/
def accessType (catalog : Catalog) (member : Member) (receiver : Option Ty) : Ty :=
  match member.declaringDefinition?, receiver with
  | some declaring, some receiver =>
    catalog.instantiateMember member.valueType declaring receiver
  | _, _ => member.valueType

/-- The type that a name stands for in type syntax without an annotation: a keyword, an internal
name, or the simple name of a class of the language. -/
def namedType? (catalog : Catalog) (name : String) : Option Ty :=
  match JvmKind.ofKeyword? name with
  | some kind => some (.primitive kind)
  | none =>
    ((catalog.lookup? name).or (catalog.lookup? ("java/lang/" ++ name))).map Ty.raw

/-- The kind to which the other arm of a conditional narrows: a kind below `int`, if the arm is an
`int` literal that fits in it. -/
def narrowedKind? (kind : JvmKind) (other : Resolved) : Option JvmKind :=
  match other.constant with
  | some (.int value) =>
    if [.byte, .short, .char].contains kind && (Literal.int value).representableIn kind then
      some kind
    else none
  | _ => none

/-- The type of a conditional whose arms have two kinds of numbers. -/
def numericArmsType (catalog : Catalog) (first second : JvmKind) (whenTrue whenFalse : Resolved) :
    Ty :=
  if (first = .short ∧ second = .byte) ∨ (first = .byte ∧ second = .short) then .primitive .short
  else
    match (narrowedKind? first whenFalse).or (narrowedKind? second whenTrue) with
    | some kind => .primitive kind
    | none =>
      match JvmKind.binaryPromotion? first second with
      | some kind => .primitive kind
      | none => catalog.objectType

/-- The reference type of a value: a primitive value is boxed. -/
def boxedType? (catalog : Catalog) (type : Ty) : Option Ty :=
  match type.primitiveKind? with
  | some kind => catalog.boxOf? kind
  | none => some type

/-- The type of a conditional whose arms are not two numbers and not two truth values: the higher
of the two reference types. -/
def referenceArmsType (catalog : Catalog) (first second : Ty) : Ty :=
  match catalog.boxedType? first, catalog.boxedType? second with
  | some first, some second =>
    if catalog.isSubtype first second then second
    else if catalog.isSubtype second first then first
    else catalog.objectType
  | _, _ => catalog.objectType

/-- The type of a conditional expression. -/
def commonArmsType (catalog : Catalog) (whenTrue whenFalse : Resolved) : Ty :=
  let first := whenTrue.type
  let second := whenFalse.type
  if first == second then first
  else if first.isNull || second.isNull then
    let other := if first.isNull then second else first
    (catalog.boxedType? other).getD other
  else
    match catalog.underlyingKind? first, catalog.underlyingKind? second with
    | some .boolean, some .boolean => .primitive .boolean
    | some firstKind, some secondKind =>
      if firstKind.isNumeric && secondKind.isNumeric then
        catalog.numericArmsType firstKind secondKind whenTrue whenFalse
      else catalog.referenceArmsType first second
    | _, _ => catalog.referenceArmsType first second

/-- The type of a binary expression that is neither a comparison nor a logical operation. -/
def arithmeticType? (catalog : Catalog) (operator : BinaryOperator) (left right : Ty) :
    Option Ty :=
  if operator = .add ∧ (left == catalog.stringType ∨ right == catalog.stringType) then
    some catalog.stringType
  else do
    let leftKind ← catalog.underlyingKind? left
    if operator.isShift then leftKind.unaryPromotion?.map Ty.primitive
    else
      let rightKind ← catalog.underlyingKind? right
      if operator.isBitwise && leftKind == .boolean && rightKind == .boolean then
        some (.primitive .boolean)
      else (JvmKind.binaryPromotion? leftKind rightKind).map Ty.primitive

end Catalog

/-- What the rule for a node may ask about the nodes below it. -/
structure Below where
  /-- The first child in a role. -/
  child : Role → Option Resolved
  /-- The member annotation of the first target. -/
  targetMember : Unit → Option Member
  /-- The target of the member reference that is the first target. -/
  receiver : Unit → Option Resolved
  /-- The types of the type arguments, unless one of them is unknown; `none` where no argument is
  written or no level is left. -/
  arguments : Unit → Option (Option (List Ty))

/-- The member that an invocation calls: its own annotation, or else that of its target. -/
def Below.calledMember? (below : Below) (annotations : Annotations) : Option Member :=
  (annotations.member.or (below.targetMember ())).filter Member.isMethod

/-- The type of a node, by the rule for its kind. -/
def Payload.resolveWith (context : Context) (annotations : Annotations) (below : Below) :
    Payload → Option Resolved
  | .literal value =>
    some ⟨(value.kind?.map Ty.primitive).getD context.catalog.stringType, some value⟩
  | .nullReference => some (.ofType .null)
  | .identifier _ =>
    (annotations.type.or (annotations.member.bind Member.fieldType?)).map Resolved.ofType
  | .this => context.currentType.map Resolved.ofType
  | .memberReference name =>
    let target := (below.child .target).map (·.type)
    match annotations.member with
    | none =>
      if name = "length" ∧ target.any Ty.isArray then some (.ofType (.primitive .int)) else none
    | some member =>
      if member.isField then some (.ofType (context.catalog.accessType member target)) else none
  | .invocation => do
    let member ← below.calledMember? annotations
    let receiver := (below.receiver ()).map (·.type)
    some (.ofType (context.catalog.accessType member receiver))
  | .objectCreation | .cast => (below.child .type).map fun found => .ofType found.type
  | .assignment _ => (below.child .left).map fun found => .ofType found.type
  | .conditional => do
    let whenTrue ← below.child .trueExpression
    let whenFalse ← below.child .falseExpression
    some (.ofType (context.catalog.commonArmsType whenTrue whenFalse))
  | .binary operator =>
    if operator = .any then none
    else if operator.isComparison || operator.isLogical then some (.ofType (.primitive .boolean))
    else do
      let left ← below.child .left
      let right ← below.child .right
      (context.catalog.arithmeticType? operator left.type right.type).map Resolved.ofType
  | .unary .not => some (.ofType (.primitive .boolean))
  | .unary .any => none
  | .unary operator => do
    let operand ← below.child .expression
    if operator.changesOperand then some (.ofType operand.type)
    else
      let kind ← context.catalog.underlyingKind? operand.type
      kind.unaryPromotion?.map fun kind => .ofType (.primitive kind)
  | .simpleType name =>
    match annotations.type with
    | some type => some (.ofType type)
    | none => do
      let type ← context.catalog.namedType? name
      match below.arguments () with
      | none => some (.ofType type)
      | some arguments => do
        let definition ← type.definition?
        let arguments ← arguments
        some (.ofType (.classType definition arguments))
  | .wildcardType form =>
    match annotations.type with
    | some type => some (.ofType type)
    | none =>
      match form with
      | .unbounded => some (.ofType .unboundedWildcard)
      | .upper => (below.child .type).map fun found => .ofType (.upperWildcard found.type)
      | .lower => (below.child .type).map fun found => .ofType (.lowerWildcard found.type)
  | .composedType rank =>
    match annotations.type with
    | some type => some (.ofType type)
    | none => (below.child .type).map fun found => .ofType (found.type.arrayOf rank)
  | .block | .expressionStatement | .returnStatement | .variableDeclaration _ => none
  | .token _ | .placeholder _ _ => none

namespace Store

/-- The receiver of an invocation: the target of the member reference that it calls. -/
def receiver (store : Store) (invocation : NodeRef) : NodeRef :=
  let target := store.childIn invocation .target
  match store.payload? target with
  | some (.memberReference _) => store.childIn target .target
  | _ => none

/-- What stands below a node. Given is how nodes resolve one level and two levels down; `none` where
no level is left. -/
def below (store : Store) (lower deeper : Option (NodeRef → Option Resolved))
    (reference : NodeRef) : Below where
  child role := lower.bind (· (store.childIn reference role))
  targetMember _ := store.member? (store.childIn reference .target)
  receiver _ := deeper.bind (· (store.receiver reference))
  arguments _ := lower.bind fun resolve =>
    match store.childrenIn reference .typeArgument with
    | [] => none
    | arguments =>
      some (arguments.mapM fun argument => (resolve (some argument)).map (·.type))

/-- The type of the expression or the type syntax at a node, given how nodes below resolve. -/
def resolveNode (store : Store) (context : Context)
    (lower deeper : Option (NodeRef → Option Resolved)) (reference : NodeRef) : Option Resolved :=
  (store.node? reference).bind fun node =>
    node.payload.resolveWith context node.annotations (store.below lower deeper reference)

/-- The type of the expression or the type syntax at a node, found by going down so many levels. -/
def resolveWithin (store : Store) (context : Context) :
    (levels : Nat) → NodeRef → Option Resolved
  | 0, reference => store.resolveNode context none none reference
  | 1, reference =>
    store.resolveNode context (some fun node => resolveWithin store context 0 node) none reference
  | levels + 2, reference =>
    store.resolveNode context (some fun node => resolveWithin store context (levels + 1) node)
      (some fun node => resolveWithin store context levels node) reference
termination_by structural levels => levels

/-- What a node resolves to is given by the rule for its kind. -/
theorem exists_resolveWith
    {store : Store} {context : Context} {levels : Nat} {reference : NodeRef} {found : Resolved}
    (resolved : store.resolveWithin context levels reference = some found) :
    ∃ node below, store.node? reference = some node ∧
      node.payload.resolveWith context node.annotations below = some found := by
  match levels with
  | 0 | 1 | levels + 2 =>
      obtain ⟨node, isNode, resolved⟩ := Option.bind_eq_some_iff.mp resolved
      exact ⟨node, _, isNode, resolved⟩

/-- The type of the expression or the type syntax at a node. -/
def resolve (store : Store) (context : Context) (node : NodeRef) : Option Resolved :=
  store.resolveWithin context resolveLevels node

/-- The type of the expression or the type syntax at a node, without its value. -/
def typeOf? (store : Store) (context : Context) (node : NodeRef) : Option Ty :=
  (store.resolve context node).map (·.type)

end Store

end TypedJava

import TypedJava.NeedlessCast
import TypedJava.Store.Walk
import TypedJava.Ty.Inference
import TypedJava.TypeSyntax

/-! # The conversion pass

A tree recovered from bytecode may mix truth values with numbers and may reach members through
receivers of too general a type. The pass puts in what source code needs there: a conditional or a
comparison between truth values and numbers, a cast where a value is narrowed, a cast of a receiver
to the class that declares the member, and a detour through the root class for a cast that has no
legal conversion. Children are treated before their parent, and a new node is treated again. -/

namespace TypedJava

namespace Edit

/-- A way to treat a node. -/
abbrev Treatment := NodeRef → Edit Unit

/-- Lets go of a value that still has a parent. -/
def release (value : NodeRef) : Edit Unit := do
  if (← ask (·.parent value)).isSome then
    detach value

/-- Puts a conditional between the literals one and zero in the place of a node that holds a truth
value. There is none if the target is no kind of numbers. -/
def replaceByConditional (node value : NodeRef) (target : Ty) : Edit (Option NodeRef) := do
  match target.primitiveKind?.bind Literal.ofBoolean? with
  | none => return none
  | some (literalOne, literalZero) =>
    let conditional ← replaceBy node fun _ => do
      release value
      let whenTrue ← mkLiteral literalOne
      let whenFalse ← mkLiteral literalZero
      return some (← mkConditional value (some whenTrue) (some whenFalse))
    return some conditional

/-- Puts a comparison with zero in the place of a node that holds a number of a kind. -/
def replaceByComparison (node value : NodeRef) (kind : JvmKind) : Edit NodeRef :=
  replaceBy node fun _ => do
    release value
    let literalZero ← mkLiteral ((Literal.zero? kind).getD (.int 0))
    return some (← mkBinary .inequality value (some literalZero))

/-- Puts a cast to a type around an attached node. -/
def wrapInCast (context : Context) (options : TypeSyntaxOptions) (node : NodeRef) (type : Ty) :
    Edit NodeRef :=
  replaceBy node fun operand => do
    let written ← mkType context.catalog options type
    return some (← mkCast (some written) operand)

/-- A conditional between one and zero is an `int`: a target of fewer bits needs a cast, unless the
cast would be needless. -/
def finishConditional (context : Context) (again : Treatment) (conditional : NodeRef)
    (target : Ty) : Edit Unit := do
  if target.primitiveKind?.any (·.width < 32) then
    match context.typeSyntax with
    | none => return
    | some options =>
      let cast ← wrapInCast context options conditional target
      if (← get).isNeedlessCast context cast then
        again (← dropCast cast)
      else
        again cast
  else
    again conditional

/-- Treats a cast for which there is no legal conversion. -/
def treatIllegalCast (context : Context) (again : Treatment) (cast operand : NodeRef)
    (target source : Ty) : Edit Unit := do
  let sourceKind := context.catalog.underlyingKind? source
  let detached := (← ask (·.parent cast)).isNone
  if sourceKind == some .boolean && target.isNumeric then
    if detached then return
    else
      match ← replaceByConditional cast operand target with
      | none => return
      | some conditional => finishConditional context again conditional target
  else
    match sourceKind.filter fun kind => target.isBoolean && kind.isNumeric with
    | some kind =>
      if detached then return
      else again (← replaceByComparison cast operand kind)
    | none =>
      match context.typeSyntax with
      | none => return
      | some options =>
        again (← wrapInCast context options operand context.catalog.objectType)

/-- Treats a cast. -/
def treatCast (context : Context) (again : Treatment) (cast : NodeRef) : Edit Unit := do
  let store ← get
  let operand := store.childIn cast .expression
  match store.typeOf? context (store.childIn cast .type), store.typeOf? context operand with
  | some target, some source =>
    if context.catalog.conversion target source = .none then
      treatIllegalCast context again cast operand target source
  | _, _ => return

/-- Treats a simple assignment. The type of a new cast is written without wildcards. -/
def treatAssignment (context : Context) (again : Treatment) (node : NodeRef) : Edit Unit := do
  let store ← get
  let value := store.childIn node .right
  match store.typeOf? context (store.childIn node .left), store.typeOf? context value with
  | some target, some source =>
    let needsCast := (context.catalog.conversion target source).isExplicit
    let value ←
      match context.typeSyntax with
      | some options =>
        if needsCast then
          wrapInCast context { options with allowWildcards := false } value target
        else pure value
      | none => pure value
    let sourceKind := context.catalog.underlyingKind? source
    if sourceKind == some .boolean && target.isNumeric then
      match ← replaceByConditional value value target with
      | none => return
      | some conditional => finishConditional context again conditional target
    else
      match sourceKind.filter fun kind => target.isBoolean && kind.isNumeric with
      | some kind => again (← replaceByComparison value value kind)
      | none => return
  | _, _ => return

end Edit

namespace Store

/-- The member that a member reference accesses: its own annotation, or that of the parent of which
it is the target. -/
def accessedMember? (store : Store) (node : NodeRef) : Option Member :=
  (store.member? node).or <|
    if store.role? node = some .target then store.member? (store.parent node) else none

end Store

namespace Context

/-- The type to which a receiver is cast for an access to a member of a declaring class: the use of
the class below the type of the receiver, or else the class with unbounded arguments or raw. -/
def receiverCastType (context : Context) (receiver : Ty) (member : Member) : Ty :=
  match member.declaringDefinition? with
  | none => member.declaringType.erase context.catalog
  | some declaring =>
    match context.catalog.refineTo? receiver declaring with
    | some type => type
    | none =>
      let count := ((context.catalog.definition? declaring).map (·.parameters.length)).getD 0
      if member.mentionsVariable then
        .classType declaring (List.replicate count .unboundedWildcard)
      else .raw declaring

end Context

namespace Edit

/-- Treats a member reference. -/
def treatAccess (context : Context) (again : Treatment) (node : NodeRef) :
    Edit Unit := do
  let store ← get
  let target := store.childIn node .target
  match store.accessedMember? node, store.typeOf? context target, context.typeSyntax with
  | some member, some receiver, some options =>
    if context.catalog.isSubtype receiver member.declaringType then return
    else
      again (← wrapInCast context options target (context.receiverCastType receiver member))
  | _, _, _ => return

/-- Treats a node: first what is below it, then the node itself. Leaves and type syntax need no
conversions. -/
def treatNode (context : Context) (descend again : Treatment) (node : NodeRef) : Edit Unit := do
  match (← get).payload? node with
  | some (.memberReference _) =>
    descend node
    treatAccess context again node
  | some .cast =>
    descend node
    treatCast context again node
  | some (.assignment operator) =>
    descend node
    if operator = .assign then treatAssignment context again node
  | some .invocation | some .objectCreation | some .conditional | some (.binary _)
  | some (.unary _) | some .block | some .expressionStatement | some .returnStatement
  | some (.variableDeclaration _) => descend node
  | _ => return

/-- Treats a node, going down or back into new nodes at most as often as the fuel. -/
def treatWithin (context : Context) : (fuel : Nat) → Treatment
  | 0, node => treatNode context (fun _ => pure ()) (fun _ => pure ()) node
  | fuel + 1, node =>
    treatNode context (visitChildren (treatWithin context fuel)) (treatWithin context fuel)
      node

/-- Inserts the conversions that the tree below a node needs. -/
def insertConversions (context : Context) (root : NodeRef) : Edit Unit :=
  treatWithin context context.settings.maxDepth.toNat root

end Edit

end TypedJava

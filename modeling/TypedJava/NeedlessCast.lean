import TypedJava.Store.Edit
import TypedJava.Typing

/-! # Needless casts

A cast is needless when the program means the same without it. Only a few positions are judged:
inside another cast, beside a binary operator, and where a value is stored or returned. Elsewhere a
cast may select an overload or a member and is kept. -/

namespace TypedJava

/-- Does a value of the source kind come out the same whether or not it is first converted to the
target kind? The value may be known. -/
def preservesValue (source target : JvmKind) (constant : Option Literal) : Bool :=
  source == target || constant.any (·.representableIn target) ||
    (source.isIntegral && target.isIntegral && source.widensTo target) ||
    match target with
    | .double => [.byte, .short, .char, .int, .float].contains source
    | .float => [.byte, .short, .char].contains source
    | _ => false

namespace Ty

/-- The kind of a type of primitive values. -/
def valueKind? (type : Ty) : Option JvmKind :=
  type.primitiveKind?.filter JvmKind.isPrimitive

end Ty

/-- A cast inside another cast adds nothing if it preserves the value, or if all three kinds are
whole numbers and the inner one keeps at least the bits that the outer one keeps. -/
def needlessInsideCast (source : Resolved) (inner outer : Ty) : Bool :=
  match source.type.valueKind?, inner.valueKind?, outer.valueKind? with
  | some source', some inner, some outer =>
    preservesValue source' inner source.constant ||
      (source'.isIntegral && inner.isIntegral && outer.isIntegral && outer.width ≤ inner.width)
  | _, _, _ => false

/-- A cast of an operand adds nothing if it preserves the value and the operation is carried out in
the same kind without it. -/
def needlessAsOperand (source : Resolved) (castType : Ty) (other : JvmKind) : Bool :=
  match source.type.valueKind?, castType.valueKind? with
  | some kind, some castKind =>
    kind.isNumeric && castKind.isNumeric && other.isNumeric &&
      preservesValue kind castKind source.constant &&
      JvmKind.binaryPromotion? castKind other == JvmKind.binaryPromotion? kind other
  | _, _ => false

/-- May a literal be stored as it is in a variable of a kind below `int`? -/
def narrowsImplicitly (target : Ty) (constant : Option Literal) : Bool :=
  match target.primitiveKind?, constant with
  | some kind, some literal =>
    [.byte, .short, .char].contains kind &&
      [some .byte, some .short, some .char, some .int].contains literal.kind? &&
      literal.representableIn kind
  | _, _ => false

namespace Context

/-- A cast of a stored value adds nothing if it preserves the value and the value may be stored
without it. -/
def needlessWhenStored (context : Context) (source : Resolved) (castType target : Ty) : Bool :=
  match source.type.valueKind?, castType.valueKind? with
  | some kind, some castKind =>
    preservesValue kind castKind source.constant &&
      ((context.catalog.conversion target source.type).isImplicit ||
        narrowsImplicitly target source.constant)
  | none, none =>
    (context.catalog.conversion castType source.type).isImplicit &&
      (context.catalog.conversion target source.type).isImplicit
  | _, _ => false

/-- The operators whose operands are judged. -/
def judgesOperands (operator : BinaryOperator) : Bool :=
  !operator.isShift && (operator.isArithmetic || operator.isComparison || operator.isBitwise)

/-- Is a cast from a known value needless in a role of a parent? The parent is given by its payload
and the types of its children. -/
def isNeedlessUnder (context : Context) (parent : Option Payload) (typeIn : Role → Option Ty)
    (role : Role) (source : Resolved) (castType : Ty) : Bool :=
  match parent with
  | some .cast => role == .expression && (typeIn .type).any (needlessInsideCast source castType ·)
  | some (.binary operator) =>
    (role == .left || role == .right) && judgesOperands operator &&
      ((typeIn (if role = .left then .right else .left)).bind
        context.catalog.underlyingKind?).any (needlessAsOperand source castType ·)
  | some (.assignment .assign) =>
    role == .right && (typeIn .left).any (context.needlessWhenStored source castType ·)
  | some (.variableDeclaration _) =>
    role == .initializer && (typeIn .type).any (context.needlessWhenStored source castType ·)
  | some .returnStatement =>
    (context.currentMethod.bind Member.returnType?).any
      (context.needlessWhenStored source castType ·)
  | _ => false

end Context

namespace Store

/-- Is a cast from a known value needless in the place that it occupies? -/
def isNeedlessAt (store : Store) (context : Context) (place : Place) (source : Resolved)
    (castType : Ty) : Bool :=
  let parent := some place.parent
  context.isNeedlessUnder (store.payload? parent)
    (fun role => store.typeOf? context (store.childIn parent role)) place.role source castType

/-- Does the program mean the same without a cast? -/
def isNeedlessCast (store : Store) (context : Context) (cast : NodeRef) : Bool :=
  store.kind cast == .cast &&
    match store.typeOf? context (store.childIn cast .type),
        store.resolve context (store.childIn cast .expression) with
    | some castType, some source =>
      source.type == castType ||
        match store.place? cast with
        | some place => store.isNeedlessAt context place source castType
        | none => false
    | _, _ => false

end Store

namespace Edit

/-- Removes a cast and puts its operand in its place. A cast without a parent just lets go of its
operand. -/
def dropCast (cast : NodeRef) : Edit NodeRef := do
  let operand ← askOrFail (·.requireChild cast .expression)
  if (← ask (·.parent cast)).isNone then
    detach operand
    return operand
  else
    replaceBy cast fun _ => do
      detach operand
      return operand

end Edit

end TypedJava

import TypedJava.JvmKind

/-! # Types

The types of signatures and of expressions. A class type points at its definition by an identifier;
everything else is structural. A type variable is identified by its name and its owner: the bound
that it carries is a convenience and takes no part in the comparison of types. -/

namespace TypedJava

/-- Identifies a class, an interface, an enumeration or an annotation. -/
structure DefinitionId where
  number : Nat
  deriving DecidableEq, Repr

/-- Identifiers are counted from one. -/
def DefinitionId.isValid (id : DefinitionId) : Bool :=
  1 ≤ id.number

/-- The identifier as messages show it. -/
def DefinitionId.text (id : DefinitionId) : String :=
  "DefId(" ++ toString id.number ++ ")"

/-- Identifies a type variable. The owner is the declaring type; a variable declared by a generic
method has none. -/
structure VarId where
  name : String
  owner : Option DefinitionId
  deriving DecidableEq, Repr

/-- A type. A class type without arguments is raw or not generic. -/
inductive Ty where
  | primitive (kind : JvmKind)
  | classType (definition : DefinitionId) (arguments : List Ty)
  | typeVariable (id : VarId) (bound : Option Ty)
  | unboundedWildcard
  | upperWildcard (upper : Ty)
  | lowerWildcard (lower : Ty)
  | array (element : Ty)
  | null
  deriving Repr

namespace Ty

mutual

/-- Equality of types; type variables are equal when their identities are. -/
def same : Ty → Ty → Bool
  | primitive left, primitive right => left == right
  | classType left leftArguments, classType right rightArguments =>
    left == right && sameList leftArguments rightArguments
  | typeVariable left _, typeVariable right _ => left == right
  | unboundedWildcard, unboundedWildcard => true
  | upperWildcard left, upperWildcard right => same left right
  | lowerWildcard left, lowerWildcard right => same left right
  | array left, array right => same left right
  | null, null => true
  | _, _ => false

/-- Equality of lists of types. -/
def sameList : List Ty → List Ty → Bool
  | [], [] => true
  | left :: lefts, right :: rights => same left right && sameList lefts rights
  | _, _ => false

end

instance : BEq Ty := ⟨same⟩

/-- The class type without arguments. -/
def raw (definition : DefinitionId) : Ty :=
  classType definition []

/-- An array type of a number of dimensions. -/
def arrayOf (element : Ty) : Nat → Ty
  | 0 => element
  | rank + 1 => array (arrayOf element rank)

/-- The shape that the virtual machine gives the type. -/
def kind : Ty → JvmKind
  | primitive kind => kind
  | classType _ _ | null => .object
  | typeVariable _ _ => .typeVariable
  | unboundedWildcard | upperWildcard _ | lowerWildcard _ => .wildcard
  | array _ => .array

/-- The kind of a type that is given by a kind alone. -/
def primitiveKind? : Ty → Option JvmKind
  | primitive kind => some kind
  | _ => none

/-- The type of primitive values of some kind; `void` is none. -/
def isPrimitive (type : Ty) : Bool :=
  type.primitiveKind?.any JvmKind.isPrimitive

/-- The type `void`. -/
def isVoid (type : Ty) : Bool :=
  type.primitiveKind? == some .void

/-- The type of truth values. -/
def isBoolean (type : Ty) : Bool :=
  type.primitiveKind? == some .boolean

/-- A primitive type of numbers. -/
def isNumeric (type : Ty) : Bool :=
  type.primitiveKind?.any JvmKind.isNumeric

/-- The type of the null literal. -/
def isNull : Ty → Bool
  | null => true
  | _ => false

/-- A type that is not given by a kind alone. -/
def isReference (type : Ty) : Bool :=
  type.primitiveKind?.isNone

/-- An array type. -/
def isArray : Ty → Bool
  | array _ => true
  | _ => false

/-- A wildcard. -/
def isWildcard : Ty → Bool
  | unboundedWildcard | upperWildcard _ | lowerWildcard _ => true
  | _ => false

/-- A type variable. -/
def isTypeVariable : Ty → Bool
  | typeVariable _ _ => true
  | _ => false

/-- The definition of a class type. -/
def definition? : Ty → Option DefinitionId
  | classType definition _ => some definition
  | _ => none

/-- The element type of an array. -/
def element? : Ty → Option Ty
  | array element => some element
  | _ => none

/-- The arguments of a class type. -/
def arguments : Ty → List Ty
  | classType _ arguments => arguments
  | _ => []

/-- The type that stands in for a wildcard or a type variable where a concrete type is needed;
`none` means the root class. Every other type stands for itself. -/
def upperBound? : Ty → Option Ty
  | upperWildcard upper => some upper
  | unboundedWildcard | lowerWildcard _ => none
  | typeVariable _ bound => bound
  | type => some type

mutual

/-- Does the type mention a type variable? Bounds that variables carry do not count. -/
def mentionsVariable : Ty → Bool
  | typeVariable _ _ => true
  | classType _ arguments => listMentionsVariable arguments
  | array element => mentionsVariable element
  | upperWildcard upper => mentionsVariable upper
  | lowerWildcard lower => mentionsVariable lower
  | unboundedWildcard | primitive _ | null => false

/-- Does a type of the list mention a type variable? -/
def listMentionsVariable : List Ty → Bool
  | [] => false
  | type :: types => mentionsVariable type || listMentionsVariable types

end

end Ty

/-- A type parameter as a type or a method declares it. -/
structure TypeParameter where
  name : String
  bound : Option Ty
  deriving Repr

namespace TypeParameter

/-- The variable that refers to the parameter. -/
def toVariable (owner : Option DefinitionId) (parameter : TypeParameter) : Ty :=
  .typeVariable ⟨parameter.name, owner⟩ parameter.bound

/-- Equality of declarations: the names and the bounds are equal. -/
def same (left right : TypeParameter) : Bool :=
  left.name == right.name && left.bound == right.bound

instance : BEq TypeParameter := ⟨same⟩

end TypeParameter

end TypedJava

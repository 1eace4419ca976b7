import TypedJava.Ty

/-! # Members

References to fields and methods as they appear where a member is used. The declaring type is the
one that the reference names, which may be a subclass of the class that declares the member. -/

namespace TypedJava

/-- What a member is, with its signature. -/
inductive Signature where
  | field (type : Ty)
  | method (parameters : List Ty) (returnType : Ty) (typeParameters : List TypeParameter)
  deriving Repr

/-- A reference to a field or a method. -/
structure Member where
  name : String
  declaringType : Ty
  signature : Signature
  deriving Repr

namespace Member

/-- A reference to a field. -/
def isField (member : Member) : Bool :=
  match member.signature with
  | .field _ => true
  | .method _ _ _ => false

/-- A reference to a method. -/
def isMethod (member : Member) : Bool :=
  !member.isField

/-- A method with the name that constructors have. -/
def isConstructor (member : Member) : Bool :=
  member.isMethod && member.name == "<init>"

/-- The type of a field. -/
def fieldType? (member : Member) : Option Ty :=
  match member.signature with
  | .field type => some type
  | .method _ _ _ => none

/-- The return type of a method. -/
def returnType? (member : Member) : Option Ty :=
  match member.signature with
  | .field _ => none
  | .method _ returnType _ => some returnType

/-- The type of a value of the member: the type of a field, the return type of a method. -/
def valueType (member : Member) : Ty :=
  match member.signature with
  | .field type => type
  | .method _ returnType _ => returnType

/-- The parameter types of a method; a field has none. -/
def parameters (member : Member) : List Ty :=
  match member.signature with
  | .field _ => []
  | .method parameters _ _ => parameters

/-- The definition of the declaring type when that is a class type. -/
def declaringDefinition? (member : Member) : Option DefinitionId :=
  member.declaringType.definition?

/-- Does the declaring type or the signature mention a type variable, or is the method generic? -/
def mentionsVariable (member : Member) : Bool :=
  member.declaringType.mentionsVariable ||
    match member.signature with
    | .field type => type.mentionsVariable
    | .method parameters returnType typeParameters =>
      !typeParameters.isEmpty || returnType.mentionsVariable ||
        parameters.any Ty.mentionsVariable

/-- Equality of references: names, declaring types and signatures are equal. -/
def same (left right : Member) : Bool :=
  left.name == right.name && left.declaringType == right.declaringType &&
    match left.signature, right.signature with
    | .field leftType, .field rightType => leftType == rightType
    | .method leftParameters leftReturn leftGenerics,
        .method rightParameters rightReturn rightGenerics =>
      leftParameters == rightParameters && leftReturn == rightReturn &&
        leftGenerics == rightGenerics
    | _, _ => false

/-- Can a declaration be what a reference points at? Both are fields, or both are methods with
equally many parameters. -/
def answers (declared wanted : Member) : Bool :=
  declared.isField == wanted.isField &&
    declared.parameters.length == wanted.parameters.length

end Member

end TypedJava

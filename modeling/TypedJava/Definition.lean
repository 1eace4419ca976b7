import TypedJava.Member

/-! # Definitions of types

What is known about a class, an interface, an enumeration or an annotation: its name, its modifiers,
its type parameters, its supertypes and its members. -/

namespace TypedJava

/-- The four sorts of definitions. -/
inductive DefinitionKind where
  | plainClass | interface | enumeration | annotationType
  deriving DecidableEq, Repr

/-- The modifiers of a definition. -/
structure Modifiers where
  isPublic : Bool
  isFinal : Bool
  isAbstract : Bool
  isStatic : Bool
  isSynthetic : Bool
  isNested : Bool
  deriving DecidableEq, Repr

namespace Modifiers

/-- Reads the modifiers from the low six bits of a number. -/
def ofBits (bits : Nat) : Modifiers where
  isPublic := bits.testBit 0
  isFinal := bits.testBit 1
  isAbstract := bits.testBit 2
  isStatic := bits.testBit 3
  isSynthetic := bits.testBit 4
  isNested := bits.testBit 5

/-- The number whose low six bits are the modifiers. -/
def toBits (modifiers : Modifiers) : Nat :=
  modifiers.isPublic.toNat + 2 * modifiers.isFinal.toNat + 4 * modifiers.isAbstract.toNat +
    8 * modifiers.isStatic.toNat + 16 * modifiers.isSynthetic.toNat + 32 * modifiers.isNested.toNat

/-- The modifiers that one of two sets has. -/
def union (left right : Modifiers) : Modifiers where
  isPublic := left.isPublic || right.isPublic
  isFinal := left.isFinal || right.isFinal
  isAbstract := left.isAbstract || right.isAbstract
  isStatic := left.isStatic || right.isStatic
  isSynthetic := left.isSynthetic || right.isSynthetic
  isNested := left.isNested || right.isNested

/-- The modifiers of a plain definition. -/
def publicOnly : Modifiers := ofBits 1

end Modifiers

/-- A definition. The members are kept by name in the order in which their names came up, and the
members of one name in the order in which they were added. -/
structure Definition where
  /-- The name with slashes between packages and dollar signs before nested classes. -/
  internalName : String
  kind : DefinitionKind
  modifiers : Modifiers
  parameters : List TypeParameter
  /-- The superclass; the root class and the interfaces have none. -/
  base : Option Ty
  interfaces : List Ty
  members : List (String × List Member)
  deriving Repr

namespace Definition

/-- A public definition of a kind without supertypes and members. -/
def ofKind (internalName : String) (kind : DefinitionKind) : Definition where
  internalName := internalName
  kind := kind
  modifiers := .publicOnly
  parameters := []
  base := none
  interfaces := []
  members := []

/-- The definition with more modifiers. -/
def addModifiers (definition : Definition) (modifiers : Modifiers) : Definition :=
  { definition with modifiers := definition.modifiers.union modifiers }

/-- A class definition. -/
def ofClass (internalName : String) : Definition :=
  ofKind internalName .plainClass

/-- An interface definition; interfaces are abstract. -/
def ofInterface (internalName : String) : Definition :=
  (ofKind internalName .interface).addModifiers (.ofBits 4)

/-- Adds a member to the members of its name, which come last if the name is new. -/
def insertMember (member : Member) : List (String × List Member) → List (String × List Member)
  | [] => [(member.name, [member])]
  | (name, members) :: rest =>
    if name = member.name then (name, members ++ [member]) :: rest
    else (name, members) :: insertMember member rest

/-- The definition with one member more. -/
def withMember (definition : Definition) (member : Member) : Definition :=
  { definition with members := insertMember member definition.members }

/-- The members of a name, in the order in which they were added. -/
def membersNamed (definition : Definition) (name : String) : List Member :=
  (definition.members.lookup name).getD []

/-- The name without the package and the enclosing classes. -/
def simpleName (definition : Definition) : String :=
  String.ofList
    (definition.internalName.toList.reverse.takeWhile fun character =>
      character ≠ '/' ∧ character ≠ '$').reverse

/-- The package with dots, empty for the default package. -/
def packageName (definition : Definition) : String :=
  String.ofList
    ((definition.internalName.toList.reverse.dropWhile (· ≠ '/')).drop 1 |>.reverse.map
      fun character => if character = '/' then '.' else character)

/-- The whole name with dots. -/
def fullName (definition : Definition) : String :=
  String.ofList
    (definition.internalName.toList.map fun character =>
      if character = '/' ∨ character = '$' then '.' else character)

/-- An interface or an annotation. -/
def isInterface (definition : Definition) : Bool :=
  definition.kind == .interface || definition.kind == .annotationType

/-- A definition without subclasses. -/
def isFinal (definition : Definition) : Bool :=
  definition.modifiers.isFinal || definition.kind == .enumeration

/-- A definition with type parameters. -/
def isGeneric (definition : Definition) : Bool :=
  !definition.parameters.isEmpty

/-- The type variables that the definition declares, in order. -/
def ownVariables (definition : Definition) (owner : DefinitionId) : List Ty :=
  definition.parameters.map (·.toVariable (some owner))

/-- The type of the definition applied to its own type variables. -/
def ownType (definition : Definition) (owner : DefinitionId) : Ty :=
  .classType owner (definition.ownVariables owner)

end Definition

end TypedJava

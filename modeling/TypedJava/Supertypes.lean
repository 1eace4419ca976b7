import TypedJava.Ty.Substitution

/-! # Supertypes

The types directly above a type, and the view of a type as an instance of a class above it. A
catalog may hold inheritance cycles, so a walk up the hierarchy stops after a fixed number of
steps. -/

namespace TypedJava

/-- The number of steps that a walk up a hierarchy may take. -/
def supertypeLimit : Nat := 64

namespace Definition

/-- The declared supertypes, superclass first. A definition without a superclass derives from the
root class. -/
def supertypes (definition : Definition) (object : Ty) : List Ty :=
  definition.base.getD object :: definition.interfaces

end Definition

namespace Catalog

/-- The types directly above a class type, with the arguments of the class put in. A raw use of a
generic class has erased supertypes. -/
def classSupertypes (catalog : Catalog) (id : DefinitionId) (arguments : List Ty) : List Ty :=
  if id = catalog.core.object then []
  else
    match catalog.definition? id with
    | none => []
    | some definition =>
      let declared := definition.supertypes catalog.objectType
      if !definition.isGeneric then declared
      else if arguments.isEmpty then declared.map (Ty.erase catalog)
      else
        match Substitution.ofClass? catalog id arguments with
        | some substitution => declared.map (Ty.substitute substitution)
        | none => declared

/-- The types directly above a type. -/
def immediateSupertypes (catalog : Catalog) : Ty → List Ty
  | .classType id arguments => catalog.classSupertypes id arguments
  | .typeVariable id bound => [catalog.ceiling (.typeVariable id bound)]
  | .unboundedWildcard => [catalog.ceiling .unboundedWildcard]
  | .upperWildcard upper => [catalog.ceiling (.upperWildcard upper)]
  | .lowerWildcard lower => [catalog.ceiling (.lowerWildcard lower)]
  | .array _ =>
    [catalog.objectType, .raw catalog.core.cloneable, .raw catalog.core.serializable]
  | .primitive _ | .null => []

/-- The classes above every array type. -/
def isAboveArrays (catalog : Catalog) (id : DefinitionId) : Bool :=
  id == catalog.core.object || id == catalog.core.cloneable ||
    id == catalog.core.serializable

/-- The supertype of a type that is an instance of a class, found with fewer steps than the fuel.
The first supertype that leads to the class decides. -/
def viewWithin (catalog : Catalog) (target : DefinitionId) : (fuel : Nat) → Ty → Option Ty
  | 0, _ => none
  | fuel + 1, .classType id arguments =>
    if id = target then some (.classType id arguments)
    else
      (catalog.classSupertypes id arguments).findSome? (viewWithin catalog target fuel)
  | fuel + 1, .typeVariable id bound =>
    viewWithin catalog target fuel (catalog.ceiling (.typeVariable id bound))
  | fuel + 1, .unboundedWildcard =>
    viewWithin catalog target fuel (catalog.ceiling .unboundedWildcard)
  | fuel + 1, .upperWildcard upper =>
    viewWithin catalog target fuel (catalog.ceiling (.upperWildcard upper))
  | fuel + 1, .lowerWildcard lower =>
    viewWithin catalog target fuel (catalog.ceiling (.lowerWildcard lower))
  | _ + 1, .array _ => if catalog.isAboveArrays target then some (.raw target) else none
  | _ + 1, .primitive _ => none
  | _ + 1, .null => none

/-- The supertype of a type that is an instance of a class, if the type derives from the class. -/
def viewAs? (catalog : Catalog) (type : Ty) (target : DefinitionId) : Option Ty :=
  catalog.viewWithin target (supertypeLimit + 1) type

end Catalog

end TypedJava

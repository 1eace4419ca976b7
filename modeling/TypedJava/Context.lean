import TypedJava.Catalog
import TypedJava.Settings

/-! # Contexts

What the passes over one method body know besides its tree. -/

namespace TypedJava

/-- How types are written as syntax. -/
structure TypeSyntaxOptions where
  /-- Write wildcards as type arguments; otherwise a wildcard with an upper bound becomes its bound
  and the others become the root class. -/
  allowWildcards : Bool
  /-- Write type arguments at all; otherwise generic classes are written raw. -/
  includeArguments : Bool
  deriving DecidableEq, Repr

/-- Types are written in full. -/
def TypeSyntaxOptions.standard : TypeSyntaxOptions := ⟨true, true⟩

/-- What is known about the surroundings of a method body. The builder of type syntax, which could be
given a catalog of its own, uses that of the context. -/
structure Context where
  catalog : Catalog
  settings : Settings
  /-- How the types of new casts are written; without it no rule may write a type. -/
  typeSyntax : Option TypeSyntaxOptions
  /-- The class of the method, which is the type of `this`. -/
  currentType : Option Ty
  /-- The method, whose return type is the target of its return statements. -/
  currentMethod : Option Member

namespace Context

/-- The context of a catalog and settings, outside of any class and method. -/
def ofSettings (catalog : Catalog) (settings : Settings) : Context where
  catalog := catalog
  settings := settings
  typeSyntax := some { TypeSyntaxOptions.standard with allowWildcards := settings.allowWildcards }
  currentType := none
  currentMethod := none

/-- The context of a catalog with the standard settings. -/
def ofCatalog (catalog : Catalog) : Context :=
  ofSettings catalog .standard

end Context

end TypedJava

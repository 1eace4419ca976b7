import TypedJava.Catalog

/-! # Substitution and erasure

Substitution replaces type variables by types; erasure drops arguments and replaces variables and
wildcards by their bounds. Neither looks into the bounds that remaining variables carry. -/

namespace TypedJava

/-- A finite map from type variables to types. -/
structure Substitution where
  bindings : List (VarId × Ty)
  deriving Repr

namespace Substitution

/-- The map without bindings. -/
def empty : Substitution := ⟨[]⟩

/-- The type that a variable is bound to. -/
def get? (substitution : Substitution) (id : VarId) : Option Ty :=
  substitution.bindings.lookup id

/-- Binds a variable, forgetting what it was bound to before. -/
def insert (substitution : Substitution) (id : VarId) (type : Ty) : Substitution :=
  ⟨(id, type) :: substitution.bindings.filter fun (bound, _) => bound ≠ id⟩

/-- The number of bound variables. -/
def size (substitution : Substitution) : Nat :=
  substitution.bindings.length

/-- Binds the parameters of a definition to types, one after the other. -/
def bindParameters (owner : DefinitionId) (parameters : List TypeParameter) (types : List Ty) :
    Substitution :=
  (parameters.zip types).foldl
    (fun substitution (parameter, type) => substitution.insert ⟨parameter.name, some owner⟩ type)
    empty

/-- The map from the parameters of a class to the arguments of a class type. Raw types and types
with a wrong number of arguments have none. -/
def ofClass? (catalog : Catalog) (definition : DefinitionId) (arguments : List Ty) :
    Option Substitution :=
  if arguments.isEmpty then none
  else
    match catalog.definition? definition with
    | none => none
    | some found =>
      if found.parameters.length = arguments.length then
        some (bindParameters definition found.parameters arguments)
      else none

end Substitution

namespace Ty

mutual

/-- Replaces every variable that the map binds. -/
def substitute (substitution : Substitution) : Ty → Ty
  | typeVariable id bound => (substitution.get? id).getD (typeVariable id bound)
  | classType definition arguments =>
    classType definition (substituteList substitution arguments)
  | array element => array (substitute substitution element)
  | upperWildcard upper => upperWildcard (substitute substitution upper)
  | lowerWildcard lower => lowerWildcard (substitute substitution lower)
  | unboundedWildcard => unboundedWildcard
  | primitive kind => primitive kind
  | null => null

/-- Replaces the bound variables in every type of a list. -/
def substituteList (substitution : Substitution) : List Ty → List Ty
  | [] => []
  | type :: types => substitute substitution type :: substituteList substitution types

end

/-- The type that is left at run time: no arguments, and the erased bound in place of a variable or
a wildcard. -/
def erase (catalog : Catalog) : Ty → Ty
  | classType definition _ => raw definition
  | array element => array (erase catalog element)
  | typeVariable _ (some bound) => erase catalog bound
  | typeVariable _ none => catalog.objectType
  | upperWildcard upper => erase catalog upper
  | unboundedWildcard | lowerWildcard _ => catalog.objectType
  | primitive kind => primitive kind
  | null => null

end Ty

end TypedJava

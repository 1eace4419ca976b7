import TypedJava.Catalog

/-! # The text of a type

Types as they are written in source text, with simple or with full class names. -/

namespace TypedJava

namespace Catalog

/-- The simple name of a class; a class that is not registered shows its identifier. -/
def simpleName (catalog : Catalog) (id : DefinitionId) : String :=
  match catalog.definition? id with
  | some definition => definition.simpleName
  | none => "<unknown " ++ id.text ++ ">"

/-- The full name of a class; a class that is not registered shows its identifier. -/
def fullName (catalog : Catalog) (id : DefinitionId) : String :=
  match catalog.definition? id with
  | some definition => definition.fullName
  | none => "<unknown " ++ id.text ++ ">"

end Catalog

namespace Ty

mutual

/-- The text of a type, with class names written by a given function. -/
def text (className : DefinitionId → String) : Ty → String
  | primitive kind => kind.keyword?.getD "?"
  | null => "null"
  | typeVariable id _ => id.name
  | array element => text className element ++ "[]"
  | unboundedWildcard => "?"
  | upperWildcard upper => "? extends " ++ text className upper
  | lowerWildcard lower => "? super " ++ text className lower
  | classType definition [] => className definition
  | classType definition (argument :: arguments) =>
    className definition ++ "<" ++ text className argument ++ restText className arguments ++ ">"

/-- The texts of the types after the first in a list. -/
def restText (className : DefinitionId → String) : List Ty → String
  | [] => ""
  | type :: types => ", " ++ text className type ++ restText className types

end

end Ty

end TypedJava

import TypedJava.Supertypes

/-! # Subtyping

The subtype relation over classes, arrays, type variables and wildcards. A raw type is compatible
with every use of its class. A question that needs too many steps is answered with no. -/

namespace TypedJava

namespace Catalog

/-- Does a formal type argument contain an actual one? The subtype relation is a parameter. -/
def containsArgument (catalog : Catalog) (isSubtype : Ty → Ty → Bool) (formal actual : Ty) :
    Bool :=
  formal == actual ||
    match formal with
    | .unboundedWildcard => true
    | .upperWildcard upper =>
      match actual with
      | .upperWildcard actualUpper => isSubtype actualUpper upper
      | .unboundedWildcard => isSubtype catalog.objectType upper
      | .lowerWildcard _ => isSubtype catalog.objectType upper
      | _ => isSubtype actual upper
    | .lowerWildcard lower =>
      match actual with
      | .lowerWildcard actualLower => isSubtype lower actualLower
      | .unboundedWildcard => false
      | .upperWildcard _ => false
      | _ => isSubtype lower actual
    | _ => false

/-- Is the use of a class with some arguments, seen as its view from below, within another use of
the class? Raw uses are within every use. -/
def containsArguments (catalog : Catalog) (isSubtype : Ty → Ty → Bool) (formals actuals : List Ty) :
    Bool :=
  formals.isEmpty || actuals.isEmpty ||
    (actuals.length == formals.length &&
      (formals.zip actuals).all fun (formal, actual) =>
        catalog.containsArgument isSubtype formal actual)

/-- Is a type a subtype of another, as far as fewer steps than the fuel can tell? -/
def isSubtypeWithin (catalog : Catalog) : (fuel : Nat) → Ty → Ty → Bool
  | 0, _, _ => false
  | fuel + 1, type, base =>
    type == base ||
      match type, base with
      | .primitive _, _ => false
      | _, .primitive _ => false
      | .null, _ => true
      | _, .null => false
      | _, .unboundedWildcard => true
      | _, .upperWildcard upper => isSubtypeWithin catalog fuel type upper
      | _, .lowerWildcard lower => isSubtypeWithin catalog fuel lower type
      | .typeVariable _ _, _ => isSubtypeWithin catalog fuel (catalog.ceiling type) base
      | .unboundedWildcard, _ => isSubtypeWithin catalog fuel (catalog.ceiling type) base
      | .upperWildcard _, _ => isSubtypeWithin catalog fuel (catalog.ceiling type) base
      | .lowerWildcard _, _ => isSubtypeWithin catalog fuel (catalog.ceiling type) base
      | _, .typeVariable _ _ => false
      | .array element, .array baseElement =>
        if element.isPrimitive || baseElement.isPrimitive then element == baseElement
        else isSubtypeWithin catalog fuel element baseElement
      | .array _, .classType id _ => catalog.isAboveArrays id
      | .classType _ _, .array _ => false
      | .classType _ _, .classType id formals =>
        id == catalog.core.object ||
          match catalog.viewWithin id fuel type with
          | some (.classType _ actuals) =>
            catalog.containsArguments (isSubtypeWithin catalog fuel) formals actuals
          | _ => false

/-- Is a type a subtype of another? -/
def isSubtype (catalog : Catalog) (type base : Ty) : Bool :=
  catalog.isSubtypeWithin (supertypeLimit + 1) type base

end Catalog

end TypedJava

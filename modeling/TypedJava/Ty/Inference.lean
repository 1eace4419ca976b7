import TypedJava.Subtyping

/-! # Inference of type arguments

The use of a subclass that lies below a given class type. The arguments of the subclass are read
off by laying its view of the class beside the given type. -/

namespace TypedJava

namespace Substitution

mutual

/-- Binds the variables of an owner in a pattern type so that the pattern becomes the given type.
Only contradicting bindings are refused: where the shapes differ nothing is learnt. -/
def infer? (owner : DefinitionId) : Ty → Ty → Substitution → Option Substitution
  | .typeVariable id _, type, known =>
    if id.owner = some owner then
      match known.get? id with
      | some bound => if bound == type then some known else none
      | none => some (known.insert id type)
    else some known
  | .classType pattern patternArguments, .classType definition arguments, known =>
    if pattern = definition ∧ !patternArguments.isEmpty ∧ !arguments.isEmpty then
      inferList? owner patternArguments arguments known
    else some known
  | .array pattern, .array element, known => infer? owner pattern element known
  | .upperWildcard pattern, .upperWildcard upper, known => infer? owner pattern upper known
  | .lowerWildcard pattern, .lowerWildcard lower, known => infer? owner pattern lower known
  | _, _, known => some known

/-- Lays two lists of types side by side, as far as both go. -/
def inferList? (owner : DefinitionId) : List Ty → List Ty → Substitution → Option Substitution
  | pattern :: patterns, type :: types, known =>
    match infer? owner pattern type known with
    | some known => inferList? owner patterns types known
    | none => none
  | _, _, known => some known

end

end Substitution

namespace Catalog

/-- The use of a generic definition whose view as a class is compared with a use of that class. An
open parameter becomes an unbounded wildcard. -/
def instantiateBelow? (owner : DefinitionId) (definition : Definition) (view arguments : List Ty) :
    Option Ty :=
  let inferred :=
    if view.isEmpty || arguments.isEmpty then some Substitution.empty
    else Substitution.inferList? owner view arguments .empty
  inferred.map fun known =>
    .classType owner
      (definition.parameters.map fun parameter =>
        (known.get? ⟨parameter.name, some owner⟩).getD .unboundedWildcard)

/-- The use of a definition that is a subtype of a class type. A raw use of a generic class leads
to the raw definition. There is none if the inferred arguments contradict each other or do not
give a subtype. -/
def refineTo? (catalog : Catalog) (type : Ty) (target : DefinitionId) : Option Ty :=
  match type with
  | .classType id arguments =>
    if id = target then some type
    else
      match catalog.definition? target with
      | none => none
      | some definition =>
        let candidate :=
          if !definition.isGeneric then some (Ty.raw target)
          else
            match catalog.viewAs? (definition.ownType target) id with
            | some (.classType _ view) =>
              if arguments.isEmpty && (catalog.definition? id).any Definition.isGeneric then
                some (Ty.raw target)
              else instantiateBelow? target definition view arguments
            | _ => none
        candidate.filter fun candidate => catalog.isSubtype candidate type
  | _ => none

end Catalog

end TypedJava

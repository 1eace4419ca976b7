import TypedJava.Supertypes

/-! # Finding members

The declaration that a member reference points at, and the type that a member has when it is
reached through a receiver. -/

namespace TypedJava

namespace Catalog

/-- The outcome of looking through the types at one distance. -/
inductive LevelSearch where
  | found (member : Member)
  | continue (seen : List DefinitionId) (above : List Ty)

/-- Looks through the types at one distance. A definition that was seen before is passed over, and
so is what is no class type. -/
def searchLevel (catalog : Catalog) (wanted : Member) :
    List DefinitionId → List Ty → List Ty → LevelSearch
  | seen, above, [] => .continue seen above
  | seen, above, type :: types =>
    match type with
    | .classType id _ =>
      if seen.contains id then searchLevel catalog wanted seen above types
      else
        match catalog.definition? id with
        | none => searchLevel catalog wanted (id :: seen) above types
        | some definition =>
          match (definition.membersNamed wanted.name).find? (·.answers wanted) with
          | some member => .found member
          | none =>
            searchLevel catalog wanted (id :: seen)
              (above ++ catalog.immediateSupertypes type) types
    | _ => searchLevel catalog wanted seen above types

/-- Looks through the types at one distance after the other, at most as many as the fuel. -/
def searchLevels (catalog : Catalog) (wanted : Member) :
    (fuel : Nat) → List DefinitionId → List Ty → Option Member
  | 0, _, _ => none
  | fuel + 1, seen, level =>
    match searchLevel catalog wanted seen [] level with
    | .found member => some member
    | .continue seen above =>
      if above.isEmpty then none else searchLevels catalog wanted fuel seen above

/-- The declaration that a member reference points at: the nearest one above the type that the
reference names. Fields match by name, methods by name and number of parameters. -/
def findMember? (catalog : Catalog) (wanted : Member) : Option Member :=
  searchLevels catalog wanted (supertypeLimit + 1) [] [wanted.declaringType]

/-- The type that a member of a declaring definition has when it is reached through a receiver. The
parameters of the definition are replaced as the receiver's view of it says; a raw view erases. A
receiver that does not derive from the definition changes nothing. -/
def instantiateMember (catalog : Catalog) (memberType : Ty) (declaring : DefinitionId)
    (receiver : Ty) : Ty :=
  match catalog.viewAs? receiver declaring with
  | some (.classType id arguments) =>
    match Substitution.ofClass? catalog id arguments with
    | some substitution => memberType.substitute substitution
    | none =>
      if arguments.isEmpty && (catalog.definition? declaring).any Definition.isGeneric then
        memberType.erase catalog
      else memberType
  | _ => memberType

end Catalog

end TypedJava

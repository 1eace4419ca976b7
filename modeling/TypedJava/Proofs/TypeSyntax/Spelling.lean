import TypedJava.TypeSyntax

/-! # The syntax of a type

The tree that is written for a type, with a number of array dimensions around it. -/

namespace TypedJava

/-- A node of type syntax with the type that it stands for, under a number of array dimensions. -/
def Tree.finished (type : Ty) (rank : Nat) (payload : Payload) (slots : List (Slot Tree)) : Tree :=
  if rank = 0 then .node payload ⟨none, some type⟩ slots
  else
    .node (.composedType rank) ⟨none, some (type.arrayOf rank)⟩
      [⟨.type, [.node payload ⟨none, some type⟩ slots]⟩]

namespace Ty

mutual

/-- The tree for a type with a number of array dimensions around it. -/
def spelledWithin (catalog : Catalog) : Ty → (rank : Nat) → Tree
  | array element, rank => spelledWithin catalog element (rank + 1)
  | primitive kind, rank =>
    .finished (primitive kind) rank (.simpleType (kind.keyword?.getD "void")) [⟨.typeArgument, []⟩]
  | classType definition arguments, rank =>
    .finished (classType definition arguments) rank (.simpleType (catalog.simpleName definition))
      [⟨.typeArgument, spelledAll catalog arguments⟩]
  | typeVariable id bound, rank =>
    .finished (typeVariable id bound) rank (.simpleType id.name) [⟨.typeArgument, []⟩]
  | unboundedWildcard, rank =>
    .finished unboundedWildcard rank (.wildcardType .unbounded) [⟨.type, []⟩]
  | upperWildcard upper, rank =>
    .finished (upperWildcard upper) rank (.wildcardType .upper)
      [⟨.type, [spelledWithin catalog upper 0]⟩]
  | lowerWildcard lower, rank =>
    .finished (lowerWildcard lower) rank (.wildcardType .lower)
      [⟨.type, [spelledWithin catalog lower 0]⟩]
  | null, rank => .finished null rank (.simpleType "Object") [⟨.typeArgument, []⟩]

/-- The trees for several types. -/
def spelledAll (catalog : Catalog) : List Ty → List Tree
  | [] => []
  | type :: types => spelledWithin catalog type 0 :: spelledAll catalog types

end

theorem arrayOf_array (element : Ty) (rank : Nat) :
    (array element).arrayOf rank = element.arrayOf (rank + 1) := by
  induction rank with
  | zero =>
      rfl
  | succ rank inductionHypothesis =>
      rw [arrayOf, inductionHypothesis]
      rfl

end Ty

end TypedJava

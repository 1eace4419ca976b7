import TypedJava.Context
import TypedJava.Store.Build
import TypedJava.Ty.Text

/-! # Types as syntax

Writing a type as nodes. The type is first brought into the form that may be written, and every
node is annotated with the type that it stands for, so that a written type reads back without
looking up any name. -/

namespace TypedJava

namespace Ty

mutual

/-- The type that is written for a type. Wildcards only make sense as type arguments: elsewhere, or
where the options refuse them, a wildcard gives way to its upper bound or to the root class. -/
def writable (catalog : Catalog) (options : TypeSyntaxOptions) : (topLevel : Bool) → Ty → Ty
  | _, classType definition arguments =>
    if options.includeArguments then
      classType definition (writableList catalog options arguments)
    else raw definition
  | _, array element => array (writable catalog options false element)
  | topLevel, unboundedWildcard =>
    if options.allowWildcards && !topLevel then unboundedWildcard else catalog.objectType
  | topLevel, upperWildcard upper =>
    if options.allowWildcards && !topLevel then
      upperWildcard (writable catalog options false upper)
    else writable catalog options topLevel upper
  | topLevel, lowerWildcard lower =>
    if options.allowWildcards && !topLevel then
      lowerWildcard (writable catalog options false lower)
    else catalog.objectType
  | _, null => catalog.objectType
  | _, primitive kind => primitive kind
  | _, typeVariable id bound => typeVariable id bound

/-- The type arguments that are written for type arguments. -/
def writableList (catalog : Catalog) (options : TypeSyntaxOptions) : List Ty → List Ty
  | [] => []
  | type :: types => writable catalog options false type :: writableList catalog options types

end

end Ty

namespace Edit

/-- Annotates the node of an element type and puts as many array dimensions around it as are asked
for. -/
def finishType (type : Ty) (rank : Nat) (node : NodeId) : Edit NodeId := do
  setType (some node) type
  if rank = 0 then return node
  else
    let composed ← mkArrayType (some node) rank
    setType (some composed) (type.arrayOf rank)
    return composed

mutual

/-- Writes a type with a number of array dimensions around it. -/
def mkTypeWithin (catalog : Catalog) : Ty → (rank : Nat) → Edit NodeId
  | .array element, rank => mkTypeWithin catalog element (rank + 1)
  | .primitive kind, rank => do
    finishType (.primitive kind) rank (← mkNamedType (kind.keyword?.getD "void") [])
  | .classType definition arguments, rank => do
    let written ← mkTypes catalog arguments
    finishType (.classType definition arguments) rank
      (← mkNamedType (catalog.simpleName definition) written)
  | .typeVariable id bound, rank => do
    finishType (.typeVariable id bound) rank (← mkNamedType id.name [])
  | .unboundedWildcard, rank => do
    finishType .unboundedWildcard rank (← mkWildcard .unbounded none)
  | .upperWildcard upper, rank => do
    let written ← mkTypeWithin catalog upper 0
    finishType (.upperWildcard upper) rank (← mkWildcard .upper (some written))
  | .lowerWildcard lower, rank => do
    let written ← mkTypeWithin catalog lower 0
    finishType (.lowerWildcard lower) rank (← mkWildcard .lower (some written))
  | .null, rank => do
    finishType .null rank (← mkNamedType "Object" [])

/-- Writes type arguments. -/
def mkTypes (catalog : Catalog) : List Ty → Edit (List NodeRef)
  | [] => return []
  | type :: types => do
    let first ← mkTypeWithin catalog type 0
    let rest ← mkTypes catalog types
    return some first :: rest

end

/-- Writes a type under the given options. The new node has no parent. -/
def mkType (catalog : Catalog) (options : TypeSyntaxOptions) (type : Ty) : Edit NodeId :=
  mkTypeWithin catalog (type.writable catalog options true) 0

end Edit

end TypedJava

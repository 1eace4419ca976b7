import TypedJava.Subtyping

/-! # Conversions

What it takes to turn a value of one type into a value of another. Between primitive kinds a value
widens or narrows, between a primitive kind and its box class it is boxed or unboxed, and between
reference types it is cast up or down. -/

namespace TypedJava

/-- How a value of one type becomes a value of another. -/
inductive Conversion where
  /-- Not at all, not even with a cast. -/
  | none
  /-- The types are the same. -/
  | identity
  /-- Without any cast. -/
  | implicit
  /-- With a cast. -/
  | explicit
  /-- With a cast that also unboxes. -/
  | explicitToUnboxed
  deriving DecidableEq, Repr

namespace Conversion

/-- The value converts without a cast. -/
def isImplicit (conversion : Conversion) : Bool :=
  conversion == identity || conversion == implicit

/-- The value needs a cast. -/
def isExplicit (conversion : Conversion) : Bool :=
  conversion == explicit || conversion == explicitToUnboxed

/-- The conversion between two kinds of primitive values. -/
def ofKinds (target source : JvmKind) : Conversion :=
  if !target.isPrimitive || !source.isPrimitive then none
  else if target = source then identity
  else if target = .boolean || source = .boolean then none
  else if source.widensTo target then implicit
  else explicit

end Conversion

namespace Catalog

/-- The class that boxes values of a kind. -/
def boxOf? (catalog : Catalog) (kind : JvmKind) : Option Ty :=
  (catalog.core.box? kind).map Ty.raw

theorem exists_boxOf?
    (catalog : Catalog) {kind : JvmKind} (isPrimitive : kind.isPrimitive = true) :
    ∃ box, catalog.boxOf? kind = some (.raw box) := by
  obtain ⟨box, isBox⟩ := catalog.core.exists_box? isPrimitive
  exact ⟨box, Option.map_eq_some_iff.mpr ⟨box, isBox, rfl⟩⟩

/-- The kind of values that a box class holds. -/
def unboxedKind? (catalog : Catalog) (type : Ty) : Option JvmKind :=
  type.definition?.bind catalog.core.boxedKind?

/-- Is the type a box class? -/
def isBoxed (catalog : Catalog) (type : Ty) : Bool :=
  (catalog.unboxedKind? type).isSome

/-- The kind of the values of a primitive type or of a box class. -/
def underlyingKind? (catalog : Catalog) (type : Ty) : Option JvmKind :=
  match type with
  | .primitive kind => if kind.isPrimitive then some kind else none
  | _ => catalog.unboxedKind? type

/-- The conversion from a reference type to a primitive kind. What is not a box class may still be
cast to the box class first. -/
def unboxing (catalog : Catalog) (target : JvmKind) (source : Ty) : Conversion :=
  if !target.isPrimitive then .none
  else
    match catalog.unboxedKind? source with
    | some unboxed =>
      match Conversion.ofKinds target unboxed with
      | .identity | .implicit => .implicit
      | .explicit | .explicitToUnboxed => .explicitToUnboxed
      | .none => .none
    | none =>
      match catalog.boxOf? target with
      | some boxed =>
        if catalog.isSubtype boxed (source.erase catalog) then .explicitToUnboxed else .none
      | none => .none

/-- The conversion from a primitive kind to a reference type. -/
def boxing (catalog : Catalog) (target : Ty) (source : JvmKind) : Conversion :=
  match catalog.boxOf? source with
  | none => .none
  | some boxed =>
    if catalog.isSubtype boxed target then .implicit
    else
      match catalog.unboxedKind? target with
      | some unboxed =>
        match Conversion.ofKinds unboxed source with
        | .implicit | .explicit => .explicit
        | .none | .identity | .explicitToUnboxed => .none
      | none => .none

/-- Can a value of one erased class be an instance of the other because one of them is an interface
and the other may have subclasses? -/
def mayImplement (catalog : Catalog) (target source : Ty) : Bool :=
  match target.definition?.bind catalog.definition?,
      source.definition?.bind catalog.definition? with
  | some target, some source =>
    (target.isInterface && !source.isFinal) || (source.isInterface && !target.isFinal)
  | _, _ => false

/-- The conversion between two reference types of which one at most is an array. -/
def betweenClasses (catalog : Catalog) (target source : Ty) : Conversion :=
  if target.definition? == some catalog.core.object then .implicit
  else if catalog.isSubtype source target then .implicit
  else if catalog.isSubtype target source then .explicit
  else
    let erasedTarget := target.erase catalog
    let erasedSource := source.erase catalog
    if catalog.isSubtype erasedTarget erasedSource || catalog.isSubtype erasedSource erasedTarget
    then .explicit
    else if catalog.mayImplement erasedTarget erasedSource then .explicit
    else .none

/-- The conversion between two reference types. Arrays convert as their elements do. -/
def betweenReferences (catalog : Catalog) : Ty → Ty → Conversion
  | .array target, .array source =>
    if catalog.isSubtype (.array source) (.array target) then .implicit
    else if target.isPrimitive || source.isPrimitive then .none
    else
      match betweenReferences catalog target source with
      | .none => .none
      | .identity | .implicit => .implicit
      | .explicit | .explicitToUnboxed => .explicit
  | target, source => catalog.betweenClasses target source

/-- What it takes to turn a value of the source type into a value of the target type. -/
def conversion (catalog : Catalog) (target source : Ty) : Conversion :=
  if target == source then .identity
  else
    match target, source with
    | _, .null => if target.isReference then .implicit else .none
    | .primitive target, .primitive source => Conversion.ofKinds target source
    | .primitive target, _ => catalog.unboxing target source
    | _, .primitive source => catalog.boxing target source
    | _, _ => catalog.betweenReferences target source

end Catalog

end TypedJava

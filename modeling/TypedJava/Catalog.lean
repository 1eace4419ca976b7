import TypedJava.Definition

/-! # The catalog of definitions

Definitions are registered one after the other and get the numbers of a counter that starts at one.
A name leads to the definition that was registered last under it. Some definitions of the language
itself play a part in the typing rules and are known by their identifiers. -/

namespace TypedJava

/-- A table has an entry for every key that it lists. -/
theorem isSome_lookup_of_mem_keys
    {κ α : Type} [BEq κ] [LawfulBEq κ] {entries : List (κ × α)} {key : κ}
    (listed : key ∈ entries.map (·.1)) :
    (entries.lookup key).isSome = true := by
  obtain ⟨entry, member, rfl⟩ := List.mem_map.mp listed
  exact List.lookup_isSome_iff.mpr ⟨entry, member, BEq.rfl⟩

/-- The definitions that the typing rules refer to. -/
structure CoreClasses where
  object : DefinitionId
  string : DefinitionId
  number : DefinitionId
  comparable : DefinitionId
  serializable : DefinitionId
  cloneable : DefinitionId
  /-- The box classes, one for each primitive kind and in the order of the kinds. -/
  boxIds : List DefinitionId
  boxIds_length : boxIds.length = JvmKind.primitives.length
  deriving Repr

namespace CoreClasses

/-- Each primitive kind with its box class. -/
def boxes (core : CoreClasses) : List (JvmKind × DefinitionId) :=
  JvmKind.primitives.zip core.boxIds

/-- The class that boxes a kind of values. -/
def box? (core : CoreClasses) (kind : JvmKind) : Option DefinitionId :=
  core.boxes.lookup kind

/-- Every kind of primitive values has a box class. -/
theorem exists_box?
    (core : CoreClasses) {kind : JvmKind} (isPrimitive : kind.isPrimitive = true) :
    ∃ box, core.box? kind = some box := by
  have kinds : core.boxes.map (·.1) = JvmKind.primitives :=
    List.map_fst_zip (Nat.le_of_eq core.boxIds_length.symm)
  have listed : kind ∈ core.boxes.map (·.1) := by
    rw [kinds]
    exact JvmKind.mem_primitives_iff.mpr isPrimitive
  exact Option.isSome_iff_exists.mp (isSome_lookup_of_mem_keys listed)

/-- The kind of values that a class boxes. -/
def boxedKind? (core : CoreClasses) (definition : DefinitionId) : Option JvmKind :=
  (core.boxes.find? fun (_, box) => box == definition).map (·.1)

/-- The identifiers that the definitions of the language have in every catalog. -/
def standard : CoreClasses where
  object := ⟨1⟩
  serializable := ⟨2⟩
  cloneable := ⟨3⟩
  comparable := ⟨4⟩
  number := ⟨5⟩
  string := ⟨6⟩
  boxIds := (List.range JvmKind.primitives.length).map fun index => ⟨7 + index⟩
  boxIds_length := by simp

end CoreClasses

/-- A catalog of definitions. It finds definitions by their identifiers and identifiers by names;
both are listed with the latest registration first. -/
structure Catalog where
  /-- The identifier that the next registration gets. -/
  nextId : DefinitionId
  definitions : List (DefinitionId × Definition)
  names : List (String × DefinitionId)
  core : CoreClasses

namespace Catalog

/-- The definition of an identifier. -/
def definition? (catalog : Catalog) (id : DefinitionId) : Option Definition :=
  catalog.definitions.lookup id

/-- The identifiers of the registered definitions. -/
def ids (catalog : Catalog) : List DefinitionId :=
  catalog.definitions.map (·.1)

/-- What the catalog finds is listed in it. -/
theorem mem_definitions_of_definition?
    {catalog : Catalog} {id : DefinitionId} {definition : Definition}
    (found : catalog.definition? id = some definition) :
    (id, definition) ∈ catalog.definitions := by
  obtain ⟨before, after, split, -⟩ := List.lookup_eq_some_iff.mp found
  rw [split]
  exact List.mem_append_right _ List.mem_cons_self

theorem mem_ids_of_definition?
    {catalog : Catalog} {id : DefinitionId} {definition : Definition}
    (found : catalog.definition? id = some definition) :
    id ∈ catalog.ids :=
  List.mem_map_of_mem (mem_definitions_of_definition? found)

/-- The identifier last registered under an internal name. -/
def lookup? (catalog : Catalog) (internalName : String) : Option DefinitionId :=
  catalog.names.lookup internalName

/-- Is the identifier registered? -/
def contains (catalog : Catalog) (id : DefinitionId) : Bool :=
  (catalog.definition? id).isSome

/-- The number of definitions. -/
def size (catalog : Catalog) : Nat :=
  catalog.definitions.length

/-- Registers a definition that may mention its own identifier. -/
def insertWith (catalog : Catalog) (build : DefinitionId → Definition) : DefinitionId × Catalog :=
  let id := catalog.nextId
  let definition := build id
  (id, { catalog with
    nextId := ⟨id.number + 1⟩
    definitions := (id, definition) :: catalog.definitions
    names := (definition.internalName, id) :: catalog.names })

/-- Registers a definition. -/
def insert (catalog : Catalog) (definition : Definition) : DefinitionId × Catalog :=
  catalog.insertWith fun _ => definition

/-- Adds a member to a registered definition; tells whether there is one. -/
def insertMember (catalog : Catalog) (id : DefinitionId) (member : Member) : Bool × Catalog :=
  if catalog.contains id then
    (true, { catalog with
      definitions := catalog.definitions.map fun (entry, definition) =>
        (entry, if entry = id then definition.withMember member else definition) })
  else
    (false, catalog)

/-- The root of the class hierarchy. -/
def objectType (catalog : Catalog) : Ty :=
  .raw catalog.core.object

/-- The class of strings. -/
def stringType (catalog : Catalog) : Ty :=
  .raw catalog.core.string

/-- The type that stands in for a wildcard or a type variable, the root class if it has no bound;
every other type stands for itself. -/
def ceiling (catalog : Catalog) (type : Ty) : Ty :=
  type.upperBound?.getD catalog.objectType

/-- The class that boxes values of a kind. Numbers other than characters derive from the class of
numbers; every box is final and comparable with itself. -/
def boxDefinition (core : CoreClasses) (kind : JvmKind) (id : DefinitionId) : Definition :=
  let definition := (Definition.ofClass (kind.boxName?.getD "")).addModifiers (.ofBits 2)
  let comparable := Ty.classType core.comparable [.raw id]
  if kind.isNumeric && kind != .char then
    { definition with base := some (.raw core.number), interfaces := [comparable] }
  else
    { definition with
      base := some (.raw core.object)
      interfaces := [.raw core.serializable, comparable] }

/-- The definitions of the language, in the order of their identifiers. -/
def coreDefinitions (core : CoreClasses) : List (DefinitionId → Definition) :=
  [ fun _ => .ofClass "java/lang/Object",
    fun _ => .ofInterface "java/io/Serializable",
    fun _ => .ofInterface "java/lang/Cloneable",
    fun _ => { Definition.ofInterface "java/lang/Comparable" with parameters := [⟨"T", none⟩] },
    fun _ => { (Definition.ofClass "java/lang/Number").addModifiers (.ofBits 4) with
      base := some (.raw core.object)
      interfaces := [.raw core.serializable] },
    fun id => { (Definition.ofClass "java/lang/String").addModifiers (.ofBits 2) with
      base := some (.raw core.object)
      interfaces := [.raw core.serializable, .classType core.comparable [.raw id]] } ] ++
    JvmKind.primitives.map (boxDefinition core)

/-- The catalog that holds the definitions of the language and no others. -/
def standard : Catalog :=
  (coreDefinitions .standard).foldl (fun catalog build => (catalog.insertWith build).2)
    ⟨⟨1⟩, [], [], .standard⟩

end Catalog

end TypedJava

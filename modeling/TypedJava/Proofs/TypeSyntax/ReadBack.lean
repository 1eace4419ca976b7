import TypedJava.Proofs.TypeSyntax.Bare
import TypedJava.Proofs.TypeSyntax.Written
import TypedJava.Proofs.Typing.InStore

/-! # Reading written types back

A type that is written as syntax reads back as the type in its written form, also when the nodes
forget what they stand for. Then the names have to be looked up: every class of the written type
must be the one that its simple name leads to. -/

namespace TypedJava

namespace Ty

mutual

/-- The type is built from types with a keyword, classes, wildcards and arrays. -/
def isPlain : Ty → Bool
  | primitive kind => kind.keyword?.isSome
  | classType _ arguments => arePlain arguments
  | upperWildcard upper => isPlain upper
  | lowerWildcard lower => isPlain lower
  | array element => isPlain element
  | unboundedWildcard => true
  | typeVariable _ _ | null => false

def arePlain : List Ty → Bool
  | [] => true
  | type :: types => isPlain type && arePlain types

end

mutual

def classes : Ty → List DefinitionId
  | classType definition arguments => definition :: classesOfAll arguments
  | upperWildcard upper => classes upper
  | lowerWildcard lower => classes lower
  | array element => classes element
  | primitive _ | typeVariable _ _ | unboundedWildcard | null => []

def classesOfAll : List Ty → List DefinitionId
  | [] => []
  | type :: types => classes type ++ classesOfAll types

end

mutual

/-- The number of levels below the top of the syntax of the type. The dimensions of an array share
one node. -/
def levels : Ty → Nat
  | classType _ arguments => levelsBelow arguments
  | upperWildcard upper => levels upper + 1
  | lowerWildcard lower => levels lower + 1
  | array element => if element.isArray then levels element else levels element + 1
  | primitive _ | typeVariable _ _ | unboundedWildcard | null => 0

def levelsBelow : List Ty → Nat
  | [] => 0
  | type :: types => max (levels type + 1) (levelsBelow types)

end

/-- The number of levels below the top with a number of array dimensions around the type. -/
def levelsWithin (type : Ty) (rank : Nat) : Nat :=
  if rank = 0 ∨ type.isArray then type.levels else type.levels + 1

theorem levelsWithin_array (element : Ty) (rank : Nat) :
    (array element).levelsWithin rank = element.levelsWithin (rank + 1) := by
  have isArray : (array element).isArray = true := rfl
  rw [levelsWithin, if_pos (Or.inr isArray), levels, levelsWithin]
  simp

end Ty

/-! ## Reading syntax without types -/

theorem Catalog.namedType?_keyword
    {catalog : Catalog} {kind : JvmKind} {word : String} (isKeyword : kind.keyword? = some word) :
    catalog.namedType? word = some (.primitive kind) := by
  have known : JvmKind.ofKeyword? word = some kind := by
    cases kind <;> cases isKeyword <;> rfl
  simp [namedType?, known]

theorem Catalog.namedType?_class
    {catalog : Catalog} {name : String} {definition : DefinitionId}
    (notKeyword : JvmKind.ofKeyword? name = none)
    (found : (catalog.lookup? name).or (catalog.lookup? ("java/lang/" ++ name)) = some definition) :
    catalog.namedType? name = some (.raw definition) := by
  simp [namedType?, notKeyword, found]

/-- The simple name of the class leads to the class. -/
def Catalog.FindsByName (catalog : Catalog) (definition : DefinitionId) : Prop :=
  catalog.namedType? (catalog.simpleName definition) = some (.raw definition)

namespace Tree

variable {context : Context} {name : String} {type : Ty}

theorem resolve_name
    (named : context.catalog.namedType? name = some type) (limit : DepthLimit) :
    (node (.simpleType name) .empty [⟨.typeArgument, []⟩]).resolve context limit =
      some (.ofType type) := by
  cases down : limit.down? <;>
    simp [resolve_eq, Payload.resolveWith, belowSlots, Annotations.empty, named, down,
      Slot.childrenIn]

theorem resolve_appliedName
    {definition : DefinitionId} (named : context.catalog.namedType? name = some (.raw definition))
    {tree : Tree} {trees : List Tree} {types : List Ty} {levels : Nat}
    (resolved : resolveAll context (tree :: trees) (some levels) = some types) :
    (node (.simpleType name) .empty [⟨.typeArgument, tree :: trees⟩]).resolve context
      (some (levels + 1)) = some (.ofType (.classType definition types)) := by
  simp [resolve_eq, Payload.resolveWith, belowSlots, Annotations.empty, named, DepthLimit.down?,
    resolveArguments_eq, Slot.childrenIn, resolved, Ty.definition?, Ty.raw]

theorem resolve_composedType (tree : Tree) (rank levels : Nat) :
    (node (.composedType rank) .empty [⟨.type, [tree]⟩]).resolve context (some (levels + 1)) =
      (tree.resolve context (some levels)).map fun found => .ofType (found.type.arrayOf rank) :=
  rfl

theorem resolve_upperWildcard (tree : Tree) (levels : Nat) :
    (node (.wildcardType .upper) .empty [⟨.type, [tree]⟩]).resolve context (some (levels + 1)) =
      (tree.resolve context (some levels)).map fun found => .ofType (.upperWildcard found.type) :=
  rfl

theorem resolve_lowerWildcard (tree : Tree) (levels : Nat) :
    (node (.wildcardType .lower) .empty [⟨.type, [tree]⟩]).resolve context (some (levels + 1)) =
      (tree.resolve context (some levels)).map fun found => .ofType (.lowerWildcard found.type) :=
  rfl

/-- What is written for a type reads back when the node for the type itself does. -/
theorem resolve_finished_bare
    {payload : Payload} {slots : List (Slot Tree)} {rank levels : Nat}
    (enough : type.levelsWithin rank ≤ levels) (notArray : type.isArray = false)
    (reads : ∀ levels, type.levels ≤ levels →
      (node payload .empty (bareSlots slots)).resolve context (some levels) =
        some (.ofType type)) :
    (finished type rank payload slots).bare.resolve context (some levels) =
      some (.ofType (type.arrayOf rank)) := by
  cases rank with
  | zero =>
      rw [Ty.levelsWithin, if_pos (Or.inl rfl)] at enough
      exact reads levels enough
  | succ rank =>
      rw [Ty.levelsWithin, if_neg (by simp [notArray])] at enough
      obtain ⟨fewer, rfl⟩ := Nat.exists_eq_add_one.mpr (show 0 < levels by omega)
      have inner := reads fewer (by omega)
      have dimensions : (finished type (rank + 1) payload slots).bare =
          node (.composedType (rank + 1)) .empty
            [⟨.type, [node payload .empty (bareSlots slots)]⟩] := rfl
      rw [dimensions, resolve_composedType, inner]
      rfl

variable (context)

mutual

theorem resolve_spelledWithin :
    (type : Ty) → (rank levels : Nat) → type.isPlain = true →
      (∀ definition ∈ type.classes, context.catalog.FindsByName definition) →
      type.levelsWithin rank ≤ levels →
      (type.spelledWithin context.catalog rank).bare.resolve context (some levels) =
        some (.ofType (type.arrayOf rank))
  | .array element, rank, levels, plain, named, enough => by
      -- An array inside of an array adds a dimension and no level.
      rw [Ty.levelsWithin_array] at enough
      rw [Ty.spelledWithin, Ty.arrayOf_array]
      exact resolve_spelledWithin element (rank + 1) levels plain named enough
  | .primitive kind, rank, levels, plain, named, enough => by
      obtain ⟨word, isKeyword⟩ := Option.isSome_iff_exists.mp plain
      apply resolve_finished_bare enough rfl
      intro levels _
      rw [isKeyword]
      exact resolve_name (Catalog.namedType?_keyword isKeyword) _
  | .classType definition arguments, rank, levels, plain, named, enough => by
      have read := fun levels => resolveAll_spelledAll arguments levels plain fun other member =>
        named other (List.mem_cons_of_mem definition member)
      have found := named definition List.mem_cons_self
      apply resolve_finished_bare enough rfl
      intro levels needed
      cases arguments with
      | nil =>
          exact resolve_name found _
      | cons argument arguments =>
          have below : 0 < Ty.levelsBelow (argument :: arguments) := by
            rw [Ty.levelsBelow]
            omega
          rw [Ty.levels] at needed
          obtain ⟨fewer, rfl⟩ := Nat.exists_eq_add_one.mpr (show 0 < levels by omega)
          exact resolve_appliedName found (read fewer needed)
  | .unboundedWildcard, rank, levels, _, _, enough => by
      apply resolve_finished_bare enough rfl
      intro levels _
      rfl
  | .upperWildcard upper, rank, levels, plain, named, enough => by
      apply resolve_finished_bare enough rfl
      intro levels needed
      rw [Ty.levels] at needed
      obtain ⟨fewer, rfl⟩ := Nat.exists_eq_add_one.mpr (show 0 < levels by omega)
      have read := resolve_spelledWithin upper 0 fewer plain named (Nat.le_of_succ_le_succ needed)
      exact (resolve_upperWildcard _ fewer).trans (congrArg _ read)
  | .lowerWildcard lower, rank, levels, plain, named, enough => by
      apply resolve_finished_bare enough rfl
      intro levels needed
      rw [Ty.levels] at needed
      obtain ⟨fewer, rfl⟩ := Nat.exists_eq_add_one.mpr (show 0 < levels by omega)
      have read := resolve_spelledWithin lower 0 fewer plain named (Nat.le_of_succ_le_succ needed)
      exact (resolve_lowerWildcard _ fewer).trans (congrArg _ read)
  | .typeVariable _ _, _, _, plain, _, _ => by cases plain
  | .null, _, _, plain, _, _ => by cases plain

theorem resolveAll_spelledAll :
    (types : List Ty) → (levels : Nat) → Ty.arePlain types = true →
      (∀ definition ∈ Ty.classesOfAll types, context.catalog.FindsByName definition) →
      Ty.levelsBelow types ≤ levels + 1 →
      resolveAll context (bareAll (Ty.spelledAll context.catalog types)) (some levels) = some types
  | [], levels, _, _, _ => rfl
  | type :: types, levels, plain, named, enough => by
      rw [Ty.arePlain, Bool.and_eq_true] at plain
      rw [Ty.levelsBelow, Nat.max_le] at enough
      have first := resolve_spelledWithin type 0 levels plain.1
        (fun other member => named other (List.mem_append_left _ member))
        (Nat.le_of_succ_le_succ enough.1)
      have rest := resolveAll_spelledAll types levels plain.2
        (fun other member => named other (List.mem_append_right _ member)) enough.2
      rw [Ty.spelledAll, bareAll, resolveAll, first, rest]
      rfl

end

end Tree

/-! ## The written form -/

namespace Ty

variable (catalog : Catalog) (options : TypeSyntaxOptions)

mutual

theorem isPlain_writable :
    (type : Ty) → (topLevel : Bool) → type.isPlain = true →
      (type.writable catalog options topLevel).isPlain = true
  | primitive kind, topLevel, plain => plain
  | classType definition arguments, topLevel, plain => by
      rw [writable]
      split
      · exact arePlain_writableList arguments plain
      · rfl
  | array element, topLevel, plain => isPlain_writable element false plain
  | unboundedWildcard, topLevel, plain => by
      rw [writable]
      split <;> rfl
  | upperWildcard upper, topLevel, plain => by
      rw [writable]
      split
      · exact isPlain_writable upper false plain
      · exact isPlain_writable upper topLevel plain
  | lowerWildcard lower, topLevel, plain => by
      rw [writable]
      split
      · exact isPlain_writable lower false plain
      · rfl
  | typeVariable id bound, topLevel, plain => by cases plain
  | null, topLevel, plain => by cases plain

theorem arePlain_writableList :
    (types : List Ty) → arePlain types = true →
      arePlain (writableList catalog options types) = true
  | [], plain => rfl
  | type :: types, plain => by
      rw [arePlain, Bool.and_eq_true] at plain
      rw [writableList, arePlain, Bool.and_eq_true]
      exact ⟨isPlain_writable type false plain.1, arePlain_writableList types plain.2⟩

end

mutual

theorem levels_writable :
    (type : Ty) → (topLevel : Bool) → (type.writable catalog options topLevel).levels ≤ type.levels
  | primitive kind, topLevel => Nat.le_refl 0
  | classType definition arguments, topLevel => by
      rw [writable]
      split
      · exact levelsBelow_writableList arguments
      · exact Nat.zero_le _
  | array element, topLevel => by
      have inner := levels_writable element false
      have staysArray : element.isArray = true →
          (element.writable catalog options false).isArray = true := by
        intro isArray
        cases element <;> cases isArray
        rfl
      rw [writable, levels, levels]
      by_cases isArray : element.isArray = true
      · rw [if_pos isArray, if_pos (staysArray isArray)]
        exact inner
      · rw [if_neg isArray]
        split <;> omega
  | unboundedWildcard, topLevel => by
      rw [writable]
      split <;> exact Nat.le_refl 0
  | upperWildcard upper, topLevel => by
      rw [writable]
      split
      · exact Nat.succ_le_succ (levels_writable upper false)
      · exact Nat.le_succ_of_le (levels_writable upper topLevel)
  | lowerWildcard lower, topLevel => by
      rw [writable]
      split
      · exact Nat.succ_le_succ (levels_writable lower false)
      · exact Nat.zero_le _
  | typeVariable id bound, topLevel => Nat.le_refl 0
  | null, topLevel => Nat.le_refl 0

theorem levelsBelow_writableList :
    (types : List Ty) → levelsBelow (writableList catalog options types) ≤ levelsBelow types
  | [] => Nat.le_refl 0
  | type :: types => by
      have first := levels_writable type false
      have rest := levelsBelow_writableList types
      rw [writableList, levelsBelow, levelsBelow]
      omega

end

end Ty

/-! ## Written and read again -/

namespace Edit

/-- Written type syntax whose nodes lose their types reads back as the type that the topmost node
stood for, if the name of every class in the written form leads to the class. -/
theorem mkType_readsBack
    {store : Store} (wellFormed : store.WellFormed) (context : Context)
    (options : TypeSyntaxOptions) {type : Ty} (plain : type.isPlain = true)
    (shallow : type.levels ≤ 256)
    (named : ∀ definition ∈ (type.writable context.catalog options true).classes,
      context.catalog.FindsByName definition) :
    ∃ node changed, (mkType context.catalog options type).run store = (.ok node, changed) ∧
      changed.type? (some node) = some (type.writable context.catalog options true) ∧
      (changed.forgetTypes store.size).resolve context (some node) =
        some (.ofType (type.writable context.catalog options true)) := by
  obtain ⟨branch, changed, run, becomes, isWritten, spelled⟩ :=
    Branch.run_mkType context.catalog options type wellFormed
  have held := becomes.hosted.held
  refine ⟨branch.id, changed, run, ?_, ?_⟩
  · obtain ⟨top, found, _, annotated, _⟩ := held.exists_node
    cases isWritten with
    | mk =>
        rw [Store.type?, found, Option.bind_some, annotated]
        rfl
  · have new : ∀ id ∈ branch.ids, store.size ≤ id := fun id inside =>
      (becomes.fresh id inside).resolve_left List.not_mem_nil
    have bare := held.bare new
    have tree : (changed.forgetTypes store.size).tree? (some branch.id) =
        some branch.toTree.bare := by
      rw [← Branch.toTree_bare, ← bare.tree?_eq (becomes.wellFormed.forgetTypes store.size),
        Branch.id_bare]
    have enough : (type.writable context.catalog options true).levelsWithin 0 ≤ 256 := by
      have written := Ty.levels_writable context.catalog options type true
      rw [Ty.levelsWithin, if_pos (Or.inl rfl)]
      omega
    rw [(becomes.wellFormed.forgetTypes store.size).resolve_eq, tree, spelled, resolveLimit,
      resolveLevels]
    exact Tree.resolve_spelledWithin context _ 0 256
      (Ty.isPlain_writable context.catalog options type true plain) named enough

/-- An array of comparables with a wildcard over comparables of arrays of strings. -/
theorem mkType_readsBack_of_comparables :
    let context : Context := .ofCatalog .standard
    let type : Ty := .array
      (.classType ⟨4⟩ [.upperWildcard (.classType ⟨4⟩ [.array (.array (.raw ⟨6⟩))])])
    ∃ node changed, (mkType context.catalog .standard type).run .empty = (.ok node, changed) ∧
      changed.type? (some node) = some type ∧
      (changed.forgetTypes 0).resolve context (some node) = some (.ofType type) := by
  intro context type
  have plain : type.isPlain = true := rfl
  refine mkType_readsBack Store.wellFormed_empty context .standard plain (by decide) ?_
  intro definition member
  have mentioned : ∀ definition ∈ (type.writable context.catalog .standard true).classes,
      definition = ⟨4⟩ ∨ definition = ⟨6⟩ := by
    decide +kernel
  rcases mentioned definition member with rfl | rfl
  · apply Catalog.namedType?_class <;> decide +kernel
  · apply Catalog.namedType?_class <;> decide +kernel

theorem exists_run_unboundedWildcard (catalog : Catalog) :
    ∃ changed, (mkType catalog .standard .unboundedWildcard).run .empty = (.ok 0, changed) ∧
      changed.type? (some 0) = some catalog.objectType ∧
      (changed.forgetTypes 0).tree? (some 0) =
        some (.node (.simpleType (catalog.simpleName catalog.core.object)) .empty
          [⟨.typeArgument, []⟩]) :=
  ⟨_, rfl, rfl, rfl⟩

/-- A class of the name `Object` outside of every package is what the name leads to. So a wildcard
that gives way to the root class reads back as the other class. -/
theorem mkType_misreads :
    ¬ ∀ (store : Store) (context : Context) (options : TypeSyntaxOptions) (type : Ty),
      store.WellFormed → type.isPlain = true → type.levels < 200 →
      (∀ definition ∈ type.classes, context.catalog.FindsByName definition) →
      ∀ node changed, (mkType context.catalog options type).run store = (.ok node, changed) →
        ((changed.forgetTypes store.size).resolve context (some node)).map (·.type) =
          changed.type? (some node) := by
  intro readsBack
  obtain ⟨catalog, root, name, other⟩ : ∃ catalog : Catalog, catalog.core.object = ⟨1⟩ ∧
      catalog.simpleName ⟨1⟩ = "Object" ∧ catalog.namedType? "Object" = some (.raw ⟨15⟩) := by
    refine ⟨(Catalog.standard.insert (.ofClass "Object")).2, rfl, by decide +kernel, ?_⟩
    apply Catalog.namedType?_class <;> decide +kernel
  obtain ⟨changed, run, annotated, known⟩ := exists_run_unboundedWildcard catalog
  rw [Catalog.objectType, root] at annotated
  rw [root, name] at known
  have read : ((changed.forgetTypes 0).resolve (.ofCatalog catalog) (some 0)).map (·.type) =
      changed.type? (some 0) :=
    readsBack .empty (.ofCatalog catalog) .standard .unboundedWildcard Store.wellFormed_empty rfl
      (by decide) (fun _ member => absurd member List.not_mem_nil) 0 changed run
  have misread : (changed.forgetTypes 0).resolve (.ofCatalog catalog) (some 0) =
      some (.ofType (.raw ⟨15⟩)) := by
    obtain ⟨branch, written, sameRun, becomes, -⟩ :=
      Branch.run_mkType catalog .standard .unboundedWildcard Store.wellFormed_empty
    rw [run] at sameRun
    obtain ⟨-, rfl⟩ := Prod.mk.inj sameRun
    rw [(becomes.wellFormed.forgetTypes 0).resolve_eq, known, Option.bind_some]
    exact Tree.resolve_name other _
  rw [misread, annotated] at read
  cases read

end Edit

end TypedJava

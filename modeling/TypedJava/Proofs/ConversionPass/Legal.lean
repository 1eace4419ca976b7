import TypedJava.Proofs.Conversion.Castable
import TypedJava.Proofs.ConversionPass.Assigned

/-! # Legal casts

After a complete run every cast has a conversion from the type of its operand to its own type. A cast
without one was given a detour through the root class, and the cast of an assigned value is to the
written form of a type that the value could be cast to. -/

namespace TypedJava

namespace Branch

/-- The cast at the top has a conversion. -/
def LegalAt (context : Context) (branch : Branch) : Prop :=
  branch.payload.handling = .cast → ∀ target source,
    branch.typeIn? context .type = some target → branch.typeIn? context .expression = some source →
    context.catalog.conversion target source ≠ .none

/-- The types around a cast and on the left of a simple assignment are regular, and the subtype
relation sees through the array dimensions on the left. -/
structure RegularAt (context : Context) (bounds : VarId → Option Ty) (branch : Branch) : Prop where
  castType : branch.payload.handling = .cast → ∀ type,
    branch.typeIn? context .type = some type → type.Regular bounds
  operand : branch.payload.handling = .cast → ∀ type,
    branch.typeIn? context .expression = some type → type.Regular bounds
  left : branch.payload.handling = .assignment → ∀ type,
    branch.typeIn? context .left = some type → type.isReference = true → type.Regular bounds
  shallowNull : branch.payload.handling = .assignment → ∀ type,
    branch.typeIn? context .left = some type → type.innermost = .null → type.rank ≤ supertypeLimit

section Rules

variable {context : Context} {bound : Nat} {bounds : VarId → Option Ty}
  {options : TypeSyntaxOptions} {frame : Frame}

/-- An operand that was cast to the root class stays an object. -/
theorem WrapsInCast.typeOf?_object
    {fuel : Nat} {surroundings : Option Frame} {operand wrapped result : Branch}
    (wraps : WrapsInCast context bound options context.catalog.objectType operand wrapped)
    (converts : Converts context bound False fuel surroundings wrapped result) :
    result.typeOf? context = some context.catalog.objectType := by
  have written := wraps.typeOf?_of_isReference (by rw [Ty.writable_objectType]; rfl) converts
  rwa [Ty.writable_objectType] at written

/-- A cast of an object is legal. -/
theorem RegularAt.legalAt_of_object
    {result : Branch} (notBoxed : context.catalog.isBoxed context.catalog.objectType = false)
    (isFirst : frame.IsFirst .expression) (regular : (frame.fill result).RegularAt context bounds)
    (isObject : result.typeOf? context = some context.catalog.objectType) :
    (frame.fill result).LegalAt context := by
  intro isCast target source targetType sourceType
  rw [typeIn?_fill isFirst, isObject] at sourceType
  cases sourceType
  have targetRegular := regular.castType isCast target targetType
  exact targetRegular.conversion_object_ne_none notBoxed

/-- The cast of an assigned value is legal. -/
theorem WrapsInCast.legalAt
    {value cast : Branch} {target source : Ty} (declares : context.catalog.DeclaresClasses)
    (sourceType : value.typeOf? context = some source)
    (needsCast : (context.catalog.conversion target source).isExplicit = true)
    (wraps : WrapsInCast context bound { options with allowWildcards := false } target value cast)
    (regular : cast.RegularAt context bounds)
    (leftRegular : target.isReference = true → target.Regular bounds)
    (shallowNull : target.innermost = .null → target.rank ≤ supertypeLimit) :
    cast.LegalAt context := by
  intro isCast writtenType operandType writtenKnown operandKnown
  have operandRegular := regular.operand isCast operandType operandKnown
  rw [wraps.isCastTo.typeIn?_eq] at writtenKnown
  rw [typeIn?, wraps.child?_eq, Option.bind_some, sourceType] at operandKnown
  cases writtenKnown
  cases operandKnown
  exact Ty.conversion_writable_ne_none declares rfl shallowNull true leftRegular operandRegular
    needsCast

/-- The rules leave only legal casts. -/
theorem establishes_legalAt
    (notBoxed : context.catalog.isBoxed context.catalog.objectType = false)
    (declares : context.catalog.DeclaresClasses) :
    Establishes context bound (RegularAt context bounds) fun _ => LegalAt context where
  other := fun _ _ _ noCast _ isCast => absurd isCast noCast
  access := by
    intro again surroundings branch result _ isAccess treats _ isCast
    rw [treats.payload_eq, isAccess] at isCast
    cases isCast
  legalCast := fun _ _ _ legal _ => legal
  detouredCast := fun _ _ isFirst wraps converts holds =>
    holds.top.legalAt_of_object notBoxed isFirst (wraps.typeOf?_object converts)
  insertedCast := by
    intro frame options value cast target source _ isAssignment isFirst left sourceType needsCast
      wraps holds
    have visited : frame.payload.handling ≠ .leave := by simp [isAssignment]
    have castHolds := holds.of_mem_children visited (frame.mem_children_fill cast)
    have different : frame.role ≠ .left := by simp [isFirst.role_eq]
    rw [typeIn?_fill_of_ne different value cast] at left
    exact wraps.legalAt declares sourceType needsCast castHolds.top
      (holds.top.left isAssignment target left) (holds.top.shallowNull isAssignment target left)
  assignment := by
    intro again branch result _ _ isAssignment treats _ isCast
    rw [treats.payload_eq, isAssignment] at isCast
    cases isCast

end Rules

end Branch

namespace Store

/-- The types around a cast and on the left of a simple assignment are regular. -/
structure RegularAt (store : Store) (context : Context) (bounds : VarId → Option Ty) (id : NodeId) :
    Prop where
  castType : store.kind (some id) = .cast → ∀ type,
    store.typeOf? context (store.childIn (some id) .type) = some type → type.Regular bounds
  operand : store.kind (some id) = .cast → ∀ type,
    store.typeOf? context (store.childIn (some id) .expression) = some type → type.Regular bounds
  left : store.payload? (some id) = some (.assignment .assign) → ∀ type,
    store.typeOf? context (store.childIn (some id) .left) = some type →
    type.isReference = true → type.Regular bounds

/-- The type on the left of a simple assignment does not have the null type under more array
dimensions than the subtype relation sees through. -/
def ShallowNullAt (store : Store) (context : Context) (id : NodeId) : Prop :=
  store.payload? (some id) = some (.assignment .assign) → ∀ type,
    store.typeOf? context (store.childIn (some id) .left) = some type →
    type.innermost = .null → type.rank ≤ supertypeLimit

theorem lt_size_of_kind {store : Store} {id : NodeId} (present : store.kind (some id) ≠ .null) :
    id < store.size := by
  cases found : store.node? (some id) with
  | none =>
      rw [kind, found] at present
      exact absurd rfl present
  | some node =>
      exact lt_size_of_node? found

theorem kind_of_payload?
    {store : Store} {reference : NodeRef} {payload : Payload}
    (known : store.payload? reference = some payload) : store.kind reference = payload.kind := by
  obtain ⟨node, found, same⟩ := Option.map_eq_some_iff.mp known
  rw [kind, found]
  exact congrArg Payload.kind same

/-- In a store with one cast and one assignment only the types there matter. -/
theorem regularAt_of_only
    {store : Store} {context : Context} {bounds : VarId → Option Ty} {cast assignment : NodeId}
    {target source left : Ty}
    (onlyCast : ∀ id < store.size, store.kind (some id) = .cast → id = cast)
    (onlyAssignment : ∀ id < store.size, store.kind (some id) = .assignment → id = assignment)
    (targetType : store.typeOf? context (store.childIn (some cast) .type) = some target)
    (sourceType : store.typeOf? context (store.childIn (some cast) .expression) = some source)
    (leftType : store.typeOf? context (store.childIn (some assignment) .left) = some left)
    (targetRegular : target.Regular bounds) (sourceRegular : source.Regular bounds)
    (leftRegular : left.Regular bounds) (id : NodeId) :
    store.RegularAt context bounds id := by
  have castId (isCast : store.kind (some id) = .cast) : id = cast :=
    onlyCast id (lt_size_of_kind (by simp [isCast])) isCast
  have assignmentId (isAssignment : store.payload? (some id) = some (.assignment .assign)) :
      id = assignment := by
    have isKind : store.kind (some id) = .assignment := kind_of_payload? isAssignment
    exact onlyAssignment id (lt_size_of_kind (by simp [isKind])) isKind
  refine ⟨?_, ?_, ?_⟩
  · intro isCast type known
    rw [castId isCast, targetType] at known
    cases known
    exact targetRegular
  · intro isCast type known
    rw [castId isCast, sourceType] at known
    cases known
    exact sourceRegular
  · intro isAssignment type known _
    rw [assignmentId isAssignment, leftType] at known
    cases known
    exact leftRegular

end Store

theorem Branch.Hosted.regularAt
    {context : Context} {bounds : VarId → Option Ty} {store : Store} {frames : List Frame}
    {branch : Branch} (hosted : Hosted store frames branch) (wellFormed : store.WellFormed)
    (regular : store.RegularAt context bounds branch.id)
    (shallowNull : store.ShallowNullAt context branch.id) :
    branch.RegularAt context bounds := by
  obtain ⟨castType, operand, left⟩ := regular
  have types (role : Role) : store.typeOf? context (store.childIn (some branch.id) role) =
      branch.typeIn? context role :=
    hosted.held.typeOf?_childIn wellFormed role
  rw [hosted.held.kind_eq, ← Payload.handling_eq_cast_iff, types] at castType operand
  rw [hosted.held.payload?_eq, Option.some.injEq, ← Payload.handling_eq_assignment_iff, types]
    at left
  rw [Store.ShallowNullAt, hosted.held.payload?_eq, Option.some.injEq,
    ← Payload.handling_eq_assignment_iff, types] at shallowNull
  exact ⟨castType, operand, left, shallowNull⟩

namespace Edit

open Branch

/-- After a complete run every cast is legal. -/
theorem insertConversions_castsLegal
    {context : Context} {bounds : VarId → Option Ty} {root id : NodeId} {store once : Store}
    {target source : Ty} (notBoxed : context.catalog.isBoxed context.catalog.objectType = false)
    (declares : context.catalog.DeclaresClasses) (wellFormed : store.WellFormed)
    (isBlock : store.payload? (some root) = some .block) (written : context.typeSyntax ≠ none)
    (within : StaysWithinDepth context (some root) store)
    (ran : (insertConversions context (some root)).run store = (.ok (), once))
    (regular : ∀ id, once.Visits root id → once.RegularAt context bounds id)
    (shallowNull : ∀ id, once.Visits root id → once.ShallowNullAt context id)
    (visits : once.Visits root id) (isCast : once.kind (some id) = .cast)
    (targetType : once.typeOf? context (once.childIn (some id) .type) = some target)
    (sourceType : once.typeOf? context (once.childIn (some id) .expression) = some source) :
    context.catalog.conversion target source ≠ .none := by
  have onceWellFormed := within.keepsWellFormed wellFormed isBlock ran
  -- The rules argue about branches, so the types that the store knows are read off those.
  have holds : ∀ frames inner, Hosted once frames inner → once.Visits root inner.id →
      inner.RegularAt context bounds := by
    intro frames inner hosted visited
    exact hosted.regularAt onceWellFormed (regular inner.id visited) (shallowNull inner.id visited)
  obtain ⟨frames, branch, hosted, rfl, legal⟩ :=
    within.exists_hosted wellFormed isBlock ran (establishes_legalAt notBoxed declares) written
      holds visits
  rw [hosted.held.kind_eq, ← Payload.handling_eq_cast_iff] at isCast
  rw [hosted.held.typeOf?_childIn onceWellFormed] at targetType sourceType
  exact legal isCast target source targetType sourceType

/-- The cast `(Holder<Holder<Object>>) b` of an object is legal. -/
theorem insertConversions_castsLegal_of_holderAssignment :
    holderContext.catalog.conversion (.classType ⟨15⟩ [.classType ⟨15⟩ [.raw ⟨1⟩]]) (.raw ⟨1⟩) ≠
      .none := by
  have declares : holderContext.catalog.DeclaresClasses := .of_all (by decide +kernel)
  have onlyCast : ∀ id < holderAssigned.size,
      holderAssigned.kind (some id) = .cast → id = 8 := by
    decide +kernel
  have onlyAssignment : ∀ id < holderAssigned.size,
      holderAssigned.kind (some id) = .assignment → id = 2 := by
    decide +kernel
  have placed : holderAssigned.place? (some 8) = some ⟨2, .right⟩ := by decide +kernel
  have visits : holderAssigned.Visits 4 8 :=
    .child visits_holderAssigned (by decide +kernel) placed
  have regular (id : NodeId) : holderAssigned.RegularAt holderContext (fun _ => none) id :=
    Store.regularAt_of_only onlyCast onlyAssignment rfl rfl left_holderAssigned trivial trivial
      trivial id
  have shallowNull (id : NodeId) : holderAssigned.ShallowNullAt holderContext id := by
    intro isAssignment type known isNull
    have isKind := Store.kind_of_payload? isAssignment
    cases onlyAssignment id (Store.lt_size_of_kind (by rw [isKind]; decide)) isKind
    rw [left_holderAssigned] at known
    cases known
    cases isNull
  exact insertConversions_castsLegal rfl declares wellFormed_holderAssignment rfl (by decide)
    (by decide +kernel) run_holderAssignment (fun id _ => regular id) (fun id _ => shallowNull id)
    visits (by decide +kernel) rfl rfl

/-! ### The null type under many array dimensions -/

/-- A variable whose bound is another variable, and so on for a number of steps up to a last type. -/
def chainedVariable (last : Ty) : (steps : Nat) → Ty
  | 0 => last
  | steps + 1 => .typeVariable ⟨"T", some ⟨steps⟩⟩ (some (chainedVariable last steps))

/-- The bounds of the variables in a chain. -/
def chainedBound (last : Ty) (id : VarId) : Option Ty :=
  id.owner.map fun owner => chainedVariable last owner.number

theorem regular_chainedVariable
    {last : Ty} (isReference : last.isReference = true) (regular : last.Regular (chainedBound last))
    (steps : Nat) :
    (chainedVariable last steps).isReference = true ∧
      (chainedVariable last steps).Regular (chainedBound last) := by
  induction steps with
  | zero =>
      exact ⟨isReference, regular⟩
  | succ steps inductionHypothesis =>
      exact ⟨rfl, rfl, inductionHypothesis⟩

/-- Builds the block `a = b;`, where `a` has the null type under 65 array dimensions and `b` a type
variable that is 65 steps below that type. -/
def chainAssignment : Edit NodeId := do
  let left ← mkNode (.identifier "a")
  setType (some left) (Ty.null.arrayOf 65)
  let right ← mkNode (.identifier "b")
  setType (some right) (chainedVariable (Ty.null.arrayOf 65) 65)
  let assignment ← mkAssignment .assign (some left) (some right)
  let statement ← mkStatement (some assignment)
  mkBlock [some statement]

theorem wellFormed_chainAssignment : (chainAssignment.run Store.empty).2.WellFormed := by
  refine Structural.keepsWellFormed ?_ _ Store.wellFormed_empty
  exact .bind (.mkNode _) fun _ => .bind (.setType _ _) fun _ => .bind (.mkNode _) fun _ =>
    .bind (.setType _ _) fun _ => .bind (.mkAssignment _ _ _) fun _ =>
    .bind (.mkStatement _) fun _ => .mkBlock _

/-- What the pass makes of the block: the value is cast to the root class under 65 dimensions. -/
def chainAssigned : Store :=
  ((insertConversions (.ofCatalog .standard) (some 4)).run (chainAssignment.run Store.empty).2).2

theorem visits_chainAssigned : chainAssigned.Visits 4 7 := by
  have placed : chainAssigned.place? (some 3) = some ⟨4, .statement⟩ := by decide +kernel
  have placedBelow : chainAssigned.place? (some 2) = some ⟨3, .expression⟩ := by decide +kernel
  have placedCast : chainAssigned.place? (some 7) = some ⟨2, .right⟩ := by decide +kernel
  have statement : chainAssigned.Visits 4 3 := .child .root (by decide +kernel) placed
  have assignment : chainAssigned.Visits 4 2 :=
    .child statement (by decide +kernel) placedBelow
  exact .child assignment (by decide +kernel) placedCast

theorem regularAt_chainAssigned (id : NodeId) :
    chainAssigned.RegularAt (.ofCatalog .standard) (chainedBound (Ty.null.arrayOf 65)) id := by
  have onlyCast : ∀ id < chainAssigned.size,
      chainAssigned.kind (some id) = .cast → id = 7 := by
    decide +kernel
  have onlyAssignment : ∀ id < chainAssigned.size,
      chainAssigned.kind (some id) = .assignment → id = 2 := by
    decide +kernel
  have regular : (Ty.null.arrayOf 65).Regular (chainedBound (Ty.null.arrayOf 65)) := trivial
  exact Store.regularAt_of_only onlyCast onlyAssignment rfl rfl rfl trivial
    (regular_chainedVariable rfl regular 65).2 regular id

/-- The subtype relation gives up on the cast that the pass puts in before it comes to the root
class, so that the cast is not legal. -/
theorem insertConversions_castsLegal_fails :
    let context := Context.ofCatalog .standard
    let store := (chainAssignment.run Store.empty).2
    let source := chainedVariable (Ty.null.arrayOf 65) 65
    context.catalog.core = .standard ∧ context.catalog.DeclaresClasses ∧ store.WellFormed ∧
      store.payload? (some 4) = some .block ∧ context.typeSyntax ≠ none ∧
      StaysWithinDepth context (some 4) store ∧
      (insertConversions context (some 4)).run store = (.ok (), chainAssigned) ∧
      (∀ id, chainAssigned.RegularAt context (chainedBound (Ty.null.arrayOf 65)) id) ∧
      chainAssigned.Visits 4 7 ∧ chainAssigned.kind (some 7) = .cast ∧
      chainAssigned.typeOf? context (chainAssigned.childIn (some 7) .type) =
        some ((Ty.raw ⟨1⟩).arrayOf 65) ∧
      chainAssigned.typeOf? context (chainAssigned.childIn (some 7) .expression) = some source ∧
      context.catalog.conversion ((Ty.raw ⟨1⟩).arrayOf 65) source = .none := by
  refine ⟨rfl, .of_all (by decide +kernel), wellFormed_chainAssignment, rfl, by decide,
    by decide +kernel, Prod.ext (by decide +kernel) rfl, regularAt_chainAssigned,
    visits_chainAssigned, by decide +kernel, rfl, rfl, by decide +kernel⟩

end Edit

end TypedJava

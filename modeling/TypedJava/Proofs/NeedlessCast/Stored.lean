import TypedJava.Proofs.NeedlessCast.Values
import TypedJava.Proofs.Typing.OnTrees
import TypedJava.Store.Build

/-! # Needless casts where a number is stored

A cast of a whole number that is judged needless where the number is stored keeps the number. A
primitive target then holds the same number with and without the cast. A reference holds a box of
the kind that the number has there, so it holds the same box only if the cast keeps the kind. -/

namespace TypedJava

/-! ## Known values -/

/-- A result of resolution without a known value. -/
def Unvalued (result : Option Resolved) : Prop :=
  ∀ found, result = some found → found.constant = none

namespace Unvalued

theorem none : Unvalued none :=
  fun _ impossible => by cases impossible

theorem ofType (type : Ty) : Unvalued (some (.ofType type)) := by
  intro found same
  cases same
  rfl

theorem map {α : Type} (result : Option α) (type : α → Ty) :
    Unvalued (result.map fun value => .ofType (type value)) := by
  cases result with
  | none => exact .none
  | some value => exact .ofType (type value)

theorem bind
    {α : Type} (result : Option α) {next : α → Option Resolved}
    (unvalued : ∀ value, Unvalued (next value)) :
    Unvalued (result.bind next) := by
  cases result with
  | none => exact .none
  | some value => exact unvalued value

theorem ite
    {condition : Prop} [Decidable condition] {first second : Option Resolved}
    (isFirst : Unvalued first) (isSecond : Unvalued second) :
    Unvalued (if condition then first else second) := by
  split
  · exact isFirst
  · exact isSecond

end Unvalued

namespace Payload

variable {context : Context} {annotations : Annotations} {below : Below} {payload : Payload}

/-- Only a literal has a known value. -/
theorem unvalued_resolveWith (noLiteral : payload.literal? = none) :
    Unvalued (payload.resolveWith context annotations below) := by
  cases payload with
  | literal value => cases noLiteral
  | memberReference name =>
      rw [resolveWith]
      split
      · exact .ite (.ofType _) .none
      · exact .ite (.ofType _) .none
  | unary operator =>
      cases operator with
      | not => exact .ofType _
      | any => exact .none
      | _ => exact .bind _ fun operand => .ite (.ofType _) (.bind _ fun kind => .map _ _)
  | simpleType name =>
      rw [resolveWith]
      split
      · exact .ofType _
      · refine .bind _ fun type => ?_
        split
        · exact .ofType _
        · exact .bind _ fun definition => .bind _ fun arguments => .ofType _
  | wildcardType form =>
      cases form <;> rw [resolveWith] <;> split
      · exact .ofType _
      · exact .ofType _
      · exact .ofType _
      · exact .map _ _
      · exact .ofType _
      · exact .map _ _
  | composedType rank =>
      rw [resolveWith]
      split
      · exact .ofType _
      · exact .map _ _
  | invocation => exact .bind _ fun member => .ofType _
  | conditional => exact .bind _ fun whenTrue => .bind _ fun whenFalse => .ofType _
  | binary operator =>
      exact .ite .none (.ite (.ofType _) (.bind _ fun left => .bind _ fun right => .map _ _))
  | nullReference => exact .ofType _
  | identifier name => exact .map _ _
  | this => exact .map _ _
  | objectCreation => exact .map _ _
  | cast => exact .map _ _
  | assignment operator => exact .map _ _
  | _ => exact .none

/-- The type of a literal is that of its kind. -/
theorem resolveWith_literal
    {found : Resolved} {value : Literal}
    (resolved : payload.resolveWith context annotations below = some found)
    (known : found.constant = some value) :
    payload = .literal value ∧
      found.type = (value.kind?.map Ty.primitive).getD context.catalog.stringType := by
  cases isLiteral : payload.literal? with
  | none =>
      rw [unvalued_resolveWith isLiteral found resolved] at known
      cases known
  | some literal =>
      have isPayload : payload = .literal literal := by
        cases payload <;> simp_all [literal?]
      subst isPayload
      rw [resolveWith] at resolved
      cases resolved
      cases known
      exact ⟨rfl, rfl⟩

end Payload

theorem Tree.resolve_literal
    {context : Context} {tree : Tree} {limit : DepthLimit} {found : Resolved} {value : Literal}
    (resolved : tree.resolve context limit = some found) (known : found.constant = some value) :
    tree.payload = .literal value ∧
      found.type = (value.kind?.map Ty.primitive).getD context.catalog.stringType := by
  obtain ⟨payload, annotations, slots⟩ := tree
  exact Payload.resolveWith_literal resolved known

/-- The known value of an expression is that of the literal that stands there. -/
theorem Store.resolveWithin_literal
    {store : Store} {context : Context} {levels : Nat} {reference : NodeRef} {found : Resolved}
    {value : Literal} (resolved : store.resolveWithin context levels reference = some found)
    (known : found.constant = some value) :
    store.payload? reference = some (.literal value) ∧
      found.type = (value.kind?.map Ty.primitive).getD context.catalog.stringType := by
  obtain ⟨node, below, isNode, resolved⟩ := exists_resolveWith resolved
  obtain ⟨isLiteral, type⟩ := Payload.resolveWith_literal resolved known
  exact ⟨by rw [payload?, isNode, Option.map_some, isLiteral], type⟩

/-! ## Stored numbers -/

/-- What a variable holds after a whole number was stored in it. -/
inductive StoredNumber where
  | primitive (value : Int)
  /-- A box of a class around the number. -/
  | boxed (boxClass : Option Ty) (value : Int)
  deriving Repr

namespace Catalog

/-- Stores a whole number of a kind in a variable of a type. A kind of whole numbers keeps the bits
that it has room for, another primitive kind takes the number as it is, and a reference gets a box of
the number's own kind. -/
def storeNumber (catalog : Catalog) (target : Ty) (kind : JvmKind) (value : Int) : StoredNumber :=
  match target.primitiveKind? with
  | some targetKind => .primitive (targetKind.wrap value)
  | none => .boxed (catalog.boxOf? kind) value

/-- In a catalog of the language different kinds have different boxes. -/
theorem boxOf?_injective
    {catalog : Catalog} (standard : catalog.core = .standard) {first second : JvmKind}
    (firstIntegral : first.isIntegral = true) (secondIntegral : second.isIntegral = true)
    (same : catalog.boxOf? first = catalog.boxOf? second) :
    first = second := by
  have sameBox : CoreClasses.standard.box? first = CoreClasses.standard.box? second := by
    rw [boxOf?, boxOf?, standard] at same
    refine Option.map_injective (fun left right raw => ?_) same
    injection raw
  revert sameBox
  cases first <;> cases second <;> first | decide | cases firstIntegral

end Catalog

namespace Store

/-- The value of a cast is stored in a variable of a type: by a simple assignment, by the
declaration of the variable or by the return from the method. -/
inductive StoresCast (store : Store) (context : Context) (cast : NodeId) (target : Ty) : Prop
  | assignment {parent : NodeId} :
      store.place? (some cast) = some ⟨parent, .right⟩ →
      store.payload? (some parent) = some (.assignment .assign) →
      store.typeOf? context (store.childIn (some parent) .left) = some target →
      StoresCast store context cast target
  | initializer {parent : NodeId} {name : String} :
      store.place? (some cast) = some ⟨parent, .initializer⟩ →
      store.payload? (some parent) = some (.variableDeclaration name) →
      store.typeOf? context (store.childIn (some parent) .type) = some target →
      StoresCast store context cast target
  | result {place : Place} :
      store.place? (some cast) = some place →
      store.payload? (some place.parent) = some .returnStatement →
      context.currentMethod.bind Member.returnType? = some target →
      StoresCast store context cast target

section Stored

variable {store : Store} {context : Context} {cast : NodeId} {target : Ty}

theorem StoresCast.isNeedlessAt_eq
    (stores : store.StoresCast context cast target) :
    ∃ place, store.place? (some cast) = some place ∧ ∀ source castType,
      store.isNeedlessAt context place source castType =
        context.needlessWhenStored source castType target := by
  cases stores with
  | assignment placed isAssignment targetType =>
      refine ⟨_, placed, fun source castType => ?_⟩
      rw [isNeedlessAt, isAssignment, Context.isNeedlessUnder, targetType]
      rfl
  | initializer placed isDeclaration targetType =>
      refine ⟨_, placed, fun source castType => ?_⟩
      rw [isNeedlessAt, isDeclaration, Context.isNeedlessUnder, targetType]
      rfl
  | result placed isReturn targetType =>
      refine ⟨_, placed, fun source castType => ?_⟩
      rw [isNeedlessAt, isReturn, Context.isNeedlessUnder, targetType]
      rfl

/-- A cast that is judged needless where a number is stored either keeps the type of the number or
preserves its value. -/
theorem preservesValue_of_isNeedlessCast
    (stores : store.StoresCast context cast target) {sourceKind castKind : JvmKind}
    (castType : store.typeOf? context (store.childIn (some cast) .type) =
      some (.primitive castKind))
    (sourceType : store.typeOf? context (store.childIn (some cast) .expression) =
      some (.primitive sourceKind))
    (castIntegral : castKind.isIntegral = true) (sourceIntegral : sourceKind.isIntegral = true)
    (needless : store.isNeedlessCast context (some cast) = true) :
    ∃ source, store.resolve context (store.childIn (some cast) .expression) = some source ∧
      source.type = .primitive sourceKind ∧
      preservesValue sourceKind castKind source.constant = true := by
  obtain ⟨source, resolved, isSource⟩ := Option.map_eq_some_iff.mp sourceType
  obtain ⟨place, placed, whenStored⟩ := stores.isNeedlessAt_eq
  have judged : (source.type == .primitive castKind ||
      context.needlessWhenStored source (.primitive castKind) target) = true := by
    have both := (Bool.and_eq_true_iff.mp needless).2
    rw [castType, resolved] at both
    simpa only [placed, whenStored] using both
  refine ⟨source, resolved, isSource, ?_⟩
  rw [isSource] at judged
  rcases Bool.or_eq_true_iff.mp judged with same | stored
  · have sameKind : (sourceKind == castKind) = true := same
    simp [preservesValue, sameKind]
  · have castValue : (Ty.primitive castKind).valueKind? = some castKind := by
      cases castKind <;> first | rfl | cases castIntegral
    have sourceValue : (Ty.primitive sourceKind).valueKind? = some sourceKind := by
      cases sourceKind <;> first | rfl | cases sourceIntegral
    rw [Context.needlessWhenStored, isSource, castValue, sourceValue] at stored
    exact (Bool.and_eq_true_iff.mp stored).1

/-- Where a cast of a whole number is judged needless, the stored number is the same with and without
the cast if and only if the target is primitive or the cast keeps the kind of the number. -/
theorem storeNumber_eq_iff_of_isNeedlessCast
    (standard : context.catalog.core = .standard)
    (stores : store.StoresCast context cast target) {sourceKind castKind : JvmKind}
    (castType : store.typeOf? context (store.childIn (some cast) .type) =
      some (.primitive castKind))
    (sourceType : store.typeOf? context (store.childIn (some cast) .expression) =
      some (.primitive sourceKind))
    (castIntegral : castKind.isIntegral = true) (sourceIntegral : sourceKind.isIntegral = true)
    (needless : store.isNeedlessCast context (some cast) = true) {value : Int}
    (held : sourceKind.Holds value)
    (known : ∀ literal, store.payload? (store.childIn (some cast) .expression) =
      some (.literal literal) → literal.integer? = some value) :
    context.catalog.storeNumber target castKind (castKind.wrap value) =
        context.catalog.storeNumber target sourceKind value ↔
      (target.isReference = true → sourceKind = castKind) := by
  obtain ⟨source, resolved, isSource, preserves⟩ :=
    preservesValue_of_isNeedlessCast stores castType sourceType castIntegral sourceIntegral needless
  have constant (literal : Literal) (isConstant : source.constant = some literal) :
      literal.kind? = some sourceKind ∧ literal.integer? = some value := by
    obtain ⟨operand, literalType⟩ := resolveWithin_literal resolved isConstant
    refine ⟨?_, known literal operand⟩
    rw [isSource] at literalType
    cases kind : literal.kind? with
    | none =>
        rw [kind] at literalType
        cases literalType
    | some literalKind =>
        rw [kind] at literalType
        cases literalType
        rfl
  have castHeld : castKind.Holds value :=
    holds_of_preservesValue preserves castIntegral held constant
  rw [JvmKind.wrap_eq castHeld]
  cases target with
  | primitive targetKind =>
      exact ⟨fun _ impossible => (by cases impossible), fun _ => rfl⟩
  | _ =>
      constructor
      · intro same _
        injection same with sameBox
        exact (context.catalog.boxOf?_injective standard castIntegral sourceIntegral sameBox).symm
      · intro sameKind
        rw [sameKind rfl]

end Stored

/-! ### A number that changes its box -/

/-- Builds `o = (type) value` with `o` of a given type; the cast is the fourth node. -/
def castAssignment (target : Ty) (type : String) (value : Edit NodeId) : Edit NodeId := do
  let left ← Edit.mkNode (.identifier "o")
  Edit.setType (some left) target
  let operand ← value
  let written ← Edit.mkNamedType type []
  let cast ← Edit.mkCast (some written) (some operand)
  Edit.mkAssignment .assign (some left) (some cast)

/-- The variable `i` of type `int`. -/
def intVariable : Edit NodeId := do
  let node ← Edit.mkNode (.identifier "i")
  Edit.setType (some node) (.primitive .int)
  return node

/-- The cast in `o = (long) i` is judged needless, but without it the object `o` is an `Integer` and
not a `Long`. -/
theorem isNeedlessCast_of_widenedBox :
    let context := Context.ofCatalog .standard
    let object := context.catalog.objectType
    let store := ((castAssignment object "long" intVariable).run Store.empty).2
    store.StoresCast context 3 object ∧
      store.typeOf? context (store.childIn (some 3) .type) = some (.primitive .long) ∧
      store.typeOf? context (store.childIn (some 3) .expression) = some (.primitive .int) ∧
      store.isNeedlessCast context (some 3) = true ∧ JvmKind.int.Holds 1 ∧
      context.catalog.storeNumber object .long (JvmKind.long.wrap 1) ≠
        context.catalog.storeNumber object .int 1 := by
  refine ⟨.assignment rfl rfl rfl, rfl, rfl, by decide +kernel,
    ⟨_, rfl, by decide⟩, fun same => ?_⟩
  injection same with sameBox
  injection sameBox with sameClass
  injection sameClass with sameId
  revert sameId
  decide

/-- The greatest `byte` is stored in `o = (byte) 127` with and without the cast. -/
theorem storeNumber_eq_iff_of_greatestByte :
    let context := Context.ofCatalog .standard
    let store := ((castAssignment (.primitive .byte) "byte" (Edit.mkLiteral (.int 127))).run
      Store.empty).2
    store.isNeedlessCast context (some 3) = true ∧
      (context.catalog.storeNumber (.primitive .byte) .byte (JvmKind.byte.wrap 127) =
          context.catalog.storeNumber (.primitive .byte) .int 127 ↔
        ((Ty.primitive .byte).isReference = true → JvmKind.int = JvmKind.byte)) := by
  have needless : (((castAssignment (.primitive .byte) "byte" (Edit.mkLiteral (.int 127))).run
      Store.empty).2.isNeedlessCast (Context.ofCatalog .standard) (some 3)) = true := by
    decide +kernel
  refine ⟨needless, ?_⟩
  refine storeNumber_eq_iff_of_isNeedlessCast rfl (.assignment rfl rfl rfl) rfl rfl rfl rfl needless
    ⟨_, rfl, by decide⟩ ?_
  rintro literal ⟨⟩
  rfl

end Store

end TypedJava

import TypedJava.Ty.Substitution

/-! # Regular types

The spine of a type leads from an array to its element and from a variable or a wildcard to its upper
bound. Erasure only depends on the spine. A type is grounded if its spine ends well: the bounds are
references, and a variable has the same bound wherever it occurs. It is regular if its spine is as the
language has it: besides, values are the only primitives. -/

namespace TypedJava

namespace Ty

/-- Induction along the spine. -/
theorem spineInduction
    {motive : Ty → Prop} (primitive : ∀ kind, motive (primitive kind))
    (classType : ∀ definition arguments, motive (classType definition arguments))
    (openVariable : ∀ id, motive (typeVariable id none))
    (boundVariable : ∀ id bound, motive bound → motive (typeVariable id (some bound)))
    (unboundedWildcard : motive unboundedWildcard)
    (upperWildcard : ∀ upper, motive upper → motive (upperWildcard upper))
    (lowerWildcard : ∀ lower, motive (lowerWildcard lower))
    (array : ∀ element, motive element → motive (array element)) (null : motive null)
    (type : Ty) :
    motive type := by
  refine @Ty.rec motive (fun _ => True) (fun bound => ∀ type ∈ bound, motive type) primitive
    (fun definition arguments _ => classType definition arguments) ?_ unboundedWildcard
    upperWildcard (fun lower _ => lowerWildcard lower) array null trivial (fun _ _ _ _ => trivial)
    (fun _ member => by cases member) ?_ type
  · intro id bound bounds
    cases bound with
    | none =>
        exact openVariable id
    | some bound =>
        exact boundVariable id bound (bounds bound rfl)
  · intro bound holds type member
    cases member
    exact holds

theorem isReference_eq_of_beq {type other : Ty} (same : (type == other) = true) :
    type.isReference = other.isReference := by
  replace same : Ty.same type other = true := same
  cases type <;> cases other <;> simp_all [Ty.same, isReference, primitiveKind?]

/-- The bounds of variables are those of a given table, and bounds are references. -/
def Grounded (bounds : VarId → Option Ty) : Ty → Prop
  | typeVariable id none => bounds id = none
  | typeVariable id (some bound) =>
    bounds id = some bound ∧ bound.isReference = true ∧ Grounded bounds bound
  | upperWildcard upper => upper.isReference = true ∧ Grounded bounds upper
  | array element => Grounded bounds element
  | classType _ _ | unboundedWildcard | lowerWildcard _ | primitive _ | null => True

/-- The bounds of variables are those of a given table, bounds are references, and every primitive
type has values. -/
def Regular (bounds : VarId → Option Ty) : Ty → Prop
  | typeVariable id none => bounds id = none
  | typeVariable id (some bound) =>
    bounds id = some bound ∧ bound.isReference = true ∧ Regular bounds bound
  | upperWildcard upper => upper.isReference = true ∧ Regular bounds upper
  | array element => Regular bounds element
  | primitive kind => kind.isPrimitive = true
  | classType _ _ | unboundedWildcard | lowerWildcard _ | null => True

mutual

theorem same_refl : (type : Ty) → same type type = true
  | primitive kind => by simp [same]
  | classType definition arguments => by simp [same, sameList_refl arguments]
  | typeVariable id _ => by simp [same]
  | unboundedWildcard => by simp [same]
  | upperWildcard upper => by simp [same, same_refl upper]
  | lowerWildcard lower => by simp [same, same_refl lower]
  | array element => by simp [same, same_refl element]
  | null => by simp [same]

theorem sameList_refl : (types : List Ty) → sameList types types = true
  | [] => by simp [sameList]
  | type :: types => by simp [sameList, same_refl type, sameList_refl types]

end

instance : ReflBEq Ty where
  rfl := same_refl _

variable {catalog : Catalog} {bounds : VarId → Option Ty} {type other : Ty}

theorem Regular.element (regular : (array type).Regular bounds) : type.Regular bounds :=
  regular

theorem Grounded.element (grounded : (array type).Grounded bounds) : type.Grounded bounds :=
  grounded

theorem Regular.grounded (regular : type.Regular bounds) : type.Grounded bounds := by
  induction type using spineInduction with
  | openVariable id =>
      exact regular
  | boundVariable id bound inductionHypothesis =>
      exact ⟨regular.1, regular.2.1, inductionHypothesis regular.2.2⟩
  | upperWildcard upper inductionHypothesis =>
      exact ⟨regular.1, inductionHypothesis regular.2⟩
  | array element inductionHypothesis =>
      exact inductionHypothesis regular.element
  | _ =>
      trivial

/-- Grounded types that are equal for the type system have the same erasure. -/
theorem Grounded.erase_eq
    (grounded : type.Grounded bounds) (otherGrounded : other.Grounded bounds)
    (same : (type == other) = true) :
    type.erase catalog = other.erase catalog := by
  replace same : Ty.same type other = true := same
  induction type using spineInduction generalizing other with
  | primitive kind =>
      cases other <;> simp_all [Ty.same]
  | classType definition arguments =>
      cases other <;> simp_all [Ty.same, erase]
  | openVariable id =>
      cases other with
      | typeVariable otherId bound =>
          simp only [Ty.same, beq_iff_eq] at same
          subst same
          cases bound with
          | none =>
              rfl
          | some bound =>
              rw [Grounded] at grounded
              rw [Grounded, grounded] at otherGrounded
              cases otherGrounded.1
      | _ =>
          cases same
  | boundVariable id bound _ =>
      cases other with
      | typeVariable otherId otherBound =>
          simp only [Ty.same, beq_iff_eq] at same
          subst same
          have known := grounded.1
          cases otherBound with
          | none =>
              rw [Grounded, known] at otherGrounded
              cases otherGrounded
          | some otherBound =>
              rw [Grounded, known] at otherGrounded
              cases otherGrounded.1
              rfl
      | _ =>
          cases same
  | unboundedWildcard =>
      cases other <;> simp_all [Ty.same]
  | upperWildcard upper inductionHypothesis =>
      cases other with
      | upperWildcard otherUpper =>
          rw [erase, erase]
          exact inductionHypothesis grounded.2 otherGrounded.2 same
      | _ =>
          cases same
  | lowerWildcard lower =>
      cases other <;> simp_all [Ty.same, erase]
  | array element inductionHypothesis =>
      cases other with
      | array otherElement =>
          have sameElement : Ty.same element otherElement = true := same
          rw [erase, erase, inductionHypothesis grounded.element otherGrounded.element sameElement]
      | _ =>
          cases same
  | null =>
      cases other <;> simp_all [Ty.same]

/-! ## Erased types -/

/-- A type without arguments, variables and wildcards. -/
inductive Erased : Ty → Prop
  | primitive (kind : JvmKind) : Erased (primitive kind)
  | raw (definition : DefinitionId) : Erased (classType definition [])
  | array {element : Ty} : Erased element → Erased (array element)
  | null : Erased null

theorem erased_erase (catalog : Catalog) (type : Ty) : (type.erase catalog).Erased := by
  induction type using spineInduction with
  | primitive kind =>
      exact .primitive kind
  | classType definition _ =>
      exact .raw definition
  | array element inductionHypothesis =>
      exact .array inductionHypothesis
  | null =>
      exact .null
  | boundVariable _ _ inductionHypothesis =>
      exact inductionHypothesis
  | upperWildcard _ inductionHypothesis =>
      exact inductionHypothesis
  | _ =>
      exact .raw _

/-- Erased types that are equal for the type system are the same. -/
theorem Erased.eq_of_beq (erased : type.Erased) (same : (type == other) = true) : type = other := by
  replace same : Ty.same type other = true := same
  induction erased generalizing other with
  | primitive kind =>
      cases other <;> simp_all [Ty.same]
  | raw definition =>
      cases other with
      | classType _ arguments =>
          cases arguments <;> simp_all [Ty.same, sameList]
      | _ =>
          cases same
  | array _ inductionHypothesis =>
      cases other with
      | array element =>
          rw [inductionHypothesis same]
      | _ =>
          cases same
  | null =>
      cases other <;> simp_all [Ty.same]

/-- The erasure of a grounded reference is a reference. -/
theorem Grounded.isReference_erase
    (grounded : type.Grounded bounds) (isReference : type.isReference = true) :
    (type.erase catalog).isReference = true := by
  induction type using spineInduction with
  | primitive kind =>
      cases isReference
  | boundVariable _ _ inductionHypothesis =>
      exact inductionHypothesis grounded.2.2 grounded.2.1
  | upperWildcard _ inductionHypothesis =>
      exact inductionHypothesis grounded.2 grounded.1
  | _ =>
      rfl

theorem Regular.isReference_erase
    (regular : type.Regular bounds) (isReference : type.isReference = true) :
    (type.erase catalog).isReference = true :=
  regular.grounded.isReference_erase isReference

/-- A regular type of values is its own erasure, and no other type has that erasure. -/
theorem Regular.eq_primitive_of_erase
    (regular : type.Regular bounds) {kind : JvmKind} (same : type.erase catalog = primitive kind) :
    type = primitive kind := by
  cases isReference : type.isReference with
  | true =>
      have erasedIsReference : (type.erase catalog).isReference = true :=
        regular.isReference_erase isReference
      rw [same] at erasedIsReference
      cases erasedIsReference
  | false =>
      cases type with
      | primitive _ =>
          exact same
      | _ =>
          cases isReference

theorem isPrimitive_eq_false (isReference : type.isReference = true) : type.isPrimitive = false := by
  cases type with
  | primitive kind =>
      cases isReference
  | _ =>
      rfl

theorem Regular.isPrimitive_erase (regular : type.Regular bounds) :
    (type.erase catalog).isPrimitive = type.isPrimitive := by
  cases isReference : type.isReference with
  | true =>
      rw [isPrimitive_eq_false isReference,
        isPrimitive_eq_false (regular.isReference_erase isReference)]
  | false =>
      cases type with
      | primitive kind =>
          rfl
      | _ =>
          cases isReference

theorem Regular.isReference_of_not_isPrimitive
    (regular : type.Regular bounds) (notPrimitive : type.isPrimitive = false) :
    type.isReference = true := by
  cases type with
  | primitive kind =>
      rw [isPrimitive, primitiveKind?, Option.any_some] at notPrimitive
      rw [Regular, notPrimitive] at regular
      cases regular
  | _ =>
      rfl

end Ty

end TypedJava

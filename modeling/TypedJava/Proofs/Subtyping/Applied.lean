import Mathlib.Data.List.Forall2
import TypedJava.Proofs.Conversion.Regular
import TypedJava.Proofs.Supertypes.Ascent
import TypedJava.Proofs.Supertypes.Instantiation

/-! # Applied types

In an applied type every class has one argument for each of its parameters. Arguments are put in for
parameters wherever a declared supertype mentions them, wildcards included, so a wildcard may end up
inside of another argument or below an array. It cannot if wildcards only stand at exposed
parameters: those that declared supertypes mention at no other places than as whole arguments, for
parameters which are exposed themselves. -/

namespace TypedJava

namespace Ty

variable {bounds : VarId → Option Ty} {substitution : Substitution}

/-- The variables of a type carry the bounds of a table. -/
def BoundBy (bounds : VarId → Option Ty) (type : Ty) : Prop :=
  ∀ mention ∈ type.mentions, bounds mention.1 = mention.2

mutual

/-- Types that are equal for the type system have the same instances where the substitution makes
nothing of the bounds that their variables carry. -/
theorem substitute_eq_of_same :
    (type other : Ty) → same type other = true →
    (∀ id bound otherBound, (id, bound) ∈ type.mentions → (id, otherBound) ∈ other.mentions →
      (substitution.get? id).getD (typeVariable id bound) =
        (substitution.get? id).getD (typeVariable id otherBound)) →
    type.substitute substitution = other.substitute substitution
  | primitive kind, other, isSame, _ => by
      cases other <;> simp_all [same]
  | classType definition arguments, other, isSame, agree => by
      cases other with
      | classType otherDefinition otherArguments =>
          simp only [same, Bool.and_eq_true, beq_iff_eq] at isSame
          rw [substitute, substitute, isSame.1,
            substituteList_eq_of_sameList arguments otherArguments isSame.2 agree]
      | _ => cases isSame
  | typeVariable id bound, other, isSame, agree => by
      cases other with
      | typeVariable otherId otherBound =>
          simp only [same, beq_iff_eq] at isSame
          subst isSame
          exact agree id bound otherBound (List.mem_singleton_self _) (List.mem_singleton_self _)
      | _ => cases isSame
  | unboundedWildcard, other, isSame, _ => by
      cases other <;> simp_all [same]
  | upperWildcard upper, other, isSame, agree => by
      cases other with
      | upperWildcard otherUpper =>
          rw [substitute, substitute, substitute_eq_of_same upper otherUpper isSame agree]
      | _ => cases isSame
  | lowerWildcard lower, other, isSame, agree => by
      cases other with
      | lowerWildcard otherLower =>
          rw [substitute, substitute, substitute_eq_of_same lower otherLower isSame agree]
      | _ => cases isSame
  | array element, other, isSame, agree => by
      cases other with
      | array otherElement =>
          rw [substitute, substitute, substitute_eq_of_same element otherElement isSame agree]
      | _ => cases isSame
  | null, other, isSame, _ => by
      cases other <;> simp_all [same]

theorem substituteList_eq_of_sameList :
    (types others : List Ty) → sameList types others = true →
    (∀ id bound otherBound, (id, bound) ∈ mentionsList types →
      (id, otherBound) ∈ mentionsList others →
      (substitution.get? id).getD (typeVariable id bound) =
        (substitution.get? id).getD (typeVariable id otherBound)) →
    substituteList substitution types = substituteList substitution others
  | [], others, isSame, _ => by
      cases others with
      | nil => rfl
      | cons => cases isSame
  | type :: types, others, isSame, agree => by
      cases others with
      | nil => cases isSame
      | cons other others =>
          simp only [sameList, Bool.and_eq_true] at isSame
          rw [substituteList, substituteList,
            substitute_eq_of_same type other isSame.1 fun id bound otherBound mentioned others =>
              agree id bound otherBound (List.mem_append_left _ mentioned)
                (List.mem_append_left _ others),
            substituteList_eq_of_sameList types others isSame.2
              fun id bound otherBound mentioned others =>
                agree id bound otherBound (List.mem_append_right _ mentioned)
                  (List.mem_append_right _ others)]

end

theorem substitute_empty (type : Ty) : type.substitute .empty = type :=
  substitute_eq_self type fun _ _ _ => rfl

/-- Where variables carry the bounds of one table, equality for the type system is equality. -/
theorem BoundBy.eq_of_beq
    {type other : Ty} (bound : type.BoundBy bounds) (otherBound : other.BoundBy bounds)
    (isSame : (type == other) = true) :
    type = other := by
  have instances : type.substitute .empty = other.substitute .empty := by
    apply substitute_eq_of_same type other isSame
    intro id first second mentioned otherMentioned
    have sameBound : first = second := (bound _ mentioned).symm.trans (otherBound _ otherMentioned)
    rw [sameBound]
  rw [substitute_empty, substitute_empty] at instances
  exact instances

mutual

/-- An instance mentions what is put in for the variables of the type. -/
theorem exists_of_mem_mentions_substitute {mention : VarId × Option Ty} :
    (type : Ty) → mention ∈ (type.substitute substitution).mentions →
    ∃ id bound, (id, bound) ∈ type.mentions ∧
      mention ∈ ((substitution.get? id).getD (typeVariable id bound)).mentions
  | typeVariable id bound, mentioned => ⟨id, bound, List.mem_singleton_self _, mentioned⟩
  | classType _ arguments, mentioned => exists_of_mem_mentionsList_substitute arguments mentioned
  | array element, mentioned => exists_of_mem_mentions_substitute element mentioned
  | upperWildcard upper, mentioned => exists_of_mem_mentions_substitute upper mentioned
  | lowerWildcard lower, mentioned => exists_of_mem_mentions_substitute lower mentioned
  | unboundedWildcard, mentioned => by cases mentioned
  | primitive _, mentioned => by cases mentioned
  | null, mentioned => by cases mentioned

theorem exists_of_mem_mentionsList_substitute {mention : VarId × Option Ty} :
    (types : List Ty) → mention ∈ mentionsList (substituteList substitution types) →
    ∃ id bound, (id, bound) ∈ mentionsList types ∧
      mention ∈ ((substitution.get? id).getD (typeVariable id bound)).mentions
  | [], mentioned => by cases mentioned
  | type :: types, mentioned => by
      rcases List.mem_append.mp mentioned with inFirst | inOthers
      · obtain ⟨id, bound, member, found⟩ := exists_of_mem_mentions_substitute type inFirst
        exact ⟨id, bound, List.mem_append_left _ member, found⟩
      · obtain ⟨id, bound, member, found⟩ := exists_of_mem_mentionsList_substitute types inOthers
        exact ⟨id, bound, List.mem_append_right _ member, found⟩

end

end Ty

namespace Catalog

/-- The variables that stand for the parameters of a class; an unknown class has none. -/
def parameterIds (catalog : Catalog) (id : DefinitionId) : List VarId :=
  (catalog.definition? id).elim [] fun definition => definition.parameterIds id

mutual

/-- A reference type in which every class has one argument for each of its parameters. Wildcards
stand at exposed parameters only; whether the type itself may be a wildcard is told apart. The bound
of a wildcard is not a wildcard. -/
def isApplied (catalog : Catalog) (exposed : VarId → Bool) : (mayBeWildcard : Bool) → Ty → Bool
  | _, .classType id arguments => areApplied catalog exposed (catalog.parameterIds id) arguments
  | _, .typeVariable _ _ => true
  | _, .array element => element.isPrimitive || isApplied catalog exposed false element
  | mayBeWildcard, .unboundedWildcard => mayBeWildcard
  | mayBeWildcard, .upperWildcard upper => mayBeWildcard && isApplied catalog exposed false upper
  | mayBeWildcard, .lowerWildcard lower => mayBeWildcard && isApplied catalog exposed false lower
  | _, .primitive _ | _, .null => false

/-- Are the types fit to be the arguments for some parameters? -/
def areApplied (catalog : Catalog) (exposed : VarId → Bool) : List VarId → List Ty → Bool
  | [], [] => true
  | parameter :: parameters, argument :: arguments =>
    isApplied catalog exposed (exposed parameter) argument &&
      areApplied catalog exposed parameters arguments
  | _, _ => false

end

section Applied

variable {catalog : Catalog} {exposed : VarId → Bool} {id : DefinitionId}

theorem parameterIds_of_definition?
    {definition : Definition} (found : catalog.definition? id = some definition) :
    catalog.parameterIds id = definition.parameterIds id := by
  rw [parameterIds, found]
  rfl

theorem length_parameterIds
    {definition : Definition} (found : catalog.definition? id = some definition) :
    (catalog.parameterIds id).length = definition.parameters.length := by
  rw [parameterIds_of_definition? found, Definition.parameterIds, List.length_map]

theorem areApplied_iff {parameters : List VarId} {arguments : List Ty} :
    catalog.areApplied exposed parameters arguments = true ↔
      List.Forall₂ (fun parameter argument =>
        catalog.isApplied exposed (exposed parameter) argument = true) parameters arguments := by
  induction parameters generalizing arguments with
  | nil => cases arguments <;> simp [areApplied]
  | cons parameter parameters inductionHypothesis =>
      cases arguments with
      | nil => simp [areApplied]
      | cons argument arguments => simp [areApplied, inductionHypothesis]

theorem isApplied_of_false
    {type : Ty} (applied : catalog.isApplied exposed false type = true) (mayBeWildcard : Bool) :
    catalog.isApplied exposed mayBeWildcard type = true := by
  cases type with
  | unboundedWildcard => cases applied
  | upperWildcard upper => cases applied
  | lowerWildcard lower => cases applied
  | _ => exact applied

theorem isApplied_of_mem
    {parameters : List VarId} {arguments : List Ty} {argument : Ty}
    (applied : catalog.areApplied exposed parameters arguments = true)
    (member : argument ∈ arguments) :
    catalog.isApplied exposed true argument = true := by
  induction areApplied_iff.mp applied with
  | nil => cases member
  | @cons parameter first parameters rest firstApplied restApplied inductionHypothesis =>
      rcases List.mem_cons.mp member with rfl | inRest
      · cases isExposed : exposed parameter with
        | true => rwa [isExposed] at firstApplied
        | false =>
            rw [isExposed] at firstApplied
            exact isApplied_of_false firstApplied true
      · exact inductionHypothesis (areApplied_iff.mpr restApplied) inRest

mutual

/-- Putting applied types that are no wildcards in for variables keeps a type applied. -/
theorem isApplied_substitute {substitution : Substitution} :
    {mayBeWildcard : Bool} → (type : Ty) →
    catalog.isApplied exposed mayBeWildcard type = true →
    (∀ id bound, (id, bound) ∈ type.mentions →
      catalog.isApplied exposed false
        ((substitution.get? id).getD (.typeVariable id bound)) = true) →
    catalog.isApplied exposed mayBeWildcard (type.substitute substitution) = true
  | _, .classType id arguments, applied, fits =>
      areApplied_substituteList _ arguments applied fits
  | _, .typeVariable id bound, _, fits =>
      isApplied_of_false (fits id bound (List.mem_singleton_self _)) _
  | _, .array element, applied, fits => by
      rw [isApplied, Bool.or_eq_true] at applied
      rw [Ty.substitute, isApplied, Bool.or_eq_true]
      rcases applied with isPrimitive | applied
      · cases element with
        | primitive kind => exact Or.inl isPrimitive
        | _ => cases isPrimitive
      · exact Or.inr (isApplied_substitute element applied fits)
  | _, .unboundedWildcard, applied, _ => applied
  | _, .upperWildcard upper, applied, fits => by
      rw [isApplied, Bool.and_eq_true] at applied
      rw [Ty.substitute, isApplied, Bool.and_eq_true]
      exact ⟨applied.1, isApplied_substitute upper applied.2 fits⟩
  | _, .lowerWildcard lower, applied, fits => by
      rw [isApplied, Bool.and_eq_true] at applied
      rw [Ty.substitute, isApplied, Bool.and_eq_true]
      exact ⟨applied.1, isApplied_substitute lower applied.2 fits⟩
  | _, .primitive _, applied, _ => by cases applied
  | _, .null, applied, _ => by cases applied

theorem areApplied_substituteList {substitution : Substitution} :
    (parameters : List VarId) → (arguments : List Ty) →
    catalog.areApplied exposed parameters arguments = true →
    (∀ id bound, (id, bound) ∈ Ty.mentionsList arguments →
      catalog.isApplied exposed false
        ((substitution.get? id).getD (.typeVariable id bound)) = true) →
    catalog.areApplied exposed parameters (Ty.substituteList substitution arguments) = true
  | [], [], _, _ => rfl
  | _ :: parameters, argument :: arguments, applied, fits => by
      rw [areApplied, Bool.and_eq_true] at applied
      rw [Ty.substituteList, areApplied, Bool.and_eq_true]
      exact ⟨isApplied_substitute argument applied.1 fun id bound mentioned =>
          fits id bound (List.mem_append_left _ mentioned),
        areApplied_substituteList parameters arguments applied.2 fun id bound mentioned =>
          fits id bound (List.mem_append_right _ mentioned)⟩
  | [], _ :: _, applied, _ => by cases applied
  | _ :: _, [], applied, _ => by cases applied

end

end Applied

/-- The supertypes that a catalog declares are uses of classes in which no class is raw, and no
class inherits from another one with two different lists of arguments. -/
structure Orderly (catalog : Catalog) : Prop where
  declaresUses : catalog.DeclaresUses
  applied : ∀ id, ∀ definition ∈ catalog.definition? id,
    ∀ type ∈ definition.supertypes catalog.objectType,
      catalog.isApplied (fun _ => true) false type = true
  coherent : ∀ id, ∀ definition ∈ catalog.definition? id,
    ∀ {target arguments others steps more},
      catalog.Ascends steps (definition.ownType id) (.classType target arguments) →
      catalog.Ascends more (definition.ownType id) (.classType target others) →
      Ty.classType target arguments == Ty.classType target others

/-- No hierarchy is as high as a limit; in particular no class derives from itself. -/
def HasDepthBelow (catalog : Catalog) (limit : Nat) : Prop :=
  ∀ id, ∀ definition ∈ catalog.definition? id, ∀ {last steps},
    catalog.Ascends steps (definition.ownType id) last → steps < limit

/-- Some parameters are exposed: wildcards stand at them only, and where a declared supertype
mentions one of them, it is a whole argument for one of them. -/
structure Exposes (catalog : Catalog) (exposed : VarId → Bool) : Prop where
  applied : ∀ id, ∀ definition ∈ catalog.definition? id,
    ∀ type ∈ definition.supertypes catalog.objectType,
      catalog.isApplied exposed false type = true
  whole : ∀ id, ∀ definition ∈ catalog.definition? id,
    ∀ {above arguments}, .classType above arguments ∈ definition.supertypes catalog.objectType →
      ∀ parameter argument, (parameter, argument) ∈ (catalog.parameterIds above).zip arguments →
        ∀ mention ∈ argument.mentions, exposed mention.1 = true →
          exposed parameter = true ∧ argument.isTypeVariable = true

/-! ## Reading the conditions off a catalog -/

/-- The types at the ends of all ascents of some length. -/
def reachedIn (catalog : Catalog) : (steps : Nat) → Ty → List Ty
  | 0, type => [type]
  | steps + 1, type => (catalog.immediateSupertypes type).flatMap (reachedIn catalog steps)

section Registered

variable {catalog : Catalog} {exposed : VarId → Bool} {type last : Ty} {steps limit : Nat}

theorem Ascends.mem_reachedIn (ascent : catalog.Ascends steps type last) :
    last ∈ catalog.reachedIn steps type := by
  induction ascent with
  | here type => exact List.mem_singleton_self type
  | up member _ inductionHypothesis => exact List.mem_flatMap.mpr ⟨_, member, inductionHypothesis⟩

/-- Where nothing is reached in some number of steps, nothing is reached in more. -/
theorem Ascends.lt_of_reachedIn
    (ascent : catalog.Ascends steps type last) (nothing : catalog.reachedIn limit type = []) :
    steps < limit := by
  induction ascent generalizing limit with
  | here type =>
      cases limit with
      | zero => cases nothing
      | succ limit => exact Nat.succ_pos limit
  | up member _ inductionHypothesis =>
      cases limit with
      | zero => cases nothing
      | succ limit =>
          rw [reachedIn, List.flatMap_eq_nil_iff] at nothing
          exact Nat.succ_lt_succ (inductionHypothesis (nothing _ member))

theorem HasDepthBelow.of_ids
    (registered : ∀ id ∈ catalog.ids, ∀ definition ∈ catalog.definition? id,
      catalog.reachedIn limit (definition.ownType id) = []) :
    catalog.HasDepthBelow limit :=
  fun id definition found _ _ ascent =>
    ascent.lt_of_reachedIn (registered id (mem_ids_of_definition? found) definition found)

theorem Orderly.of_ids
    (declaresUses : catalog.DeclaresUses) (hasDepth : catalog.HasDepthBelow limit)
    (registered : ∀ id ∈ catalog.ids, ∀ definition ∈ catalog.definition? id,
      (∀ type ∈ definition.supertypes catalog.objectType,
        catalog.isApplied (fun _ => true) false type = true) ∧
      let reached :=
        (List.range limit).flatMap fun steps => catalog.reachedIn steps (definition.ownType id)
      ∀ type ∈ reached, ∀ other ∈ reached, type.definition? = other.definition? →
        (type == other) = true) :
    catalog.Orderly where
  declaresUses := declaresUses
  applied id definition found := (registered id (mem_ids_of_definition? found) definition found).1
  coherent id definition found target arguments others steps more first second := by
    have reached {type : Ty} {steps : Nat}
        (ascent : catalog.Ascends steps (definition.ownType id) type) :
        type ∈ (List.range limit).flatMap fun steps =>
          catalog.reachedIn steps (definition.ownType id) :=
      List.mem_flatMap.mpr
        ⟨steps, List.mem_range.mpr (hasDepth id definition found ascent), ascent.mem_reachedIn⟩
    exact (registered id (mem_ids_of_definition? found) definition found).2 _ (reached first) _
      (reached second) rfl

theorem Exposes.of_ids
    (registered : ∀ id ∈ catalog.ids, ∀ definition ∈ catalog.definition? id,
      ∀ type ∈ definition.supertypes catalog.objectType,
        catalog.isApplied exposed false type = true ∧
        ∀ above ∈ type.definition?, ∀ pair ∈ (catalog.parameterIds above).zip type.arguments,
          ∀ mention ∈ pair.2.mentions, exposed mention.1 = true →
            exposed pair.1 = true ∧ pair.2.isTypeVariable = true) :
    catalog.Exposes exposed where
  applied id definition found type declared :=
    (registered id (mem_ids_of_definition? found) definition found type declared).1
  whole id definition found above _ declared parameter argument zipped :=
    (registered id (mem_ids_of_definition? found) definition found _ declared).2 above rfl
      (parameter, argument) zipped

end Registered

end Catalog

end TypedJava

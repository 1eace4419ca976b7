import Mathlib.Data.List.Nodup
import TypedJava.Supertypes

/-! # Views of instances

Substitution commutes with the search for a view: the view of an instance is the instance of the
view, found along the same way. So the view of a use of a definition is the view of its own type
with the arguments put in. The laws rest on the composition of substitutions. -/

namespace TypedJava

/-! ## Substitution -/

namespace Ty

mutual

/-- The variables that a type mentions, with the bounds that they carry there. -/
def mentions : Ty → List (VarId × Option Ty)
  | typeVariable id bound => [(id, bound)]
  | classType _ arguments => mentionsList arguments
  | array element => mentions element
  | upperWildcard upper => mentions upper
  | lowerWildcard lower => mentions lower
  | unboundedWildcard | primitive _ | null => []

/-- The variables that the types of a list mention. -/
def mentionsList : List Ty → List (VarId × Option Ty)
  | [] => []
  | type :: types => mentions type ++ mentionsList types

end

theorem mentionsList_eq_flatMap (types : List Ty) :
    mentionsList types = types.flatMap mentions := by
  induction types with
  | nil => rfl
  | cons type types inductionHypothesis =>
      rw [mentionsList, inductionHypothesis, List.flatMap_cons]

theorem substituteList_eq_map (substitution : Substitution) (types : List Ty) :
    substituteList substitution types = types.map (substitute substitution) := by
  induction types with
  | nil => rfl
  | cons type types inductionHypothesis =>
      rw [substituteList, inductionHypothesis, List.map_cons]

mutual

/-- Two substitutions, one after the other, are the same as one that has their joint effect on the
variables that the type mentions. -/
theorem substitute_substitute {first second joint : Substitution} :
    (type : Ty) →
    (∀ id bound, (id, bound) ∈ type.mentions →
      ((first.get? id).getD (typeVariable id bound)).substitute second =
        (joint.get? id).getD (typeVariable id bound)) →
    (type.substitute first).substitute second = type.substitute joint
  | typeVariable id bound, effect => effect id bound (List.mem_singleton_self _)
  | classType definition arguments, effect => by
      simp only [substitute]
      rw [substituteList_substituteList arguments effect]
  | array element, effect => by
      simp only [substitute]
      rw [substitute_substitute element effect]
  | upperWildcard upper, effect => by
      simp only [substitute]
      rw [substitute_substitute upper effect]
  | lowerWildcard lower, effect => by
      simp only [substitute]
      rw [substitute_substitute lower effect]
  | unboundedWildcard, _ => rfl
  | primitive _, _ => rfl
  | null, _ => rfl

theorem substituteList_substituteList {first second joint : Substitution} :
    (types : List Ty) →
    (∀ id bound, (id, bound) ∈ mentionsList types →
      ((first.get? id).getD (typeVariable id bound)).substitute second =
        (joint.get? id).getD (typeVariable id bound)) →
    substituteList second (substituteList first types) = substituteList joint types
  | [], _ => rfl
  | type :: types, effect => by
      simp only [substituteList]
      rw [substitute_substitute type fun id bound mentioned =>
          effect id bound (List.mem_append_left _ mentioned),
        substituteList_substituteList types fun id bound mentioned =>
          effect id bound (List.mem_append_right _ mentioned)]

end

mutual

/-- A substitution that leaves the variables of a type as they are leaves the type as it is. -/
theorem substitute_eq_self {substitution : Substitution} :
    (type : Ty) →
    (∀ id bound, (id, bound) ∈ type.mentions →
      (substitution.get? id).getD (typeVariable id bound) = typeVariable id bound) →
    type.substitute substitution = type
  | typeVariable id bound, fixed => fixed id bound (List.mem_singleton_self _)
  | classType definition arguments, fixed => by
      rw [substitute, substituteList_eq_self arguments fixed]
  | array element, fixed => by
      rw [substitute, substitute_eq_self element fixed]
  | upperWildcard upper, fixed => by
      rw [substitute, substitute_eq_self upper fixed]
  | lowerWildcard lower, fixed => by
      rw [substitute, substitute_eq_self lower fixed]
  | unboundedWildcard, _ => rfl
  | primitive _, _ => rfl
  | null, _ => rfl

theorem substituteList_eq_self {substitution : Substitution} :
    (types : List Ty) →
    (∀ id bound, (id, bound) ∈ mentionsList types →
      (substitution.get? id).getD (typeVariable id bound) = typeVariable id bound) →
    substituteList substitution types = types
  | [], _ => rfl
  | type :: types, fixed => by
      rw [substituteList,
        substitute_eq_self type fun id bound mentioned =>
          fixed id bound (List.mem_append_left _ mentioned),
        substituteList_eq_self types fun id bound mentioned =>
          fixed id bound (List.mem_append_right _ mentioned)]

end

end Ty

/-! ## Parameters and arguments -/

namespace Definition

/-- The variables that stand for the parameters of a definition. -/
def parameterIds (definition : Definition) (owner : DefinitionId) : List VarId :=
  definition.parameters.map fun parameter => ⟨parameter.name, some owner⟩

end Definition

namespace Substitution

theorem lookup_filter_ne
    {id other : VarId} (different : other ≠ id) (bindings : List (VarId × Ty)) :
    (bindings.filter fun (bound, _) => bound ≠ id).lookup other = bindings.lookup other := by
  induction bindings with
  | nil => rfl
  | cons binding bindings inductionHypothesis =>
      obtain ⟨bound, type⟩ := binding
      by_cases isForgotten : bound = id
      · have notFound : (other == id) = false := by simpa using different
        simpa [List.lookup_cons, isForgotten, notFound] using inductionHypothesis
      · simp only [ne_eq, isForgotten, not_false_eq_true, decide_true, List.filter_cons_of_pos,
          List.lookup_cons]
        rw [inductionHypothesis]

theorem get?_insert (substitution : Substitution) (id other : VarId) (type : Ty) :
    (substitution.insert id type).get? other =
      if other = id then some type else substitution.get? other := by
  rw [insert, get?, List.lookup_cons, get?]
  by_cases same : other = id
  · simp [same]
  · have notFound : (other == id) = false := by simpa using same
    rw [if_neg same, notFound, ← lookup_filter_ne same substitution.bindings]

/-- A variable is bound to what the last parameter of its name is bound to. -/
theorem get?_bindParameters
    (owner : DefinitionId) (parameters : List TypeParameter) (types : List Ty) (id : VarId) :
    (bindParameters owner parameters types).get? id =
      ((parameters.zip types).reverse.find? fun (parameter, _) =>
        id = ⟨parameter.name, some owner⟩).map (·.2) := by
  have bindAll (pairs : List (TypeParameter × Ty)) (substitution : Substitution) :
      (pairs.foldl (fun substitution (parameter, type) =>
        substitution.insert ⟨parameter.name, some owner⟩ type) substitution).get? id =
        ((pairs.reverse.find? fun (parameter, _) => id = ⟨parameter.name, some owner⟩).map
          (·.2)).or (substitution.get? id) := by
    induction pairs generalizing substitution with
    | nil => rfl
    | cons pair pairs inductionHypothesis =>
        obtain ⟨parameter, type⟩ := pair
        rw [List.foldl_cons, inductionHypothesis, get?_insert, List.reverse_cons,
          List.find?_append]
        cases pairs.reverse.find? fun (parameter, _) => id = ⟨parameter.name, some owner⟩ with
        | some found => rfl
        | none =>
            by_cases same : id = ⟨parameter.name, some owner⟩
            · simp [same]
            · simp [same]
  rw [bindParameters, bindAll]
  cases (parameters.zip types).reverse.find? _ <;> rfl

theorem get?_bindParameters_map
    (owner : DefinitionId) (parameters : List TypeParameter) (types : List Ty) (adapt : Ty → Ty)
    (id : VarId) :
    (bindParameters owner parameters (types.map adapt)).get? id =
      ((bindParameters owner parameters types).get? id).map adapt := by
  rw [get?_bindParameters, get?_bindParameters, List.zip_map_right, ← List.map_reverse,
    List.find?_map, Option.map_map, Option.map_map]
  rfl

/-- What a variable is bound to stands at the place of a parameter of its name. -/
theorem exists_of_get?_bindParameters
    {owner : DefinitionId} {parameters : List TypeParameter} {types : List Ty} {id : VarId}
    {type : Ty} (found : (bindParameters owner parameters types).get? id = some type) :
    ∃ parameter, (parameter, type) ∈ parameters.zip types ∧
      id = ⟨parameter.name, some owner⟩ := by
  rw [get?_bindParameters] at found
  obtain ⟨⟨parameter, other⟩, isFound, rfl⟩ := Option.map_eq_some_iff.mp found
  refine ⟨parameter, List.mem_reverse.mp (List.mem_of_find?_eq_some isFound), ?_⟩
  simpa using List.find?_some isFound

/-- If there is a type for each parameter, every parameter is bound. -/
theorem isSome_get?_bindParameters
    {owner : DefinitionId} {parameters : List TypeParameter} {types : List Ty}
    (sameLength : types.length = parameters.length) {parameter : TypeParameter}
    (member : parameter ∈ parameters) :
    ((bindParameters owner parameters types).get? ⟨parameter.name, some owner⟩).isSome = true := by
  obtain ⟨index, less, rfl⟩ := List.mem_iff_getElem.mp member
  have zipped : (parameters[index], types[index]) ∈ parameters.zip types := by
    rw [← List.getElem_zip (h := by simp; omega)]
    exact List.getElem_mem _
  rw [get?_bindParameters, Option.isSome_map, List.find?_isSome]
  exact ⟨_, List.mem_reverse.mpr zipped, by simp⟩

/-- Parameters of different names are bound to the types at their places. -/
theorem get?_bindParameters_getElem
    {owner : DefinitionId} {parameters : List TypeParameter} {types : List Ty}
    (sameLength : types.length = parameters.length) (distinct : (parameters.map (·.name)).Nodup)
    {index : Nat} (less : index < parameters.length) :
    (bindParameters owner parameters types).get? ⟨parameters[index].name, some owner⟩ =
      some types[index] := by
  have zipped : (parameters[index], types[index]) ∈ parameters.zip types := by
    rw [← List.getElem_zip (h := by simp; omega)]
    exact List.getElem_mem _
  have isBound : ((bindParameters owner parameters types).get?
      ⟨parameters[index].name, some owner⟩).isSome = true :=
    isSome_get?_bindParameters sameLength (List.getElem_mem less)
  obtain ⟨other, found⟩ := Option.isSome_iff_exists.mp isBound
  obtain ⟨namesake, otherMember, same⟩ := exists_of_get?_bindParameters found
  have sameName : parameters[index].name = namesake.name := (VarId.mk.inj same).1
  have names : ((parameters.zip types).map fun pair => pair.1.name).Nodup := by
    rw [← List.map_fst_zip (Nat.le_of_eq sameLength.symm), List.map_map] at distinct
    exact distinct
  have samePair : (parameters[index], types[index]) = (namesake, other) :=
    List.inj_on_of_nodup_map names zipped otherMember sameName
  rw [found, (Prod.mk.inj samePair).2]

/-- Putting arguments in for the parameters of different names gives the arguments. -/
theorem substituteList_ownVariables
    {owner : DefinitionId} {definition : Definition} {arguments : List Ty}
    (sameLength : arguments.length = definition.parameters.length)
    (distinct : (definition.parameters.map (·.name)).Nodup) :
    Ty.substituteList (bindParameters owner definition.parameters arguments)
      (definition.ownVariables owner) = arguments := by
  rw [Ty.substituteList_eq_map, Definition.ownVariables, List.map_map]
  apply List.ext_getElem
  · simpa using sameLength.symm
  · intro index less _
    have inParameters : index < definition.parameters.length := by simpa using less
    rw [List.getElem_map]
    simp only [Function.comp, TypeParameter.toVariable, Ty.substitute]
    rw [get?_bindParameters_getElem sameLength distinct inParameters]
    rfl

end Substitution

/-! ## Views -/

namespace Catalog

/-- The type uses a class, either raw or with one argument for each parameter. -/
def IsUse (catalog : Catalog) : Ty → Prop
  | .classType id arguments =>
    arguments = [] ∨
      ∀ definition ∈ catalog.definition? id, arguments.length = definition.parameters.length
  | _ => False

instance (catalog : Catalog) : DecidablePred catalog.IsUse := fun type => by
  cases type <;> unfold IsUse <;> infer_instance

/-- Every declared supertype uses a class and mentions no other variables than the parameters of its
own definition, which have different names. -/
structure DeclaresUses (catalog : Catalog) : Prop where
  uses : ∀ id, ∀ definition ∈ catalog.definition? id,
    ∀ type ∈ definition.supertypes catalog.objectType, catalog.IsUse type
  own : ∀ id, ∀ definition ∈ catalog.definition? id,
    ∀ type ∈ definition.supertypes catalog.objectType,
      ∀ mention ∈ type.mentions, mention.1 ∈ definition.parameterIds id
  distinct : ∀ id, ∀ definition ∈ catalog.definition? id,
    (definition.parameters.map (·.name)).Nodup

section Views

variable {catalog : Catalog} {id target : DefinitionId} {arguments : List Ty}

theorem IsUse.substitute {type : Ty} (use : catalog.IsUse type) (substitution : Substitution) :
    catalog.IsUse (type.substitute substitution) := by
  cases type with
  | classType id arguments =>
      rw [Ty.substitute, IsUse, Ty.substituteList_eq_map, List.map_eq_nil_iff, List.length_map]
      exact use
  | _ => cases use

theorem IsUse.erase {type : Ty} (use : catalog.IsUse type) :
    ∃ id, type.erase catalog = .raw id := by
  cases type with
  | classType id arguments => exact ⟨id, rfl⟩
  | _ => cases use

/-- The types above a use with one argument for each parameter are the declared supertypes with the
arguments put in. -/
theorem DeclaresUses.classSupertypes_eq
    (declares : catalog.DeclaresUses) (notObject : id ≠ catalog.core.object)
    {definition : Definition} (found : catalog.definition? id = some definition)
    (arity : arguments.length = definition.parameters.length) :
    catalog.classSupertypes id arguments =
      (definition.supertypes catalog.objectType).map
        (Ty.substitute (.bindParameters id definition.parameters arguments)) := by
  simp only [classSupertypes, if_neg notObject, found]
  cases isGeneric : definition.isGeneric with
  | false =>
      -- Without parameters the declared supertypes mention no variables at all.
      have noParameters : definition.parameterIds id = [] := by
        simpa [Definition.isGeneric, Definition.parameterIds] using isGeneric
      have closed : ∀ type ∈ definition.supertypes catalog.objectType,
          type.substitute (.bindParameters id definition.parameters arguments) = type := by
        intro type declared
        apply Ty.substitute_eq_self
        intro parameter bound mentioned
        have isParameter := declares.own id definition found type declared _ mentioned
        rw [noParameters] at isParameter
        cases isParameter
      simp only [Bool.not_false, if_true]
      exact ((List.map_congr_left closed).trans (List.map_id' _)).symm
  | true =>
      have notRaw : arguments ≠ [] := by
        intro isRaw
        rw [isRaw] at arity
        simp [Definition.isGeneric, List.length_eq_zero_iff.mp arity.symm] at isGeneric
      have notEmpty : arguments.isEmpty = false := by simpa using notRaw
      simp only [Substitution.ofClass?, notEmpty, found, arity, Bool.not_true, Bool.false_eq_true,
        if_false, if_true]

/-- The types above a raw use of a generic class are raw uses. -/
theorem DeclaresUses.eq_raw_of_mem
    (declares : catalog.DeclaresUses) {definition : Definition}
    (found : catalog.definition? id = some definition) (isGeneric : definition.isGeneric = true)
    {above : Ty} (member : above ∈ catalog.classSupertypes id []) :
    ∃ raw, above = .raw raw := by
  rw [classSupertypes] at member
  split at member
  · cases member
  · simp only [found, isGeneric, Bool.not_true, Bool.false_eq_true, if_false, List.isEmpty_nil,
      if_true] at member
    obtain ⟨type, declared, rfl⟩ := List.mem_map.mp member
    exact (declares.uses id definition found type declared).erase

/-- A use of a registered class that is not raw, or of a class without parameters, has one argument
for each parameter. -/
theorem IsUse.arity_or_raw
    (use : catalog.IsUse (.classType id arguments)) {definition : Definition}
    (found : catalog.definition? id = some definition) :
    arguments.length = definition.parameters.length ∨
      (arguments = [] ∧ definition.isGeneric = true) := by
  rcases use with isRaw | arity
  · cases isGeneric : definition.isGeneric with
    | true => exact Or.inr ⟨isRaw, rfl⟩
    | false =>
        rw [isRaw]
        simp only [Definition.isGeneric, Bool.not_eq_false', List.isEmpty_iff] at isGeneric
        rw [isGeneric]
        exact Or.inl rfl
  · exact Or.inl (arity definition found)

/-- The types above a use of a class are uses of classes. -/
theorem DeclaresUses.isUse_of_mem
    (declares : catalog.DeclaresUses) (use : catalog.IsUse (.classType id arguments)) {above : Ty}
    (member : above ∈ catalog.classSupertypes id arguments) :
    catalog.IsUse above := by
  by_cases isObject : id = catalog.core.object
  · rw [classSupertypes, if_pos isObject] at member
    cases member
  cases found : catalog.definition? id with
  | none =>
      simp only [classSupertypes, if_neg isObject, found] at member
      cases member
  | some definition =>
      rcases use.arity_or_raw found with arity | ⟨rfl, isGeneric⟩
      · rw [declares.classSupertypes_eq isObject found arity] at member
        obtain ⟨type, declared, rfl⟩ := List.mem_map.mp member
        exact (declares.uses id definition found type declared).substitute _
      · obtain ⟨raw, rfl⟩ := declares.eq_raw_of_mem found isGeneric member
        exact Or.inl rfl

/-- The types above an instance are the instances of the types above. -/
theorem DeclaresUses.classSupertypes_substitute
    (declares : catalog.DeclaresUses) (use : catalog.IsUse (.classType id arguments))
    (substitution : Substitution) :
    catalog.classSupertypes id (Ty.substituteList substitution arguments) =
      (catalog.classSupertypes id arguments).map (Ty.substitute substitution) := by
  by_cases isObject : id = catalog.core.object
  · simp only [classSupertypes, if_pos isObject, List.map_nil]
  cases found : catalog.definition? id with
  | none =>
      simp only [classSupertypes, if_neg isObject, found, List.map_nil]
  | some definition =>
      rw [Ty.substituteList_eq_map]
      rcases use.arity_or_raw found with arity | ⟨rfl, isGeneric⟩
      · rw [declares.classSupertypes_eq isObject found arity,
          declares.classSupertypes_eq isObject found (by simpa using arity), List.map_map]
        apply List.map_congr_left
        intro type declared
        symm
        apply Ty.substitute_substitute
        intro mention bound mentioned
        obtain ⟨parameter, member, rfl⟩ :=
          List.mem_map.mp (declares.own id definition found type declared _ mentioned)
        obtain ⟨bindsTo, isBound⟩ := Option.isSome_iff_exists.mp
          (Substitution.isSome_get?_bindParameters arity member)
        rw [Substitution.get?_bindParameters_map, isBound]
        rfl
      · symm
        apply (List.map_congr_left _).trans (List.map_id' _)
        intro above member
        obtain ⟨raw, rfl⟩ := declares.eq_raw_of_mem found isGeneric member
        rfl

/-- The search for the view of an instance goes the same way as the search for the view. -/
theorem DeclaresUses.viewWithin_substitute
    (declares : catalog.DeclaresUses) {type : Ty} (use : catalog.IsUse type)
    (substitution : Substitution) (fuel : Nat) :
    catalog.viewWithin target fuel (type.substitute substitution) =
      (catalog.viewWithin target fuel type).map (Ty.substitute substitution) := by
  induction fuel generalizing type with
  | zero => rfl
  | succ fuel inductionHypothesis =>
      cases type with
      | classType id arguments =>
          rw [Ty.substitute, viewWithin, viewWithin]
          by_cases same : id = target
          · simp only [if_pos same, Option.map_some, Ty.substitute]
          · simp only [if_neg same]
            rw [declares.classSupertypes_substitute use, List.findSome?_map, List.map_findSome?,
              ← List.head?_filterMap, ← List.head?_filterMap]
            congr 1
            apply List.filterMap_congr
            intro above member
            exact inductionHypothesis (declares.isUse_of_mem use member)
      | _ => cases use

end Views

/-- Views commute with substitution, for every use of a class and every substitution. So the view of
a use of a definition is the view of its own type with the arguments in place of the parameters. -/
theorem viewAs?_substitute
    {catalog : Catalog} (declares : catalog.DeclaresUses) (target : DefinitionId) :
    (∀ type, catalog.IsUse type → ∀ substitution,
      catalog.viewAs? (type.substitute substitution) target =
        (catalog.viewAs? type target).map (Ty.substitute substitution)) ∧
    ∀ id definition, catalog.definition? id = some definition →
      ∀ arguments, arguments.length = definition.parameters.length →
        catalog.viewAs? (.classType id arguments) target =
          (catalog.viewAs? (definition.ownType id) target).map
            (Ty.substitute (.bindParameters id definition.parameters arguments)) := by
  refine ⟨fun type use substitution => declares.viewWithin_substitute use substitution _, ?_⟩
  intro id definition found arguments arity
  have ownUse : catalog.IsUse (definition.ownType id) := by
    refine Or.inr fun other isOther => ?_
    cases found.symm.trans isOther
    exact List.length_map _
  have instanceOfOwn :
      (definition.ownType id).substitute (.bindParameters id definition.parameters arguments) =
        .classType id arguments := by
    rw [Definition.ownType, Ty.substitute,
      Substitution.substituteList_ownVariables arity (declares.distinct id definition found)]
  rw [← instanceOfOwn]
  exact declares.viewWithin_substitute ownUse _ _

/-! ### A diamond -/

/-- Whether definitions only declare uses of classes can be read off the registered definitions. -/
theorem DeclaresUses.of_ids
    {catalog : Catalog}
    (registered : ∀ id ∈ catalog.ids, ∀ definition ∈ catalog.definition? id,
      (definition.parameters.map (·.name)).Nodup ∧
        ∀ type ∈ definition.supertypes catalog.objectType, catalog.IsUse type ∧
          ∀ mention ∈ type.mentions, mention.1 ∈ definition.parameterIds id) :
    catalog.DeclaresUses where
  uses id definition found type declared :=
    ((registered id (mem_ids_of_definition? found) definition found).2 type declared).1
  own id definition found type declared :=
    ((registered id (mem_ids_of_definition? found) definition found).2 type declared).2
  distinct id definition found :=
    (registered id (mem_ids_of_definition? found) definition found).1

/-- A catalog in which `Both<A, B>` implements `Left<B>` and `Right<B>`, which both extend
`Source<Comparable<B>>`. The interface `Right` also extends the raw `Comparable`. -/
def diamond : Catalog :=
  let own (name : String) (owner : Nat) : Ty := .typeVariable ⟨name, some ⟨owner⟩⟩ none
  let comparable (type : Ty) : Ty := .classType ⟨4⟩ [type]
  let source := fun _ => { Definition.ofInterface "Source" with parameters := [⟨"T", none⟩] }
  let left := fun _ => { Definition.ofInterface "Left" with
    parameters := [⟨"T", none⟩]
    interfaces := [.classType ⟨15⟩ [comparable (own "T" 16)]] }
  let right := fun _ => { Definition.ofInterface "Right" with
    parameters := [⟨"T", none⟩]
    interfaces := [.classType ⟨15⟩ [comparable (own "T" 17)], .raw ⟨4⟩] }
  let both := fun _ => { Definition.ofClass "Both" with
    parameters := [⟨"A", none⟩, ⟨"B", none⟩]
    interfaces := [.classType ⟨16⟩ [own "B" 18], .classType ⟨17⟩ [own "B" 18]] }
  [source, left, right, both].foldl (fun catalog build => (catalog.insertWith build).2) .standard

theorem declaresUses_diamond : diamond.DeclaresUses :=
  .of_ids (by decide +kernel)

/-- Strings put in for the own variables of `Both` before the view as `Source` is taken, or after.
-/
theorem viewAs?_substitute_of_diamond :
    let own := Ty.classType ⟨18⟩ [.typeVariable ⟨"X", none⟩ none, .typeVariable ⟨"Y", none⟩ none]
    let strings := Substitution.empty.insert ⟨"Y", none⟩ (.upperWildcard diamond.stringType)
    diamond.IsUse own ∧
      diamond.viewAs? (own.substitute strings) ⟨15⟩ =
        (diamond.viewAs? own ⟨15⟩).map (Ty.substitute strings) ∧
      ∃ definition, diamond.definition? ⟨18⟩ = some definition ∧
        diamond.viewAs? (.classType ⟨18⟩ [diamond.objectType, diamond.stringType]) ⟨15⟩ =
          (diamond.viewAs? (definition.ownType ⟨18⟩) ⟨15⟩).map
            (Ty.substitute (.bindParameters ⟨18⟩ definition.parameters
              [diamond.objectType, diamond.stringType])) := by
  have use : diamond.IsUse (.classType ⟨18⟩ [.typeVariable ⟨"X", none⟩ none,
      .typeVariable ⟨"Y", none⟩ none]) := by
    decide +kernel
  have commutes := viewAs?_substitute declaresUses_diamond ⟨15⟩
  exact ⟨use, commutes.1 _ use _, _, rfl, commutes.2 ⟨18⟩ _ rfl _ rfl⟩

end Catalog

end TypedJava

import TypedJava.Proofs.Conversion.Erasure
import TypedJava.Proofs.Subtyping.Applied

/-! # Views of applied types

In an orderly catalog an applied use of a class has at most one view as another class, however many
ways lead up to it. What relates the arguments of two uses of a class is carried up to their views,
because a parameter that may hold a wildcard is only handed on as a whole. -/

namespace TypedJava

theorem exists_getElem?_of_forall₂
    {first second : Type} {related : first → second → Prop} {firsts : List first}
    {seconds : List second} (all : List.Forall₂ related firsts seconds) {index : Nat} {item : first}
    (found : firsts[index]? = some item) :
    ∃ other, seconds[index]? = some other ∧ related item other := by
  induction all generalizing index with
  | nil => cases found
  | cons head _ inductionHypothesis =>
      cases index with
      | zero =>
          cases found
          exact ⟨_, rfl, head⟩
      | succ index => exact inductionHypothesis found

/-- A parameter is bound to one of the types. -/
theorem Substitution.exists_get?_bindParameters
    (owner : DefinitionId) {parameters : List TypeParameter} {types : List Ty}
    (sameLength : types.length = parameters.length) {parameter : TypeParameter}
    (member : parameter ∈ parameters) :
    ∃ type ∈ types, (bindParameters owner parameters types).get? ⟨parameter.name, some owner⟩ =
      some type := by
  have isSome : ((bindParameters owner parameters types).get?
      ⟨parameter.name, some owner⟩).isSome = true :=
    isSome_get?_bindParameters sameLength member
  obtain ⟨type, found⟩ := Option.isSome_iff_exists.mp isSome
  obtain ⟨namesake, zipped, _⟩ := exists_of_get?_bindParameters found
  exact ⟨type, (List.of_mem_zip zipped).2, found⟩

/-- Every parameter has a place, and it is bound to the argument at its place. -/
theorem Substitution.exists_place
    {owner : DefinitionId} {definition : Definition} {id : VarId}
    (distinct : (definition.parameters.map (·.name)).Nodup)
    (member : id ∈ definition.parameterIds owner) :
    ∃ index : Nat, (definition.parameterIds owner)[index]? = some id ∧
      ∀ arguments : List Ty, arguments.length = definition.parameters.length →
        (bindParameters owner definition.parameters arguments).get? id = arguments[index]? := by
  obtain ⟨index, less, rfl⟩ := List.mem_iff_getElem.mp member
  refine ⟨index, List.getElem?_eq_getElem less, fun arguments arity => ?_⟩
  have inParameters : index < definition.parameters.length := by
    rwa [Definition.parameterIds, List.length_map] at less
  have isBound : (bindParameters owner definition.parameters arguments).get?
      ⟨definition.parameters[index].name, some owner⟩ = some arguments[index] :=
    get?_bindParameters_getElem arity distinct inParameters
  rw [List.getElem?_eq_getElem (by omega), ← isBound]
  simp [Definition.parameterIds]

theorem Ty.mem_mentionsList
    {types : List Ty} {type : Ty} (member : type ∈ types) {mention : VarId × Option Ty}
    (mentioned : mention ∈ type.mentions) :
    mention ∈ mentionsList types := by
  rw [mentionsList_eq_flatMap]
  exact List.mem_flatMap.mpr ⟨type, member, mentioned⟩

theorem Definition.exists_of_mem_mentions_ownType
    (definition : Definition) {owner : DefinitionId} {mention : VarId × Option Ty}
    (mentioned : mention ∈ (definition.ownType owner).mentions) :
    ∃ parameter ∈ definition.parameters, mention.1 = ⟨parameter.name, some owner⟩ := by
  rw [ownType, Ty.mentions, Ty.mentionsList_eq_flatMap, List.mem_flatMap] at mentioned
  obtain ⟨own, isOwn, mentioned⟩ := mentioned
  obtain ⟨parameter, isParameter, rfl⟩ := List.mem_map.mp isOwn
  rw [List.mem_singleton.mp mentioned]
  exact ⟨parameter, isParameter, rfl⟩

theorem Ty.substitute_congr
    {first second : Substitution} {type : Ty}
    (agree : ∀ id bound, (id, bound) ∈ type.mentions →
      (first.get? id).getD (.typeVariable id bound) =
        (second.get? id).getD (.typeVariable id bound)) :
    type.substitute first = type.substitute second := by
  rw [← substitute_empty (type.substitute first)]
  apply substitute_substitute
  intro id bound mentioned
  rw [substitute_empty]
  exact agree id bound mentioned

namespace Catalog

section Steps

variable {catalog : Catalog} {exposed : VarId → Bool} {id : DefinitionId} {arguments : List Ty}
  {above : Ty}

/-- The types above an applied use are instances of the declared supertypes. -/
theorem DeclaresUses.exists_declared
    (declares : catalog.DeclaresUses)
    (arity : arguments.length = (catalog.parameterIds id).length)
    (member : above ∈ catalog.classSupertypes id arguments) :
    ∃ definition, catalog.definition? id = some definition ∧ id ≠ catalog.core.object ∧
      arguments.length = definition.parameters.length ∧
      ∃ declared ∈ definition.supertypes catalog.objectType,
        above = declared.substitute (.bindParameters id definition.parameters arguments) := by
  by_cases isObject : id = catalog.core.object
  · rw [classSupertypes, if_pos isObject] at member
    cases member
  cases found : catalog.definition? id with
  | none =>
      simp only [classSupertypes, if_neg isObject, found] at member
      cases member
  | some definition =>
      rw [length_parameterIds found] at arity
      rw [declares.classSupertypes_eq isObject found arity] at member
      obtain ⟨declared, isDeclared, same⟩ := List.mem_map.mp member
      exact ⟨definition, rfl, isObject, arity, declared, isDeclared, same.symm⟩

/-- What a declared supertype mentions is a parameter, which is bound to an argument. -/
theorem DeclaresUses.exists_argument
    (declares : catalog.DeclaresUses) {definition : Definition}
    (found : catalog.definition? id = some definition) {related : VarId → Ty → Prop}
    (all : List.Forall₂ related (catalog.parameterIds id) arguments) {declared : Ty}
    (isDeclared : declared ∈ definition.supertypes catalog.objectType) {mention : VarId × Option Ty}
    (mentioned : mention ∈ declared.mentions) :
    ∃ argument ∈ arguments, related mention.1 argument ∧
      (Substitution.bindParameters id definition.parameters arguments).get? mention.1 =
        some argument := by
  have arity : arguments.length = definition.parameters.length := by
    rw [← all.length_eq, length_parameterIds found]
  rw [parameterIds_of_definition? found] at all
  obtain ⟨index, place, bound⟩ := Substitution.exists_place (declares.distinct id definition found)
    (declares.own id definition found declared isDeclared mention mentioned)
  obtain ⟨argument, isArgument, holds⟩ := exists_getElem?_of_forall₂ all place
  exact ⟨argument, List.mem_of_getElem? isArgument, holds, (bound arguments arity).trans isArgument⟩

theorem DeclaresUses.mentions_subset_of_mem
    (declares : catalog.DeclaresUses) (use : catalog.IsUse (.classType id arguments))
    (member : above ∈ catalog.classSupertypes id arguments) :
    above.mentions ⊆ Ty.mentionsList arguments := by
  intro mention mentioned
  cases found : catalog.definition? id with
  | none =>
      simp [classSupertypes, found] at member
  | some definition =>
      rcases use.arity_or_raw found with arity | ⟨rfl, isGeneric⟩
      · rw [← length_parameterIds found] at arity
        obtain ⟨definition, found, _, _, declared, isDeclared, rfl⟩ :=
          declares.exists_declared arity member
        obtain ⟨parameter, bound, inDeclared, inArgument⟩ :=
          Ty.exists_of_mem_mentions_substitute declared mentioned
        have anything : List.Forall₂ (fun _ _ => True) (catalog.parameterIds id) arguments :=
          List.forall₂_iff_zip.mpr ⟨arity.symm, fun _ => trivial⟩
        obtain ⟨argument, isArgument, _, bindsTo⟩ :=
          declares.exists_argument found anything isDeclared inDeclared
        rw [bindsTo, Option.getD_some] at inArgument
        exact Ty.mem_mentionsList isArgument inArgument
      · obtain ⟨raw, rfl⟩ := declares.eq_raw_of_mem found isGeneric member
        cases mentioned

theorem Exposes.exists_parameter
    (exposes : catalog.Exposes exposed) {definition : Definition}
    (found : catalog.definition? id = some definition) {base : DefinitionId} {others : List Ty}
    (isDeclared : .classType base others ∈ definition.supertypes catalog.objectType) {argument : Ty}
    (member : argument ∈ others) :
    ∃ parameter, (parameter, argument) ∈ (catalog.parameterIds base).zip others := by
  have sameLength : (catalog.parameterIds base).length = others.length :=
    (areApplied_iff.mp (exposes.applied id definition found _ isDeclared)).length_eq
  obtain ⟨index, less, rfl⟩ := List.mem_iff_getElem.mp member
  have zipped : index < ((catalog.parameterIds base).zip others).length := by
    rw [List.length_zip]
    omega
  refine ⟨(catalog.parameterIds base)[index], ?_⟩
  rw [← List.getElem_zip (h := zipped)]
  exact List.getElem_mem _

/-- An argument of a declared supertype either is an exposed parameter, which the supertype takes
for an exposed parameter, or mentions none. -/
theorem Exposes.whole_or_hidden
    (exposes : catalog.Exposes exposed) {definition : Definition}
    (found : catalog.definition? id = some definition) {base : DefinitionId} {others : List Ty}
    (isDeclared : .classType base others ∈ definition.supertypes catalog.objectType)
    {parameter : VarId} {argument : Ty}
    (member : (parameter, argument) ∈ (catalog.parameterIds base).zip others) :
    (∃ own bound, argument = .typeVariable own bound ∧ exposed own = true ∧
      exposed parameter = true) ∨
    ∀ mention ∈ argument.mentions, exposed mention.1 = false := by
  by_cases isHidden : ∀ mention ∈ argument.mentions, exposed mention.1 = false
  · exact Or.inr isHidden
  simp only [not_forall, Bool.not_eq_false] at isHidden
  obtain ⟨mention, mentioned, isExposed⟩ := isHidden
  obtain ⟨isReceived, isVariable⟩ := exposes.whole id definition found isDeclared parameter argument
    member mention mentioned isExposed
  cases argument with
  | typeVariable own bound =>
      rw [Ty.mentions, List.mem_singleton] at mentioned
      rw [mentioned] at isExposed
      exact Or.inl ⟨own, bound, rfl, isExposed, isReceived⟩
  | _ => cases isVariable

/-- The instance of an argument of a declared supertype is as applied as the argument. -/
theorem Exposes.isApplied_argument
    (exposes : catalog.Exposes exposed) (declares : catalog.DeclaresUses) {definition : Definition}
    (found : catalog.definition? id = some definition)
    (applied : catalog.areApplied exposed (catalog.parameterIds id) arguments = true)
    {base : DefinitionId} {others : List Ty}
    (isDeclared : .classType base others ∈ definition.supertypes catalog.objectType)
    {parameter : VarId} {argument : Ty}
    (zipped : (parameter, argument) ∈ (catalog.parameterIds base).zip others) :
    catalog.isApplied exposed (exposed parameter)
      (argument.substitute (.bindParameters id definition.parameters arguments)) = true := by
  have fits := areApplied_iff.mp applied
  have othersFit : List.Forall₂ _ (catalog.parameterIds base) others :=
    areApplied_iff.mp (exposes.applied id definition found _ isDeclared)
  have inOthers : argument ∈ others := (List.of_mem_zip zipped).2
  rcases exposes.whole_or_hidden found isDeclared zipped with
    ⟨own, bound, rfl, isExposed, isReceived⟩ | isHidden
  · -- A wildcard may be handed on here, but only to a parameter that may take it.
    obtain ⟨bindsTo, _, bindsToFits, isBound⟩ := declares.exists_argument found fits isDeclared
      (Ty.mem_mentionsList inOthers (List.mem_singleton_self _))
    rw [isExposed] at bindsToFits
    rw [Ty.substitute, isBound, isReceived]
    exact bindsToFits
  · apply isApplied_substitute argument ((List.forall₂_iff_zip.mp othersFit).2 zipped)
    intro own bound mentioned
    obtain ⟨bindsTo, _, bindsToFits, isBound⟩ :=
      declares.exists_argument found fits isDeclared (Ty.mem_mentionsList inOthers mentioned)
    rw [isHidden _ mentioned] at bindsToFits
    rw [isBound]
    exact bindsToFits

theorem Exposes.isApplied_of_mem
    (exposes : catalog.Exposes exposed) (declares : catalog.DeclaresUses)
    (applied : catalog.areApplied exposed (catalog.parameterIds id) arguments = true)
    (member : above ∈ catalog.classSupertypes id arguments) :
    catalog.isApplied exposed false above = true := by
  obtain ⟨definition, found, _, _, declared, isDeclared, rfl⟩ :=
    declares.exists_declared (areApplied_iff.mp applied).length_eq.symm member
  cases declared with
  | classType base others =>
      have othersFit : List.Forall₂ _ (catalog.parameterIds base) others :=
        areApplied_iff.mp (exposes.applied id definition found _ isDeclared)
      rw [Ty.substitute, isApplied, areApplied_iff, Ty.substituteList_eq_map,
        List.forall₂_map_right_iff, List.forall₂_iff_zip]
      exact ⟨othersFit.length_eq, exposes.isApplied_argument declares found applied isDeclared⟩
  | _ => cases declares.uses id definition found _ isDeclared

/-- A relation between the arguments of two uses goes over to the instances of what a declared
supertype has as an argument, if it takes what is no wildcard for itself only. -/
theorem Exposes.related_argument
    (exposes : catalog.Exposes exposed) (declares : catalog.DeclaresUses) {definition : Definition}
    (found : catalog.definition? id = some definition) {related : Ty → Ty → Prop}
    (refl : ∀ type, related type type)
    (rigid : ∀ type other, related type other → catalog.isApplied exposed false type = true →
      type = other)
    (applied : catalog.areApplied exposed (catalog.parameterIds id) arguments = true)
    {others : List Ty} (all : List.Forall₂ related arguments others) {base : DefinitionId}
    {formals : List Ty}
    (isDeclared : .classType base formals ∈ definition.supertypes catalog.objectType) {formal : Ty}
    (inFormals : formal ∈ formals) :
    related (formal.substitute (.bindParameters id definition.parameters arguments))
      (formal.substitute (.bindParameters id definition.parameters others)) := by
  have fits := areApplied_iff.mp applied
  have arity : arguments.length = definition.parameters.length := by
    rw [← fits.length_eq, length_parameterIds found]
  have place {mention : VarId × Option Ty} (mentioned : mention ∈ formal.mentions) :
      ∃ argument other, catalog.isApplied exposed (exposed mention.1) argument = true ∧
        related argument other ∧
        (Substitution.bindParameters id definition.parameters arguments).get? mention.1 =
          some argument ∧
        (Substitution.bindParameters id definition.parameters others).get? mention.1 =
          some other := by
    obtain ⟨index, isParameter, bound⟩ := Substitution.exists_place
      (declares.distinct id definition found) (declares.own id definition found _ isDeclared mention
        (Ty.mem_mentionsList inFormals mentioned))
    rw [← parameterIds_of_definition? found] at isParameter
    obtain ⟨argument, isArgument, argumentFits⟩ := exists_getElem?_of_forall₂ fits isParameter
    obtain ⟨other, isOther, holds⟩ := exists_getElem?_of_forall₂ all isArgument
    exact ⟨argument, other, argumentFits, holds, (bound _ arity).trans isArgument,
      (bound _ (all.length_eq.symm.trans arity)).trans isOther⟩
  obtain ⟨parameter, zipped⟩ := exposes.exists_parameter found isDeclared inFormals
  rcases exposes.whole_or_hidden found isDeclared zipped with ⟨own, bound, rfl, _, _⟩ | isHidden
  · obtain ⟨argument, other, _, holds, isBound, otherBound⟩ := place (List.mem_singleton_self _)
    rw [Ty.substitute, Ty.substitute, isBound, otherBound]
    exact holds
  · -- The arguments for hidden parameters are no wildcards, so they are the same in both uses.
    have same : formal.substitute (.bindParameters id definition.parameters arguments) =
        formal.substitute (.bindParameters id definition.parameters others) := by
      apply Ty.substitute_congr
      intro own bound mentioned
      obtain ⟨argument, other, argumentFits, holds, isBound, otherBound⟩ := place mentioned
      rw [isHidden _ mentioned] at argumentFits
      rw [isBound, otherBound, rigid argument other holds argumentFits]
    rw [same]
    exact refl _

/-- Two uses of a class lie below the same classes, and what relates their arguments relates the
arguments above. -/
theorem Exposes.forall₂_of_mem
    (exposes : catalog.Exposes exposed) (declares : catalog.DeclaresUses)
    {related : Ty → Ty → Prop} (refl : ∀ type, related type type)
    (rigid : ∀ type other, related type other → catalog.isApplied exposed false type = true →
      type = other)
    (applied : catalog.areApplied exposed (catalog.parameterIds id) arguments = true)
    {others : List Ty} (all : List.Forall₂ related arguments others)
    (member : above ∈ catalog.classSupertypes id arguments) :
    ∃ base aboveArguments aboveOthers, above = .classType base aboveArguments ∧
      .classType base aboveOthers ∈ catalog.classSupertypes id others ∧
      List.Forall₂ related aboveArguments aboveOthers := by
  obtain ⟨definition, found, notObject, arity, declared, isDeclared, rfl⟩ :=
    declares.exists_declared (areApplied_iff.mp applied).length_eq.symm member
  cases declared with
  | classType base formals =>
      refine ⟨base, _, Ty.substituteList (.bindParameters id definition.parameters others) formals,
        rfl, ?_, ?_⟩
      · rw [declares.classSupertypes_eq notObject found (all.length_eq.symm.trans arity)]
        exact List.mem_map.mpr ⟨_, isDeclared, rfl⟩
      · rw [Ty.substituteList_eq_map, Ty.substituteList_eq_map, List.forall₂_map_left_iff,
          List.forall₂_map_right_iff, List.forall₂_same]
        intro formal inFormals
        exact exposes.related_argument declares found refl rigid applied all isDeclared inFormals
  | _ => cases declares.uses id definition found _ isDeclared

end Steps

/-! ## Ascents -/

section Ascents

variable {catalog : Catalog} {exposed : VarId → Bool} {id target : DefinitionId}
  {arguments others : List Ty} {type last : Ty} {steps fuel : Nat}

theorem isUse_of_arity (arity : arguments.length = (catalog.parameterIds id).length) :
    catalog.IsUse (.classType id arguments) := by
  refine Or.inr fun definition found => ?_
  rw [arity, length_parameterIds found]

/-- An ascent from a use of a class only passes uses of classes, and comes upon no new variables. -/
theorem DeclaresUses.isUse_of_ascends
    (declares : catalog.DeclaresUses) (use : catalog.IsUse type)
    (ascent : catalog.Ascends steps type last) :
    catalog.IsUse last ∧ last.mentions ⊆ type.mentions := by
  induction ascent with
  | here type => exact ⟨use, List.Subset.refl _⟩
  | @up steps type above last member _ inductionHypothesis =>
      cases type with
      | classType id arguments =>
          obtain ⟨lastUse, lastMentions⟩ := inductionHypothesis (declares.isUse_of_mem use member)
          exact ⟨lastUse,
            List.Subset.trans lastMentions (declares.mentions_subset_of_mem use member)⟩
      | _ => cases use

theorem Exposes.isApplied_of_ascends
    (exposes : catalog.Exposes exposed) (declares : catalog.DeclaresUses)
    (applied : catalog.isApplied exposed false (.classType id arguments) = true)
    (ascent : catalog.Ascends steps (.classType id arguments) last) :
    catalog.isApplied exposed false last = true := by
  generalize isStart : Ty.classType id arguments = start at ascent
  induction ascent generalizing id arguments with
  | here type =>
      rw [← isStart]
      exact applied
  | up member _ inductionHypothesis =>
      subst isStart
      have aboveApplied := exposes.isApplied_of_mem declares applied member
      have use := isUse_of_arity (areApplied_iff.mp applied).length_eq.symm
      have aboveUse := declares.isUse_of_mem use member
      rename_i above _ _
      cases above with
      | classType base formals => exact inductionHypothesis aboveApplied rfl
      | _ => cases aboveUse

theorem DeclaresUses.exists_of_ascends_substitute
    (declares : catalog.DeclaresUses) (use : catalog.IsUse type) {substitution : Substitution}
    (ascent : catalog.Ascends steps (type.substitute substitution) last) :
    ∃ general, catalog.Ascends steps type general ∧ last = general.substitute substitution := by
  generalize isStart : type.substitute substitution = start at ascent
  induction ascent generalizing type with
  | here _ => exact ⟨type, .here _, isStart.symm⟩
  | up member _ inductionHypothesis =>
      subst isStart
      cases type with
      | classType id arguments =>
          have instances :
              _ ∈ catalog.classSupertypes id (Ty.substituteList substitution arguments) := member
          rw [declares.classSupertypes_substitute use] at instances
          obtain ⟨above, isAbove, same⟩ := List.mem_map.mp instances
          obtain ⟨general, ascent, isInstance⟩ :=
            inductionHypothesis (declares.isUse_of_mem use isAbove) same
          exact ⟨general, .up isAbove ascent, isInstance⟩
      | _ => cases use

/-- The views of an instance are the instances of the views. -/
theorem DeclaresUses.exists_view_of_ascends_substitute
    (declares : catalog.DeclaresUses) (use : catalog.IsUse type) {substitution : Substitution}
    (ascent : catalog.Ascends steps (type.substitute substitution) (.classType target others)) :
    ∃ generals, catalog.Ascends steps type (.classType target generals) ∧
      others = Ty.substituteList substitution generals := by
  obtain ⟨general, generalAscent, same⟩ := declares.exists_of_ascends_substitute use ascent
  have generalUse := (declares.isUse_of_ascends use generalAscent).1
  cases general with
  | classType base generals =>
      obtain ⟨rfl, sameOthers⟩ := Ty.classType.inj same
      exact ⟨generals, generalAscent, sameOthers⟩
  | _ => cases generalUse

theorem DeclaresUses.substitute_ownType
    (declares : catalog.DeclaresUses) {definition : Definition}
    (found : catalog.definition? id = some definition)
    (arity : arguments.length = definition.parameters.length) :
    (definition.ownType id).substitute (.bindParameters id definition.parameters arguments) =
      .classType id arguments := by
  rw [Definition.ownType, Ty.substitute,
    Substitution.substituteList_ownVariables arity (declares.distinct id definition found)]

theorem isUse_ownType {definition : Definition} (found : catalog.definition? id = some definition) :
    catalog.IsUse (definition.ownType id) :=
  isUse_of_arity (by simp [length_parameterIds found, Definition.ownVariables])

/-- All ascents from a use of a class to the uses of another class lead to the same use. -/
theorem Orderly.eq_of_ascends
    (orderly : catalog.Orderly) (arity : arguments.length = (catalog.parameterIds id).length)
    (first : catalog.Ascends steps (.classType id arguments) (.classType target others))
    {more : Nat} {rest : List Ty}
    (second : catalog.Ascends more (.classType id arguments) (.classType target rest)) :
    others = rest := by
  have declares := orderly.declaresUses
  cases found : catalog.definition? id with
  | none =>
      have top {last : Ty} {steps : Nat}
          (ascent : catalog.Ascends steps (.classType id arguments) last) :
          last = .classType id arguments := by
        cases ascent with
        | here => rfl
        | up member => simp [immediateSupertypes, classSupertypes, found] at member
      exact (Ty.classType.inj ((top first).trans (top second).symm)).2
  | some definition =>
      rw [length_parameterIds found] at arity
      rw [← declares.substitute_ownType found arity] at first second
      obtain ⟨generals, ascent, rfl⟩ :=
        declares.exists_view_of_ascends_substitute (isUse_ownType found) first
      obtain ⟨generalRest, restAscent, rfl⟩ :=
        declares.exists_view_of_ascends_substitute (isUse_ownType found) second
      have ownMentions := (declares.isUse_of_ascends (isUse_ownType found) ascent).2
      have instances : (Ty.classType target generals).substitute
            (.bindParameters id definition.parameters arguments) =
          (Ty.classType target generalRest).substitute
            (.bindParameters id definition.parameters arguments) := by
        apply Ty.substitute_eq_of_same _ _ (orderly.coherent id definition found ascent restAscent)
        intro own bound otherBound mentioned _
        obtain ⟨parameter, isParameter, (rfl : own = ⟨parameter.name, some id⟩)⟩ :=
          definition.exists_of_mem_mentions_ownType (ownMentions mentioned)
        obtain ⟨bindsTo, _, isBound⟩ :=
          Substitution.exists_get?_bindParameters id arity isParameter
        rw [isBound]
        rfl
      exact (Ty.classType.inj instances).2

theorem Orderly.viewWithin_eq
    (orderly : catalog.Orderly) (registered : catalog.Registered)
    (arity : arguments.length = (catalog.parameterIds id).length)
    (ascent : catalog.Ascends steps (.classType id arguments) (.classType target others))
    (less : steps < fuel) :
    catalog.viewWithin target fuel (.classType id arguments) = some (.classType target others) := by
  have isSome : (catalog.viewWithin target fuel (.classType id arguments)).isSome = true :=
    isSome_viewWithin_of_ascends ascent (.use others)
      (fun _ _ ascent => registered.capsArrays.isAboveArrays_of_ascends (.use others) ascent) less
  obtain ⟨view, found⟩ := Option.isSome_iff_exists.mp isSome
  obtain ⟨more, _, _, otherAscent, shows⟩ := exists_ascends_of_viewWithin found
  cases shows with
  | use rest => rw [found, orderly.eq_of_ascends arity ascent otherAscent]
  | array element =>
      cases (orderly.declaresUses.isUse_of_ascends (isUse_of_arity arity) otherAscent).1

theorem DeclaresUses.exists_ascends
    (declares : catalog.DeclaresUses) (use : catalog.IsUse type)
    (found : catalog.viewWithin target fuel type = some (.classType target others)) :
    ∃ steps, steps < fuel ∧ catalog.Ascends steps type (.classType target others) := by
  obtain ⟨steps, last, less, ascent, shows⟩ := exists_ascends_of_viewWithin found
  cases shows with
  | use => exact ⟨steps, less, ascent⟩
  | array => cases (declares.isUse_of_ascends use ascent).1

/-- A relation between the arguments of two uses goes over to their views. -/
theorem Exposes.exists_ascends_of_forall₂
    (exposes : catalog.Exposes exposed) (declares : catalog.DeclaresUses)
    {related : Ty → Ty → Prop} (refl : ∀ type, related type type)
    (rigid : ∀ type other, related type other → catalog.isApplied exposed false type = true →
      type = other)
    (applied : catalog.isApplied exposed false (.classType id arguments) = true)
    (all : List.Forall₂ related arguments others) {view : List Ty}
    (ascent : catalog.Ascends steps (.classType id arguments) (.classType target view)) :
    ∃ otherView, catalog.Ascends steps (.classType id others) (.classType target otherView) ∧
      List.Forall₂ related view otherView := by
  generalize isStart : Ty.classType id arguments = start at ascent
  generalize isEnd : Ty.classType target view = last at ascent
  induction ascent generalizing id arguments others with
  | here type =>
      obtain ⟨rfl, rfl⟩ := Ty.classType.inj (isStart.trans isEnd.symm)
      exact ⟨others, .here _, all⟩
  | up member _ inductionHypothesis =>
      subst isStart
      obtain ⟨base, aboveArguments, aboveOthers, rfl, otherMember, aboveAll⟩ :=
        exposes.forall₂_of_mem declares refl rigid applied all member
      obtain ⟨otherView, otherAscent, viewsAll⟩ := inductionHypothesis
        (exposes.isApplied_of_mem declares applied member) aboveAll rfl isEnd
      exact ⟨otherView, .up otherMember otherAscent, viewsAll⟩

end Ascents

end Catalog

end TypedJava

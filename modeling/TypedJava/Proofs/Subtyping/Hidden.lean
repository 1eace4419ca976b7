import TypedJava.Proofs.Subtyping.Steps

/-! # Hidden parameters

A parameter is hidden if a view of its class mentions it within an argument. An unbounded wildcard
at a hidden parameter is put into that argument, as if it were one type. The use with the wildcard
then has a base class that no other use of the class has, although it contains all of them. -/

namespace TypedJava

namespace Ty

theorem isWildcard_eq_of_same {type other : Ty} (isSame : same type other = true) :
    type.isWildcard = other.isWildcard := by
  cases type <;> cases other <;> first | rfl | cases isSame

theorem isWildcard_substitute
    {type : Ty} (isClosed : (type.isTypeVariable || type.isWildcard) = false)
    (substitution : Substitution) :
    (type.substitute substitution).isWildcard = false := by
  cases type <;> first | rfl | cases isClosed

mutual

/-- Where two instances of a type are equal, the types that were put in for its variables are. -/
theorem same_of_same_substitute {first second : Substitution} {id : VarId} {bound : Option Ty} :
    (type : Ty) → same (type.substitute first) (type.substitute second) = true →
    (id, bound) ∈ type.mentions →
    same ((first.get? id).getD (typeVariable id bound))
      ((second.get? id).getD (typeVariable id bound)) = true
  | typeVariable _ _, isSame, mentioned => by
      obtain ⟨rfl, rfl⟩ := Prod.mk.inj (List.mem_singleton.mp mentioned)
      exact isSame
  | classType _ arguments, isSame, mentioned =>
      same_of_sameList_substitute arguments (Bool.and_eq_true_iff.mp isSame).2 mentioned
  | array element, isSame, mentioned => same_of_same_substitute element isSame mentioned
  | upperWildcard upper, isSame, mentioned => same_of_same_substitute upper isSame mentioned
  | lowerWildcard lower, isSame, mentioned => same_of_same_substitute lower isSame mentioned
  | unboundedWildcard, _, mentioned => by cases mentioned
  | primitive _, _, mentioned => by cases mentioned
  | null, _, mentioned => by cases mentioned

theorem same_of_sameList_substitute {first second : Substitution} {id : VarId} {bound : Option Ty} :
    (types : List Ty) →
    sameList (substituteList first types) (substituteList second types) = true →
    (id, bound) ∈ mentionsList types →
    same ((first.get? id).getD (typeVariable id bound))
      ((second.get? id).getD (typeVariable id bound)) = true
  | [], _, mentioned => by cases mentioned
  | type :: types, isSame, mentioned => by
      obtain ⟨sameFirst, sameRest⟩ := Bool.and_eq_true_iff.mp isSame
      rcases List.mem_append.mp mentioned with inFirst | inRest
      · exact same_of_same_substitute type sameFirst inFirst
      · exact same_of_sameList_substitute types sameRest inRest

end

end Ty

namespace Catalog

section Hidden

variable {catalog : Catalog} {id target : DefinitionId} {definition : Definition} {steps : Nat}
  {arguments views : List Ty} {type last view : Ty} {mention : VarId × Option Ty}

/-- The instances of an ascent from a use of a class are ascents. -/
theorem DeclaresUses.ascends_substitute
    (declares : catalog.DeclaresUses) (use : catalog.IsUse type)
    (ascent : catalog.Ascends steps type last) (substitution : Substitution) :
    catalog.Ascends steps (type.substitute substitution) (last.substitute substitution) := by
  induction ascent with
  | here type => exact .here _
  | @up steps type above last member _ inductionHypothesis =>
      cases type with
      | classType id arguments =>
          have instances : above.substitute substitution ∈
              catalog.classSupertypes id (Ty.substituteList substitution arguments) := by
            rw [declares.classSupertypes_substitute use]
            exact List.mem_map_of_mem member
          exact .up instances (inductionHypothesis (declares.isUse_of_mem use member))
      | _ => cases use

/-- A use of a class is not below the view of another use if only one of them has a wildcard at a
hidden parameter. -/
theorem Orderly.isSubtypeWithin_eq_false_of_hidden
    (orderly : catalog.Orderly) (found : catalog.definition? id = some definition)
    (ascent : catalog.Ascends steps (definition.ownType id) (.classType target views))
    (notObject : target ≠ catalog.core.object) (member : view ∈ views)
    (isClosed : (view.isTypeVariable || view.isWildcard) = false)
    (mentioned : mention ∈ view.mentions)
    {others : List Ty} (arity : arguments.length = definition.parameters.length)
    (different :
      (((Substitution.bindParameters id definition.parameters arguments).get? mention.1).getD
        (.typeVariable mention.1 mention.2)).isWildcard ≠
      (((Substitution.bindParameters id definition.parameters others).get? mention.1).getD
        (.typeVariable mention.1 mention.2)).isWildcard) (fuel : Nat) :
    catalog.isSubtypeWithin fuel (.classType id arguments)
      (.classType target
        (Ty.substituteList (.bindParameters id definition.parameters others) views)) = false := by
  have declares := orderly.declaresUses
  rw [← length_parameterIds found] at arity
  have viewAscent : catalog.Ascends steps (.classType id arguments) (.classType target
      (Ty.substituteList (.bindParameters id definition.parameters arguments) views)) := by
    rw [← declares.substitute_ownType found (arity.trans (length_parameterIds found))]
    exact declares.ascends_substitute (isUse_ownType found) ascent _
  cases fuel with
  | zero => rfl
  | succ fuel =>
  rw [← Bool.not_eq_true]
  intro below
  cases subtypeStep below with
  | same isSame =>
      obtain ⟨sameClass, sameArguments⟩ := Bool.and_eq_true_iff.mp isSame
      cases eq_of_beq sameClass
      rw [← orderly.eq_of_ascends arity viewAscent (.here _)] at sameArguments
      exact different (Ty.isWildcard_eq_of_same (Ty.same_of_sameList_substitute views sameArguments
        (Ty.mem_mentionsList member mentioned)))
  | ceiling isOpen _ _ => cases isOpen
  | object => exact notObject rfl
  | view viewed contains =>
      obtain ⟨_, _, otherAscent⟩ := declares.exists_ascends (isUse_of_arity arity) viewed
      rw [orderly.eq_of_ascends arity otherAscent viewAscent, containsArguments_iff_forall₂ (by
          simp [Ty.substituteList_eq_map]), Ty.substituteList_eq_map, Ty.substituteList_eq_map,
        List.forall₂_map_left_iff, List.forall₂_map_right_iff, List.forall₂_same] at contains
      have contained := contains view member
      rw [containsArgument_eq, wildcardContains_of_not_isWildcard
        (Ty.isWildcard_substitute isClosed _), Bool.or_false] at contained
      exact different
        (Ty.isWildcard_eq_of_same (Ty.same_of_same_substitute view contained mentioned)).symm

/-- Every hidden parameter breaks transitivity: a use without wildcards is below the use with
wildcards only, and that one is below its own view, but the first one is not below the view. -/
theorem Orderly.not_trans_of_hidden
    (orderly : catalog.Orderly) (registered : catalog.Registered)
    (found : catalog.definition? id = some definition)
    (ascent : catalog.Ascends steps (definition.ownType id) (.classType target views))
    (notObject : target ≠ catalog.core.object) (member : view ∈ views)
    (isClosed : (view.isTypeVariable || view.isWildcard) = false)
    (mentioned : mention ∈ view.mentions)
    (arguments : List Ty) (arity : arguments.length = definition.parameters.length)
    (notWildcard : ∀ argument ∈ arguments, argument.isWildcard = false) :
    let wildcards := List.replicate definition.parameters.length Ty.unboundedWildcard
    let base := Ty.classType target
      (Ty.substituteList (.bindParameters id definition.parameters wildcards) views)
    (∃ fuel, catalog.isSubtypeWithin fuel (.classType id arguments) (.classType id wildcards) =
      true) ∧
    (∃ fuel, catalog.isSubtypeWithin fuel (.classType id wildcards) base = true) ∧
    ∀ fuel, catalog.isSubtypeWithin fuel (.classType id arguments) base = false := by
  intro wildcards base
  have declares := orderly.declaresUses
  have wildcardArity : wildcards.length = definition.parameters.length := List.length_replicate
  refine ⟨⟨2, ?_⟩, ⟨steps + 2, ?_⟩, ?_⟩
  · apply isSubtypeWithin_of_view (by rw [viewWithin, if_pos rfl])
    rw [List.forall₂_iff_zip]
    refine ⟨wildcardArity.trans arity.symm, fun {formal actual} zipped => ?_⟩
    rw [List.eq_of_mem_replicate (List.of_mem_zip zipped).1, containsArgument_eq]
    exact Bool.or_true _
  · have viewAscent : catalog.Ascends steps (.classType id wildcards) base := by
      rw [← declares.substitute_ownType found wildcardArity]
      exact declares.ascends_substitute (isUse_ownType found) ascent _
    have knownArity := wildcardArity.trans (length_parameterIds found).symm
    apply isSubtypeWithin_of_view
      (orderly.viewWithin_eq registered knownArity viewAscent (Nat.lt_succ_self steps))
    rw [List.forall₂_same]
    intro argument _
    rw [containsArgument_eq, beq_self_eq_true, Bool.true_or]
  · intro fuel
    apply orderly.isSubtypeWithin_eq_false_of_hidden found ascent notObject member isClosed
      mentioned arity
    have ownMentions := (declares.isUse_of_ascends (isUse_ownType found) ascent).2
    obtain ⟨parameter, isParameter, isOwn⟩ := definition.exists_of_mem_mentions_ownType
      (ownMentions (Ty.mem_mentionsList member mentioned))
    obtain ⟨argument, isArgument, isBound⟩ :=
      Substitution.exists_get?_bindParameters id arity isParameter
    obtain ⟨wildcard, isWildcard, wildcardBound⟩ :=
      Substitution.exists_get?_bindParameters id wildcardArity isParameter
    rw [isOwn, isBound, wildcardBound, List.eq_of_mem_replicate isWildcard, Option.getD_some,
      notWildcard argument isArgument]
    exact Bool.false_ne_true

end Hidden

end Catalog

end TypedJava

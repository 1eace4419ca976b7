import TypedJava.Proofs.Subtyping.Steps
import TypedJava.Ty.Inference

/-! # Inferred arguments

A type that is laid beside an instance of itself gives back what was put in for its variables,
however deep they stand and however often. So the use of a definition can be read off its view as a
class above it, if the view of the own type of the definition mentions every parameter. -/

namespace TypedJava

namespace Substitution

/-- Whatever the substitution binds, the other one binds to the same type. -/
def Within (substitution other : Substitution) : Prop :=
  ∀ id type, substitution.get? id = some type → other.get? id = some type

variable {first second third known substitution : Substitution} {owner : DefinitionId}

theorem Within.refl (substitution : Substitution) : substitution.Within substitution :=
  fun _ _ bound => bound

theorem Within.trans (firstWithin : first.Within second) (secondWithin : second.Within third) :
    first.Within third :=
  fun id type bound => secondWithin id type (firstWithin id type bound)

theorem Within.isSome
    (within : first.Within second) {id : VarId} (isBound : (first.get? id).isSome = true) :
    (second.get? id).isSome = true := by
  obtain ⟨type, found⟩ := Option.isSome_iff_exists.mp isBound
  rw [within id type found]
  rfl

/-- Among the bindings of one substitution, a variable that is bound at all is bound as there. -/
theorem Within.get?_eq
    (within : first.Within second) {id : VarId} (isBound : (first.get? id).isSome = true) :
    first.get? id = second.get? id := by
  obtain ⟨type, found⟩ := Option.isSome_iff_exists.mp isBound
  rw [found, within id type found]

/-- A variable that is new can be bound as another substitution has it. -/
theorem Within.insert
    (within : known.Within substitution) {id : VarId} {type : Ty}
    (bound : substitution.get? id = some type) :
    (known.insert id type).Within substitution := by
  intro other otherType otherBound
  rw [get?_insert] at otherBound
  split at otherBound
  · rename_i same
    rw [same, bound]
    exact otherBound
  · exact within other otherType otherBound

theorem within_insert {id : VarId} (unbound : known.get? id = none) (type : Ty) :
    known.Within (known.insert id type) := by
  intro other otherType otherBound
  rw [get?_insert, if_neg]
  · exact otherBound
  · intro same
    rw [same, unbound] at otherBound
    cases otherBound

mutual

/-- The bindings that an instance of a pattern teaches are those of the substitution that made the
instance. What was known before stays, and every variable of the pattern becomes known. -/
theorem exists_infer?_substitute :
    (pattern : Ty) → (known : Substitution) → known.Within substitution →
    (∀ mention ∈ pattern.mentions,
      mention.1.owner = some owner ∧ (substitution.get? mention.1).isSome = true) →
    ∃ learnt, infer? owner pattern (pattern.substitute substitution) known = some learnt ∧
      known.Within learnt ∧ learnt.Within substitution ∧
      ∀ mention ∈ pattern.mentions, (learnt.get? mention.1).isSome = true
  | .typeVariable id bound, known, within, own => by
      obtain ⟨isOwn, isBound⟩ := own (id, bound) (List.mem_singleton_self _)
      obtain ⟨type, found⟩ := Option.isSome_iff_exists.mp isBound
      simp only [Ty.substitute, found, Option.getD_some, infer?, if_pos isOwn, Ty.mentions,
        List.mem_singleton, forall_eq]
      cases isKnown : known.get? id with
      | some before =>
          -- The variable occurs again, or it was known from another pattern.
          have sameType : before = type := by
            have known := within id before isKnown
            rw [found] at known
            exact (Option.some.inj known).symm
          refine ⟨known, ?_, .refl known, within, by rw [isKnown]; rfl⟩
          simp [sameType]
      | none =>
          refine ⟨known.insert id type, rfl, within_insert isKnown type, within.insert found, ?_⟩
          rw [get?_insert, if_pos rfl]
          rfl
  | .classType definition patterns, known, within, own => by
      obtain ⟨learnt, inferred, more, learntWithin, learnsAll⟩ :=
        exists_inferList?_substitute patterns known within own
      cases patterns with
      | nil =>
          refine ⟨known, ?_, .refl known, within, fun _ mentioned => by cases mentioned⟩
          simp [Ty.substitute, Ty.substituteList, infer?]
      | cons pattern patterns =>
          refine ⟨learnt, ?_, more, learntWithin, learnsAll⟩
          simpa [Ty.substitute, Ty.substituteList, infer?] using inferred
  | .array pattern, known, within, own => exists_infer?_substitute pattern known within own
  | .upperWildcard pattern, known, within, own => exists_infer?_substitute pattern known within own
  | .lowerWildcard pattern, known, within, own => exists_infer?_substitute pattern known within own
  | .unboundedWildcard, known, within, _ =>
      ⟨known, rfl, .refl known, within, fun _ mentioned => by cases mentioned⟩
  | .primitive _, known, within, _ =>
      ⟨known, rfl, .refl known, within, fun _ mentioned => by cases mentioned⟩
  | .null, known, within, _ =>
      ⟨known, rfl, .refl known, within, fun _ mentioned => by cases mentioned⟩

theorem exists_inferList?_substitute :
    (patterns : List Ty) → (known : Substitution) → known.Within substitution →
    (∀ mention ∈ Ty.mentionsList patterns,
      mention.1.owner = some owner ∧ (substitution.get? mention.1).isSome = true) →
    ∃ learnt,
      inferList? owner patterns (Ty.substituteList substitution patterns) known = some learnt ∧
      known.Within learnt ∧ learnt.Within substitution ∧
      ∀ mention ∈ Ty.mentionsList patterns, (learnt.get? mention.1).isSome = true
  | [], known, within, _ =>
      ⟨known, rfl, .refl known, within, fun _ mentioned => by cases mentioned⟩
  | pattern :: patterns, known, within, own => by
      obtain ⟨middle, inferred, more, middleWithin, learnsFirst⟩ :=
        exists_infer?_substitute pattern known within
          fun mention mentioned => own mention (List.mem_append_left _ mentioned)
      obtain ⟨learnt, inferredRest, evenMore, learntWithin, learnsRest⟩ :=
        exists_inferList?_substitute patterns middle middleWithin
          fun mention mentioned => own mention (List.mem_append_right _ mentioned)
      refine ⟨learnt, ?_, more.trans evenMore, learntWithin, fun mention mentioned => ?_⟩
      · rw [Ty.substituteList, inferList?, inferred]
        exact inferredRest
      · rcases List.mem_append.mp mentioned with inFirst | inRest
        · exact evenMore.isSome (learnsFirst mention inFirst)
        · exact learnsRest mention inRest

end

end Substitution

namespace Catalog

section Inference

variable {catalog : Catalog} {id target : DefinitionId} {definition : Definition}
  {arguments : List Ty} {type : Ty} {fuel more limit : Nat}

/-- More steps lead to no other view than as many steps as there are above the type. -/
theorem viewWithin_eq_of_ascends_lt
    (ascents : ∀ {last steps}, catalog.Ascends steps type last → steps < fuel)
    (le : fuel ≤ more) :
    catalog.viewWithin target more type = catalog.viewWithin target fuel type := by
  induction fuel generalizing type more with
  | zero =>
      cases ascents (.here type)
  | succ fuel inductionHypothesis =>
      obtain ⟨more, rfl⟩ : ∃ less, more = less + 1 := ⟨more - 1, by omega⟩
      have sameAbove {above : Ty} (member : above ∈ catalog.immediateSupertypes type) :
          catalog.viewWithin target more above = catalog.viewWithin target fuel above :=
        inductionHypothesis
          (fun ascent => Nat.lt_of_succ_lt_succ (ascents (.up member ascent))) (by omega)
      cases isOpen : type.isTypeVariable || type.isWildcard with
      | true =>
          have onlyCeiling := (viewWithin_of_isOpen catalog target isOpen fuel).2.1
          rw [(viewWithin_of_isOpen catalog target isOpen more).1,
            (viewWithin_of_isOpen catalog target isOpen fuel).1]
          apply sameAbove
          rw [onlyCeiling]
          exact List.mem_singleton_self _
      | false =>
          cases type with
          | classType id arguments =>
              have sameViews :
                  (catalog.classSupertypes id arguments).filterMap
                      (catalog.viewWithin target more) =
                    (catalog.classSupertypes id arguments).filterMap
                      (catalog.viewWithin target fuel) :=
                List.filterMap_congr fun above member => sameAbove member
              rw [viewWithin, viewWithin, ← List.head?_filterMap, ← List.head?_filterMap,
                sameViews]
          | array element => rfl
          | primitive kind => rfl
          | null => rfl
          | _ => cases isOpen

/-- Below the depth of all hierarchies the search for the view of a use never stops short. -/
theorem HasDepthBelow.viewWithin_eq
    (depth : catalog.HasDepthBelow limit) (declares : catalog.DeclaresUses)
    (found : catalog.definition? id = some definition)
    (arity : arguments.length = definition.parameters.length) (le : limit ≤ more) :
    catalog.viewWithin target more (.classType id arguments) =
      catalog.viewWithin target limit (.classType id arguments) := by
  refine viewWithin_eq_of_ascends_lt (fun ascent => ?_) le
  rw [← declares.substitute_ownType found arity] at ascent
  obtain ⟨general, ownAscent, _⟩ :=
    declares.exists_of_ascends_substitute (isUse_ownType found) ascent
  exact depth id definition found ownAscent

/-- A use is below each of its views. -/
theorem HasDepthBelow.isSubtype_of_viewAs?
    (depth : catalog.HasDepthBelow supertypeLimit) (declares : catalog.DeclaresUses)
    (found : catalog.definition? id = some definition)
    (arity : arguments.length = definition.parameters.length) {actuals : List Ty}
    (viewed : catalog.viewAs? (.classType id arguments) target =
      some (.classType target actuals)) :
    catalog.isSubtype (.classType id arguments) (.classType target actuals) = true := by
  rw [viewAs?, depth.viewWithin_eq declares found arity (Nat.le_succ _)] at viewed
  apply isSubtypeWithin_of_view viewed
  apply List.forall₂_same.mpr
  intro argument _
  rw [containsArgument_eq, beq_self_eq_true, Bool.true_or]

/-- The view of a use is the view of the own type of the definition, which mentions no others than
the parameters, with the arguments put in. -/
theorem DeclaresUses.exists_ownView
    (declares : catalog.DeclaresUses) (found : catalog.definition? id = some definition)
    (arity : arguments.length = definition.parameters.length) {view : Ty}
    (viewed : catalog.viewAs? (.classType id arguments) target = some view) :
    ∃ patterns, catalog.viewAs? (definition.ownType id) target = some (.classType target patterns) ∧
      view = .classType target
        (Ty.substituteList (.bindParameters id definition.parameters arguments) patterns) ∧
      ∀ mention ∈ Ty.mentionsList patterns, mention.1 ∈ definition.parameterIds id := by
  have ownUse := isUse_ownType found
  have isInstance : some view =
      (catalog.viewAs? (definition.ownType id) target).map
        (Ty.substitute (.bindParameters id definition.parameters arguments)) := by
    rw [← viewed, ← declares.substitute_ownType found arity]
    exact declares.viewWithin_substitute ownUse _ _
  obtain ⟨ownView, ownViewed, same⟩ := Option.map_eq_some_iff.mp isInstance.symm
  obtain ⟨patterns, rfl⟩ := exists_of_viewWithin ownViewed
  refine ⟨patterns, ownViewed, same.symm, fun mention inPatterns => ?_⟩
  obtain ⟨steps, _, ownAscent⟩ := declares.exists_ascends ownUse ownViewed
  have ownMentions := (declares.isUse_of_ascends ownUse ownAscent).2
  obtain ⟨parameter, isParameter, sameId⟩ :=
    definition.exists_of_mem_mentions_ownType (ownMentions inPatterns)
  exact List.mem_map.mpr ⟨parameter, isParameter, sameId.symm⟩

/-- An instance of a list of patterns that mentions the parameters of a definition, all of them and
no others, leads back to the arguments. -/
theorem instantiateBelow?_substitute
    (arity : arguments.length = definition.parameters.length)
    (distinct : (definition.parameters.map (·.name)).Nodup) {patterns : List Ty}
    (own : ∀ mention ∈ Ty.mentionsList patterns, mention.1 ∈ definition.parameterIds id)
    (mentioned : ∀ parameter ∈ definition.parameterIds id,
      parameter ∈ (Ty.mentionsList patterns).map (·.1)) :
    instantiateBelow? id definition patterns
        (Ty.substituteList (.bindParameters id definition.parameters arguments) patterns) =
      some (.classType id arguments) := by
  let binding := Substitution.bindParameters id definition.parameters arguments
  have isOwn : ∀ mention ∈ Ty.mentionsList patterns,
      mention.1.owner = some id ∧ (binding.get? mention.1).isSome = true := by
    intro mention inPatterns
    obtain ⟨parameter, isParameter, same⟩ := List.mem_map.mp (own mention inPatterns)
    rw [← same]
    exact ⟨rfl, Substitution.isSome_get?_bindParameters arity isParameter⟩
  have nothingKnown : Substitution.empty.Within binding := fun _ _ bound => by cases bound
  obtain ⟨learnt, inferred, _, learntWithin, learnsAll⟩ :=
    Substitution.exists_inferList?_substitute patterns .empty nothingKnown isOwn
  have recovered : definition.parameters.map (fun parameter =>
      (learnt.get? ⟨parameter.name, some id⟩).getD .unboundedWildcard) = arguments := by
    apply List.ext_getElem
    · simpa using arity.symm
    · intro index _ less
      have inParameters : index < definition.parameters.length := by omega
      have isParameter : ⟨definition.parameters[index].name, some id⟩ ∈
          definition.parameterIds id :=
        List.mem_map_of_mem (List.getElem_mem inParameters)
      obtain ⟨mention, inPatterns, same⟩ := List.mem_map.mp (mentioned _ isParameter)
      rw [List.getElem_map, ← same, learntWithin.get?_eq (learnsAll _ inPatterns), same,
        Substitution.get?_bindParameters_getElem arity distinct inParameters]
      rfl
  have inferredEither :
      (if patterns.isEmpty || (Ty.substituteList binding patterns).isEmpty then
        some Substitution.empty
      else Substitution.inferList? id patterns (Ty.substituteList binding patterns) .empty) =
        some learnt := by
    cases patterns with
    | nil => exact inferred
    | cons pattern patterns => exact inferred
  rw [instantiateBelow?, inferredEither, Option.map_some, recovered]

end Inference

/-- The use of a definition can be read off its view as any class above it, provided that the view
of its own type mentions every parameter: refining the view to the definition gives the use back,
with all of its arguments. A definition without parameters is found from all of its views. -/
theorem refineTo?_viewAs?
    {catalog : Catalog} (declares : catalog.DeclaresUses)
    (depth : catalog.HasDepthBelow supertypeLimit) {id target : DefinitionId}
    {definition : Definition} (found : catalog.definition? id = some definition)
    {arguments : List Ty} (arity : arguments.length = definition.parameters.length)
    {view : Ty} (viewed : catalog.viewAs? (.classType id arguments) target = some view)
    (mentioned : ∀ ownView ∈ catalog.viewAs? (definition.ownType id) target,
      ∀ parameter ∈ definition.parameterIds id, parameter ∈ ownView.mentions.map (·.1)) :
    catalog.refineTo? view id = some (.classType id arguments) := by
  obtain ⟨patterns, ownViewed, rfl, own⟩ := declares.exists_ownView found arity viewed
  rw [refineTo?]
  by_cases same : target = id
  · subst same
    rw [if_pos rfl, ← viewed, viewAs?, viewWithin, if_pos rfl]
  rw [if_neg same]
  simp only [found]
  have below := depth.isSubtype_of_viewAs? declares found arity viewed
  have recovered := instantiateBelow?_substitute arity (declares.distinct id definition found) own
    (mentioned _ ownViewed)
  cases isGeneric : definition.isGeneric with
  | false =>
      have noParameters : definition.parameters = [] := by
        simpa [Definition.isGeneric] using isGeneric
      have noArguments : arguments = [] := by
        rw [noParameters] at arity
        exact List.eq_nil_of_length_eq_zero arity
      subst noArguments
      simpa [Ty.raw] using below
  | true =>
      obtain ⟨parameter, isParameter⟩ : ∃ parameter, parameter ∈ definition.parameters := by
        apply List.exists_mem_of_ne_nil
        simpa [Definition.isGeneric] using isGeneric
      have inPatterns := mentioned _ ownViewed _ (List.mem_map_of_mem isParameter)
      have notRaw : (Ty.substituteList (.bindParameters id definition.parameters arguments)
          patterns).isEmpty = false := by
        cases patterns with
        | nil => cases inPatterns
        | cons => rfl
      simpa [ownViewed, notRaw, recovered] using below

/-- A catalog in which `Pair<A, B>` extends `Link<B, A>`, and `Link<X, Y>` implements
`Source<Comparable<? super X[]>, Y, Comparable<X>>`. -/
def linked : Catalog :=
  let own (name : String) (owner : Nat) : Ty := .typeVariable ⟨name, some ⟨owner⟩⟩ none
  let comparable (type : Ty) : Ty := .classType ⟨4⟩ [type]
  let source := fun _ => { Definition.ofInterface "Source" with
    parameters := [⟨"R", none⟩, ⟨"S", none⟩, ⟨"T", none⟩] }
  let link := fun _ => { Definition.ofClass "Link" with
    parameters := [⟨"X", none⟩, ⟨"Y", none⟩]
    interfaces := [.classType ⟨15⟩ [comparable (.lowerWildcard (.array (own "X" 16))), own "Y" 16,
      comparable (own "X" 16)]] }
  let pair := fun _ => { Definition.ofClass "Pair" with
    parameters := [⟨"A", none⟩, ⟨"B", none⟩]
    base := some (.classType ⟨16⟩ [own "B" 17, own "A" 17]) }
  [source, link, pair].foldl (fun catalog build => (catalog.insertWith build).2) .standard

/-- The view of a pair as a source leads back to the pair: one argument is read off a wildcard and
an array, and again off a second place. -/
theorem refineTo?_viewAs?_of_linked :
    let first : Ty := .upperWildcard (.typeVariable ⟨"V", none⟩ (some linked.stringType))
    let second : Ty := .array linked.stringType
    let comparable (type : Ty) : Ty := .classType ⟨4⟩ [type]
    let view := Ty.classType ⟨15⟩
      [comparable (.lowerWildcard (.array second)), first, comparable second]
    linked.viewAs? (.classType ⟨17⟩ [first, second]) ⟨15⟩ = some view ∧
      linked.refineTo? view ⟨17⟩ = some (.classType ⟨17⟩ [first, second]) := by
  have declares : linked.DeclaresUses := .of_ids (by decide +kernel)
  have depth : linked.HasDepthBelow supertypeLimit := .of_ids (by decide +kernel)
  have viewed : linked.viewAs? (.classType ⟨17⟩ [.upperWildcard (.typeVariable ⟨"V", none⟩
      (some linked.stringType)), .array linked.stringType]) ⟨15⟩ = some _ := rfl
  exact ⟨viewed, refineTo?_viewAs? declares depth rfl rfl viewed (by decide +kernel)⟩

end Catalog

end TypedJava

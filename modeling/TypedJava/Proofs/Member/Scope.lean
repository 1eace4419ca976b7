import TypedJava.Member.Lookup
import TypedJava.Proofs.Conversion.Erasure
import TypedJava.Proofs.Subtyping.Applied

/-! # The scope of type parameters

Outside of its declaring definition the type of a member must not mention the parameters of that
definition. A receiver without variables has views without variables, on whatever way up the
hierarchy they are found: a use with arguments hands its arguments on, a raw use of a generic class
has raw supertypes, and a class without parameters has supertypes without variables. So the view puts
types without variables in for the parameters, or it erases. -/

namespace TypedJava

namespace Ty

mutual

/-- A type mentions no variable exactly if the list of what it mentions is empty. -/
theorem mentionsVariable_eq_false_iff :
    (type : Ty) → (type.mentionsVariable = false ↔ type.mentions = [])
  | typeVariable _ _ => by simp [mentionsVariable, mentions]
  | classType _ arguments => listMentionsVariable_eq_false_iff arguments
  | array element => mentionsVariable_eq_false_iff element
  | upperWildcard upper => mentionsVariable_eq_false_iff upper
  | lowerWildcard lower => mentionsVariable_eq_false_iff lower
  | unboundedWildcard => by simp [mentionsVariable, mentions]
  | primitive _ => by simp [mentionsVariable, mentions]
  | null => by simp [mentionsVariable, mentions]

theorem listMentionsVariable_eq_false_iff :
    (types : List Ty) → (listMentionsVariable types = false ↔ mentionsList types = [])
  | [] => by simp [listMentionsVariable, mentionsList]
  | type :: types => by
      rw [listMentionsVariable, mentionsList, Bool.or_eq_false_iff, List.append_eq_nil_iff,
        mentionsVariable_eq_false_iff type, listMentionsVariable_eq_false_iff types]

end

mutual

/-- What is put in for a variable of the type is mentioned by the instance. -/
theorem mem_mentions_substitute
    {substitution : Substitution} {id : VarId} {bound : Option Ty} {mention : VarId × Option Ty}
    (inserted : mention ∈ ((substitution.get? id).getD (typeVariable id bound)).mentions) :
    (type : Ty) → (id, bound) ∈ type.mentions → mention ∈ (type.substitute substitution).mentions
  | typeVariable _ _, mentioned => by
      cases List.mem_singleton.mp mentioned
      exact inserted
  | classType _ arguments, mentioned => mem_mentionsList_substitute inserted arguments mentioned
  | array element, mentioned => mem_mentions_substitute inserted element mentioned
  | upperWildcard upper, mentioned => mem_mentions_substitute inserted upper mentioned
  | lowerWildcard lower, mentioned => mem_mentions_substitute inserted lower mentioned
  | unboundedWildcard, mentioned => by cases mentioned
  | primitive _, mentioned => by cases mentioned
  | null, mentioned => by cases mentioned

theorem mem_mentionsList_substitute
    {substitution : Substitution} {id : VarId} {bound : Option Ty} {mention : VarId × Option Ty}
    (inserted : mention ∈ ((substitution.get? id).getD (typeVariable id bound)).mentions) :
    (types : List Ty) → (id, bound) ∈ mentionsList types →
    mention ∈ mentionsList (substituteList substitution types)
  | [], mentioned => by cases mentioned
  | type :: types, mentioned => by
      rcases List.mem_append.mp mentioned with inFirst | inOthers
      · exact List.mem_append_left _ (mem_mentions_substitute inserted type inFirst)
      · exact List.mem_append_right _ (mem_mentionsList_substitute inserted types inOthers)

end

/-- The arguments of a use without variables mention none. -/
theorem mentions_of_mem_arguments_eq_nil
    {definition : DefinitionId} {arguments : List Ty}
    (closed : (classType definition arguments).mentions = []) {argument : Ty}
    (member : argument ∈ arguments) :
    argument.mentions = [] := by
  rw [mentions, mentionsList_eq_flatMap, List.flatMap_eq_nil_iff] at closed
  exact closed argument member

/-- Erased types mention no variables. -/
theorem Erased.mentions_eq_nil {type : Ty} (erased : type.Erased) : type.mentions = [] := by
  induction erased with
  | primitive kind => rfl
  | raw definition => rfl
  | array _ inductionHypothesis => exact inductionHypothesis
  | null => rfl

end Ty

namespace Substitution

section Closed

variable {owner : DefinitionId} {parameters : List TypeParameter} {arguments : List Ty}
  (closed : ∀ argument ∈ arguments, argument.mentions = [])

include closed

/-- With types without variables in place of all parameters, an instance mentions what the type
mentions besides them. -/
theorem of_mem_mentions_bindParameters
    (sameLength : arguments.length = parameters.length) {type : Ty} {mention : VarId × Option Ty}
    (mentioned : mention ∈ (type.substitute (bindParameters owner parameters arguments)).mentions) :
    mention ∈ type.mentions ∧
      ∀ parameter ∈ parameters, mention.1 ≠ ⟨parameter.name, some owner⟩ := by
  obtain ⟨id, bound, original, inserted⟩ := Ty.exists_of_mem_mentions_substitute type mentioned
  cases isBound : (bindParameters owner parameters arguments).get? id with
  | some argument =>
      obtain ⟨parameter, zipped, rfl⟩ := exists_of_get?_bindParameters isBound
      have member : argument ∈ arguments := (List.of_mem_zip zipped).2
      rw [isBound, Option.getD_some, closed argument member] at inserted
      cases inserted
  | none =>
      rw [isBound] at inserted
      cases List.mem_singleton.mp inserted
      refine ⟨original, ?_⟩
      rintro parameter member rfl
      have isSome : ((bindParameters owner parameters arguments).get?
          ⟨parameter.name, some owner⟩).isSome = true :=
        isSome_get?_bindParameters sameLength member
      rw [isBound] at isSome
      cases isSome

omit closed in
/-- The instance still mentions the variables of other owners. -/
theorem mem_mentions_bindParameters
    {type : Ty} {mention : VarId × Option Ty} (mentioned : mention ∈ type.mentions)
    (foreign : mention.1.owner ≠ some owner) :
    mention ∈ (type.substitute (bindParameters owner parameters arguments)).mentions := by
  refine Ty.mem_mentions_substitute ?_ type mentioned
  cases isBound : (bindParameters owner parameters arguments).get? mention.1 with
  | some argument =>
      obtain ⟨parameter, _, same⟩ := exists_of_get?_bindParameters isBound
      exact absurd (congrArg VarId.owner same) foreign
  | none => exact List.mem_singleton_self _

end Closed

end Substitution

namespace Catalog

/-- The class that the type uses, or that bounds it as a wildcard, is used raw or with one argument
for each parameter. -/
def HasArity (catalog : Catalog) : Ty → Prop
  | .classType id arguments => catalog.IsUse (.classType id arguments)
  | .upperWildcard upper => HasArity catalog upper
  | _ => True

section Scope

variable {catalog : Catalog} (declares : catalog.DeclaresUses) {id declaring : DefinitionId}
  {arguments : List Ty}

theorem IsUse.hasArity {type : Ty} (use : catalog.IsUse type) : catalog.HasArity type := by
  cases type with
  | classType id arguments => exact use
  | _ => cases use

/-- What a member type becomes when the receiver is viewed as a use of the declaring class: the
arguments replace the parameters, a raw view erases, and without parameters nothing changes. -/
theorem instantiateMember_of_view
    {receiver : Ty} (use : catalog.IsUse (.classType declaring arguments))
    (viewed : catalog.viewAs? receiver declaring = some (.classType declaring arguments))
    (memberType : Ty) :
    (∃ definition, catalog.definition? declaring = some definition ∧
        arguments.length = definition.parameters.length ∧
        catalog.instantiateMember memberType declaring receiver =
          memberType.substitute (.bindParameters declaring definition.parameters arguments)) ∨
      (arguments = [] ∧ catalog.instantiateMember memberType declaring receiver =
        memberType.erase catalog) ∨
      (catalog.parameterIds declaring = [] ∧
        catalog.instantiateMember memberType declaring receiver = memberType) := by
  cases found : catalog.definition? declaring with
  | none =>
      refine Or.inr (Or.inr ⟨by rw [parameterIds, found]; rfl, ?_⟩)
      simp [instantiateMember, viewed, Substitution.ofClass?, found]
  | some definition =>
      cases isRaw : arguments.isEmpty with
      | true =>
          cases isGeneric : definition.isGeneric with
          | true =>
              refine Or.inr (Or.inl ⟨List.isEmpty_iff.mp isRaw, ?_⟩)
              simp [instantiateMember, viewed, Substitution.ofClass?, isRaw, found, isGeneric]
          | false =>
              have noParameters : catalog.parameterIds declaring = [] := by
                rw [parameterIds_of_definition? found]
                simpa [Definition.isGeneric, Definition.parameterIds] using isGeneric
              refine Or.inr (Or.inr ⟨noParameters, ?_⟩)
              simp [instantiateMember, viewed, Substitution.ofClass?, isRaw, found, isGeneric]
      | false =>
          have arity : arguments.length = definition.parameters.length := by
            rcases use with isEmpty | arity
            · rw [isEmpty] at isRaw
              cases isRaw
            · exact arity definition found
          refine Or.inl ⟨definition, rfl, arity, ?_⟩
          simp [instantiateMember, viewed, Substitution.ofClass?, isRaw, found, arity]

include declares

/-- The types above a use without variables mention no variables. -/
theorem DeclaresUses.mentions_of_mem_eq_nil
    (use : catalog.IsUse (.classType id arguments))
    (closed : (Ty.classType id arguments).mentions = []) {above : Ty}
    (member : above ∈ catalog.classSupertypes id arguments) :
    above.mentions = [] := by
  by_cases isObject : id = catalog.core.object
  · rw [classSupertypes, if_pos isObject] at member
    cases member
  cases found : catalog.definition? id with
  | none =>
      simp only [classSupertypes, if_neg isObject, found] at member
      cases member
  | some definition =>
      rcases use.arity_or_raw found with arity | ⟨rfl, isGeneric⟩
      · rw [declares.classSupertypes_eq isObject found arity] at member
        obtain ⟨type, declared, rfl⟩ := List.mem_map.mp member
        apply List.eq_nil_iff_forall_not_mem.mpr
        intro mention mentioned
        -- What would be left is a variable of the declared supertype that is no parameter.
        obtain ⟨original, notParameter⟩ :=
          Substitution.of_mem_mentions_bindParameters
            (fun _ => Ty.mentions_of_mem_arguments_eq_nil closed) arity mentioned
        obtain ⟨parameter, isParameter, same⟩ :=
          List.mem_map.mp (declares.own id definition found type declared _ original)
        exact notParameter parameter isParameter same.symm
      · obtain ⟨raw, rfl⟩ := declares.eq_raw_of_mem found isGeneric member
        rfl

/-- The view of a receiver without variables is a use without variables. -/
theorem DeclaresUses.closed_viewWithin
    {receiver view : Ty} (closed : receiver.mentions = []) (hasArity : catalog.HasArity receiver)
    {fuel : Nat} (viewed : catalog.viewWithin declaring fuel receiver = some view) :
    view.mentions = [] ∧ catalog.IsUse view := by
  induction fuel generalizing receiver with
  | zero => cases viewed
  | succ fuel inductionHypothesis =>
      cases receiver with
      | classType id arguments =>
          rw [viewWithin] at viewed
          split at viewed
          · cases viewed
            exact ⟨closed, hasArity⟩
          · obtain ⟨above, member, viewedAbove⟩ := List.exists_of_findSome?_eq_some viewed
            exact inductionHypothesis (declares.mentions_of_mem_eq_nil hasArity closed member)
              (declares.isUse_of_mem hasArity member).hasArity viewedAbove
      | typeVariable id bound => cases closed
      | upperWildcard upper =>
          have upperClosed : upper.mentions = [] := closed
          have upperHasArity : catalog.HasArity upper := hasArity
          exact inductionHypothesis upperClosed upperHasArity viewed
      | array element =>
          rw [viewWithin] at viewed
          split at viewed
          · cases viewed
            exact ⟨rfl, Or.inl rfl⟩
          · cases viewed
      | primitive kind => cases viewed
      | null => cases viewed
      | _ =>
          -- Without an upper bound it is the root class that is viewed.
          have objectClosed : catalog.objectType.mentions = [] := rfl
          exact inductionHypothesis objectClosed (Or.inl rfl) viewed

end Scope

/-- No receiver without variables lets the parameters of the declaring definition out of a member
type, whatever the way on which it derives from the definition. The type that the member has there
mentions variables of the member type only, and none of the definition. Unless the receiver is viewed
raw, it still mentions all others. -/
theorem mentions_instantiateMember
    {catalog : Catalog} (declares : catalog.DeclaresUses) {declaring : DefinitionId}
    {memberType receiver : Ty}
    (wellScoped : ∀ mention ∈ memberType.mentions, mention.1.owner = some declaring →
      mention.1 ∈ catalog.parameterIds declaring)
    (closed : receiver.mentionsVariable = false) (hasArity : catalog.HasArity receiver)
    (derives : (catalog.viewAs? receiver declaring).isSome = true) :
    (∀ mention ∈ (catalog.instantiateMember memberType declaring receiver).mentions,
      mention ∈ memberType.mentions ∧ mention.1.owner ≠ some declaring) ∧
    (catalog.viewAs? receiver declaring ≠ some (.raw declaring) →
      ∀ mention ∈ memberType.mentions, mention.1.owner ≠ some declaring →
        mention ∈ (catalog.instantiateMember memberType declaring receiver).mentions) := by
  obtain ⟨view, viewed⟩ := Option.isSome_iff_exists.mp derives
  obtain ⟨arguments, rfl⟩ := exists_of_viewWithin viewed
  obtain ⟨viewClosed, use⟩ :=
    declares.closed_viewWithin ((Ty.mentionsVariable_eq_false_iff receiver).mp closed) hasArity
      viewed
  have argumentsClosed (argument : Ty) (member : argument ∈ arguments) : argument.mentions = [] :=
    Ty.mentions_of_mem_arguments_eq_nil viewClosed member
  rcases instantiateMember_of_view use viewed memberType with
    ⟨definition, found, arity, same⟩ | ⟨rfl, same⟩ | ⟨noParameters, same⟩
  · refine ⟨fun mention mentioned => ?_, fun _ mention mentioned foreign => ?_⟩
    · rw [same] at mentioned
      obtain ⟨original, notParameter⟩ :=
        Substitution.of_mem_mentions_bindParameters argumentsClosed arity mentioned
      refine ⟨original, fun own => ?_⟩
      have isParameter := wellScoped mention original own
      rw [parameterIds_of_definition? found] at isParameter
      obtain ⟨parameter, member, isMention⟩ := List.mem_map.mp isParameter
      exact notParameter parameter member isMention.symm
    · rw [same]
      exact Substitution.mem_mentions_bindParameters mentioned foreign
  · refine ⟨fun mention mentioned => ?_, fun notRaw => absurd viewed notRaw⟩
    rw [same, (Ty.erased_erase catalog memberType).mentions_eq_nil] at mentioned
    cases mentioned
  · refine ⟨fun mention mentioned => ?_, fun _ mention mentioned _ => ?_⟩
    · rw [same] at mentioned
      refine ⟨mentioned, fun own => ?_⟩
      have isParameter := wellScoped mention mentioned own
      rw [noParameters] at isParameter
      cases isParameter
    · rw [same]
      exact mentioned

/-- A member of `Source<T>` whose type pairs `T` with a variable of its own, reached through a wildcard
that is bounded by a use of `Both`: the way up leads over two definitions, and `T` gives way. -/
theorem mentions_instantiateMember_of_diamond :
    let ownVariable : Ty := .typeVariable ⟨"M", none⟩ none
    let memberType : Ty := .classType ⟨18⟩ [.typeVariable ⟨"T", some ⟨15⟩⟩ none, ownVariable]
    let receiver : Ty :=
      .upperWildcard (.classType ⟨18⟩ [diamond.objectType, .lowerWildcard diamond.stringType])
    diamond.DeclaresUses ∧
      (∀ mention ∈ memberType.mentions, mention.1.owner = some ⟨15⟩ →
        mention.1 ∈ diamond.parameterIds ⟨15⟩) ∧
      receiver.mentionsVariable = false ∧ diamond.HasArity receiver ∧
      (diamond.viewAs? receiver ⟨15⟩).isSome = true ∧
      (∀ mention ∈ (diamond.instantiateMember memberType ⟨15⟩ receiver).mentions,
        mention ∈ memberType.mentions ∧ mention.1.owner ≠ some ⟨15⟩) ∧
      (⟨"M", none⟩, none) ∈ (diamond.instantiateMember memberType ⟨15⟩ receiver).mentions := by
  intro ownVariable memberType receiver
  have wellScoped : ∀ mention ∈ memberType.mentions, mention.1.owner = some ⟨15⟩ →
      mention.1 ∈ diamond.parameterIds ⟨15⟩ := by
    intro mention mentioned own
    rcases List.mem_cons.mp mentioned with rfl | isOwnVariable
    · exact List.mem_singleton_self _
    · cases List.mem_singleton.mp isOwnVariable
      cases own
  have hasArity : diamond.HasArity receiver := Or.inr fun definition found => by
    cases found
    rfl
  have derives : (diamond.viewAs? receiver ⟨15⟩).isSome = true := by decide +kernel
  have notRaw : diamond.viewAs? receiver ⟨15⟩ ≠ some (.raw ⟨15⟩) := by
    intro isRaw
    cases isRaw
  have leftOver :=
    mentions_instantiateMember declaresUses_diamond wellScoped rfl hasArity derives
  refine ⟨declaresUses_diamond, wellScoped, rfl, hasArity, derives, leftOver.1, ?_⟩
  exact leftOver.2 notRaw _ (List.mem_cons_of_mem _ (List.mem_singleton_self _)) (by simp)

end Catalog

end TypedJava

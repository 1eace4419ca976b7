import TypedJava.Proofs.Conversion.Erasure
import TypedJava.Proofs.ConversionPass.Idempotence

/-! # Accesses after a run

After a complete run the receiver of every access to a member of a plain class is within that class.
A receiver that was not is cast to a use of the class, and neither the written form of the cast type
nor the rules that treat the cast again lead out of the class. -/

namespace TypedJava

section CastTypes

variable {catalog : Catalog} {definition : DefinitionId}

theorem Ty.exists_writable_classType
    (options : TypeSyntaxOptions) (arguments : List Ty) (topLevel : Bool) :
    ∃ written, (classType definition arguments).writable catalog options topLevel =
      classType definition written := by
  rw [writable]
  split
  · exact ⟨_, rfl⟩
  · exact ⟨[], rfl⟩

theorem Catalog.exists_of_instantiateBelow?
    {declared : Definition} {view arguments : List Ty} {refined : Ty}
    (instantiated : instantiateBelow? definition declared view arguments = some refined) :
    ∃ written, refined = .classType definition written := by
  obtain ⟨known, _, same⟩ := Option.map_eq_some_iff.mp instantiated
  exact ⟨_, same.symm⟩

/-- A refinement to a class is a use of the class. -/
theorem Catalog.exists_of_refineTo?
    {type refined : Ty} (refines : catalog.refineTo? type definition = some refined) :
    ∃ arguments, refined = .classType definition arguments := by
  cases type with
  | classType id arguments =>
      rw [refineTo?] at refines
      split at refines
      case isTrue same =>
        subst same
        exact ⟨arguments, (Option.some.inj refines).symm⟩
      case isFalse _ =>
        split at refines
        · cases refines
        · have candidate := (Option.filter_eq_some_iff.mp refines).1
          split at candidate
          · exact ⟨[], (Option.some.inj candidate).symm⟩
          · split at candidate
            · split at candidate
              · exact ⟨[], (Option.some.inj candidate).symm⟩
              · exact exists_of_instantiateBelow? candidate
            · cases candidate
  | _ =>
      cases refines

/-- The receiver of a member is cast to a use of the class that declares the member. -/
theorem Context.exists_receiverCastType
    {context : Context} {member : Member}
    (declares : member.declaringDefinition? = some definition)
    (receiver : Ty) :
    ∃ arguments, context.receiverCastType receiver member = .classType definition arguments := by
  rw [receiverCastType, declares]
  dsimp only
  split
  case h_1 refines =>
    exact Catalog.exists_of_refineTo? refines
  case h_2 _ =>
    split
    · exact ⟨_, rfl⟩
    · exact ⟨[], rfl⟩

/-- Every use of a class is a subtype of the plain class. -/
theorem Catalog.isSubtype_raw (arguments : List Ty) :
    catalog.isSubtype (.classType definition arguments) (.raw definition) = true := by
  have viewed : catalog.viewWithin definition supertypeLimit (.classType definition arguments) =
      some (.classType definition arguments) := by
    rw [supertypeLimit, viewWithin, if_pos rfl]
  exact isSubtypeWithin_of_viewWithin viewed (Or.inl rfl)

end CastTypes

namespace Branch

variable {context : Context}

/-- The node at the top is no access to a member of a plain class, or its receiver is within the
class. -/
def ReachesAt (context : Context) (inherited : Option Member) (branch : Branch) : Prop :=
  branch.payload.handling = .access → ∀ member declaring receiver,
    branch.annotations.member.or inherited = some member → member.declaringType = .raw declaring →
    branch.typeIn? context .target = some receiver →
    context.catalog.isSubtype receiver member.declaringType = true

theorem TreatsAccess.reachesAt
    {bound : Nat} {again : Option Frame → Branch → Branch → Prop} {surroundings : Option Frame}
    {node result : Branch} (written : context.typeSyntax ≠ none)
    (comes : ∀ surroundings branch result, again surroundings branch result →
      ∃ fuel, Converts context bound False fuel surroundings branch result)
    (treats : TreatsAccess context bound again surroundings node result) :
    result.ReachesAt context (inheritedFrom surroundings) := by
  intro _ member declaring receiver accessed plain receiverType
  cases treats with
  | unknown missing =>
      have noMember : accessedMember? surroundings node ≠ none := by
        rw [accessedMember?]
        exact Option.ne_none_iff_exists'.mpr ⟨member, accessed⟩
      rcases missing with none | none | none
      · exact absurd none noMember
      · rw [none] at receiverType
        cases receiverType
      · exact absurd none written
  | settled otherAccessed otherType below =>
      rw [otherType] at receiverType
      cases otherAccessed.symm.trans accessed
      cases receiverType
      exact below
  | @wrapped frame target cast result other old options isFirst otherAccessed _ _ _ wraps related =>
      cases otherAccessed.symm.trans accessed
      obtain ⟨fuel, converts⟩ := comes _ _ _ related
      have declares : member.declaringDefinition? = some declaring := by
        rw [Member.declaringDefinition?, plain]
        rfl
      obtain ⟨arguments, castType⟩ := Context.exists_receiverCastType declares old
      rw [castType] at wraps
      obtain ⟨kept, same⟩ : ∃ kept, (Ty.classType declaring arguments).writable context.catalog
          options true = .classType declaring kept :=
        Ty.exists_writable_classType options arguments true
      have resultType := wraps.typeOf?_of_isReference (by rw [same]; rfl) converts
      rw [typeIn?_fill isFirst, resultType, same] at receiverType
      cases receiverType
      rw [plain]
      exact Catalog.isSubtype_raw kept

/-- The rules leave only accesses to plain classes through receivers within the class. -/
theorem establishes_reachesAt (bound : Nat) (written : context.typeSyntax ≠ none) :
    Establishes context bound (fun _ => True) (ReachesAt context) := by
  have noAccess {inherited : Option Member} {branch : Branch} {handling : Handling}
      (isOther : branch.payload.handling = handling) (other : handling ≠ .access) :
      branch.ReachesAt context inherited :=
    fun isAccess => absurd (isOther.symm.trans isAccess) other
  exact {
    other := fun _ _ noAccess _ _ isAccess => absurd isAccess noAccess
    access := fun comes _ treats _ => treats.reachesAt written comes
    legalCast := fun _ _ isCast _ => noAccess isCast (by decide)
    detouredCast := fun _ isCast _ _ _ _ => noAccess isCast (by decide)
    insertedCast := fun _ _ _ _ _ _ wraps _ =>
      noAccess (congrArg Payload.handling wraps.isCastTo.payload_eq) (by decide)
    assignment := fun _ _ isAssignment treats _ =>
      noAccess ((congrArg Payload.handling treats.payload_eq).trans isAssignment) (by decide) }

end Branch

namespace Edit

open Branch

/-- After a complete run every access to a member of a plain class goes through a receiver within the
class. -/
theorem insertConversions_reachesMembers
    {context : Context} {root : NodeId} {store : Store} (wellFormed : store.WellFormed)
    (isBlock : store.payload? (some root) = some .block) (written : context.typeSyntax ≠ none)
    (within : StaysWithinDepth context (some root) store) :
    ∃ once, (insertConversions context (some root)).run store = (.ok (), once) ∧
      ∀ id member declaring receiver, once.Visits root id →
        once.kind (some id) = .memberReference →
        once.accessedMember? (some id) = some member → member.declaringType = .raw declaring →
        once.typeOf? context (once.childIn (some id) .target) = some receiver →
        context.catalog.isSubtype receiver member.declaringType = true := by
  obtain ⟨once, ran⟩ := within.exists_run wellFormed isBlock
  refine ⟨once, ran, ?_⟩
  intro id member declaring receiver visits isAccess accessed plain receiverType
  have onceWellFormed := within.keepsWellFormed wellFormed isBlock ran
  obtain ⟨frames, branch, hosted, rfl, reaches⟩ :=
    within.exists_hosted wellFormed isBlock ran (establishes_reachesAt store.size written) written
      (fun _ _ _ _ => trivial) visits
  rw [hosted.held.kind_eq, ← Payload.handling_eq_access_iff] at isAccess
  rw [hosted.accessedMember?_eq onceWellFormed] at accessed
  rw [hosted.held.typeOf?_childIn onceWellFormed] at receiverType
  exact reaches isAccess member declaring receiver accessed plain receiverType

/-- The block `h.value;`, where `h` is some object and the field is one of the plain generic class. -/
def heldByObject : Store :=
  ((setMember (some 1) ⟨"value", .raw ⟨15⟩, .field (.typeVariable ⟨"T", some ⟨15⟩⟩ none)⟩).run
    (holderAccess.run .empty).2).2

theorem wellFormed_heldByObject : heldByObject.WellFormed :=
  Structural.keepsWellFormed (.setMember _ _) _ wellFormed_holderAccess

/-- The block `((Holder<?>) h).value;`, which the pass makes of it. -/
def castToHolder : Store :=
  ((insertConversions holderContext (some 4)).run heldByObject).2

theorem visits_castToHolder : castToHolder.Visits 4 1 := by
  have statement : castToHolder.place? (some 3) = some ⟨4, .statement⟩ := by decide +kernel
  have access : castToHolder.place? (some 1) = some ⟨3, .expression⟩ := by decide +kernel
  exact .child (.child .root (by decide +kernel) statement) (by decide +kernel) access

theorem insertConversions_reachesMembers_of_heldByObject :
    heldByObject.typeOf? holderContext (heldByObject.childIn (some 1) .target) = some (.raw ⟨1⟩) ∧
      castToHolder.typeOf? holderContext (castToHolder.childIn (some 1) .target) =
        some (.classType ⟨15⟩ [.unboundedWildcard]) ∧
      holderContext.catalog.isSubtype (.classType ⟨15⟩ [.unboundedWildcard]) (.raw ⟨15⟩) = true := by
  refine ⟨rfl, rfl, ?_⟩
  obtain ⟨once, ran, reaches⟩ :=
    @insertConversions_reachesMembers holderContext 4 heldByObject wellFormed_heldByObject rfl
      (by decide) (by decide +kernel)
  have same : castToHolder = once := congrArg Prod.snd ran
  subst same
  exact reaches 1 _ _ _ visits_castToHolder (by decide +kernel) rfl rfl rfl

end Edit

end TypedJava

import TypedJava.Proofs.ConversionPass.Settled
import TypedJava.Proofs.ConversionPass.Unmixed
import TypedJava.Proofs.ConversionPass.Visits
import TypedJava.Proofs.Edit.Structural

/-! # Running the pass again

A second run of the pass leaves the output of the first one alone if and only if every receiver in
it is within the class that declares the member, every cast is legal and every assigned value
converts without a cast. -/

namespace TypedJava

namespace Store

/-- No cast is missing at a node and a cast that is there is legal. -/
structure SettledAt (store : Store) (context : Context) (id : NodeId) : Prop where
  access : store.kind (some id) = .memberReference → ∀ member receiver,
    store.accessedMember? (some id) = some member →
    store.typeOf? context (store.childIn (some id) .target) = some receiver →
    context.catalog.isSubtype receiver member.declaringType = true
  cast : store.kind (some id) = .cast → ∀ target source,
    store.typeOf? context (store.childIn (some id) .type) = some target →
    store.typeOf? context (store.childIn (some id) .expression) = some source →
    context.catalog.conversion target source ≠ .none
  assignment : store.payload? (some id) = some (.assignment .assign) → ∀ target source,
    store.typeOf? context (store.childIn (some id) .left) = some target →
    store.typeOf? context (store.childIn (some id) .right) = some source →
    (context.catalog.conversion target source).isExplicit = false

/-- Nothing that the pass visits below a node misses a cast or is an illegal one. -/
def Settled (store : Store) (context : Context) (root : NodeId) : Prop :=
  ∀ id, store.Visits root id → store.SettledAt context id

end Store

namespace Branch

variable {store : Store} {frames : List Frame} {branch : Branch} {context : Context}

/-- The store sees at a node what the branch there sees. -/
theorem Hosted.settledAt_iff
    (hosted : Hosted store frames branch) (wellFormed : store.WellFormed)
    (unmixed : branch.UnmixedAt context) :
    branch.SettledAt context (inheritedFrom frames.head?) ↔ store.SettledAt context branch.id := by
  have accessed : store.accessedMember? (some branch.id) =
      branch.annotations.member.or (inheritedFrom frames.head?) :=
    hosted.accessedMember?_eq wellFormed
  have types (role : Role) : store.typeOf? context (store.childIn (some branch.id) role) =
      branch.typeIn? context role :=
    hosted.held.typeOf?_childIn wellFormed role
  have kind := hosted.held.kind_eq
  have payload := hosted.held.payload?_eq
  constructor
  · rintro ⟨access, cast, assignment⟩
    refine ⟨?_, ?_, ?_⟩
    · rw [kind, ← Payload.handling_eq_access_iff, accessed, types]
      exact access
    · rw [kind, ← Payload.handling_eq_cast_iff, types, types]
      exact cast
    · rw [payload, Option.some.injEq, ← Payload.handling_eq_assignment_iff, types, types]
      exact fun isAssignment target source left right =>
        (assignment isAssignment target source left right).1
  · rintro ⟨access, cast, assignment⟩
    rw [kind, ← Payload.handling_eq_access_iff, accessed, types] at access
    rw [kind, ← Payload.handling_eq_cast_iff, types, types] at cast
    rw [payload, Option.some.injEq, ← Payload.handling_eq_assignment_iff, types, types] at assignment
    exact ⟨access, cast, fun isAssignment target source left right =>
      ⟨assignment isAssignment target source left right,
        unmixed isAssignment target source left right⟩⟩

end Branch

namespace Edit

open Branch

variable {context : Context} {root : NodeId} {store once : Store}

/-- What a first run leaves below a block: a tree without assignments that mix truth values and
numbers. -/
private theorem exists_unmixed
    (wellFormed : store.WellFormed) (isBlock : store.payload? (some root) = some .block)
    (written : context.typeSyntax ≠ none) (within : StaysWithinDepth context (some root) store)
    (ran : (insertConversions context (some root)).run store = (.ok (), once)) :
    ∃ frames branch, once.WellFormed ∧ Hosted once frames branch ∧ branch.id = root ∧
      branch.payload = .block ∧ branch.Throughout (UnmixedAt context) := by
  obtain ⟨frames, branch, other, block, rfl, becomes, converts⟩ :=
    within.exists_converts wellFormed isBlock ran
  have isDescend : branch.payload.handling = .descend := by
    rw [block]
    rfl
  have samePayload := (converts.mayConvert.top_of_descend isDescend).2
  exact ⟨frames, other, becomes.wellFormed, becomes.hosted, rfl, samePayload.trans block,
    converts.throughout_unmixedAt written (Or.inr (by simp [isDescend]))⟩

/-- A second run leaves the output of the first one alone if and only if that output is settled. -/
theorem insertConversions_again_iff
    (wellFormed : store.WellFormed) (isBlock : store.payload? (some root) = some .block)
    (written : context.typeSyntax ≠ none) (within : StaysWithinDepth context (some root) store)
    (ran : (insertConversions context (some root)).run store = (.ok (), once))
    (withinAgain : StaysWithinDepth context (some root) once) :
    (insertConversions context (some root)).run once = (.ok (), once) ↔
      once.Settled context root := by
  obtain ⟨frames, branch, onceWellFormed, hosted, rfl, block, unmixed⟩ :=
    exists_unmixed wellFormed isBlock written within ran
  have unmixedAt {id : NodeId} (visits : once.Visits branch.id id) {innerFrames : List Frame}
      {inner : Branch} (innerHosted : Hosted once innerFrames inner) (sameTop : inner.id = id) :
      inner.UnmixedAt context := by
    obtain ⟨_, other, otherHosted, otherTop, everywhere⟩ :=
      (unmixed (inheritedFrom frames.head?)).exists_hosted hosted onceWellFormed visits
    rw [innerHosted.held.unique otherHosted.held (otherTop.trans sameTop.symm)] at everywhere
    exact everywhere.top
  constructor
  · intro ranAgain id visits
    obtain ⟨other, changed, run, becomes, converts⟩ :=
      withinAgain.run_insertConversions onceWellFormed hosted
    rw [ranAgain] at run
    cases run
    have attached : frames.head? ≠ none ∨ branch.payload.handling ≠ .cast := by
      rw [block]
      exact Or.inr (by decide)
    rcases converts.isLeftAlone written attached with ⟨_, settled⟩ | ⟨id, member, new⟩
    · obtain ⟨innerFrames, inner, innerHosted, rfl, everywhere⟩ :=
        settled.exists_hosted hosted onceWellFormed visits
      exact (innerHosted.settledAt_iff onceWellFormed (unmixedAt visits innerHosted rfl)).mp
        everywhere.top
    · exact absurd (becomes.hosted.held.lt_size member) (Nat.not_lt_of_le new)
  · intro settled
    have everywhere : Everywhere (Branch.SettledAt context) (inheritedFrom frames.head?) branch :=
      hosted.everywhere onceWellFormed fun innerFrames inner innerHosted visits =>
        (innerHosted.settledAt_iff onceWellFormed (unmixedAt visits innerHosted rfl)).mpr
          (settled inner.id visits)
    exact everywhere.run_treatWithin _ onceWellFormed hosted

/-! ### A receiver that is cast again and again -/

/-- The standard classes and a generic class with one parameter. -/
def holderContext : Context :=
  .ofCatalog (Catalog.standard.insert
    { Definition.ofClass "Holder" with parameters := [⟨"T", none⟩] }).2

/-- Builds the block `h.value;`, where `h` is some object and the field is one of a
`Holder<String>`. -/
def holderAccess : Edit NodeId := do
  let receiver ← mkNode (.identifier "h")
  setType (some receiver) (.raw ⟨1⟩)
  let access ← mkAccess (some receiver) "value" []
  setMember (some access) ⟨"value", .classType ⟨15⟩ [.raw ⟨6⟩],
    .field (.typeVariable ⟨"T", some ⟨15⟩⟩ none)⟩
  let statement ← mkStatement (some access)
  mkBlock [some statement]

theorem wellFormed_holderAccess : (holderAccess.run Store.empty).2.WellFormed := by
  refine Structural.keepsWellFormed ?_ _ Store.wellFormed_empty
  exact .bind (.mkNode _) fun _ => .bind (.setType _ _) fun _ => .bind (.mkAccess _ _ _) fun _ =>
    .bind (.setMember _ _) fun _ => .bind (.mkStatement _) fun _ => .mkBlock _

theorem run_holderAccess :
    (insertConversions holderContext (some 4)).run (holderAccess.run Store.empty).2 =
      (.ok (), ((insertConversions holderContext (some 4)).run
        (holderAccess.run Store.empty).2).2) :=
  Prod.ext (by decide +kernel) rfl

/-- The receiver is cast to `Holder<?>`, which is not within `Holder<String>` either. -/
theorem insertConversions_again_differs :
    let store := (holderAccess.run Store.empty).2
    let once := ((insertConversions holderContext (some 4)).run store).2
    store.WellFormed ∧ store.payload? (some 4) = some .block ∧ holderContext.typeSyntax ≠ none ∧
      StaysWithinDepth holderContext (some 4) store ∧
      StaysWithinDepth holderContext (some 4) once ∧
      (insertConversions holderContext (some 4)).run store = (.ok (), once) ∧
      (insertConversions holderContext (some 4)).run once ≠ (.ok (), once) := by
  refine ⟨wellFormed_holderAccess, rfl, by decide, by decide +kernel, by decide +kernel,
    run_holderAccess, fun same => ?_⟩
  have sameSize := congrArg (fun result => result.2.size) same
  revert sameSize
  decide +kernel

theorem insertConversions_again_iff_of_holderAccess :
    let once := ((insertConversions holderContext (some 4)).run (holderAccess.run Store.empty).2).2
    (insertConversions holderContext (some 4)).run once = (.ok (), once) ↔
      once.Settled holderContext 4 :=
  insertConversions_again_iff wellFormed_holderAccess rfl (by decide) (by decide +kernel)
    run_holderAccess (by decide +kernel)

end Edit

end TypedJava

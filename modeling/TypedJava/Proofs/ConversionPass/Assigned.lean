import TypedJava.Proofs.Conversion.Shallow
import TypedJava.Proofs.ConversionPass.Idempotence

/-! # Assigned values after a run

After a complete run the value of a simple assignment needs no cast any more, unless the type on the
left loses wildcards inside of its arguments when it is written. Then the value already has the
written type. -/

namespace TypedJava

theorem Conversion.eq_none_or (conversion : Conversion) :
    conversion = .none ∨ conversion.isImplicit = true ∨ conversion.isExplicit = true := by
  cases conversion <;> simp [isImplicit, isExplicit]

namespace Edit

open Branch

/-- After a complete run a simple assignment does not mix truth values and numbers. Its value converts
without a cast if it converts at all, unless wildcards inside of type arguments, or the null type, got
lost in the cast that the pass wrote. -/
theorem insertConversions_assigned
    {context : Context} {options : TypeSyntaxOptions} {root id : NodeId} {store once : Store}
    {target source : Ty} (wellFormed : store.WellFormed)
    (isBlock : store.payload? (some root) = some .block)
    (written : context.typeSyntax = some options)
    (within : StaysWithinDepth context (some root) store)
    (ran : (insertConversions context (some root)).run store = (.ok (), once))
    (visits : once.Visits root id)
    (isAssignment : once.payload? (some id) = some (.assignment .assign))
    (leftType : once.typeOf? context (once.childIn (some id) .left) = some target)
    (rightType : once.typeOf? context (once.childIn (some id) .right) = some source) :
    ¬ becomesNumber context.catalog target source ∧
      (∀ kind, ¬ becomesTruth context.catalog target source kind) ∧
      ((context.catalog.conversion target source).isImplicit = true ∨
        context.catalog.conversion target source = .none ∨
        source = target.writable context.catalog { options with allowWildcards := false } true ∧
          (options.includeArguments = true → target.isShallow context.catalog = false)) := by
  have knowsSyntax : context.typeSyntax ≠ none := by simp [written]
  have onceWellFormed := within.keepsWellFormed wellFormed isBlock ran
  obtain ⟨frames, branch, hosted, rfl, assignedAt⟩ :=
    within.exists_hosted wellFormed isBlock ran (establishes_assignedAt written) knowsSyntax
      (fun _ _ _ _ => trivial) visits
  have types (role : Role) : once.typeOf? context (once.childIn (some branch.id) role) =
      branch.typeIn? context role :=
    hosted.held.typeOf?_childIn onceWellFormed role
  rw [types] at leftType rightType
  rw [hosted.held.payload?_eq, Option.some.injEq, ← Payload.handling_eq_assignment_iff]
    at isAssignment
  have assigned : Assigned context.catalog options target source :=
    assignedAt isAssignment target source leftType rightType
  obtain ⟨noNumber, noTruth⟩ := assigned.unmixed
  refine ⟨noNumber, noTruth, ?_⟩
  rcases (context.catalog.conversion target source).eq_none_or with none | noCast | needsCast
  · exact Or.inr (Or.inl none)
  · exact Or.inl noCast
  · cases assigned with
    | kept _ _ noCast =>
        rw [needsCast] at noCast
        cases noCast
    | written =>
        refine Or.inr (Or.inr ⟨rfl, fun full => Bool.eq_false_iff.mpr fun shallow => ?_⟩)
        have noCast : (context.catalog.conversion target (target.writable context.catalog
            { options with allowWildcards := false } true)).isImplicit = true := by
          apply Ty.isImplicit_conversion_writable _ _ true shallow
          · exact full
          · rfl
        rw [Conversion.isExplicit_eq_false_of_isImplicit noCast] at needsCast
        cases needsCast

/-! ### A wildcard inside of a type argument -/

/-- Builds the block `a = b;`, where `a` is a `Holder<Holder<?>>` and `b` some object. -/
def holderAssignment : Edit NodeId := do
  let left ← mkNode (.identifier "a")
  setType (some left) (.classType ⟨15⟩ [.classType ⟨15⟩ [.unboundedWildcard]])
  let right ← mkNode (.identifier "b")
  setType (some right) (.raw ⟨1⟩)
  let assignment ← mkAssignment .assign (some left) (some right)
  let statement ← mkStatement (some assignment)
  mkBlock [some statement]

theorem wellFormed_holderAssignment : (holderAssignment.run Store.empty).2.WellFormed := by
  refine Structural.keepsWellFormed ?_ _ Store.wellFormed_empty
  exact .bind (.mkNode _) fun _ => .bind (.setType _ _) fun _ => .bind (.mkNode _) fun _ =>
    .bind (.setType _ _) fun _ => .bind (.mkAssignment _ _ _) fun _ =>
    .bind (.mkStatement _) fun _ => .mkBlock _

/-- The block `a = (Holder<Holder<Object>>) b;`, which the pass makes of it. -/
def holderAssigned : Store :=
  ((insertConversions holderContext (some 4)).run (holderAssignment.run Store.empty).2).2

theorem run_holderAssignment :
    (insertConversions holderContext (some 4)).run (holderAssignment.run Store.empty).2 =
      (.ok (), holderAssigned) :=
  Prod.ext (by decide +kernel) rfl

theorem visits_holderAssigned : holderAssigned.Visits 4 2 := by
  have placed : holderAssigned.place? (some 3) = some ⟨4, .statement⟩ := by decide +kernel
  have placedBelow : holderAssigned.place? (some 2) = some ⟨3, .expression⟩ := by decide +kernel
  exact .child (.child .root (by decide +kernel) placed) (by decide +kernel) placedBelow

theorem left_holderAssigned :
    holderAssigned.typeOf? holderContext (holderAssigned.childIn (some 2) .left) =
      some (.classType ⟨15⟩ [.classType ⟨15⟩ [.unboundedWildcard]]) :=
  rfl

/-- The cast is to `Holder<Holder<Object>>`, which converts to `Holder<Holder<?>>` with another cast
only. -/
theorem insertConversions_assigned_explicit :
    let store := (holderAssignment.run Store.empty).2
    let target := Ty.classType ⟨15⟩ [.classType ⟨15⟩ [.unboundedWildcard]]
    let written := Ty.classType ⟨15⟩ [.classType ⟨15⟩ [.raw ⟨1⟩]]
    store.WellFormed ∧ store.payload? (some 4) = some .block ∧ holderContext.typeSyntax ≠ none ∧
      StaysWithinDepth holderContext (some 4) store ∧
      (insertConversions holderContext (some 4)).run store = (.ok (), holderAssigned) ∧
      holderAssigned.Visits 4 2 ∧
      holderAssigned.payload? (some 2) = some (.assignment .assign) ∧
      store.typeOf? holderContext (store.childIn (some 2) .left) = some target ∧
      store.typeOf? holderContext (store.childIn (some 2) .right) = some (.raw ⟨1⟩) ∧
      holderContext.catalog.conversion target (.raw ⟨1⟩) = .explicit ∧
      holderAssigned.typeOf? holderContext (holderAssigned.childIn (some 2) .left) = some target ∧
      holderAssigned.typeOf? holderContext (holderAssigned.childIn (some 2) .right) =
        some written ∧
      holderContext.catalog.conversion target written = .explicit := by
  refine ⟨wellFormed_holderAssignment, rfl, by decide, by decide +kernel, run_holderAssignment,
    visits_holderAssigned, rfl, rfl, rfl, by decide +kernel, left_holderAssigned, rfl,
    by decide +kernel⟩

theorem insertConversions_assigned_of_holderAssignment :
    let target := Ty.classType ⟨15⟩ [.classType ⟨15⟩ [.unboundedWildcard]]
    let written := Ty.classType ⟨15⟩ [.classType ⟨15⟩ [.raw ⟨1⟩]]
    ¬ becomesNumber holderContext.catalog target written ∧
      (∀ kind, ¬ becomesTruth holderContext.catalog target written kind) ∧
      ((holderContext.catalog.conversion target written).isImplicit = true ∨
        holderContext.catalog.conversion target written = .none ∨
        written = target.writable holderContext.catalog ⟨false, true⟩ true ∧
          (true = true → target.isShallow holderContext.catalog = false)) :=
  @insertConversions_assigned holderContext ⟨true, true⟩ 4 2 _ _ _ _ wellFormed_holderAssignment rfl
    rfl (by decide +kernel) run_holderAssignment visits_holderAssigned rfl left_holderAssigned rfl

end Edit

end TypedJava

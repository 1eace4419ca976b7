import TypedJava.Proofs.ConversionPass.Views

/-! # Running the rules

Every rule of the pass, run on a hosted branch, succeeds and makes of the branch what the relations
say. Only treating a node again may fail, where the pass itself may. -/

namespace TypedJava

namespace Branch

variable {store : Store} {frames inner : List Frame} {frame : Frame} {value : Branch}
  {bound : Nat}

theorem IsWritten.le_id
    {type : Ty} {written : Branch} (isWritten : IsWritten bound type written) :
    bound ≤ written.id := by
  cases isWritten with
  | mk types new isSyntax children =>
      exact new

theorem IsCastOf.mono
    {smaller : Nat} {written operand cast : Branch} (isCast : IsCastOf bound written operand cast)
    (le : smaller ≤ bound) :
    IsCastOf smaller written operand cast := by
  cases isCast with
  | mk new left right =>
      exact .mk (Nat.le_trans le new) (left.mono le) (right.mono le)

theorem IsConditionalOf.mono
    {smaller : Nat} {one zero : Literal} {conditional : Branch}
    (isConditional : IsConditionalOf bound one zero value conditional) (le : smaller ≤ bound) :
    IsConditionalOf smaller one zero value conditional := by
  cases isConditional with
  | mk new first second =>
      exact .mk (Nat.le_trans le new) (first.mono le) (second.mono le)

theorem IsComparisonOf.mono
    {smaller : Nat} {zero : Literal} {comparison : Branch}
    (isComparison : IsComparisonOf bound zero value comparison) (le : smaller ≤ bound) :
    IsComparisonOf smaller zero value comparison := by
  cases isComparison with
  | mk new literal =>
      exact .mk (Nat.le_trans le new) (literal.mono le)

/-! ## The rewrites -/

/-- A cast is put around a branch. -/
theorem Hosted.run_wrapInCast
    (hosted : Hosted store (frame :: frames) value) (wellFormed : store.WellFormed)
    (new : bound ≤ store.size) (context : Context) (options : TypeSyntaxOptions) (type : Ty) :
    ∃ cast changed,
      (Edit.wrapInCast context options (some value.id) type).run store =
        (.ok (some cast.id), changed) ∧
      Becomes store value.ids (frame :: frames) cast changed ∧
      WrapsInCast context bound options type value cast := by
  refine hosted.run_replaceBy wellFormed fun detached detachedWellFormed alone sameSize => ?_
  obtain ⟨written, middle, runType, becomesType, isWritten, _⟩ :=
    run_mkType context.catalog options type detachedWellFormed
  have aloneStill := becomesType.hosted_other alone
  have different : written.id ≠ value.id :=
    Nat.ne_of_gt (Nat.lt_of_lt_of_le alone.held.id_lt_size isWritten.le_id)
  obtain ⟨cast, changed, runCast, becomesCast, isCast⟩ :=
    run_mkCast becomesType.wellFormed becomesType.hosted aloneStill different
  have newWritten := isWritten.mono (sameSize ▸ new)
  have newCast := isCast.mono (Nat.le_trans (sameSize ▸ new) becomesType.keeps.size_le)
  refine ⟨cast, changed, ?_, ?_, .mk newWritten newCast⟩
  · rw [Edit.run_bind_ok runType, Edit.run_bind_ok runCast]
    rfl
  · have source : Becomes detached value.ids [] written middle :=
      becomesType.mono fun id member => absurd member List.not_mem_nil
    refine source.trans_of_source becomesCast fun id member => ?_
    rcases List.mem_append.mp member with inWritten | inValue
    · exact Or.inr ((becomesType.fresh id inWritten).resolve_left List.not_mem_nil)
    · exact Or.inl inValue

/-- A value is let go of by whatever is around it. -/
theorem Hosted.run_release
    (hosted : Hosted store inner value) (wellFormed : store.WellFormed) :
    ∃ changed, (Edit.release (some value.id)).run store = (.ok (), changed) ∧
      Becomes store (within inner value).ids [] value changed := by
  have place := hosted.place?_head wellFormed
  cases inner with
  | nil =>
      have detached : store.parent (some value.id) = none := by
        rw [Store.parent, place]
        rfl
      refine ⟨store, ?_, .refl wellFormed hosted⟩
      rw [Edit.release, Edit.run_bind_ok (Edit.run_ask _ store), detached]
      rfl
  | cons frame inner =>
      have attached : store.parent (some value.id) = some frame.parent := by
        rw [Store.parent, place]
        rfl
      obtain ⟨changed, run, becomes⟩ := hosted.run_detach wellFormed
      refine ⟨changed, ?_, becomes.mono fun id member => ?_⟩
      · rw [Edit.release, Edit.run_bind_ok (Edit.run_ask _ store), attached]
        exact run
      · rw [ids_within, idsBefore]
        simp only [List.mem_append, List.mem_cons] at member ⊢
        tauto

/-- A branch gives way to a conditional between one and zero over a value inside it. -/
theorem Hosted.run_replaceByConditional
    (inner : List Frame) (value : Branch)
    (hosted : Hosted store (frame :: frames) (within inner value)) (wellFormed : store.WellFormed)
    (new : bound ≤ store.size) {target : Ty} {one zero : Literal}
    (literals : truthLiterals? target = some (one, zero)) :
    ∃ conditional changed,
      (Edit.replaceByConditional (some (within inner value).id) (some value.id) target).run store =
        (.ok (some (some conditional.id)), changed) ∧
      Becomes store (within inner value).ids (frame :: frames) conditional changed ∧
      IsConditionalOf bound one zero value conditional := by
  have built : ∀ detached, detached.WellFormed → Hosted detached [] (within inner value) →
      detached.size = store.size → ∃ conditional changed,
        (do
          Edit.release (some value.id)
          let whenTrue ← Edit.mkLiteral one
          let whenFalse ← Edit.mkLiteral zero
          return some (← Edit.mkConditional (some value.id) (some whenTrue) (some whenFalse)) :
            Edit NodeRef).run detached = (.ok (some conditional.id), changed) ∧
        Becomes detached (within inner value).ids [] conditional changed ∧
        IsConditionalOf bound one zero value conditional := by
    intro detached detachedWellFormed alone sameSize
    have inside : Hosted detached inner value := ⟨alone.whole, alone.unplaced⟩
    obtain ⟨middle, runRelease, released⟩ := inside.run_release detachedWellFormed
    obtain ⟨conditional, changed, run, becomes, isConditional⟩ :=
      released.hosted.run_conditional released.wellFormed one zero
    have le : bound ≤ middle.size := Nat.le_trans (sameSize ▸ new) released.keeps.size_le
    refine ⟨conditional, changed, ?_, released.trans becomes, isConditional.mono le⟩
    rw [Edit.run_bind_ok runRelease, run]
  have replaced : ∃ conditional changed,
      (Edit.replaceBy (some (within inner value).id) fun _ => do
        Edit.release (some value.id)
        let whenTrue ← Edit.mkLiteral one
        let whenFalse ← Edit.mkLiteral zero
        return some (← Edit.mkConditional (some value.id) (some whenTrue) (some whenFalse))).run
        store = (.ok (some conditional.id), changed) ∧
      Becomes store (within inner value).ids (frame :: frames) conditional changed ∧
      IsConditionalOf bound one zero value conditional :=
    hosted.run_replaceBy wellFormed built
  obtain ⟨conditional, changed, run, becomes, isConditional⟩ := replaced
  refine ⟨conditional, changed, ?_, becomes, isConditional⟩
  rw [truthLiterals?] at literals
  rw [Edit.replaceByConditional, literals]
  simp only
  rw [Edit.run_bind_ok run]
  rfl

theorem run_replaceByConditional_of_none
    {target : Ty} (literals : truthLiterals? target = none) (node operand : NodeRef)
    (store : Store) :
    (Edit.replaceByConditional node operand target).run store = (.ok none, store) := by
  rw [truthLiterals?] at literals
  rw [Edit.replaceByConditional, literals]
  rfl

/-- A branch gives way to a comparison with zero of a value inside it. -/
theorem Hosted.run_replaceByComparison
    (inner : List Frame) (value : Branch)
    (hosted : Hosted store (frame :: frames) (within inner value)) (wellFormed : store.WellFormed)
    (new : bound ≤ store.size) (kind : JvmKind) :
    ∃ comparison changed,
      (Edit.replaceByComparison (some (within inner value).id) (some value.id) kind).run store =
        (.ok (some comparison.id), changed) ∧
      Becomes store (within inner value).ids (frame :: frames) comparison changed ∧
      IsComparisonOf bound ((Literal.zero? kind).getD (.int 0)) value comparison := by
  refine hosted.run_replaceBy wellFormed fun detached detachedWellFormed alone sameSize => ?_
  have inside : Hosted detached inner value := ⟨alone.whole, alone.unplaced⟩
  obtain ⟨middle, runRelease, released⟩ := inside.run_release detachedWellFormed
  obtain ⟨comparison, changed, run, becomes, isComparison⟩ :=
    released.hosted.run_comparison released.wellFormed ((Literal.zero? kind).getD (.int 0))
  have le : bound ≤ middle.size := Nat.le_trans (sameSize ▸ new) released.keeps.size_le
  refine ⟨comparison, changed, ?_, released.trans becomes, isComparison.mono le⟩
  rw [Edit.run_bind_ok runRelease, run]

/-- The operand of a cast. -/
theorem HeldIn.requireChild_cast
    {castFrame : Frame} (held : (castFrame.fill value).HeldIn store)
    (wellFormed : store.WellFormed) (isCast : castFrame.payload = .cast)
    (isFirst : castFrame.IsFirst .expression) :
    store.requireChild (some castFrame.parent) .expression = .ok (some value.id) := by
  have noError : store.roleError? (some castFrame.parent) .expression = none := by
    obtain ⟨node, found, samePayload, _⟩ := held.exists_node
    rw [Frame.id_fill] at found
    have kind : node.kind = .cast := by
      rw [Node.kind, samePayload]
      exact congrArg Payload.kind isCast
    rw [Store.roleError?, found]
    simp [kind, NodeKind.roles]
  have listed := held.childIn_eq wellFormed .expression
  rw [child?_fill isFirst, Frame.id_fill] at listed
  simp [Store.requireChild, noError, listed]

/-- The cast around a value gives way to the value. -/
theorem Hosted.run_dropCast
    {castFrame : Frame} (hosted : Hosted store (frame :: frames) (castFrame.fill value))
    (wellFormed : store.WellFormed) (isCast : castFrame.payload = .cast)
    (isFirst : castFrame.IsFirst .expression) :
    ∃ changed,
      (Edit.dropCast (some castFrame.parent)).run store = (.ok (some value.id), changed) ∧
      Becomes store (castFrame.fill value).ids (frame :: frames) value changed := by
  have place := hosted.place?_eq wellFormed
  rw [Frame.id_fill] at place
  have operand := hosted.held.requireChild_cast wellFormed isCast isFirst
  have attached : store.parent (some castFrame.parent) = some frame.parent := by
    rw [Store.parent, place]
    rfl
  have replaced : ∃ other changed,
      (Edit.replaceBy (some castFrame.parent) fun _ => do
        Edit.detach (some value.id)
        return some value.id).run store = (.ok (some other.id), changed) ∧
      Becomes store (castFrame.fill value).ids (frame :: frames) other changed ∧ other = value := by
    refine hosted.run_replaceBy wellFormed fun detached detachedWellFormed alone sameSize => ?_
    have inside : Hosted detached [castFrame] value := ⟨alone.whole, alone.unplaced⟩
    obtain ⟨changed, run, becomes⟩ := inside.run_detach detachedWellFormed
    refine ⟨value, changed, ?_, becomes.mono fun id member => ?_, rfl⟩
    · rw [Edit.run_bind_ok run]
      rfl
    · rw [Frame.ids_fill]
      simp only [List.mem_append, List.mem_cons] at member ⊢
      tauto
  obtain ⟨other, changed, run, becomes, rfl⟩ := replaced
  refine ⟨changed, ?_, becomes⟩
  have runOperand : (Edit.askOrFail (·.requireChild (some castFrame.parent) .expression)).run
      store = (.ok (some other.id), store) := by
    rw [Edit.run_askOrFail, operand]
  rw [Edit.dropCast, Edit.run_bind_ok runOperand, Edit.run_bind_ok (Edit.run_ask _ store), attached]
  exact run

end Branch

end TypedJava

import TypedJava.Proofs.Edit.PutBack

/-! # Filling a role

A role is filled in two steps: everything that it holds is detached, and then the new child is
attached. The rules for the child are asked only in the second step, so that a child that may not
be attached leaves the role empty. -/

namespace TypedJava

namespace Store

/-- A store in which a role of a node has been cleared: what the role held has no parent any more,
and nothing else is different. -/
structure Vacated (store : Store) (parent : NodeRef) (role : Role) (vacated : Store) : Prop where
  label : ∀ reference, vacated.label? reference = store.label? reference
  place : ∀ id, vacated.place? (some id) =
    if id ∈ store.childrenIn parent role then none else store.place? (some id)
  children : ∀ id other, vacated.childrenIn (some id) other =
    if some id = parent ∧ other = role then [] else store.childrenIn (some id) other

namespace Vacated

variable {store vacated : Store} {parent : NodeRef} {role : Role}

/-- A role that holds nothing is cleared already. -/
theorem of_childrenIn_eq_nil (empty : store.childrenIn parent role = []) :
    store.Vacated parent role store := by
  constructor
  case label =>
    exact fun _ => rfl
  case place =>
    simp [empty]
  case children =>
    intro id other
    split
    · rename_i same
      rw [same.1, same.2, empty]
    · rfl

/-- A role is cleared if its first child has been detached and what has been left of it has been
cleared. -/
theorem of_detach
    (wellFormed : store.WellFormed) {parent : NodeId} {first : NodeId} {others : List NodeId}
    (listed : store.childrenIn (some parent) role = first :: others) {location : Location}
    (located : store.location? (some first) = some location)
    (rest : (store.detach location first).Vacated (some parent) role vacated) :
    store.Vacated (some parent) role vacated := by
  have placed : store.place? (some first) = some ⟨parent, role⟩ :=
    wellFormed.listed parent role first (by simp [listed])
  have left (id : NodeId) (other : Role) :=
    wellFormed.childrenIn_detach located id other
  constructor
  case label =>
    intro reference
    rw [rest.label, label?_detach]
  case place =>
    intro id
    rw [rest.place, left, listed, List.erase_cons_head, place?_detach]
    by_cases isFirst : id = first
    · simp [isFirst]
    · simp [isFirst]
  case children =>
    intro id other
    rw [rest.children, left]
    split
    · rfl
    · rename_i elsewhere
      apply List.erase_of_not_mem
      intro member
      have listedThere := wellFormed.listed id other first member
      rw [placed] at listedThere
      cases listedThere
      exact elsewhere ⟨rfl, rfl⟩

/-- Nothing has been cleared if and only if there was nothing to clear. -/
theorem childrenIn_eq_nil (cleared : store.Vacated parent role vacated) (same : vacated = store) :
    store.childrenIn parent role = [] := by
  cases parent with
  | none =>
      rfl
  | some parent =>
      have children := cleared.children parent role
      rwa [same, if_pos ⟨rfl, rfl⟩] at children

end Vacated

/-- A node that has no such role holds nothing in it. -/
theorem WellFormed.childrenIn_of_roleError?
    {store : Store} (wellFormed : store.WellFormed) {id : NodeId} {role : Role} {error : EditError}
    (against : store.roleError? (some id) role = some error) :
    store.childrenIn (some id) role = [] := by
  cases found : store.node? (some id) with
  | none =>
      simp [childrenIn, found]
  | some node =>
      simp only [roleError?, found] at against
      split at against
      · cases against
      · rename_i absent
        rw [childrenIn_of_node? found]
        apply Slot.childrenIn_of_not_mem
        rwa [wellFormed.slots_match id node found]

end Store

namespace Edit

/-- The detachment of everything that a role holds. It goes from child to child, and every child is
the first of what is left of the role. -/
theorem exists_run_detachAll
    {store : Store} (wellFormed : store.WellFormed) {parent : NodeId} {role : Role}
    {occupants : List NodeId} (listed : store.childrenIn (some parent) role = occupants) :
    ∃ vacated, (forIn occupants PUnit.unit fun occupant _ => do
        detach (some occupant)
        pure (.yield PUnit.unit) : Edit PUnit).run store = (.ok PUnit.unit, vacated) ∧
      store.Vacated (some parent) role vacated ∧ (occupants = [] → vacated = store) := by
  induction occupants generalizing store with
  | nil =>
      exact ⟨store, rfl, .of_childrenIn_eq_nil listed, fun _ => rfl⟩
  | cons first others inductionHypothesis =>
      have placed : store.place? (some first) = some ⟨parent, role⟩ :=
        wellFormed.listed parent role first (by simp [listed])
      obtain ⟨position, located⟩ := wellFormed.exists_location? placed
      have left : (store.detach ⟨⟨parent, role⟩, position⟩ first).childrenIn (some parent) role =
          others := by
        rw [wellFormed.childrenIn_detach located, listed, List.erase_cons_head]
      obtain ⟨vacated, ran, cleared, _⟩ := inductionHypothesis (wellFormed.detach located) left
      have runDetach : (detach (some first)).run store =
          (.ok (), store.detach ⟨⟨parent, role⟩, position⟩ first) := by
        rw [run_detach]
        simp only [located]
      refine ⟨vacated, ?_, .of_detach wellFormed listed located cleared, fun impossible => ?_⟩
      · rw [List.forIn_cons, bind_assoc, run_bind_ok runDetach, pure_bind]
        exact ran
      · cases impossible

/-- An attachment fails with the rule that stands against it. -/
theorem attachError?_of_run_attachLast
    {parent child : NodeRef} {role : Role} {error : EditError} {store after : Store}
    (failed : (attachLast parent role child).run store = (.error error, after)) :
    after = store ∧ store.attachError? parent role child = some error := by
  rw [attachLast, run_bind_ok (run_ask _ store), run_attachAt] at failed
  split at failed <;> cases failed
  rename_i against
  exact ⟨rfl, against⟩

/-- What has been done when the filling of a role fails. -/
theorem vacated_of_run_fillRole
    {store : Store} (wellFormed : store.WellFormed) {parent child : NodeRef} {role : Role}
    {error : EditError} {after : Store}
    (failed : (fillRole parent role child).run store = (.error error, after)) :
    store.Vacated parent role after ∧ after.attachError? parent role child = some error ∧
      (store.childrenIn parent role = [] → after = store) := by
  have asked := run_askOrFail (·.requireChildren parent role) store
  cases parent with
  | none =>
      rw [fillRole, run_bind_ok asked] at failed
      obtain ⟨rfl, against⟩ := attachError?_of_run_attachLast failed
      exact ⟨.of_childrenIn_eq_nil rfl, against, fun _ => rfl⟩
  | some parent =>
      cases roleError : store.roleError? (some parent) role with
      | some problem =>
          have required : store.requireChildren (some parent) role = .error problem := by
            simp [Store.requireChildren, roleError]
          rw [required] at asked
          rw [fillRole, run_bind_error asked] at failed
          cases failed
          exact ⟨.of_childrenIn_eq_nil (wellFormed.childrenIn_of_roleError? roleError),
            by rw [Store.attachError?, roleError]; rfl, fun _ => rfl⟩
      | none =>
          have required : store.requireChildren (some parent) role =
              .ok (store.childrenIn (some parent) role) := by
            simp [Store.requireChildren, roleError]
          rw [required] at asked
          obtain ⟨vacated, ran, cleared, untouched⟩ :=
            exists_run_detachAll wellFormed (Eq.refl (store.childrenIn (some parent) role))
          rw [fillRole, run_bind_ok asked, run_bind_ok ran] at failed
          obtain ⟨rfl, against⟩ := attachError?_of_run_attachLast failed
          exact ⟨cleared, against, untouched⟩

/-- What a failure to fill a role leaves behind, for every well-formed store, every parent, every
role and every child. The failure is that of the attachment, for which the rules are asked after the
role has been cleared, and nothing is put back: all that the role held is detached, and all else is
as before. So the store is the old one if and only if the role held nothing. -/
theorem fillRole_unchanged_iff
    {store : Store} (wellFormed : store.WellFormed) {parent child : NodeRef} {role : Role}
    {error : EditError} {after : Store}
    (failed : (fillRole parent role child).run store = (.error error, after)) :
    store.Vacated parent role after ∧ after.attachError? parent role child = some error ∧
      (after = store ↔ store.childrenIn parent role = []) := by
  obtain ⟨cleared, against, untouched⟩ := vacated_of_run_fillRole wellFormed failed
  exact ⟨cleared, against, cleared.childrenIn_eq_nil, untouched⟩

/-- A call does not become its own argument, and it loses the arguments that it had. -/
theorem fillRole_unchanged_iff_of_call :
    let run := (fillRole (some 3) .argument (some 3)).run calledBeside
    run.1 = .error (.cyclic (some 3)) ∧ calledBeside.childrenIn (some 3) .argument = [1, 2] ∧
      run.2.childrenIn (some 3) .argument = [] ∧ run.2 ≠ calledBeside := by
  intro run
  have ran : run = (.error (.cyclic (some 3)), run.2) := Prod.ext (by decide +kernel) rfl
  have listed : calledBeside.childrenIn (some 3) .argument = [1, 2] := by decide +kernel
  obtain ⟨cleared, _, unchanged⟩ := fillRole_unchanged_iff wellFormed_calledBeside ran
  refine ⟨by rw [ran], listed, ?_, fun same => ?_⟩
  · rw [cleared.children, if_pos ⟨rfl, rfl⟩]
  · have empty := unchanged.mp same
    rw [listed] at empty
    cases empty

/-- A failure to fill a role does not always leave the store as it was: the call `f(a, b)` loses its
arguments when it is to become its own argument. -/
theorem fillRole_unchanged_fails :
    ¬ ∀ (store : Store) (parent : NodeRef) (role : Role) (child : NodeRef) (error : EditError)
        (after : Store),
      store.WellFormed → (fillRole parent role child).run store = (.error error, after) →
      after = store := by
  intro unchanged
  have ran : (fillRole (some 3) .argument (some 3)).run calledBeside =
      (.error (.cyclic (some 3)), ((fillRole (some 3) .argument (some 3)).run calledBeside).2) :=
    Prod.ext (by decide +kernel) rfl
  have same := congrArg (·.childrenIn (some 3) .argument)
    (unchanged calledBeside (some 3) .argument (some 3) _ _ wellFormed_calledBeside ran)
  exact absurd same (by decide +kernel)

end Edit

end TypedJava

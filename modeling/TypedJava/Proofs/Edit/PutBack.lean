import TypedJava.Proofs.Branch.Replace
import TypedJava.Proofs.Edit.Structural

/-! # Failed replacements

A replacement detaches a node before it knows what will come in its place. If it fails, the node is
put back only where the factory itself has failed and has left the node by itself. A node that the
factory has built into something else, and a node for which the factory has made a replacement that
does not fit, stays away. -/

namespace TypedJava

/-! ## What programs leave as it is -/

/-- Every node of the store is still there, with the payload it had. -/
def Store.Retains (store changed : Store) : Prop :=
  ∀ id payload, store.payload? (some id) = some payload → changed.payload? (some id) = some payload

namespace Store

variable {store changed : Store}

theorem payload?_eq_map_label? (store : Store) (reference : NodeRef) :
    store.payload? reference = (store.label? reference).map (·.1) := by
  rw [payload?, label?, Option.map_map]
  rfl

theorem Retains.of_label?_eq
    (same : ∀ reference, changed.label? reference = store.label? reference) :
    store.Retains changed := by
  intro id payload found
  rw [payload?_eq_map_label?, same, ← payload?_eq_map_label?, found]

theorem Retains.of_keeps (keeps : store.Keeps changed fun _ => False) : store.Retains changed := by
  intro id payload found
  obtain ⟨node, foundNode, samePayload⟩ := Option.map_eq_some_iff.mp found
  rw [payload?, keeps.node?_eq foundNode fun impossible => impossible, ← samePayload]
  rfl

theorem Retains.annotate (store : Store) (id : NodeId) (change : Annotations → Annotations) :
    store.Retains
      (store.update id fun node => { node with annotations := change node.annotations }) := by
  intro other payload found
  obtain ⟨node, foundNode, samePayload⟩ := Option.map_eq_some_iff.mp found
  rw [payload?, node?_update, foundNode]
  split <;> simpa using samePayload

end Store

namespace Edit

open Store

/-- Programs remove no nodes and leave the payloads as they are. Copies are known to be made beside
what is there only in a well-formed store. -/
theorem isFollowed_retains :
    IsFollowed fun before after => before.WellFormed → after.WellFormed ∧ before.Retains after where
  refl _ wellFormed := ⟨wellFormed, fun _ _ found => found⟩
  trans _ _ _ first second wellFormed := by
    obtain ⟨middleWellFormed, middleRetains⟩ := first wellFormed
    obtain ⟨lastWellFormed, lastRetains⟩ := second middleWellFormed
    exact ⟨lastWellFormed, fun id payload found =>
      lastRetains id payload (middleRetains id payload found)⟩
  mkNode payload store wellFormed := by
    refine ⟨KeepsWellFormed.mkNode payload store wellFormed, .of_keeps ?_⟩
    exact ⟨by simp [run_mkNode], fun id bound _ => node?_push_of_lt bound _⟩
  attachAt parent role position child store wellFormed := by
    refine ⟨KeepsWellFormed.attachAt parent role position child store wellFormed,
      .of_label?_eq fun reference => ?_⟩
    rw [run_attachAt]
    split <;> simp
  detach node store wellFormed := by
    refine ⟨KeepsWellFormed.detach node store wellFormed, .of_label?_eq fun reference => ?_⟩
    rw [run_detach]
    split <;> simp
  setMember node member store wellFormed := by
    refine ⟨KeepsWellFormed.setMember node member store wellFormed, ?_⟩
    cases node with
    | none => exact fun _ _ found => found
    | some id =>
        exact .annotate store id fun annotations => { annotations with member := some member }
  setType node type store wellFormed := by
    refine ⟨KeepsWellFormed.setType node type store wellFormed, ?_⟩
    cases node with
    | none => exact fun _ _ found => found
    | some id => exact .annotate store id fun annotations => { annotations with type := some type }
  copyTree node store wellFormed :=
    ⟨(wellFormed.copyTree node).1, .of_keeps (wellFormed.copyTree node).2⟩

end Edit

/-! ## Putting a node back -/

namespace Store

/-- A store that was changed while a node of another store was detached. The list that the node was
taken from is as the detachment has left it. -/
structure ChangedWithout (store : Store) (node : NodeId) (location : Location) (changed : Store) :
    Prop where
  located : store.location? (some node) = some location
  retains : (store.detach location node).Retains changed
  kept : changed.childrenIn (some location.place.parent) location.place.role =
    (store.detach location node).childrenIn (some location.place.parent) location.place.role

namespace ChangedWithout

variable {store changed : Store} {node : NodeId} {location : Location}

theorem exists_node?
    (without : store.ChangedWithout node location changed) {id : NodeId} {found : Node}
    (isFound : store.node? (some id) = some found) :
    ∃ other, changed.node? (some id) = some other ∧ other.payload = found.payload := by
  apply Option.map_eq_some_iff.mp
  apply without.retains id
  rw [payload?_eq_map_label?, label?_detach, ← payload?_eq_map_label?, payload?, isFound]
  rfl

/-- The list without the node is the list of the changed store. -/
theorem childrenIn_eq
    (without : store.ChangedWithout node location changed) (wellFormed : store.WellFormed) :
    changed.childrenIn (some location.place.parent) location.place.role =
      (store.childrenIn (some location.place.parent) location.place.role).erase node := by
  rw [without.kept, wellFormed.childrenIn_detach without.located]

/-- As long as the node stays away, its list is not what it was. -/
theorem childrenIn_ne
    (without : store.ChangedWithout node location changed) (wellFormed : store.WellFormed) :
    changed.childrenIn (some location.place.parent) location.place.role ≠
      store.childrenIn (some location.place.parent) location.place.role := by
  intro same
  have listed : node ∈ store.childrenIn (some location.place.parent) location.place.role :=
    wellFormed.mem_childrenIn (location?_eq_some without.located).1
  rw [← same, without.childrenIn_eq wellFormed] at listed
  exact (wellFormed.childrenIn_nodup _ _).not_mem_erase listed

/-- A node without a parent fits into the gap, unless it is above it. -/
theorem attachable_of_unplaced
    (without : store.ChangedWithout node location changed) (wellFormed : store.WellFormed)
    (changedWellFormed : changed.WellFormed) {child : NodeId} (valid : child < changed.size)
    (unplaced : changed.place? (some child) = none)
    (notAbove : changed.isAtOrAbove (some child) (some location.place.parent) = false) :
    changed.Attachable location.place child := by
  have placed := (location?_eq_some without.located).1
  obtain ⟨parent, foundParent, hasRole⟩ := wellFormed.exists_parent placed
  constructor
  case valid => exact valid
  case unplaced => exact unplaced
  case hasRole =>
    obtain ⟨other, found, samePayload⟩ := without.exists_node? foundParent
    refine ⟨other, found, ?_⟩
    rw [changedWellFormed.role_mem_of_node? found, Node.kind, samePayload]
    exact (wellFormed.role_mem_of_node? foundParent).mp hasRole
  case notAbove =>
    intro above
    have isAbove := changedWellFormed.isAtOrAbove_iff.mpr ⟨child, rfl, above⟩
    rw [notAbove] at isAbove
    cases isAbove
  case room =>
    intro single
    have listed := wellFormed.mem_childrenIn placed
    have short := wellFormed.single location.place.parent location.place.role single
    rw [without.childrenIn_eq wellFormed]
    apply List.eq_nil_of_length_eq_zero
    rw [List.length_erase_of_mem listed]
    omega

/-- A node that has been left by itself fits into the gap that it has left. -/
theorem attachable
    (without : store.ChangedWithout node location changed) (wellFormed : store.WellFormed)
    (changedWellFormed : changed.WellFormed) (unplaced : changed.place? (some node) = none)
    (notAbove : changed.isAtOrAbove (some node) (some location.place.parent) = false) :
    changed.Attachable location.place node := by
  have placed := (location?_eq_some without.located).1
  obtain ⟨original, foundOriginal⟩ := exists_node?_of_lt_size (lt_size_of_place? placed)
  obtain ⟨other, found, _⟩ := without.exists_node? foundOriginal
  exact without.attachable_of_unplaced wellFormed changedWellFormed (lt_size_of_node? found)
    unplaced notAbove

/-- With the node back in the gap, its list and its location are what they were. -/
theorem attach_eq
    (without : store.ChangedWithout node location changed) (wellFormed : store.WellFormed)
    (attachable : changed.Attachable location.place node) :
    let restored := changed.attach location.place location.position node
    restored.location? (some node) = some location ∧
      restored.childrenIn (some location.place.parent) location.place.role =
        store.childrenIn (some location.place.parent) location.place.role := by
  obtain ⟨placed, positioned⟩ := location?_eq_some without.located
  obtain ⟨parent, foundParent, hasRole⟩ := attachable.hasRole
  obtain ⟨original, foundOriginal, hadRole⟩ := wellFormed.exists_parent placed
  have sameChildren : (changed.attach location.place location.position node).childrenIn
      (some location.place.parent) location.place.role =
        store.childrenIn (some location.place.parent) location.place.role := by
    rw [childrenIn_attach foundParent hasRole, if_pos ⟨rfl, rfl⟩, without.kept,
      childrenIn_detach foundOriginal hadRole, if_pos ⟨rfl, rfl⟩,
      insertAt_eraseIdx (wellFormed.childrenIn_nodup _ _) positioned]
    apply (List.map_congr_left fun each _ => ?_).trans (List.map_id' _)
    split
    · rename_i same
      exact same.symm
    · rfl
  refine ⟨?_, sameChildren⟩
  have placedAgain : (changed.attach location.place location.position node).place? (some node) =
      some location.place := by
    rw [place?_attach attachable.valid, if_pos rfl]
  simp [location?, placedAgain, sameChildren, positioned]

end ChangedWithout

end Store

namespace Edit

variable {store : Store} {node : NodeId} {location : Store.Location}

theorem run_attachAt_error
    {parent : NodeRef} {role : Role} {position : Nat} {child : NodeRef} {error : EditError}
    {after : Store}
    (failed : (attachAt parent role position child).run store = (.error error, after)) :
    after = store := by
  rw [run_attachAt] at failed
  split at failed <;> cases failed
  rfl

/-- A replacement in full: what it does with an answer of the factory, and with its failure. -/
theorem run_replaceBy
    (located : store.location? (some node) = some location) (factory : NodeRef → Edit NodeRef) :
    (replaceBy (some node) factory).run store =
      match (factory (some node)).run (store.detach location node) with
      | (.ok replacement, worked) =>
        (attachAt (some location.place.parent) location.place.role location.position replacement >>=
          fun _ => pure replacement).run worked
      | (.error problem, worked) =>
        if (worked.parent (some node)).isNone then
          (attachAt (some location.place.parent) location.place.role location.position (some node)
            >>= fun _ => (throw problem : Edit NodeRef)).run worked
        else (.error problem, worked) := by
  have runAsk : (ask (·.location? (some node))).run store = (.ok (some location), store) := by
    rw [run_ask, located]
  have runDetach : (detach (some node)).run store = (.ok (), store.detach location node) := by
    rw [run_detach]
    simp only [located]
  rw [replaceBy, run_bind_ok runAsk]
  simp only
  rw [run_bind_ok runDetach, run_bind, run_tryCatch]
  cases result : (factory (some node)).run (store.detach location node) with
  | mk outcome worked =>
      cases outcome with
      | ok replacement => rfl
      | error problem =>
          simp only
          rw [run_bind_ok (run_ask _ worked)]
          cases detached : (worked.parent (some node)).isNone with
          | true =>
              simp only [if_true]
              rw [run_bind]
              rcases (attachAt _ _ _ (some node)).run worked with
                ⟨answer | answer, attached⟩ <;> rfl
          | false => rfl

/-- A replacement that fails either leaves everything as the factory has left it, or it has put the
node back after the factory has failed. -/
theorem eq_or_eq_attach_of_run_replaceBy
    (located : store.location? (some node) = some location) {factory : NodeRef → Edit NodeRef}
    {outcome : Except EditError NodeRef} {worked : Store}
    (ranFactory : (factory (some node)).run (store.detach location node) = (outcome, worked))
    {error : EditError} {after : Store}
    (failed : (replaceBy (some node) factory).run store = (.error error, after)) :
    (after = worked ∧ ¬ (outcome = .error error ∧ worked.place? (some node) = none ∧
        worked.attachError? (some location.place.parent) location.place.role (some node) = none)) ∨
      (after = worked.attach location.place location.position node ∧ outcome = .error error ∧
        worked.place? (some node) = none ∧
        worked.attachError? (some location.place.parent) location.place.role (some node) =
          none) := by
  rw [run_replaceBy located factory, ranFactory] at failed
  cases outcome with
  | ok replacement =>
      refine Or.inl ⟨?_, fun impossible => by cases impossible.1⟩
      simp only at failed
      rw [run_bind] at failed
      split at failed
      · cases failed
      · rename_i attachFailed
        cases failed
        exact run_attachAt_error attachFailed
  | error problem =>
      simp only [Store.parent, Option.isNone_map] at failed
      cases placed : worked.place? (some node) with
      | some place =>
          simp only [placed, Option.isNone_some, Bool.false_eq_true, if_false] at failed
          cases failed
          exact Or.inl ⟨rfl, fun impossible => by cases impossible.2.1⟩
      | none =>
          simp only [placed, Option.isNone_none, if_true] at failed
          cases allowed : worked.attachError? (some location.place.parent) location.place.role
              (some node) with
          | some problem =>
              rw [run_bind, run_attachAt, allowed] at failed
              cases failed
              exact Or.inl ⟨rfl, fun impossible => by cases impossible.2.2⟩
          | none =>
              rw [run_bind_ok (run_attachAt_ok allowed _), run_throw] at failed
              cases failed
              exact Or.inr ⟨rfl, rfl, rfl, rfl⟩

/-- What becomes of the node when its replacement fails, for every well-formed store, every node
with a parent and every factory that is a program over the operations on nodes and leaves the list
of the node alone. The node is back at its position, among the siblings it had, if and only if the
factory itself has failed, with the node neither attached to something else nor above its old
parent. Every other list of children is as the factory has left it. -/
theorem replaceBy_putsBack_iff
    {store : Store} (wellFormed : store.WellFormed) {node : NodeId} {location : Store.Location}
    (located : store.location? (some node) = some location)
    {factory : NodeRef → Edit NodeRef} (structural : (factory (some node)).Structural)
    {outcome : Except EditError NodeRef} {worked : Store}
    (ranFactory : (factory (some node)).run (store.detach location node) = (outcome, worked))
    (kept : worked.childrenIn (some location.place.parent) location.place.role =
      (store.detach location node).childrenIn (some location.place.parent) location.place.role)
    {error : EditError} {after : Store}
    (failed : (replaceBy (some node) factory).run store = (.error error, after)) :
    (after.location? (some node) = some location ∧
        after.childrenIn (some location.place.parent) location.place.role =
          store.childrenIn (some location.place.parent) location.place.role ↔
      outcome = .error error ∧ worked.place? (some node) = none ∧
        worked.isAtOrAbove (some node) (some location.place.parent) = false) ∧
    ∀ id role, ¬ (id = location.place.parent ∧ role = location.place.role) →
      after.childrenIn (some id) role = worked.childrenIn (some id) role := by
  have follows := structural.follows isFollowed_retains _ (wellFormed.detach located)
  rw [ranFactory] at follows
  obtain ⟨workedWellFormed, retains⟩ := follows
  have without : store.ChangedWithout node location worked := ⟨located, retains, kept⟩
  rcases eq_or_eq_attach_of_run_replaceBy located ranFactory failed with
    ⟨rfl, stays⟩ | ⟨rfl, factoryFailed, unplaced, allowed⟩
  · refine ⟨⟨fun isBack => absurd isBack.2 (without.childrenIn_ne wellFormed), fun fits => ?_⟩,
      fun _ _ _ => rfl⟩
    obtain ⟨factoryFailed, unplaced, notAbove⟩ := fits
    have attachable := without.attachable wellFormed workedWellFormed unplaced notAbove
    exact absurd ⟨factoryFailed, unplaced, workedWellFormed.attachError?_eq_none attachable⟩ stays
  · have attachable := workedWellFormed.attachable_of_attachError? location.place allowed
    have notAbove : worked.isAtOrAbove (some node) (some location.place.parent) = false := by
      rw [Bool.eq_false_iff]
      intro isAbove
      obtain ⟨_, same, above⟩ := workedWellFormed.isAtOrAbove_iff.mp isAbove
      cases same
      exact attachable.notAbove above
    obtain ⟨parent, foundParent, hasRole⟩ := attachable.hasRole
    refine ⟨⟨fun _ => ⟨factoryFailed, unplaced, notAbove⟩,
      fun _ => without.attach_eq wellFormed attachable⟩, fun id role elsewhere => ?_⟩
    rw [Store.childrenIn_attach foundParent hasRole, if_neg elsewhere]

/-! ### A call beside a return statement -/

/-- The program that builds the call `f(a, b)`, which is node 3 with the arguments 1 and 2, and
beside it the statement that returns `x`, which is node 6. -/
def buildCall : Edit NodeId := do
  let called ← mkNode (.identifier "f")
  let first ← mkNode (.identifier "a")
  let second ← mkNode (.identifier "b")
  let _ ← mkInvocation (some called) [some first, some second]
  let returned ← mkNode (.identifier "x")
  mkReturn (some returned)

/-- The call `f(a, b)` beside the statement that returns `x`. -/
def calledBeside : Store :=
  (buildCall.run .empty).2

theorem wellFormed_calledBeside : calledBeside.WellFormed := by
  refine Structural.keepsWellFormed ?_ _ Store.wellFormed_empty
  exact .bind (.mkNode _) fun _ => .bind (.mkNode _) fun _ => .bind (.mkNode _) fun _ =>
    .bind (.mkInvocation _ _) fun _ => .bind (.mkNode _) fun _ => .mkReturn _

/-- Tries to negate the returned `x`, which stands in another statement. -/
def negateReturned (_ : NodeRef) : Edit NodeRef := do
  return some (← mkUnary .minus (some 6))

/-- Negates a node and tries to add the returned `x` to it. -/
def negateAndAdd (node : NodeRef) : Edit NodeRef := do
  let negation ← mkUnary .minus node
  return some (← mkBinary .add (some negation) (some 6))

theorem location?_calledBeside :
    calledBeside.location? (some 1) = some ⟨⟨3, .argument⟩, 0⟩ := by
  decide +kernel

/-- A factory that fails before it comes to the node: the first argument is back in the call. -/
theorem replaceBy_putsBack_iff_of_negateReturned :
    let run := (replaceBy (some 1) negateReturned).run calledBeside
    calledBeside.location? (some 1) = some ⟨⟨3, .argument⟩, 0⟩ ∧
      run.1 = .error (.attached (some 6)) ∧
      run.2.location? (some 1) = some ⟨⟨3, .argument⟩, 0⟩ ∧
      run.2.childrenIn (some 3) .argument = calledBeside.childrenIn (some 3) .argument := by
  have structural : (negateReturned (some 1)).Structural :=
    .bind (.mkUnary _ _) fun _ => .pure _
  have isBack := (replaceBy_putsBack_iff wellFormed_calledBeside location?_calledBeside structural
    rfl rfl rfl).1.mpr ⟨rfl, rfl, rfl⟩
  exact ⟨location?_calledBeside, rfl, isBack⟩

/-- A failed replacement does not always put the node back, whether the factory fails with the node
in use or its result does not fit: the call `f(a, b)` loses its first argument in both ways. -/
theorem replaceBy_putsBack_fails :
    (¬ ∀ (store : Store) (node : NodeId) (location : Store.Location)
        (factory : NodeRef → Edit NodeRef) (error : EditError) (after : Store),
      store.WellFormed → store.location? (some node) = some location →
      (∀ operand, (factory operand).Structural) →
      ((factory (some node)).run (store.detach location node)).2.childrenIn
          (some location.place.parent) location.place.role =
        (store.detach location node).childrenIn
          (some location.place.parent) location.place.role →
      (replaceBy (some node) factory).run store = (.error error, after) →
      after.childrenIn (some location.place.parent) location.place.role =
        store.childrenIn (some location.place.parent) location.place.role) ∧
    ¬ ∀ (store : Store) (node : NodeId) (location : Store.Location) (replacement : NodeRef)
        (error : EditError) (after : Store),
      store.WellFormed → store.location? (some node) = some location →
      (replace (some node) replacement).run store = (.error error, after) →
      after.childrenIn (some location.place.parent) location.place.role =
        store.childrenIn (some location.place.parent) location.place.role := by
  constructor
  · intro putsBack
    have structural (operand : NodeRef) : (negateAndAdd operand).Structural :=
      .bind (.mkUnary _ _) fun _ => .bind (.mkBinary _ _ _) fun _ => .pure _
    have ran : (replaceBy (some 1) negateAndAdd).run calledBeside =
        (.error (.attached (some 6)), ((replaceBy (some 1) negateAndAdd).run calledBeside).2) :=
      Prod.ext (by decide +kernel) rfl
    have lost := putsBack calledBeside 1 ⟨⟨3, .argument⟩, 0⟩ negateAndAdd _ _
      wellFormed_calledBeside location?_calledBeside structural (by decide +kernel) ran
    exact absurd lost (by decide +kernel)
  · intro putsBack
    have ran : (replace (some 1) (some 6)).run calledBeside =
        (.error (.attached (some 6)), ((replace (some 1) (some 6)).run calledBeside).2) :=
      Prod.ext (by decide +kernel) rfl
    have lost := putsBack calledBeside 1 ⟨⟨3, .argument⟩, 0⟩ (some 6) _ _
      wellFormed_calledBeside location?_calledBeside ran
    exact absurd lost (by decide +kernel)

end Edit

end TypedJava

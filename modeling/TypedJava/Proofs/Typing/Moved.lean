import TypedJava.Proofs.Branch.Copy
import TypedJava.Proofs.Branch.Replace
import TypedJava.Proofs.Typing.InStore

/-! # Resolution of what is copied or moved

What a node resolves to depends on its subtree with the annotations there, and on nothing around
it. So the copy of a node resolves to the same result, and the node itself still does when it stands
elsewhere. -/

namespace TypedJava

namespace Edit

/-- Moves a node to a position of a role of a node, if the rules of the store allow it. -/
def move (node parent : NodeRef) (role : Role) (position : Nat) : Edit Unit := do
  detach node
  attachAt parent role position node

theorem structural_move (node parent : NodeRef) (role : Role) (position : Nat) :
    (move node parent role position).Structural :=
  .bind (.detach node) fun _ => .attachAt parent role position node

end Edit

namespace Branch

variable {store : Store} {branch : Branch}

/-- The copy of a branch has its tree. -/
theorem HeldIn.exists_copyTree
    (held : branch.HeldIn store) (wellFormed : store.WellFormed) :
    ∃ copied, store.copyTree (some branch.id) = (some store.size, copied) ∧ copied.WellFormed ∧
      copied.tree? (some store.size) = some branch.toTree := by
  obtain ⟨node, found, _⟩ := held.exists_node
  obtain ⟨path, isPath⟩ := (wellFormed.rooted branch.id).exists_path
  have positive := isPath.length_pos
  have run := Store.copyTree_of_node? found
  have copiedWellFormed := (wellFormed.copyTree (some branch.id)).1
  rw [run] at copiedWellFormed
  obtain ⟨⟨copy, copyHeld, sameTop, sameTree, _⟩, _⟩ :=
    held.copiesBelow wellFormed store.size isPath (by omega) _ _
      (wellFormed.copiesWaiting_push found)
  have copyTree := copyHeld.tree?_eq copiedWellFormed
  rw [sameTop, sameTree] at copyTree
  exact ⟨_, run, copiedWellFormed, copyTree⟩

/-- The tree of a branch does not change where the nodes of the branch do not. -/
theorem HeldIn.tree?_eq_of_content?_eq
    (held : branch.HeldIn store) (wellFormed : store.WellFormed) {changed : Store}
    (changedWellFormed : changed.WellFormed)
    (same : ∀ id ∈ branch.ids, changed.content? id = store.content? id) :
    changed.tree? (some branch.id) = store.tree? (some branch.id) := by
  rw [(held.of_content_eq same).tree?_eq changedWellFormed, held.tree?_eq wellFormed]

/-- A node that is detached keeps its subtree: its parent is not in it. -/
theorem HeldIn.content?_run_detach
    (held : branch.HeldIn store) (wellFormed : store.WellFormed) {id : NodeId}
    (member : id ∈ branch.ids) :
    ((Edit.detach (some branch.id)).run store).2.content? id = store.content? id := by
  rw [Edit.run_detach]
  cases located : store.location? (some branch.id) with
  | none =>
      rfl
  | some location =>
      refine Store.content?_detach_of_ne ?_
      rintro rfl
      exact wellFormed.not_above_parent (Store.location?_eq_some located).1
        ((held.mem_ids_iff wellFormed).mp member)

/-- A node that is attached keeps its subtree: it is never attached below itself. -/
theorem HeldIn.content?_run_attachAt
    (held : branch.HeldIn store) (wellFormed : store.WellFormed) (parent : NodeRef) (role : Role)
    (position : Nat) {id : NodeId} (member : id ∈ branch.ids) :
    ((Edit.attachAt parent role position (some branch.id)).run store).2.content? id =
      store.content? id := by
  rw [Edit.run_attachAt]
  cases allowed : store.attachError? parent role (some branch.id) with
  | some error =>
      cases parent <;> rfl
  | none =>
      cases parent with
      | none =>
          rfl
      | some parent =>
          have attachable := wellFormed.attachable_of_attachError? ⟨parent, role⟩ allowed
          refine Store.content?_attach_of_ne ?_ position
          rintro rfl
          exact attachable.notAbove ((held.mem_ids_iff wellFormed).mp member)

theorem HeldIn.content?_run_move
    (held : branch.HeldIn store) (wellFormed : store.WellFormed) (parent : NodeRef) (role : Role)
    (position : Nat) {id : NodeId} (member : id ∈ branch.ids) :
    ((Edit.move (some branch.id) parent role position).run store).2.content? id =
      store.content? id := by
  have detachedWellFormed := Edit.KeepsWellFormed.detach (some branch.id) store wellFormed
  have detachedHeld := held.of_content_eq fun _ inside => held.content?_run_detach wellFormed inside
  have run : (Edit.detach (some branch.id)).run store =
      (.ok (), ((Edit.detach (some branch.id)).run store).2) := by
    rw [Edit.run_detach]
    cases store.location? (some branch.id) <;> rfl
  rw [Edit.move, Edit.run_bind_ok run,
    detachedHeld.content?_run_attachAt detachedWellFormed parent role position member,
    held.content?_run_detach wellFormed member]

/-- A node keeps its subtree when it is moved below a new node. -/
theorem HeldIn.content?_run_moveBelow
    (held : branch.HeldIn store) (wellFormed : store.WellFormed) (payload : Payload) (role : Role)
    (position : Nat) {id : NodeId} (member : id ∈ branch.ids) :
    ((Edit.mkNode payload >>= fun parent =>
      Edit.move (some branch.id) (some parent) role position).run store).2.content? id =
      store.content? id := by
  have keeps : store.Keeps (store.push (.ofPayload payload)).2 fun _ => False :=
    Store.keeps_push _ _ _
  have pushedHeld := held.of_keeps keeps fun _ _ => not_false
  have pushedWellFormed := wellFormed.push_ofPayload payload
  rw [Edit.run_bind_ok (Edit.run_mkNode payload store),
    pushedHeld.content?_run_move pushedWellFormed _ role position member,
    keeps.content?_eq (held.lt_size member) not_false]

end Branch

namespace Store

/-- What a node resolves to goes with its subtree. The copy of the node resolves to the same result.
So does the node itself after every program over the operations on nodes that leaves each node of
the subtree with its payload, its annotations and its children, and a move to any other place is
such a program. -/
theorem WellFormed.resolve_goesWithSubtree
    {store : Store} (wellFormed : store.WellFormed) {node : NodeId} (valid : node < store.size)
    (context : Context) :
    (∃ copy copied, (Edit.copyTree (some node)).run store = (.ok (some copy), copied) ∧
      copied.resolve context (some copy) = store.resolve context (some node)) ∧
    (∀ {α : Type} (edit : Edit α), edit.Structural →
      (∀ id ∈ store.subtree (some node),
        (edit.run store).2.content? id = store.content? id) →
      (edit.run store).2.resolve context (some node) = store.resolve context (some node)) ∧
    (∀ parent role position,
      ((Edit.move (some node) parent role position).run store).2.resolve context (some node) =
        store.resolve context (some node)) := by
  obtain ⟨branch, held, rfl⟩ := Branch.exists_branch wellFormed valid
  have unmoved {α : Type} (edit : Edit α) (structural : edit.Structural)
      (same : ∀ id ∈ branch.ids, (edit.run store).2.content? id = store.content? id) :
      (edit.run store).2.resolve context (some branch.id) =
        store.resolve context (some branch.id) := by
    have changedWellFormed := structural.keepsWellFormed store wellFormed
    rw [changedWellFormed.resolve_eq, wellFormed.resolve_eq,
      held.tree?_eq_of_content?_eq wellFormed changedWellFormed same]
  refine ⟨?_, fun edit structural same => ?_, fun parent role position => ?_⟩
  · obtain ⟨copied, run, copiedWellFormed, tree⟩ := held.exists_copyTree wellFormed
    have copies : (Edit.copyTree (some branch.id)).run store =
        (.ok (store.copyTree (some branch.id)).1, (store.copyTree (some branch.id)).2) :=
      rfl
    refine ⟨store.size, copied, ?_, ?_⟩
    · rw [copies, run]
    · rw [copiedWellFormed.resolve_eq, wellFormed.resolve_eq, tree, held.tree?_eq wellFormed]
  · rw [held.subtree_eq wellFormed] at same
    exact unmoved edit structural same
  · exact unmoved _ (Edit.structural_move _ parent role position) fun id member =>
      held.content?_run_move wellFormed parent role position member

/-! ### A call that is moved -/

/-- The program that builds the statement `c.least();`, which is node 5, and `return;`, which is
node 6, with a `c` that is comparable to strings. The call is node 2. Its method is known at its
member, which is node 1, and returns the type parameter of its class. -/
def buildLeastCall : Edit NodeId := do
  let receiver ← Edit.mkNode (.identifier "c")
  Edit.setType (some receiver) (.classType ⟨4⟩ [.raw ⟨6⟩])
  let member ← Edit.mkNodeWith (.memberReference "least") [(.target, some receiver)]
  Edit.setMember (some member)
    ⟨"least", .raw ⟨4⟩, .method [] (.typeVariable ⟨"T", some ⟨4⟩⟩ none) []⟩
  let call ← Edit.mkInvocation (some member) []
  let _ ← Edit.mkStatement (some call)
  Edit.mkReturn none

/-- The statements `c.least();` and `return;`. -/
def leastCall : Store :=
  (buildLeastCall.run .empty).2

theorem wellFormed_leastCall : leastCall.WellFormed := by
  refine Edit.Structural.keepsWellFormed ?_ _ wellFormed_empty
  exact .bind (.mkNode _) fun _ => .bind (.setType _ _) fun _ => .bind (.mkNodeWith _ _) fun _ =>
    .bind (.setMember _ _) fun _ => .bind (.mkInvocation _ _) fun _ =>
      .bind (.mkStatement _) fun _ => .mkReturn _

/-- The program that moves the call below a new negation, which is node 7. -/
def negateCall : Edit Unit := do
  let negation ← Edit.mkNode (.unary .minus)
  Edit.move (some 2) (some negation) .expression 0

theorem content?_run_negateCall {id : NodeId} (member : id ∈ leastCall.subtree (some 2)) :
    (negateCall.run leastCall).2.content? id = leastCall.content? id := by
  obtain ⟨call, held, isCall⟩ := Branch.exists_branch wellFormed_leastCall
    (show 2 < leastCall.size by decide +kernel)
  rw [← isCall, held.subtree_eq wellFormed_leastCall] at member
  rw [negateCall, ← isCall]
  exact held.content?_run_moveBelow wellFormed_leastCall _ _ _ member

/-- The call returns a string. So does its copy, and so does the call itself after it was moved
below a new negation, and after it was moved from the one statement to the other. -/
theorem resolve_goesWithSubtree_of_leastCall :
    let context := Context.ofCatalog .standard
    let negated := (negateCall.run leastCall).2
    let moved := ((Edit.move (some 2) (some 6) .expression 0).run leastCall).2
    let string := some (.ofType (.raw ⟨6⟩))
    leastCall.WellFormed ∧ 2 < leastCall.size ∧ leastCall.resolve context (some 2) = string ∧
      (∃ copy copied, (Edit.copyTree (some 2)).run leastCall = (.ok (some copy), copied) ∧
        copied.resolve context (some copy) = string) ∧
      (negated.parent (some 2) = some 7 ∧ negated.resolve context (some 2) = string) ∧
      (moved.parent (some 2) = some 6 ∧ moved.resolve context (some 2) = string) := by
  intro context negated moved string
  have valid : 2 < leastCall.size := by decide +kernel
  have original : leastCall.resolve context (some 2) = string := rfl
  have negatedParent : negated.parent (some 2) = some 7 := by decide +kernel
  have movedParent : moved.parent (some 2) = some 6 := by decide +kernel
  have structural : negateCall.Structural :=
    .bind (.mkNode _) fun _ => Edit.structural_move _ _ _ _
  obtain ⟨⟨copy, copied, run, sameCopy⟩, unmoved, elsewhere⟩ :=
    wellFormed_leastCall.resolve_goesWithSubtree valid context
  have sameNegated := unmoved negateCall structural fun _ member => content?_run_negateCall member
  have sameMoved := elsewhere (some 6) .expression 0
  exact ⟨wellFormed_leastCall, valid, original, ⟨copy, copied, run, sameCopy.trans original⟩,
    ⟨negatedParent, sameNegated.trans original⟩, movedParent, sameMoved.trans original⟩

end Store

end TypedJava

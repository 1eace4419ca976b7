import TypedJava.Proofs.Branch.Replace
import TypedJava.Proofs.Navigation.Siblings
import TypedJava.Store.Walk

/-! # Visiting the children of a branch

A walk over the children goes through the list of the branch from the first to the last. A visit
that exchanges the child that it is given leaves the rest of the list as it was. -/

namespace TypedJava

namespace Branch

variable {store : Store} {frames : List Frame} {frame : Frame} {branch : Branch}

theorem map_snd_entries (children : List (Role × Branch)) :
    (entries children).map (·.2) = children.map fun entry => entry.2.id := by
  rw [entries, List.map_map]
  rfl

theorem HeldIn.store_children_eq (held : branch.HeldIn store) :
    store.children (some branch.id) = branch.children.map fun entry => entry.2.id := by
  obtain ⟨node, found, _, _, listing⟩ := held.exists_node
  rw [Store.children, found, ← map_snd_entries, ← listing, Node.map_snd_listing]

theorem Hosted.nextSibling_eq
    (hosted : Hosted store (frame :: frames) branch) (wellFormed : store.WellFormed) :
    store.nextSibling (some branch.id) = frame.after.head?.map fun entry => entry.2.id := by
  have listed := hosted.outer.held.store_children_eq
  rw [Frame.fill, children, List.map_append, List.map_cons] at listed
  rw [(wellFormed.linksChildren _).nextSibling_eq listed, List.head?_map]

end Branch

/-! ## The walk as an edit -/

/-- One step of a walk. -/
theorem Store.run_visitSiblings_succ
    {σ α : Type} (view : σ → Store) (visit : Visit σ α) (fuel : Nat) (child : NodeId) (state : σ) :
    (visitSiblings view visit (fuel + 1) (some child)).run state =
      match (visit child).run state with
      | (some outcome, changed) => (some outcome, changed)
      | (none, changed) =>
        (visitSiblings view visit fuel ((view state).nextSibling (some child))).run changed := by
  rw [visitSiblings, StateT.run_bind, StateT.run_get, pure_bind, StateT.run_bind]
  cases (visit child).run state with
  | mk outcome changed =>
      cases outcome <;> rfl

namespace Edit

/-- Applies an edit to a child and the siblings after it, at most as many as the fuel. -/
def visitFrom (edit : NodeRef → Edit Unit) : (fuel : Nat) → NodeRef → Edit Unit
  | 0, _ => pure ()
  | _ + 1, none => pure ()
  | fuel + 1, some child => do
    let next ← ask (·.nextSibling (some child))
    edit (some child)
    visitFrom edit fuel next

theorem run_toVisit (edit : NodeRef → Edit Unit) (child : NodeId) (store : Store) :
    (toVisit edit child).run store =
      match (edit (some child)).run store with
      | (.ok _, changed) => (none, changed)
      | (.error error, changed) => (some error, changed) := by
  cases result : (edit (some child)).run store with
  | mk outcome changed =>
      have equality : edit (some child) store = (outcome, changed) := result
      cases outcome <;>
        simp [toVisit, ExceptT.run, bind, StateT.bind, StateT.run, equality] <;> rfl

private theorem run_visitSiblings (edit : NodeRef → Edit Unit) (fuel : Nat) (child : NodeRef)
    (store : Store) :
    (Store.visitSiblings id (toVisit edit) fuel child).run store =
      match (visitFrom edit fuel child).run store with
      | (.ok _, changed) => (none, changed)
      | (.error error, changed) => (some error, changed) := by
  induction fuel generalizing child store with
  | zero =>
      rfl
  | succ fuel inductionHypothesis =>
      cases child with
      | none =>
          rfl
      | some child =>
          rw [visitFrom, run_bind_ok (run_ask _ store), run_bind, Store.run_visitSiblings_succ,
            run_toVisit]
          cases result : (edit (some child)).run store with
          | mk outcome changed =>
              cases outcome with
              | ok value =>
                  exact inductionHypothesis _ changed
              | error error =>
                  rfl

theorem run_visitChildren (edit : NodeRef → Edit Unit) (node : NodeRef) (store : Store) :
    (visitChildren edit node).run store =
      (visitFrom edit (store.children node).length (store.firstChild node)).run store := by
  have walked := run_visitSiblings edit (store.children node).length (store.firstChild node) store
  have unfolded : (visitChildren edit node).run store =
      match (Store.visitSiblings id (toVisit edit) (store.children node).length
        (store.firstChild node)).run store with
      | (none, changed) => (.ok (), changed)
      | (some error, changed) => (.error error, changed) := by
    have started : (Store.visitChildren id (toVisit edit) node).run store =
        (Store.visitSiblings id (toVisit edit) (store.children node).length
          (store.firstChild node)).run store := rfl
    rw [visitChildren, ExceptT.run_mk]
    change StateT.run (_ >>= _) store = _
    rw [StateT.run_bind, started]
    cases (Store.visitSiblings id (toVisit edit) (store.children node).length
        (store.firstChild node)).run store with
    | mk outcome changed =>
        cases outcome <;> rfl
  rw [unfolded, walked]
  cases (visitFrom edit (store.children node).length (store.firstChild node)).run store with
  | mk outcome changed =>
      cases outcome <;> rfl

end Edit

namespace Branch

variable {store : Store} {frames : List Frame}

/-- The children are visited one after the other, each with the earlier ones exchanged already. -/
inductive VisitsChildren (visit : Option Frame → Branch → Branch → Prop) (parent : NodeId)
    (payload : Payload) (annotations : Annotations) :
    (done waiting result : List (Role × Branch)) → Prop
  | nil {done : List (Role × Branch)} :
      VisitsChildren visit parent payload annotations done [] done
  | cons {done waiting result : List (Role × Branch)} {role : Role} {child changed : Branch} :
      visit (some ⟨parent, payload, annotations, role, done, waiting⟩) child changed →
      VisitsChildren visit parent payload annotations (done ++ [(role, changed)]) waiting result →
      VisitsChildren visit parent payload annotations done ((role, child) :: waiting) result

/-- What the visits make of the single children is what they make of all of them. -/
theorem VisitsChildren.exists_pairwise
    {visit : Option Frame → Branch → Branch → Prop} {parent : NodeId} {payload : Payload}
    {annotations : Annotations} {done waiting result : List (Role × Branch)}
    (visits : VisitsChildren visit parent payload annotations done waiting result)
    {relation : Role → Branch → Branch → Prop}
    (each : ∀ role before after child changed,
      visit (some ⟨parent, payload, annotations, role, before, after⟩) child changed →
      relation role child changed) :
    ∃ visited, result = done ++ visited ∧
      List.Forall₂ (fun entry other => other.1 = entry.1 ∧ relation entry.1 entry.2 other.2)
        waiting visited := by
  induction visits with
  | nil =>
      exact ⟨[], (List.append_nil _).symm, .nil⟩
  | @cons done waiting result role child changed visited _ inductionHypothesis =>
      obtain ⟨later, rfl, pairwise⟩ := inductionHypothesis
      exact ⟨(role, changed) :: later, by rw [List.append_assoc, List.singleton_append],
        .cons ⟨rfl, each role done waiting child changed visited⟩ pairwise⟩

/-- Every run of a treatment on a hosted branch leads to a related branch in the same place, unless
it fails. -/
def Simulates (mayFail : Prop) (bound : Nat) (edit : NodeRef → Edit Unit)
    (relation : Option Frame → Branch → Branch → Prop) : Prop :=
  ∀ (store : Store) (frames : List Frame) (branch : Branch), store.WellFormed →
    bound ≤ store.size → Hosted store frames branch →
      (edit (some branch.id)).Reaches mayFail store fun _ changed =>
        ∃ other, Becomes store branch.ids frames other changed ∧
          relation frames.head? branch other

theorem Simulates.visitFrom
    {mayFail : Prop} {bound : Nat} {edit : NodeRef → Edit Unit}
    {relation : Option Frame → Branch → Branch → Prop}
    (simulates : Simulates mayFail bound edit relation) {parent : NodeId} {payload : Payload}
    {annotations : Annotations} (done waiting : List (Role × Branch))
    {fuel : Nat} (enough : waiting.length ≤ fuel) (wellFormed : store.WellFormed)
    (new : bound ≤ store.size)
    (hosted : Hosted store frames (.node parent payload annotations (done ++ waiting))) :
    (Edit.visitFrom edit fuel (waiting.head?.map fun entry => entry.2.id)).Reaches mayFail store
      fun _ changed => ∃ result,
        Becomes store (node parent payload annotations (done ++ waiting)).ids frames
          (.node parent payload annotations result) changed ∧
        VisitsChildren relation parent payload annotations done waiting result := by
  induction waiting generalizing done fuel store with
  | nil =>
      rw [List.append_nil] at hosted ⊢
      have stays : (Edit.visitFrom edit fuel none).run store = (.ok (), store) := by
        cases fuel <;> rfl
      exact .of_run stays ⟨done, .refl wellFormed hosted, .nil⟩
  | cons entry waiting inductionHypothesis =>
      obtain ⟨role, child⟩ := entry
      cases fuel with
      | zero =>
          exact absurd enough (Nat.not_succ_le_zero _)
      | succ fuel =>
          have childHosted :
              Hosted store (⟨parent, payload, annotations, role, done, waiting⟩ :: frames) child :=
            ⟨hosted.whole, hosted.unplaced⟩
          have next : store.nextSibling (some child.id) =
              waiting.head?.map fun entry => entry.2.id :=
            childHosted.nextSibling_eq wellFormed
          rw [List.head?_cons, Option.map_some, Edit.visitFrom]
          refine .bind_of_run (Edit.run_ask _ store) ?_
          rw [next]
          refine (simulates store _ child wellFormed new childHosted).bind ?_
          rintro _ middle ⟨other, becomes, related⟩
          have outer : Becomes store
              (node parent payload annotations (done ++ (role, child) :: waiting)).ids frames
              (node parent payload annotations ((done ++ [(role, other)]) ++ waiting)) middle := by
            rw [List.append_assoc]
            exact becomes.outer
          refine (inductionHypothesis (done ++ [(role, other)]) (Nat.le_of_succ_le_succ enough) outer.wellFormed
            (Nat.le_trans new outer.keeps.size_le) outer.hosted).imp ?_
          rintro _ changed ⟨result, further, visits⟩
          exact ⟨result, outer.trans further, .cons related visits⟩

/-- Visiting the children of a hosted branch. -/
theorem Simulates.visitChildren
    {mayFail : Prop} {bound : Nat} {edit : NodeRef → Edit Unit}
    {relation : Option Frame → Branch → Branch → Prop}
    (simulates : Simulates mayFail bound edit relation) {branch : Branch}
    (wellFormed : store.WellFormed) (new : bound ≤ store.size)
    (hosted : Hosted store frames branch) :
    (Edit.visitChildren edit (some branch.id)).Reaches mayFail store fun _ changed =>
      ∃ result,
        Becomes store branch.ids frames
          (.node branch.id branch.payload branch.annotations result) changed ∧
        VisitsChildren relation branch.id branch.payload branch.annotations [] branch.children
          result := by
  obtain ⟨parent, payload, annotations, children⟩ := branch
  have listed : store.children (some parent) = children.map fun entry => entry.2.id :=
    hosted.held.store_children_eq
  have first : store.firstChild (some parent) =
      children.head?.map fun entry => entry.2.id := by
    rw [Store.firstChild, listed, List.head?_map]
  have walked : (Edit.visitFrom edit children.length
      (children.head?.map fun entry => entry.2.id)).Reaches mayFail store fun _ changed =>
        ∃ result,
          Becomes store (node parent payload annotations children).ids frames
            (node parent payload annotations result) changed ∧
          VisitsChildren relation parent payload annotations [] children result :=
    simulates.visitFrom [] children (Nat.le_refl _) wellFormed new hosted
  have sameRun : (Edit.visitChildren edit (some parent)).run store =
      (Edit.visitFrom edit children.length
        (children.head?.map fun entry => entry.2.id)).run store := by
    rw [Edit.run_visitChildren, first, listed, List.length_map]
  rw [Edit.Reaches, Branch.id, sameRun]
  exact walked

end Branch

end TypedJava

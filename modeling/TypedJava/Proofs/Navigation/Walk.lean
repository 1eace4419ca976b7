import TypedJava.Proofs.Branch.Build
import TypedJava.Proofs.Branch.Visit
import TypedJava.Proofs.Edit.PutBack

/-! # Walks over children that are rewritten

A walk follows the links between siblings of a tree that its visits change. The link from a child is
read before the child is visited, so it is enough that a visit changes the list of children nowhere
but at the child: the link then still leads to the next child of the list as it was at the start. -/

namespace TypedJava

/-! ## Exchanging a child -/

namespace Store

/-- The second list of children comes from the first by leaving a child where it is, taking it
away, or putting one node in its position. -/
def Exchanges (child : NodeId) (before after : List NodeId) : Prop :=
  ∃ earlier later, ∃ left : Option NodeId,
    before = earlier ++ child :: later ∧ after = earlier ++ left.toList ++ later

/-- All children of a node, in the order of the roles of its kind. -/
theorem WellFormed.children_eq_flatMap
    {store : Store} (wellFormed : store.WellFormed) (reference : NodeRef) :
    store.children reference =
      (store.kind reference).roles.flatMap (store.childrenIn reference) := by
  cases found : store.node? reference with
  | none =>
      rw [children, kind, found]
      rfl
  | some node =>
      cases reference with
      | none =>
          cases found
      | some id =>
          rw [children, kind, found]
          simp only
          rw [Node.children, wellFormed.slots_eq_map found, List.flatMap_map]

end Store

section Edits

variable {store changed : Store}

theorem Store.kind_of_label?_eq
    {reference : NodeRef} (same : changed.label? reference = store.label? reference) :
    changed.kind reference = store.kind reference := by
  have ofLabel (any : Store) :
      any.kind reference = ((any.label? reference).map (·.1.kind)).getD .null := by
    rw [Store.kind, Store.label?]
    cases any.node? reference <;> rfl
  rw [ofLabel, ofLabel, same]

/-- Detaching a child takes it out of the list of children. -/
theorem Store.WellFormed.children_detach
    (wellFormed : store.WellFormed) {child : NodeId} {location : Store.Location}
    (located : store.location? (some child) = some location) (reference : NodeRef) :
    (store.detach location child).children reference =
      (store.children reference).filter (· ≠ child) := by
  rw [(wellFormed.detach located).children_eq_flatMap, wellFormed.children_eq_flatMap,
    Store.kind_of_label?_eq (Store.label?_detach store location child reference),
    List.filter_flatMap]
  apply List.flatMap_congr
  intro role _
  cases reference with
  | none =>
      rfl
  | some id =>
      rw [wellFormed.childrenIn_detach located,
        (wellFormed.childrenIn_nodup id role).erase_eq_filter]
      apply List.filter_congr
      intro other _
      simp [bne, beq_eq_decide]

theorem Store.WellFormed.exchanges_detach
    (wellFormed : store.WellFormed) {child : NodeId} {location : Store.Location}
    (located : store.location? (some child) = some location) :
    Store.Exchanges child (store.children (some location.place.parent))
      ((store.detach location child).children (some location.place.parent)) := by
  have around := Store.children_eq_around located
  have nodup := (wellFormed.linksChildren (some location.place.parent)).nodup
  refine ⟨_, _, none, around, ?_⟩
  rw [around, List.nodup_append, List.nodup_cons] at nodup
  have keepsBefore : ∀ other ∈ store.childrenBefore location, other ≠ child := by
    intro other member same
    exact nodup.2.2 other member child List.mem_cons_self same
  have keepsAfter : ∀ other ∈ store.childrenAfter location, other ≠ child := by
    intro other member same
    exact nodup.2.1.1 (same ▸ member)
  rw [wellFormed.children_detach located, around, List.filter_append,
    List.filter_cons_of_neg (by simp), List.filter_eq_self.mpr (by simpa using keepsBefore),
    List.filter_eq_self.mpr (by simpa using keepsAfter)]
  simp

/-- What a branch becomes takes its position among the children. -/
theorem Branch.Hosted.exchanges
    {frame : Frame} {frames : List Frame} {branch other : Branch} {source : List NodeId}
    (hosted : Branch.Hosted store (frame :: frames) branch)
    (becomes : Branch.Becomes store source (frame :: frames) other changed) :
    Store.Exchanges branch.id (store.children (some frame.parent))
      (changed.children (some frame.parent)) := by
  have before := hosted.outer.held.store_children_eq
  have after := becomes.hosted.outer.held.store_children_eq
  rw [Frame.fill, Branch.children, List.map_append, List.map_cons] at before after
  exact ⟨_, _, some other.id, before, by rw [Option.toList_some, List.append_assoc]; exact after⟩

/-- Replacing a branch by what a factory makes of it, for its effect alone. -/
theorem Branch.Hosted.exchanges_replaceBy
    {frame : Frame} {frames : List Frame} {branch : Branch}
    (hosted : Branch.Hosted store (frame :: frames) branch) (wellFormed : store.WellFormed)
    {factory : NodeRef → Edit NodeRef}
    (works : ∀ detached : Store, detached.WellFormed → Branch.Hosted detached [] branch →
      ∃ other changed, (factory (some branch.id)).run detached = (.ok (some other.id), changed) ∧
        Branch.Becomes detached branch.ids [] other changed) :
    ∃ changed,
      (Edit.replaceBy (some branch.id) factory >>= fun _ => pure ()).run store =
        (.ok (), changed) ∧
      changed.WellFormed ∧
      Store.Exchanges branch.id (store.children (some frame.parent))
        (changed.children (some frame.parent)) := by
  obtain ⟨other, changed, run, becomes, _⟩ := hosted.run_replaceBy wellFormed
    fun detached detachedWellFormed detachedHosted _ => by
      obtain ⟨other, changed, run, becomes⟩ := works detached detachedWellFormed detachedHosted
      exact ⟨other, changed, run, becomes, trivial⟩
  refine ⟨changed, ?_, becomes.wellFormed, hosted.exchanges becomes⟩
  rw [Edit.run_bind_ok run, Edit.run_pure]

/-- Every action of a tour on a child succeeds, and it changes the list of children nowhere but at
the child. -/
theorem TourAction.exchanges
    (action : TourAction) (wellFormed : store.WellFormed) {parent child : NodeId}
    (isChild : child ∈ store.children (some parent)) :
    ∃ changed, (action.edit (some child)).run store = (.ok (), changed) ∧ changed.WellFormed ∧
      Store.Exchanges child (store.children (some parent)) (changed.children (some parent)) := by
  obtain ⟨place, placed, rfl⟩ := wellFormed.mem_children_iff.mp isChild
  obtain ⟨frame, frames, branch, hosted, rfl, samePlace⟩ :=
    Branch.exists_hosted_of_mem_childrenIn wellFormed (wellFormed.mem_childrenIn placed)
  rw [← congrArg Place.parent samePlace]
  cases action with
  | remove =>
      obtain ⟨position, located⟩ := hosted.exists_location? wellFormed
      refine ⟨_, ?_, wellFormed.detach located, wellFormed.exchanges_detach located⟩
      rw [TourAction.edit, Edit.run_detach, located]
  | nullify =>
      apply hosted.exchanges_replaceBy wellFormed
      intro detached detachedWellFormed _
      have pushed := Branch.becomes_push detachedWellFormed .nullReference
      refine ⟨_, _, ?_, pushed.mono fun id member => absurd member List.not_mem_nil⟩
      rw [Edit.mkNull, Edit.run_bind_ok (Edit.run_mkNode _ _), Edit.run_pure]
      rfl
  | negate =>
      apply hosted.exchanges_replaceBy wellFormed
      intro detached detachedWellFormed detachedHosted
      obtain ⟨changed, run, becomes⟩ := Branch.run_mkNodeWith detachedWellFormed (.unary .minus)
        [(.expression, branch)] (by simpa using detachedHosted) (by simp)
        (by simp [Payload.kind, NodeKind.roles]) fun _ _ => List.length_filter_le _ _
      rw [List.map_singleton] at run
      refine ⟨_, changed, ?_, becomes.mono ?_⟩
      · rw [Edit.mkUnary, Edit.run_bind_ok run, Edit.run_pure]
        rfl
      · intro id member
        simpa [Branch.idsOfAll] using member

end Edits

/-! ## Walks along the links -/

variable {σ α : Type} {view : σ → Store} {visit : Visit σ α}

namespace Store

/-- A walk along the links between siblings that nothing but the links and the outcomes of its
visits ends: the nodes visited, the outcome, and the state after the walk. -/
inductive WalksSiblings (view : σ → Store) (visit : Visit σ α) :
    NodeRef → σ → List NodeId → Option α → σ → Prop
  | finish {state : σ} : WalksSiblings view visit none state [] none state
  | stop {child : NodeId} {state changed : σ} {outcome : α} :
      (visit child).run state = (some outcome, changed) →
      WalksSiblings view visit (some child) state [child] (some outcome) changed
  | next {child : NodeId} {state changed last : σ} {visited : List NodeId} {outcome : Option α} :
      (visit child).run state = (none, changed) →
      WalksSiblings view visit ((view state).nextSibling (some child)) changed visited outcome
        last →
      WalksSiblings view visit (some child) state (child :: visited) outcome last

namespace WalksSiblings

variable {child : NodeRef} {state last : σ} {visited : List NodeId} {outcome : Option α}

/-- The bound on the number of visits does not show if it allows the whole walk. -/
theorem run_visitSiblings
    (walks : WalksSiblings view visit child state visited outcome last) {fuel : Nat}
    (enough : visited.length ≤ fuel) :
    (visitSiblings view visit fuel child).run state = (outcome, last) := by
  induction walks generalizing fuel with
  | finish =>
      cases fuel <;> rfl
  | stop stopped =>
      obtain ⟨fuel, rfl⟩ := Nat.exists_eq_add_of_le' enough
      rw [List.length_singleton, run_visitSiblings_succ, stopped]
  | next continued _ inductionHypothesis =>
      rw [List.length_cons] at enough
      cases fuel with
      | zero =>
          omega
      | succ fuel =>
          rw [run_visitSiblings_succ, continued]
          exact inductionHypothesis (by omega)

/-- A walk that has an outcome has it from its last visit. -/
theorem exists_last_visit
    {value : α} (walks : WalksSiblings view visit child state visited (some value) last) :
    ∃ node before, visited.getLast? = some node ∧
      (visit node).run before = (some value, last) := by
  generalize isOutcome : some value = outcome at walks
  induction walks with
  | finish =>
      cases isOutcome
  | stop stopped =>
      cases isOutcome
      exact ⟨_, _, rfl, stopped⟩
  | @next _ _ _ _ visited _ _ _ inductionHypothesis =>
      obtain ⟨node, before, isLast, stopped⟩ := inductionHypothesis isOutcome
      refine ⟨node, before, ?_, stopped⟩
      rw [List.getLast?_cons, isLast]
      rfl

end WalksSiblings

/-! ## Visits that rewrite the tree in place -/

/-- The visits of some children of a node that go on with the walk change the list of children
nowhere but at the child visited. The invariant tells in which states; it has to be kept, and its
states have to link the node with its children. -/
structure VisitsInPlace (view : σ → Store) (visit : Visit σ α) (node : NodeRef)
    (children : List NodeId) (invariant : σ → Prop) : Prop where
  links : ∀ state, invariant state → (view state).LinksChildren node
  keeps : ∀ state child changed, invariant state → child ∈ children →
    child ∈ (view state).children node → (visit child).run state = (none, changed) →
    invariant changed
  exchanges : ∀ state child changed, invariant state → child ∈ children →
    child ∈ (view state).children node → (visit child).run state = (none, changed) →
    Exchanges child ((view state).children node) ((view changed).children node)

theorem run_findSomeM?_cons
    (visit : Visit σ α) (child : NodeId) (waiting : List NodeId) (state : σ) :
    ((child :: waiting).findSomeM? visit).run state =
      match (visit child).run state with
      | (some outcome, changed) => (some outcome, changed)
      | (none, changed) => (waiting.findSomeM? visit).run changed := by
  rw [List.findSomeM?, StateT.run_bind]
  cases (visit child).run state with
  | mk outcome changed =>
      cases outcome <;> rfl

/-- A walk that starts at the last children of a node goes through them in their order. -/
theorem VisitsInPlace.exists_walksSiblings
    {node : NodeRef} {children : List NodeId} {invariant : σ → Prop}
    (inPlace : VisitsInPlace view visit node children invariant) (waiting : List NodeId)
    (asked : ∀ child ∈ waiting, child ∈ children) {state : σ} (holds : invariant state)
    {before : List NodeId} (split : (view state).children node = before ++ waiting) :
    ∃ visited outcome last,
      WalksSiblings view visit waiting.head? state visited outcome last ∧
      (waiting.findSomeM? visit).run state = (outcome, last) ∧
      visited <+: waiting ∧ (outcome = none → visited = waiting) := by
  induction waiting generalizing state before with
  | nil =>
      exact ⟨[], none, state, .finish, rfl, List.prefix_rfl, fun _ => rfl⟩
  | cons child waiting inductionHypothesis =>
      have links := inPlace.links state holds
      have next := links.nextSibling_eq split
      have isAsked := asked child List.mem_cons_self
      have isChild : child ∈ (view state).children node := by simp [split]
      have step := run_findSomeM?_cons visit child waiting state
      cases result : (visit child).run state with
      | mk outcome changed =>
          rw [result] at step
          cases outcome with
          | some value =>
              refine ⟨[child], some value, changed, .stop result, step, ?_, ?_⟩
              · exact List.prefix_append [child] waiting
              · intro impossible
                cases impossible
          | none =>
              obtain ⟨earlier, later, left, sameBefore, sameAfter⟩ :=
                inPlace.exchanges state child changed holds isAsked isChild result
              have nodup := links.nodup
              rw [split] at sameBefore nodup
              rw [List.nodup_append] at nodup
              have notBefore : child ∉ before := fun member =>
                nodup.2.2 child member child List.mem_cons_self rfl
              have notWaiting : child ∉ waiting := (List.nodup_cons.mp nodup.2.1).1
              obtain ⟨rfl, _, rfl⟩ :=
                (List.append_cons_inj_of_notMem notBefore notWaiting).mp sameBefore
              obtain ⟨visited, outcome, last, walks, same, isPrefix, whole⟩ :=
                inductionHypothesis (fun other member => asked other (List.mem_cons_of_mem _ member))
                  (inPlace.keeps state child changed holds isAsked isChild result) sameAfter
              refine ⟨child :: visited, outcome, last, .next result ?_, step.trans same, ?_, ?_⟩
              · rwa [next]
              · exact List.cons_prefix_cons.mpr ⟨rfl, isPrefix⟩
              · intro finished
                rw [whole finished]

/-- A walk over the children of a node whose visits rewrite the tree in place visits the children
that the node has at the start, each once, in the order of the roles, and no node that has come in
the place of a child. It ends when it runs out of links, or after the first visit that has an
outcome; it then has that outcome, and the children after that one are not visited. -/
theorem visitChildren_visits_each_child
    {node : NodeRef} {start : σ} {invariant : σ → Prop}
    (wellFormed : (view start).WellFormed) (holds : invariant start)
    (inPlace : VisitsInPlace view visit node ((view start).children node) invariant) :
    ∃ visited outcome last,
      (visitChildren view visit node).run start = (outcome, last) ∧
      WalksSiblings view visit ((view start).firstChild node) start visited outcome last ∧
      (((view start).children node).findSomeM? visit).run start = (outcome, last) ∧
      (view start).children node =
        ((view start).kind node).roles.flatMap ((view start).childrenIn node) ∧
      ((view start).children node).Nodup ∧
      visited <+: (view start).children node ∧
      (outcome = none → visited = (view start).children node) ∧
      ∀ value, outcome = some value → ∃ child before,
        visited.getLast? = some child ∧ (visit child).run before = (some value, last) := by
  obtain ⟨visited, outcome, last, walks, found, isPrefix, whole⟩ :=
    inPlace.exists_walksSiblings _ (fun _ member => member) holds (List.nil_append _).symm
  have walked : (visitChildren view visit node).run start =
      (visitSiblings view visit ((view start).children node).length
        ((view start).firstChild node)).run start := rfl
  refine ⟨visited, outcome, last, ?_, walks, found, wellFormed.children_eq_flatMap node,
    (wellFormed.linksChildren node).nodup, isPrefix, whole, ?_⟩
  · rw [walked]
    exact walks.run_visitSiblings isPrefix.length_le
  · rintro value rfl
    exact walks.exists_last_visit

end Store

namespace Edit

/-- Edits that exchange the child visited are visits in place, in every well-formed store. -/
theorem visitsInPlace_toVisit
    {edit : NodeRef → Edit Unit} {parent : NodeId} {children : List NodeId}
    (each : ∀ store : Store, store.WellFormed → ∀ child ∈ children,
      child ∈ store.children (some parent) → ∀ changed,
      (edit (some child)).run store = (.ok (), changed) →
      changed.WellFormed ∧
        Store.Exchanges child (store.children (some parent)) (changed.children (some parent))) :
    Store.VisitsInPlace id (toVisit edit) (some parent) children Store.WellFormed := by
  have succeeds {store changed : Store} {child : NodeId}
      (went : (toVisit edit child).run store = (none, changed)) :
      (edit (some child)).run store = (.ok (), changed) := by
    rw [run_toVisit] at went
    cases result : (edit (some child)).run store with
    | mk outcome other =>
        rw [result] at went
        cases outcome <;> cases went
        rfl
  constructor
  case links =>
    exact fun store wellFormed => wellFormed.linksChildren (some parent)
  case keeps =>
    intro store child changed wellFormed isAsked isChild went
    exact (each store wellFormed child isAsked isChild changed (succeeds went)).1
  case exchanges =>
    intro store child changed wellFormed isAsked isChild went
    exact (each store wellFormed child isAsked isChild changed (succeeds went)).2

/-- Takes the called name away, negates the first argument and refuses the second one, in the call
`f(a, b)`. -/
def rewriteCall (node : NodeRef) : Edit Unit :=
  if node = some 0 then TourAction.remove.edit node
  else if node = some 1 then TourAction.negate.edit node
  else if node = some 2 then throw (.detached node)
  else pure ()

theorem visitsInPlace_rewriteCall (children : List NodeId) :
    Store.VisitsInPlace id (toVisit rewriteCall) (some 3) children Store.WellFormed := by
  apply visitsInPlace_toVisit
  intro store wellFormed child _ isChild changed run
  have acts (action : TourAction) (same : rewriteCall (some child) = action.edit (some child)) :
      changed.WellFormed ∧
        Store.Exchanges child (store.children (some 3)) (changed.children (some 3)) := by
    obtain ⟨other, ran, wellFormed, exchanges⟩ := action.exchanges wellFormed isChild
    rw [same, ran] at run
    cases run
    exact ⟨wellFormed, exchanges⟩
  by_cases called : child = 0
  · exact acts .remove (by simp [rewriteCall, called])
  · by_cases first : child = 1
    · exact acts .negate (by simp [rewriteCall, first])
    · by_cases second : child = 2
      · rw [rewriteCall, second, if_neg (by decide), if_neg (by decide), if_pos rfl,
          run_throw] at run
        cases run
      · rw [rewriteCall, if_neg (by simpa using called), if_neg (by simpa using first),
          if_neg (by simpa using second), run_pure] at run
        cases run
        obtain ⟨before, after, split⟩ := List.append_of_mem isChild
        exact ⟨wellFormed, before, after, some child, split, by simp [split]⟩

end Edit

/-- The walk over the children of the call: the name goes, the parenthesis stays, the first argument
gives way to its negation, which is not visited, and the second argument ends the walk. -/
theorem visitChildren_visits_each_child_of_call :
    Edit.calledBeside.WellFormed ∧ Edit.calledBeside.children (some 3) = [0, 4, 1, 2, 5] ∧
      ∃ visited last,
        (Store.visitChildren id (Edit.toVisit Edit.rewriteCall) (some 3)).run Edit.calledBeside =
          (some (.detached (some 2)), last) ∧
        last.children (some 3) = [4, 8, 2, 5] ∧
        Store.WalksSiblings id (Edit.toVisit Edit.rewriteCall) (some 0) Edit.calledBeside visited
          (some (.detached (some 2))) last ∧
        visited <+: [0, 4, 1, 2, 5] := by
  have children : Edit.calledBeside.children (some 3) = [0, 4, 1, 2, 5] := by decide +kernel
  have first : Edit.calledBeside.firstChild (some 3) = some 0 := by decide +kernel
  obtain ⟨visited, outcome, last, run, walks, _, _, _, isPrefix, _, _⟩ :=
    @Store.visitChildren_visits_each_child _ _ id (Edit.toVisit Edit.rewriteCall) (some 3)
      Edit.calledBeside Store.WellFormed Edit.wellFormed_calledBeside Edit.wellFormed_calledBeside
      (Edit.visitsInPlace_rewriteCall _)
  have isOutcome : outcome = some (.detached (some 2)) :=
    (congrArg Prod.fst run).symm.trans (by decide +kernel)
  have lastChildren : last.children (some 3) = [4, 8, 2, 5] :=
    (congrArg (fun ended => ended.2.children (some 3)) run).symm.trans (by decide +kernel)
  subst isOutcome
  rw [id, first] at walks
  rw [id, children] at isPrefix
  exact ⟨Edit.wellFormed_calledBeside, children, visited, last, run, lastChildren, walks, isPrefix⟩

end TypedJava

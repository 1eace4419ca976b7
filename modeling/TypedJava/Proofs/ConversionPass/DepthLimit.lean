import TypedJava.Proofs.ConversionPass.Simulation
import TypedJava.Proofs.Edit.Structural

/-! # The depth limit of the pass

The pass silently leaves out what lies beyond its depth limit, and it never fails. Put an alarm at
the limit, and a run without an alarm is one that never gets there. -/

namespace TypedJava

namespace Edit

/-- The pass with a treatment of its own for what is left out at the depth limit. -/
def treatWithinOr (context : Context) (atLimit : Treatment) : (fuel : Nat) → Treatment
  | 0, node => treatNode context atLimit atLimit node
  | fuel + 1, node =>
    treatNode context (visitChildren (treatWithinOr context atLimit fuel))
      (treatWithinOr context atLimit fuel) node

theorem treatWithinOr_pure (context : Context) (fuel : Nat) :
    treatWithinOr context (fun _ => pure ()) fuel = treatWithin context fuel := by
  induction fuel with
  | zero =>
      rfl
  | succ fuel inductionHypothesis =>
      funext node
      rw [treatWithinOr, treatWithin, inductionHypothesis]

/-- Stops the pass. -/
def alarm : Treatment :=
  fun node => throw (.missing node)

theorem reaches_alarm (node : NodeRef) (store : Store) (condition : Unit → Store → Prop) :
    (alarm node).Reaches True store condition :=
  trivial

/-- The pass never leaves anything out for its depth limit. -/
def StaysWithinDepth (context : Context) (root : NodeRef) (store : Store) : Prop :=
  ((treatWithinOr context alarm context.settings.maxDepth.toNat root).run store).1 = .ok ()

instance (context : Context) (root : NodeRef) (store : Store) :
    Decidable (StaysWithinDepth context root store) :=
  inferInstanceAs (Decidable (_ = _))

/-- Where the first edit succeeds, the second one does the same. -/
def Agrees {α : Type} (first second : Edit α) : Prop :=
  ∀ store value changed, first.run store = (.ok value, changed) →
    second.run store = (.ok value, changed)

namespace Agrees

variable {α β : Type}

theorem refl (edit : Edit α) : Agrees edit edit :=
  fun _ _ _ run => run

theorem of_throw (error : EditError) (edit : Edit α) : Agrees (throw error) edit := by
  intro store value changed run
  rw [run_throw] at run
  cases run

theorem bind
    {first second : Edit α} {firstNext secondNext : α → Edit β} (agree : Agrees first second)
    (next : ∀ value, Agrees (firstNext value) (secondNext value)) :
    Agrees (first >>= firstNext) (second >>= secondNext) := by
  intro store value changed run
  cases result : first.run store with
  | mk outcome middle =>
      cases outcome with
      | ok found =>
          rw [run_bind_ok result] at run
          rw [run_bind_ok (agree store found middle result)]
          exact next found middle value changed run
      | error error =>
          rw [run_bind_error result] at run
          cases run

theorem visitFrom
    {first second : Treatment} (agree : ∀ node, Agrees (first node) (second node)) (fuel : Nat)
    (child : NodeRef) :
    Agrees (Edit.visitFrom first fuel child) (Edit.visitFrom second fuel child) := by
  induction fuel generalizing child with
  | zero =>
      exact refl _
  | succ fuel inductionHypothesis =>
      cases child with
      | none =>
          exact refl _
      | some child =>
          exact (refl _).bind fun next => (agree _).bind fun _ => inductionHypothesis next

theorem visitChildren
    {first second : Treatment} (agree : ∀ node, Agrees (first node) (second node))
    (node : NodeRef) :
    Agrees (Edit.visitChildren first node) (Edit.visitChildren second node) := by
  intro store value changed run
  rw [run_visitChildren] at run ⊢
  exact visitFrom agree _ _ store value changed run

section Treatments

variable {context : Context} {first second : Treatment}

theorem finishConditional
    (agree : ∀ node, Agrees (first node) (second node)) (conditional : NodeRef) (target : Ty) :
    Agrees (Edit.finishConditional context first conditional target)
      (Edit.finishConditional context second conditional target) := by
  unfold Edit.finishConditional
  split
  · split
    · exact refl _
    · refine (refl _).bind fun cast => (refl _).bind fun store => ?_
      split
      · exact (refl _).bind fun operand => agree operand
      · exact agree cast
  · exact agree conditional

theorem treatIllegalCast
    (agree : ∀ node, Agrees (first node) (second node)) (cast operand : NodeRef)
    (target source : Ty) :
    Agrees (Edit.treatIllegalCast context first cast operand target source)
      (Edit.treatIllegalCast context second cast operand target source) := by
  unfold Edit.treatIllegalCast
  refine (refl _).bind fun parent => ?_
  simp only
  split
  · split
    · exact refl _
    · refine (refl _).bind fun replaced => ?_
      split
      · exact refl _
      · exact finishConditional agree _ target
  · split
    · split
      · exact refl _
      · exact (refl _).bind fun comparison => agree comparison
    · split
      · exact refl _
      · exact (refl _).bind fun wrapped => agree wrapped

theorem treatCast (agree : ∀ node, Agrees (first node) (second node)) (cast : NodeRef) :
    Agrees (Edit.treatCast context first cast) (Edit.treatCast context second cast) := by
  unfold Edit.treatCast
  refine (refl _).bind fun store => ?_
  simp only
  split
  · split
    · exact treatIllegalCast agree _ _ _ _
    · exact refl _
  · exact refl _

theorem convertValue
    (agree : ∀ node, Agrees (first node) (second node)) (target source : Ty) (value : NodeRef) :
    Agrees (Branch.convertValue context first target source value)
      (Branch.convertValue context second target source value) := by
  unfold Branch.convertValue
  simp only
  split
  · refine (refl _).bind fun replaced => ?_
    split
    · exact refl _
    · exact finishConditional agree _ target
  · split
    · exact (refl _).bind fun comparison => agree comparison
    · exact refl _

theorem treatAssignment (agree : ∀ node, Agrees (first node) (second node)) (node : NodeRef) :
    Agrees (Edit.treatAssignment context first node)
      (Edit.treatAssignment context second node) := by
  unfold Edit.treatAssignment
  refine (refl _).bind fun store => ?_
  simp only
  split
  · split
    · split
      · exact (refl _).bind fun value => convertValue agree _ _ value
      · exact (refl _).bind fun value => convertValue agree _ _ value
    · exact (refl _).bind fun value => convertValue agree _ _ value
  · exact refl _

theorem treatAccess (agree : ∀ node, Agrees (first node) (second node)) (node : NodeRef) :
    Agrees (Edit.treatAccess context first node) (Edit.treatAccess context second node) := by
  unfold Edit.treatAccess
  refine (refl _).bind fun store => ?_
  simp only
  split
  · split
    · exact refl _
    · exact (refl _).bind fun cast => agree cast
  · exact refl _

theorem treatNode
    (agree : ∀ node, Agrees (first node) (second node)) {firstBelow secondBelow : Treatment}
    (below : ∀ node, Agrees (firstBelow node) (secondBelow node)) (node : NodeRef) :
    Agrees (Edit.treatNode context firstBelow first node)
      (Edit.treatNode context secondBelow second node) := by
  unfold Edit.treatNode
  refine (refl _).bind fun store => ?_
  split
  · exact (below node).bind fun _ => treatAccess agree node
  · exact (below node).bind fun _ => treatCast agree node
  · refine (below node).bind fun _ => ?_
    split
    · exact treatAssignment agree node
    · exact refl _
  all_goals first | exact below node | exact refl _

end Treatments

/-- A run without an alarm is a run of the pass. -/
theorem treatWithin (context : Context) (fuel : Nat) (node : NodeRef) :
    Agrees (treatWithinOr context alarm fuel node) (Edit.treatWithin context fuel node) := by
  induction fuel generalizing node with
  | zero =>
      have agree (node : NodeRef) : Agrees (alarm node) (pure ()) := of_throw _ _
      exact treatNode agree agree node
  | succ fuel inductionHypothesis =>
      exact treatNode inductionHypothesis (fun node => visitChildren inductionHypothesis node) node

end Agrees

end Edit

namespace Branch

variable {context : Context} {bound : Nat}

theorem Simulates.descends
    {mayFail : Prop} {visit : Edit.Treatment} {relation : Option Frame → Branch → Branch → Prop}
    (simulates : Simulates mayFail bound visit relation) :
    Simulates mayFail bound (Edit.visitChildren visit) fun _ => Descends relation := by
  intro store frames branch wellFormed new hosted
  refine (simulates.visitChildren wellFormed new hosted).imp ?_
  rintro _ changed ⟨children, becomes, visits⟩
  exact ⟨_, becomes, .mk visits⟩

/-- Whatever is done at the depth limit, as long as it leaves the store alone, the pass makes of a
branch what the relation says. -/
theorem simulates_treatWithinOr
    {mayFail mayCut : Prop} {atLimit : Edit.Treatment}
    (cuts : ∀ node store, (atLimit node).Reaches mayFail store fun _ changed =>
      mayCut ∧ changed = store) (fuel : Nat) :
    Simulates mayFail bound (Edit.treatWithinOr context atLimit fuel)
      (Converts context bound mayCut fuel) := by
  have stops : Simulates mayFail bound atLimit
      fun _ branch result => mayCut ∧ result = branch := by
    intro store frames branch wellFormed new hosted
    refine (cuts _ store).imp ?_
    rintro _ changed ⟨cut, rfl⟩
    exact ⟨branch, .refl wellFormed hosted, cut, rfl⟩
  induction fuel with
  | zero =>
      refine stops.treatNode stops ?_
      rintro branch other ⟨_, rfl⟩
      rfl
  | succ fuel inductionHypothesis =>
      refine inductionHypothesis.treatNode inductionHypothesis.descends ?_
      rintro branch other ⟨_⟩
      rfl

/-- The pass, which may leave out what lies beyond its depth limit. -/
theorem simulates_treatWithin (fuel : Nat) :
    Simulates False bound (Edit.treatWithin context fuel) (Converts context bound True fuel) := by
  rw [← Edit.treatWithinOr_pure]
  exact simulates_treatWithinOr (fun node store => .of_run (Edit.run_pure _ store) ⟨trivial, rfl⟩)
    fuel

end Branch

namespace Edit

/-- A run of the pass on a hosted node. -/
theorem run_insertConversions
    {context : Context} {store : Store} {frames : List Frame} {branch : Branch}
    (wellFormed : store.WellFormed) (hosted : Branch.Hosted store frames branch) :
    ∃ other changed, (insertConversions context (some branch.id)).run store = (.ok (), changed) ∧
      Branch.Becomes store branch.ids frames other changed ∧
      Branch.Converts context store.size True context.settings.maxDepth.toNat frames.head? branch
        other := by
  obtain ⟨_, changed, run, other, becomes, converts⟩ :=
    (Branch.simulates_treatWithin _ store frames branch wellFormed (Nat.le_refl _)
      hosted).exists_run
  exact ⟨other, changed, run, becomes, converts⟩

/-- A run of the pass on a hosted node that leaves nothing out. -/
theorem StaysWithinDepth.run_insertConversions
    {context : Context} {store : Store} {frames : List Frame} {branch : Branch}
    (within : StaysWithinDepth context (some branch.id) store) (wellFormed : store.WellFormed)
    (hosted : Branch.Hosted store frames branch) :
    ∃ other changed, (insertConversions context (some branch.id)).run store = (.ok (), changed) ∧
      Branch.Becomes store branch.ids frames other changed ∧
      Branch.Converts context store.size False context.settings.maxDepth.toNat frames.head? branch
        other := by
  have simulates : Branch.Simulates True store.size
      (treatWithinOr context alarm context.settings.maxDepth.toNat)
      (Branch.Converts context store.size False context.settings.maxDepth.toNat) :=
    Branch.simulates_treatWithinOr (fun node store => reaches_alarm node store _) _
  have reaches := simulates store frames branch wellFormed (Nat.le_refl _) hosted
  cases result : (treatWithinOr context alarm context.settings.maxDepth.toNat
      (some branch.id)).run store with
  | mk outcome changed =>
      rw [StaysWithinDepth, result] at within
      cases within
      obtain ⟨other, becomes, converts⟩ := reaches.of_ok result
      exact ⟨other, changed, Agrees.treatWithin context _ _ store () changed result, becomes,
        converts⟩

/-- A reference that leads nowhere is no tree for the pass. -/
theorem run_insertConversions_of_missing
    {context : Context} {store : Store} {root : NodeRef} (missing : store.node? root = none) :
    (insertConversions context root).run store = (.ok (), store) := by
  have noPayload : store.payload? root = none := by
    rw [Store.payload?, missing]
    rfl
  rw [insertConversions]
  cases context.settings.maxDepth.toNat <;>
    rw [treatWithin, treatNode, run_bind_ok (run_get store), noPayload] <;> rfl

/-- The pass succeeds from every node of a sound tree, or from none, and keeps the tree sound. -/
theorem insertConversions_succeeds
    (context : Context) (root : NodeRef) {store : Store} (wellFormed : store.WellFormed) :
    ∃ changed, (insertConversions context root).run store = (.ok (), changed) ∧
      changed.WellFormed := by
  cases found : store.node? root with
  | none =>
      exact ⟨store, run_insertConversions_of_missing found, wellFormed⟩
  | some node =>
      cases root with
      | none =>
          cases found
      | some id =>
          have inside : id < store.size := Store.lt_size_of_node? found
          obtain ⟨frames, branch, hosted, rfl⟩ := Branch.exists_hosted wellFormed inside
          obtain ⟨other, changed, run, becomes, _⟩ := run_insertConversions wellFormed hosted
          exact ⟨changed, run, becomes.wellFormed⟩

/-- The cast `(boolean) 1` stands alone, so there is no place for the comparison it asks for. -/
theorem insertConversions_succeeds_of_detachedCast :
    let store := ((do
        let number ← mkLiteral (.int 1)
        let type ← mkNamedType "boolean" []
        mkCast (some type) (some number) : Edit NodeId).run Store.empty).2
    ∃ changed, (insertConversions (.ofCatalog .standard) (some 2)).run store = (.ok (), changed) ∧
      changed.WellFormed := by
  refine insertConversions_succeeds (.ofCatalog .standard) (some 2) ?_
  refine Structural.keepsWellFormed ?_ _ Store.wellFormed_empty
  exact .bind (.mkLiteral _) fun _ => .bind (.mkNamedType _ _) fun _ => .mkCast _ _

end Edit

end TypedJava

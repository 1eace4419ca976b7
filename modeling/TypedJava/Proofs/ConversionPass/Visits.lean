import TypedJava.Proofs.ConversionPass.NewTypes

/-! # The nodes that the pass visits in a store

What holds everywhere in a branch holds at the nodes that the pass visits on its way down from the
top of the branch, and the other way around. -/

namespace TypedJava

namespace Store

/-- The nodes that the pass visits on its way down from a node. It does not go below type syntax. -/
inductive Visits (store : Store) (root : NodeId) : NodeId → Prop
  | root : Visits store root root
  | child {parent child : NodeId} {role : Role} :
      Visits store root parent → (store.kind (some parent)).isTypeSyntax = false →
      store.place? (some child) = some ⟨parent, role⟩ → Visits store root child

theorem Visits.trans
    {store : Store} {root middle id : NodeId} (first : store.Visits root middle)
    (second : store.Visits middle id) :
    store.Visits root id := by
  induction second with
  | root =>
      exact first
  | child _ notSyntax placed inductionHypothesis =>
      exact .child inductionHypothesis notSyntax placed

end Store

/-- Nodes with children are left alone if and only if they are type syntax. -/
theorem Payload.handling_eq_leave_iff
    {payload : Payload} {role : Role} (isRole : role ∈ payload.kind.roles) :
    payload.handling = .leave ↔ payload.kind.isTypeSyntax = true := by
  cases payload with
  | assignment operator =>
      by_cases simple : operator = .assign <;>
        simp [handling, simple, kind, NodeKind.isTypeSyntax]
  | _ =>
      first
      | exact absurd isRole List.not_mem_nil
      | simp [handling, kind, NodeKind.isTypeSyntax]

namespace Branch

variable {store : Store} {frames : List Frame} {branch : Branch}
  {property : Option Member → Branch → Prop}

theorem HeldIn.handling_eq_leave_iff
    (held : branch.HeldIn store) (wellFormed : store.WellFormed) {entry : Role × Branch}
    (member : entry ∈ branch.children) :
    branch.payload.handling = .leave ↔ (store.kind (some branch.id)).isTypeSyntax = true := by
  rw [held.kind_eq]
  exact Payload.handling_eq_leave_iff (held.role_mem wellFormed member)

theorem Hosted.exists_frame_of_mem_children
    (hosted : Hosted store frames branch) {entry : Role × Branch}
    (member : entry ∈ branch.children) :
    ∃ frame : Frame, Hosted store (frame :: frames) entry.2 ∧
      inheritedFrom (some frame) = branch.passedOn entry.1 ∧ frame.place = ⟨branch.id, entry.1⟩ := by
  obtain ⟨before, after, split⟩ := List.append_of_mem member
  obtain ⟨top, payload, annotations, children⟩ := branch
  cases split
  exact ⟨⟨top, payload, annotations, entry.1, before, after⟩, ⟨hosted.whole, hosted.unplaced⟩, rfl,
    rfl⟩

/-- What holds everywhere holds at every visited node. -/
theorem Everywhere.exists_hosted
    (everywhere : Everywhere property (inheritedFrom frames.head?) branch)
    (hosted : Hosted store frames branch) (wellFormed : store.WellFormed) {id : NodeId}
    (visits : store.Visits branch.id id) :
    ∃ frames inner, Hosted store frames inner ∧ inner.id = id ∧
      Everywhere property (inheritedFrom frames.head?) inner := by
  induction visits with
  | root =>
      exact ⟨frames, branch, hosted, rfl, everywhere⟩
  | @child parent child role _ notSyntax placed inductionHypothesis =>
      obtain ⟨innerFrames, inner, innerHosted, rfl, innerEverywhere⟩ := inductionHypothesis
      obtain ⟨entry, member, _, rfl⟩ :=
        innerHosted.held.exists_child_of_place? wellFormed placed
      obtain ⟨frame, childHosted, inherited, _⟩ := innerHosted.exists_frame_of_mem_children member
      have visited : inner.payload.handling ≠ .leave := by
        rw [ne_eq, innerHosted.held.handling_eq_leave_iff wellFormed member, notSyntax]
        simp
      refine ⟨frame :: innerFrames, entry.2, childHosted, rfl, ?_⟩
      rw [List.head?_cons, inherited]
      exact innerEverywhere.of_mem_children visited member

/-- What holds at every visited node holds everywhere. -/
theorem Hosted.everywhere
    (hosted : Hosted store frames branch) (wellFormed : store.WellFormed)
    (holds : ∀ frames inner, Hosted store frames inner → store.Visits branch.id inner.id →
      property (inheritedFrom frames.head?) inner) :
    Everywhere property (inheritedFrom frames.head?) branch := by
  induction branch using Branch.induction generalizing frames with
  | node id payload annotations children inductionHypothesis =>
      refine .mk (holds frames _ hosted .root) fun visited entry member => ?_
      obtain ⟨frame, childHosted, inherited, samePlace⟩ :=
        hosted.exists_frame_of_mem_children member
      have notSyntax : (store.kind (some id)).isTypeSyntax = false := by
        have same := hosted.held.handling_eq_leave_iff wellFormed member
        exact Bool.eq_false_iff.mpr fun isSyntax => visited (same.mpr isSyntax)
      have placed : store.place? (some entry.2.id) = some ⟨id, entry.1⟩ := by
        rw [childHosted.place?_eq wellFormed, samePlace]
        rfl
      rw [← inherited]
      refine inductionHypothesis entry member childHosted fun innerFrames inner innerHosted visits => ?_
      exact holds innerFrames inner innerHosted
        ((Store.Visits.child .root notSyntax placed).trans visits)

end Branch

namespace Edit

open Branch

section Runs

variable {context : Context} {root : NodeId} {store once : Store}
  (within : StaysWithinDepth context (some root) store) (wellFormed : store.WellFormed)
  (isBlock : store.payload? (some root) = some .block)
  (ran : (insertConversions context (some root)).run store = (.ok (), once))

include within wellFormed isBlock

theorem StaysWithinDepth.exists_run :
    ∃ once, (insertConversions context (some root)).run store = (.ok (), once) := by
  obtain ⟨node, found, _⟩ := Option.map_eq_some_iff.mp isBlock
  obtain ⟨frames, branch, hosted, rfl⟩ :=
    Branch.exists_hosted wellFormed (Store.lt_size_of_node? found)
  obtain ⟨_, once, run, _, _⟩ := within.run_insertConversions wellFormed hosted
  exact ⟨once, run⟩

include ran

/-- What a complete run makes of a block. -/
theorem StaysWithinDepth.exists_converts :
    ∃ frames branch other, branch.payload = .block ∧ other.id = root ∧
      Becomes store branch.ids frames other once ∧
      Converts context store.size False context.settings.maxDepth.toNat frames.head? branch other := by
  have inside : root < store.size := by
    obtain ⟨node, found, _⟩ := Option.map_eq_some_iff.mp isBlock
    exact Store.lt_size_of_node? found
  obtain ⟨frames, branch, hosted, rfl⟩ := Branch.exists_hosted wellFormed inside
  obtain ⟨other, changed, run, becomes, converts⟩ := within.run_insertConversions wellFormed hosted
  rw [ran] at run
  cases run
  have block : branch.payload = .block := by
    rw [hosted.held.payload?_eq] at isBlock
    exact Option.some.inj isBlock
  have isDescend : branch.payload.handling = .descend := by
    rw [block]
    rfl
  have sameTop := (converts.mayConvert.top_of_descend isDescend).1
  exact ⟨frames, branch, other, block, sameTop, becomes, converts⟩

theorem StaysWithinDepth.keepsWellFormed : once.WellFormed := by
  obtain ⟨_, _, _, _, _, becomes, _⟩ := within.exists_converts wellFormed isBlock ran
  exact becomes.wellFormed

/-- What a complete run leaves below a block has, at every visited node, the properties that the rules
establish. -/
theorem StaysWithinDepth.exists_hosted
    {given : Branch → Prop} {property : Option Member → Branch → Prop}
    (establishes : Establishes context store.size given property)
    (written : context.typeSyntax ≠ none)
    (holds : ∀ frames inner, Hosted once frames inner → once.Visits root inner.id → given inner)
    {id : NodeId} (visits : once.Visits root id) :
    ∃ frames inner, Hosted once frames inner ∧ inner.id = id ∧
      property (inheritedFrom frames.head?) inner := by
  obtain ⟨frames, branch, other, block, rfl, becomes, converts⟩ :=
    within.exists_converts wellFormed isBlock ran
  have attached : frames.head? ≠ none ∨ branch.payload.handling ≠ .cast := by
    rw [block]
    exact Or.inr (by decide)
  have given : other.Throughout given :=
    .of_everywhere (becomes.hosted.everywhere becomes.wellFormed holds)
  have gained := converts.gains establishes written attached given
  obtain ⟨innerFrames, inner, innerHosted, sameId, everywhere⟩ :=
    gained.exists_hosted becomes.hosted becomes.wellFormed visits
  exact ⟨innerFrames, inner, innerHosted, sameId, everywhere.top⟩

end Runs

end Edit

end TypedJava

import TypedJava.Proofs.ConversionPass.Views

/-! # Revisions of branches

A branch is revised when some of its casts give way to their operands and new nodes are put around
others. What is left of a branch is described by the lists of old nodes that remain when some casts
are dropped: a revision leaves nothing but what the branch itself may leave. -/

namespace TypedJava

namespace Payload

/-- The payloads of the nodes that the pass puts in. -/
def mayBeInserted : Payload → Bool
  | .cast | .conditional | .literal _ | .token _ => true
  | .binary operator => operator == .inequality
  | payload => payload.kind.isTypeSyntax

end Payload

namespace Branch

variable {bound : Nat}

mutual

/-- The old nodes that may remain of a branch: any of its casts may have given way to its
operand. -/
def Leaves (bound : Nat) : Branch → List NodeId → Prop
  | node id payload _ children, kept =>
    (∃ below, LeavesAll bound children below ∧
      kept = (if id < bound then [id] else []) ++ below) ∨
    payload = .cast ∧ LeavesOperand bound children kept

/-- The old nodes that may remain of several branches. -/
def LeavesAll (bound : Nat) : List (Role × Branch) → List NodeId → Prop
  | [], kept => kept = []
  | (_, branch) :: rest, kept =>
    ∃ first others, Leaves bound branch first ∧ LeavesAll bound rest others ∧ kept = first ++ others

/-- The old nodes that may remain of the operand among the children of a cast. -/
def LeavesOperand (bound : Nat) : List (Role × Branch) → List NodeId → Prop
  | [], _ => False
  | (role, branch) :: rest, kept =>
    if role = .expression then Leaves bound branch kept else LeavesOperand bound rest kept

end

theorem leavesOperand_iff {children : List (Role × Branch)} {kept : List NodeId} :
    LeavesOperand bound children kept ↔
      ∃ entry, children.find? (fun entry => entry.1 = .expression) = some entry ∧
        entry.2.Leaves bound kept := by
  induction children with
  | nil =>
      simp [LeavesOperand]
  | cons entry rest inductionHypothesis =>
      obtain ⟨role, branch⟩ := entry
      by_cases same : role = .expression
      · simp [LeavesOperand, same]
      · simp [LeavesOperand, same, inductionHypothesis]

theorem leavesAll_append {first second : List (Role × Branch)} {kept : List NodeId} :
    LeavesAll bound (first ++ second) kept ↔
      ∃ left right, LeavesAll bound first left ∧ LeavesAll bound second right ∧
        kept = left ++ right := by
  induction first generalizing kept with
  | nil =>
      simp [LeavesAll]
  | cons entry rest inductionHypothesis =>
      simp only [List.cons_append, LeavesAll, inductionHypothesis]
      constructor
      · rintro ⟨top, _, leaves, ⟨left, right, inRest, inSecond, rfl⟩, rfl⟩
        exact ⟨top ++ left, right, ⟨top, left, leaves, inRest, rfl⟩, inSecond,
          (List.append_assoc _ _ _).symm⟩
      · rintro ⟨_, right, ⟨top, left, leaves, inRest, rfl⟩, inSecond, rfl⟩
        exact ⟨top, left ++ right, leaves, ⟨left, right, inRest, inSecond, rfl⟩,
          List.append_assoc _ _ _⟩

/-- Only old nodes of the branches remain. -/
private theorem mem_of_leavesAll
    {children : List (Role × Branch)}
    (each : ∀ entry ∈ children, ∀ kept, entry.2.Leaves bound kept →
      ∀ id ∈ kept, id ∈ entry.2.ids ∧ id < bound)
    {kept : List NodeId} (leaves : LeavesAll bound children kept) :
    ∀ id ∈ kept, id ∈ idsOfAll children ∧ id < bound := by
  induction children generalizing kept with
  | nil =>
      intro id member
      rw [LeavesAll] at leaves
      subst leaves
      exact absurd member List.not_mem_nil
  | cons entry rest inductionHypothesis =>
      obtain ⟨first, others, inFirst, inRest, rfl⟩ := leaves
      intro id member
      rw [idsOfAll, List.mem_append]
      rcases List.mem_append.mp member with here | later
      · obtain ⟨inside, old⟩ := each entry List.mem_cons_self first inFirst id here
        exact ⟨Or.inl inside, old⟩
      · obtain ⟨inside, old⟩ := inductionHypothesis
          (fun entry member => each entry (List.mem_cons_of_mem _ member)) inRest id later
        exact ⟨Or.inr inside, old⟩

theorem Leaves.mem
    {branch : Branch} {kept : List NodeId} (leaves : branch.Leaves bound kept) :
    ∀ id ∈ kept, id ∈ branch.ids ∧ id < bound := by
  induction branch using Branch.induction generalizing kept with
  | node top payload annotations children inductionHypothesis =>
      intro id member
      have each : ∀ entry ∈ children, ∀ kept, entry.2.Leaves bound kept →
          ∀ id ∈ kept, id ∈ entry.2.ids ∧ id < bound :=
        fun entry isChild kept leaves => inductionHypothesis entry isChild leaves
      rcases leaves with ⟨below, all, rfl⟩ | ⟨_, operand⟩
      · rcases List.mem_append.mp member with here | deeper
        · by_cases old : top < bound
          · rw [if_pos old, List.mem_singleton] at here
            subst here
            exact ⟨id_mem_ids _, old⟩
          · rw [if_neg old] at here
            exact absurd here List.not_mem_nil
        · obtain ⟨inside, old⟩ := mem_of_leavesAll each all id deeper
          exact ⟨List.mem_cons_of_mem _ inside, old⟩
      · obtain ⟨entry, found, leaves⟩ := leavesOperand_iff.mp operand
        have isChild := List.mem_of_find?_eq_some found
        obtain ⟨inside, old⟩ := each entry isChild kept leaves id member
        exact ⟨List.mem_cons_of_mem _ (mem_idsOfAll.mpr ⟨entry, isChild, inside⟩), old⟩

/-- Every branch may stay as it is. -/
theorem leaves_self (branch : Branch) :
    branch.Leaves bound (branch.ids.filter (· < bound)) := by
  induction branch using Branch.induction with
  | node top payload annotations children inductionHypothesis =>
      refine Or.inl ⟨(idsOfAll children).filter (· < bound), ?_, ?_⟩
      · clear payload annotations
        induction children with
        | nil =>
            rfl
        | cons entry rest others =>
            refine ⟨_, _, inductionHypothesis entry List.mem_cons_self,
              others fun entry member => inductionHypothesis entry (List.mem_cons_of_mem _ member),
              ?_⟩
            rw [idsOfAll, List.filter_append]
      · by_cases old : top < bound <;> simp [ids, old]

/-- Of new nodes nothing old remains. -/
theorem leavesAll_of_new
    {children : List (Role × Branch)} (new : ∀ id ∈ idsOfAll children, bound ≤ id)
    {kept : List NodeId} (leaves : LeavesAll bound children kept) :
    kept = [] := by
  rw [List.eq_nil_iff_forall_not_mem]
  intro id member
  obtain ⟨inside, old⟩ := mem_of_leavesAll (fun entry _ kept leaves => leaves.mem) leaves id member
  exact absurd old (Nat.not_lt_of_le (new id inside))

/-- The new nodes of a branch are all of kinds that the pass puts in. -/
inductive Admits (bound : Nat) : Branch → Prop
  | node {id : NodeId} {payload : Payload} {annotations : Annotations}
      {children : List (Role × Branch)} :
      id < bound ∨ payload.mayBeInserted = true →
      (∀ entry ∈ children, Admits bound entry.2) →
      Admits bound (.node id payload annotations children)

theorem Admits.of_mem_children
    {branch : Branch} (admits : branch.Admits bound) {entry : Role × Branch}
    (member : entry ∈ branch.children) :
    entry.2.Admits bound := by
  cases admits with
  | node _ children =>
      exact children entry member

/-- Where every node is old, there is nothing to admit. -/
theorem admits_of_old {branch : Branch} (old : ∀ id ∈ branch.ids, id < bound) :
    branch.Admits bound := by
  induction branch using Branch.induction with
  | node top payload annotations children inductionHypothesis =>
      refine .node (Or.inl (old top (id_mem_ids _))) fun entry member => ?_
      exact inductionHypothesis entry member fun id inside =>
        old id (mem_ids_of_mem_children member inside)

/-- The second branch holds what the first one may leave, and among its new nodes none that the
pass does not put in. -/
structure Revises (bound : Nat) (branch revised : Branch) : Prop where
  leaves : ∀ kept, revised.Leaves bound kept → branch.Leaves bound kept
  admits : branch.Admits bound → revised.Admits bound

namespace Revises

variable {branch middle revised : Branch} {frame : Frame}

theorem refl (branch : Branch) : Revises bound branch branch :=
  ⟨fun _ leaves => leaves, fun admits => admits⟩

theorem trans (first : Revises bound branch middle) (second : Revises bound middle revised) :
    Revises bound branch revised :=
  ⟨fun kept leaves => first.leaves kept (second.leaves kept leaves),
    fun admits => second.admits (first.admits admits)⟩

private theorem leavesAll
    {children others : List (Role × Branch)}
    (pairwise : List.Forall₂ (fun entry other => other.1 = entry.1 ∧
      Revises bound entry.2 other.2) children others)
    {kept : List NodeId} (leaves : LeavesAll bound others kept) :
    LeavesAll bound children kept := by
  induction pairwise generalizing kept with
  | nil =>
      exact leaves
  | cons first _ inductionHypothesis =>
      obtain ⟨top, below, inFirst, inRest, rfl⟩ := leaves
      exact ⟨top, below, first.2.leaves top inFirst, inductionHypothesis inRest, rfl⟩

private theorem leavesOperand
    {children others : List (Role × Branch)}
    (pairwise : List.Forall₂ (fun entry other => other.1 = entry.1 ∧
      Revises bound entry.2 other.2) children others)
    {kept : List NodeId} (leaves : LeavesOperand bound others kept) :
    LeavesOperand bound children kept := by
  induction pairwise with
  | nil =>
      exact leaves
  | @cons entry other _ _ first _ inductionHypothesis =>
      rw [LeavesOperand] at leaves ⊢
      rw [first.1] at leaves
      by_cases isOperand : entry.1 = .expression
      · rw [if_pos isOperand] at leaves ⊢
        exact first.2.leaves kept leaves
      · rw [if_neg isOperand] at leaves ⊢
        exact inductionHypothesis leaves

/-- Revising the children revises the branch. -/
theorem of_children
    {top : NodeId} {payload : Payload} {annotations : Annotations}
    {children others : List (Role × Branch)}
    (pairwise : List.Forall₂ (fun entry other => other.1 = entry.1 ∧
      Revises bound entry.2 other.2) children others) :
    Revises bound (.node top payload annotations children)
      (.node top payload annotations others) := by
  constructor
  · rintro kept (⟨below, all, rfl⟩ | ⟨isCast, operand⟩)
    · exact Or.inl ⟨below, leavesAll pairwise all, rfl⟩
    · exact Or.inr ⟨isCast, leavesOperand pairwise operand⟩
  · rintro ⟨top, admitted⟩
    refine .node top ?_
    induction pairwise with
    | nil =>
        exact admitted
    | @cons entry other rest others first _ inductionHypothesis =>
        intro found member
        rcases List.mem_cons.mp member with rfl | later
        · exact first.2.admits (admitted entry List.mem_cons_self)
        · exact inductionHypothesis
            (fun entry member => admitted entry (List.mem_cons_of_mem _ member)) found later

theorem fill (revises : Revises bound branch revised) (frame : Frame) :
    Revises bound (frame.fill branch) (frame.fill revised) := by
  have unchanged (siblings : List (Role × Branch)) :
      List.Forall₂ (fun entry other => other.1 = entry.1 ∧ Revises bound entry.2 other.2)
        siblings siblings :=
    List.forall₂_same.mpr fun entry _ => ⟨rfl, refl entry.2⟩
  exact of_children (List.rel_append (unchanged frame.before) (.cons ⟨rfl, revises⟩
    (unchanged frame.after)))

/-- A cast gives way to its operand. -/
theorem drop (isCast : frame.payload = .cast) (isFirst : frame.IsFirst .expression) :
    Revises bound (frame.fill branch) branch := by
  constructor
  · intro kept leaves
    refine Or.inr ⟨isCast, leavesOperand_iff.mpr ⟨(frame.role, branch), ?_, leaves⟩⟩
    have none : frame.before.find? (fun entry => entry.1 = .expression) = none := by
      rw [List.find?_eq_none]
      intro entry member
      simpa using isFirst.before entry member
    simp [List.find?_append, none, isFirst.role_eq]
  · intro admits
    exact admits.of_mem_children (frame.mem_children_fill branch)

/-- New nodes are put around a branch. -/
theorem surround
    (newTop : bound ≤ frame.parent) (inserted : frame.payload.mayBeInserted = true)
    (isFirst : frame.payload = .cast → frame.IsFirst .expression)
    (newBefore : ∀ id ∈ idsOfAll frame.before, bound ≤ id)
    (newAfter : ∀ id ∈ idsOfAll frame.after, bound ≤ id)
    (before : ∀ entry ∈ frame.before, entry.2.Admits bound)
    (after : ∀ entry ∈ frame.after, entry.2.Admits bound) :
    Revises bound branch (frame.fill branch) := by
  constructor
  · rintro kept (⟨below, all, rfl⟩ | ⟨isCast, operand⟩)
    · obtain ⟨left, _, inBefore, ⟨here, right, leaves, inAfter, rfl⟩, rfl⟩ := leavesAll_append.mp all
      rw [leavesAll_of_new newBefore inBefore, leavesAll_of_new newAfter inAfter,
        if_neg (Nat.not_lt_of_le newTop)]
      simpa using leaves
    · obtain ⟨entry, found, leaves⟩ := leavesOperand_iff.mp operand
      have first := child?_fill (isFirst isCast) branch
      rw [Branch.child?, Frame.fill, Branch.children, found, Option.map_some,
        Option.some.injEq] at first
      exact first ▸ leaves
  · intro admits
    refine .node (Or.inr inserted) fun entry member => ?_
    rcases List.mem_append.mp member with earlier | later
    · exact before entry earlier
    · rcases List.mem_cons.mp later with rfl | later
      · exact admits
      · exact after entry later

end Revises

end Branch

end TypedJava

import TypedJava.Proofs.TypeSyntax.Written

/-! # How many nodes a written type takes

Writing a type adds no more nodes than its syntax has. Since the branch of the syntax consists of
different new nodes, every new node is in the branch. -/

namespace TypedJava

namespace Tree

mutual

/-- The number of nodes of a tree. -/
def count : Tree → Nat
  | node _ _ slots => countInSlots slots + 1

def countInSlots : List (Slot Tree) → Nat
  | [] => 0
  | ⟨_, trees⟩ :: slots => countInAll trees + countInSlots slots

def countInAll : List Tree → Nat
  | [] => 0
  | tree :: trees => count tree + countInAll trees

end

/-- Array dimensions take one more node. -/
theorem count_finished
    (type : Ty) (rank : Nat) (payload : Payload) (slots : List (Slot Tree)) :
    (finished type rank payload slots).count =
      countInSlots slots + 1 + if rank = 0 then 0 else 1 := by
  rw [finished]
  split
  · rfl
  · simp only [count, countInSlots, countInAll, Nat.add_zero]

end Tree

namespace Edit

variable {α β : Type}

/-- Whether or not it succeeds, the edit adds no more nodes than so many. -/
def AddsAtMost (most : Nat) (edit : Edit α) : Prop :=
  edit.Follows fun before after => after.size ≤ before.size + most

namespace AddsAtMost

variable {edit : Edit α} {most : Nat}

theorem pure (value : α) : AddsAtMost most (Pure.pure value : Edit α) :=
  fun store => Nat.le_add_right store.size most

theorem ask (question : Store → α) : AddsAtMost most (Edit.ask question) :=
  fun store => Nat.le_add_right store.size most

theorem bind
    {next : α → Edit β} {further total : Nat} (first : edit.AddsAtMost most)
    (second : ∀ value, (next value).AddsAtMost further) (within : most + further ≤ total) :
    (edit >>= next).AddsAtMost total := by
  intro store
  have step := first store
  rw [run_bind]
  cases result : edit.run store with
  | mk outcome changed =>
      rw [result] at step
      cases outcome with
      | ok value =>
          have later := second value changed
          simp only at step later ⊢
          omega
      | error error =>
          simp only at step ⊢
          omega

/-- A second step that adds nothing. -/
theorem andThen
    {next : α → Edit β} (first : edit.AddsAtMost most)
    (second : ∀ value, (next value).AddsAtMost 0) :
    (edit >>= next).AddsAtMost most :=
  bind first second (Nat.le_refl most)

theorem mkNode (payload : Payload) : (Edit.mkNode payload).AddsAtMost 1 :=
  fun store => Nat.le_of_eq (Store.size_push store _)

theorem setType (node : NodeRef) (type : Ty) : (Edit.setType node type).AddsAtMost 0 := by
  cases node with
  | none =>
      exact pure ()
  | some id =>
      exact fun store => Nat.le_of_eq (Store.size_update store id _)

theorem attachAt (parent : NodeRef) (role : Role) (position : Nat) (child : NodeRef) :
    (Edit.attachAt parent role position child).AddsAtMost 0 := by
  intro store
  rw [run_attachAt]
  split <;> simp

theorem attachLast (parent : NodeRef) (role : Role) (child : NodeRef) :
    (Edit.attachLast parent role child).AddsAtMost 0 := by
  rw [Edit.attachLast]
  exact andThen (ask _) fun siblings => attachAt parent role siblings.length child

theorem attachEach (node : NodeId) (children : List (Role × NodeRef)) :
    (Edit.attachEach node children).AddsAtMost 0 := by
  induction children with
  | nil =>
      exact pure ()
  | cons entry rest inductionHypothesis =>
      rw [Edit.attachEach]
      exact andThen (attachLast _ _ _) fun _ => inductionHypothesis

theorem mkNodeWith (payload : Payload) (children : List (Role × NodeRef)) :
    (Edit.mkNodeWith payload children).AddsAtMost 1 := by
  rw [Edit.mkNodeWith_eq]
  exact andThen (mkNode payload) fun node =>
    andThen (attachEach node children) fun _ => pure node

theorem mkNamedType (name : String) (arguments : List NodeRef) :
    (Edit.mkNamedType name arguments).AddsAtMost 1 := by
  rw [Edit.mkNamedType]
  refine andThen (mkNode _) fun node => ?_
  rw [attachAll_eq]
  exact andThen (attachEach node _) fun _ => pure node

theorem finishType (type : Ty) (rank : Nat) (node : NodeId) :
    (Edit.finishType type rank node).AddsAtMost (if rank = 0 then 0 else 1) := by
  rw [Edit.finishType]
  refine bind (setType _ type) (fun _ => ?_) (Nat.le_of_eq (Nat.zero_add _))
  split
  · exact pure node
  · exact andThen (mkNodeWith _ _) fun composed =>
      andThen (setType _ _) fun _ => pure composed

/-- A new node that is annotated and put under array dimensions. -/
theorem finished
    {mk : Edit NodeId} (adds : mk.AddsAtMost 1) (type : Ty) (rank : Nat) :
    (mk >>= Edit.finishType type rank).AddsAtMost (1 + if rank = 0 then 0 else 1) :=
  bind adds (finishType type rank) (Nat.le_refl _)

mutual

/-- Writing a type adds no more nodes than its syntax has. -/
theorem mkTypeWithin (catalog : Catalog) :
    (type : Ty) → (rank : Nat) →
      (Edit.mkTypeWithin catalog type rank).AddsAtMost (type.spelledWithin catalog rank).count
  | .array element, rank => by
      rw [Edit.mkTypeWithin, Ty.spelledWithin]
      exact mkTypeWithin catalog element (rank + 1)
  | .primitive kind, rank => by
      rw [Edit.mkTypeWithin, Ty.spelledWithin, Tree.count_finished]
      exact finished (mkNamedType _ _) _ rank
  | .typeVariable id bound, rank => by
      rw [Edit.mkTypeWithin, Ty.spelledWithin, Tree.count_finished]
      exact finished (mkNamedType _ _) _ rank
  | .null, rank => by
      rw [Edit.mkTypeWithin, Ty.spelledWithin, Tree.count_finished]
      exact finished (mkNamedType _ _) _ rank
  | .unboundedWildcard, rank => by
      rw [Edit.mkTypeWithin, Ty.spelledWithin, Tree.count_finished]
      exact finished (mkNodeWith _ _) _ rank
  | .classType definition arguments, rank => by
      rw [Edit.mkTypeWithin, Ty.spelledWithin, Tree.count_finished]
      refine bind (mkTypes catalog arguments) (fun written => finished (mkNamedType _ _) _ rank) ?_
      simp only [Tree.countInSlots]
      omega
  | .upperWildcard upper, rank => by
      rw [Edit.mkTypeWithin, Ty.spelledWithin, Tree.count_finished]
      refine bind (mkTypeWithin catalog upper 0)
        (fun written => finished (mkNodeWith _ _) _ rank) ?_
      simp only [Tree.countInSlots, Tree.countInAll]
      omega
  | .lowerWildcard lower, rank => by
      rw [Edit.mkTypeWithin, Ty.spelledWithin, Tree.count_finished]
      refine bind (mkTypeWithin catalog lower 0)
        (fun written => finished (mkNodeWith _ _) _ rank) ?_
      simp only [Tree.countInSlots, Tree.countInAll]
      omega

theorem mkTypes (catalog : Catalog) :
    (types : List Ty) →
      (Edit.mkTypes catalog types).AddsAtMost (Tree.countInAll (Ty.spelledAll catalog types))
  | [] => by
      rw [Edit.mkTypes]
      exact pure []
  | type :: types => by
      rw [Edit.mkTypes, Ty.spelledAll, Tree.countInAll]
      refine bind (mkTypeWithin catalog type 0) (fun first => ?_) (Nat.le_refl _)
      exact andThen (mkTypes catalog types) fun rest => pure _

end

end AddsAtMost

end Edit

namespace Branch

/-- A further child adds its nodes to the slot of its role and to no other. -/
private theorem countInSlots_cons_le
    {roles : List Role} (nodup : roles.Nodup) (entry : Role × Branch)
    (rest : List (Role × Branch)) :
    Tree.countInSlots (roles.map fun role => ⟨role, treesIn role (entry :: rest)⟩) ≤
      entry.2.toTree.count +
        Tree.countInSlots (roles.map fun role => ⟨role, treesIn role rest⟩) := by
  induction roles with
  | nil =>
      exact Nat.zero_le _
  | cons role roles inductionHypothesis =>
      have later := inductionHypothesis nodup.of_cons
      rw [List.map_cons, List.map_cons, Tree.countInSlots, Tree.countInSlots, treesIn]
      split
      · rename_i same
        have elsewhere : ∀ other ∈ roles, treesIn other (entry :: rest) = treesIn other rest := by
          intro other member
          rw [treesIn, if_neg]
          intro sameOther
          exact (List.nodup_cons.mp nodup).1 (same.symm.trans sameOther ▸ member)
        rw [List.map_congr_left fun other member => by rw [elsewhere other member],
          Tree.countInAll]
        omega
      · omega

/-- The children of a node stand below it once each, whatever their roles. -/
private theorem countInSlots_le
    {children : List (Role × Branch)} {roles : List Role} (nodup : roles.Nodup)
    (each : ∀ entry ∈ children, entry.2.toTree.count ≤ entry.2.ids.length) :
    Tree.countInSlots (roles.map fun role => ⟨role, treesIn role children⟩) ≤
      (idsOfAll children).length := by
  induction children with
  | nil =>
      refine Nat.le_of_eq ?_
      induction roles with
      | nil => rfl
      | cons role roles inductionHypothesis =>
          simp only [List.map_cons, treesIn, Tree.countInSlots, Tree.countInAll, Nat.zero_add]
          exact inductionHypothesis nodup.of_cons
  | cons entry rest inductionHypothesis =>
      have later := inductionHypothesis fun other member =>
        each other (List.mem_cons_of_mem _ member)
      have first := each entry List.mem_cons_self
      have more := countInSlots_cons_le nodup entry rest
      rw [idsOfAll, List.length_append]
      omega

theorem count_toTree_le (branch : Branch) : branch.toTree.count ≤ branch.ids.length := by
  induction branch using Branch.induction with
  | node id payload annotations children inductionHypothesis =>
      have below := countInSlots_le payload.kind.roles_nodup inductionHypothesis
      rw [toTree, Tree.count, ids, List.length_cons]
      exact Nat.succ_le_succ below

variable {store changed : Store} {branch : Branch}

/-- A branch with as many nodes as were added has all of them. -/
theorem Becomes.mem_ids_of_new
    (becomes : Becomes store [] [] branch changed)
    (few : changed.size ≤ store.size + branch.toTree.count) {id : NodeId}
    (new : store.size ≤ id) (bound : id < changed.size) :
    id ∈ branch.ids := by
  have mem_range {other : NodeId} :
      other ∈ List.range' store.size (changed.size - store.size) ↔
        store.size ≤ other ∧ other < changed.size := by
    rw [List.mem_range'_1, Nat.add_sub_cancel' becomes.keeps.size_le]
  have inRange : branch.ids ⊆ List.range' store.size (changed.size - store.size) :=
    fun other member => mem_range.mpr
      ⟨(becomes.fresh other member).resolve_left List.not_mem_nil,
        becomes.hosted.held.lt_size member⟩
  have enough : (List.range' store.size (changed.size - store.size)).length ≤
      branch.ids.length := by
    have counted := count_toTree_le branch
    rw [List.length_range']
    omega
  have nodup := becomes.hosted.held.ids_nodup becomes.wellFormed
  have all := (List.subperm_of_subset nodup inRange).perm_of_length_le enough
  exact all.mem_iff.mpr (mem_range.mpr ⟨new, bound⟩)

end Branch

end TypedJava

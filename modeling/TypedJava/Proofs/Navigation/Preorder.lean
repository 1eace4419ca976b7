import TypedJava.Proofs.Branch.Visit
import TypedJava.Proofs.Edit.Structural
import TypedJava.Proofs.Navigation.Siblings

/-! # The list of a subtree

The list of a node and everything below it is the list of its branch: every node below is there
once, before all that is below it, and the lists of the children follow each other in the order of
the children. Working off a stack of nodes gives the same list. -/

namespace TypedJava

namespace Store

/-- Works off a stack: the node on top is listed, and its children take its place, the first of
them on top. -/
inductive WorksOff (store : Store) : (stack listed : List NodeId) → Prop
  | empty : WorksOff store [] []
  | pop {id : NodeId} {stack listed : List NodeId} :
      id < store.size → WorksOff store (store.children (some id) ++ stack) listed →
      WorksOff store (id :: stack) (id :: listed)

end Store

namespace Branch

namespace HeldIn

variable {store : Store} {branch : Branch}

/-- No node of a branch comes after a node that it is above. -/
theorem pairwise_ids
    (held : branch.HeldIn store) (wellFormed : store.WellFormed) :
    branch.ids.Pairwise fun earlier later => ¬ store.Above later earlier := by
  induction branch using Branch.induction with
  | node top payload annotations children inductionHypothesis =>
      have nodup := held.ids_nodup wellFormed
      rw [ids_eq_cons, List.nodup_cons] at nodup
      obtain ⟨notBelow, nodupBelow⟩ := nodup
      rw [ids_eq_cons, List.pairwise_cons]
      constructor
      · intro later member above
        have below := (held.mem_ids_iff wellFormed).mp
          (by rw [ids_eq_cons]; exact List.mem_cons_of_mem _ member)
        exact notBelow (wellFormed.above_antisymm below above ▸ member)
      · rw [idsOfAll_eq_flatMap] at nodupBelow ⊢
        rw [List.pairwise_flatMap]
        refine ⟨fun entry isChild =>
          inductionHypothesis entry isChild (held.of_mem_children isChild), ?_⟩
        refine (List.nodup_flatMap.mp nodupBelow).2.imp_of_mem ?_
        intro first second _ isSecond disjoint earlier inFirst later inSecond above
        -- what is below a node of the second child is in the second child as well
        have secondHeld := held.of_mem_children isSecond
        have inBoth : earlier ∈ second.2.ids :=
          (secondHeld.mem_ids_iff wellFormed).mpr
            (((secondHeld.mem_ids_iff wellFormed).mp inSecond).trans above)
        exact disjoint inFirst inBoth

/-- A stack with the top of a branch on it is worked off branch first. -/
theorem worksOff
    (held : branch.HeldIn store) {stack listed : List NodeId}
    (rest : store.WorksOff stack listed) :
    store.WorksOff (branch.id :: stack) (branch.ids ++ listed) := by
  induction branch using Branch.induction generalizing stack listed with
  | node top payload annotations children inductionHypothesis =>
      have all : ∀ waiting, (∀ entry ∈ waiting, entry ∈ children) →
          store.WorksOff ((waiting.map fun entry => entry.2.id) ++ stack)
            (idsOfAll waiting ++ listed) := by
        intro waiting areChildren
        induction waiting with
        | nil =>
            exact rest
        | cons entry waiting inner =>
            have isChild := areChildren entry List.mem_cons_self
            rw [List.map_cons, List.cons_append, idsOfAll, List.append_assoc]
            apply inductionHypothesis entry isChild (held.of_mem_children isChild)
            exact inner fun other member => areChildren other (List.mem_cons_of_mem _ member)
      rw [ids_eq_cons, List.cons_append]
      apply Store.WorksOff.pop held.id_lt_size
      rw [held.store_children_eq]
      exact all children fun _ member => member

end HeldIn

end Branch

namespace Store

variable {store : Store}

/-- The list of a node: the node, then the lists of its children, in their order. -/
theorem WellFormed.subtree_eq_cons
    (wellFormed : store.WellFormed) {id : NodeId} (valid : id < store.size) :
    store.subtree (some id) =
      id :: (store.children (some id)).flatMap fun child => store.subtree (some child) := by
  obtain ⟨branch, held, rfl⟩ := Branch.exists_branch wellFormed valid
  rw [held.subtree_eq wellFormed, Branch.ids_eq_cons, Branch.idsOfAll_eq_flatMap,
    held.store_children_eq, List.flatMap_map]
  congr 1
  apply List.flatMap_congr
  intro entry isChild
  exact ((held.of_mem_children isChild).subtree_eq wellFormed).symm

/-- Navigation agrees with the tree. The links between siblings lead along all children and back,
also over empty roles. The list of a subtree has every node below once, before all that is below
it, and the lists of the children in their order. -/
theorem WellFormed.navigation_follows_tree
    (wellFormed : store.WellFormed) {id : NodeId} (valid : id < store.size) :
    (Follows store.nextSibling (store.firstChild (some id)) (store.children (some id)) ∧
      Follows store.previousSibling (store.lastChild (some id))
        (store.children (some id)).reverse) ∧
    (∀ first second, store.nextSibling (some first) = some second ↔
      store.previousSibling (some second) = some first) ∧
    (∀ lower, lower ∈ store.subtree (some id) ↔
      lower < store.size ∧ store.isAtOrAbove (some id) (some lower) = true) ∧
    (store.subtree (some id)).Nodup ∧
    ((store.subtree (some id)).Pairwise fun earlier later =>
      store.isAtOrAbove (some later) (some earlier) = false) ∧
    store.subtree (some id) =
      id :: (store.children (some id)).flatMap (fun child => store.subtree (some child)) ∧
    store.WorksOff [id] (store.subtree (some id)) := by
  have links := wellFormed.linksChildren (some id)
  obtain ⟨branch, held, sameTop⟩ := Branch.exists_branch wellFormed valid
  have listed : store.subtree (some id) = branch.ids := by
    rw [← sameTop, held.subtree_eq wellFormed]
  refine ⟨⟨links.follows_nextSibling, links.follows_previousSibling⟩,
    fun first second => wellFormed.nextSibling_eq_some_iff, fun lower => ?_, ?_, ?_,
    wellFormed.subtree_eq_cons valid, ?_⟩
  · have isAbove : store.isAtOrAbove (some id) (some lower) = true ↔ store.Above id lower := by
      simp [wellFormed.isAtOrAbove_iff]
    rw [listed, isAbove, ← sameTop, held.mem_ids_iff wellFormed]
    constructor
    · intro above
      exact ⟨held.lt_size ((held.mem_ids_iff wellFormed).mpr above), above⟩
    · exact fun both => both.2
  · rw [listed]
    exact held.ids_nodup wellFormed
  · rw [listed]
    refine (held.pairwise_ids wellFormed).imp ?_
    intro earlier later notAbove
    rw [Bool.eq_false_iff]
    intro isAbove
    obtain ⟨_, same, above⟩ := wellFormed.isAtOrAbove_iff.mp isAbove
    cases same
    exact notAbove above
  · have worked := held.worksOff WorksOff.empty
    rwa [List.append_nil, sameTop, ← listed] at worked

/-! ### A conditional without a first arm -/

/-- The program that builds a conditional, which is node 5, with the call `f()`, which is node 1, for
a condition, no first arm, and the name `x`, which is node 4, for a second arm. -/
def buildArmless : Edit NodeId := do
  let called ← Edit.mkNode (.identifier "f")
  let condition ← Edit.mkInvocation (some called) []
  let arm ← Edit.mkNode (.identifier "x")
  Edit.mkConditional (some condition) none (some arm)

/-- The conditional `f() ? : x`. -/
def armless : Store :=
  (buildArmless.run .empty).2

theorem wellFormed_armless : armless.WellFormed := by
  refine Edit.Structural.keepsWellFormed ?_ _ wellFormed_empty
  exact .bind (.mkNode _) fun _ => .bind (.mkInvocation _ _) fun _ => .bind (.mkNode _) fun _ =>
    .mkConditional _ _ _

/-- The links pass over the role of the missing arm, and the condition with its tokens comes before
the second arm. -/
theorem navigation_follows_tree_of_armless :
    armless.WellFormed ∧ 5 < armless.size ∧
      Follows armless.nextSibling (some 1) [1, 4] ∧
      Follows armless.previousSibling (some 4) [4, 1] ∧
      (∀ lower, lower ∈ [5, 1, 0, 2, 3, 4] ↔
        lower < armless.size ∧ armless.isAtOrAbove (some 5) (some lower) = true) ∧
      armless.WorksOff [5] [5, 1, 0, 2, 3, 4] := by
  have valid : 5 < armless.size := by decide +kernel
  have first : armless.firstChild (some 5) = some 1 := by decide +kernel
  have last : armless.lastChild (some 5) = some 4 := by decide +kernel
  have children : armless.children (some 5) = [1, 4] := by decide +kernel
  have subtree : armless.subtree (some 5) = [5, 1, 0, 2, 3, 4] := by decide +kernel
  obtain ⟨⟨forward, backward⟩, _, below, _, _, _, worked⟩ :=
    wellFormed_armless.navigation_follows_tree valid
  rw [first, children] at forward
  rw [last, children] at backward
  rw [subtree] at below worked
  exact ⟨wellFormed_armless, valid, forward, backward, below, worked⟩

end Store

end TypedJava

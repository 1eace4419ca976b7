import TypedJava.Proofs.Branch.InStore
import TypedJava.Proofs.Store.Attach

/-! # Nodes without their types

The trees, the branches and the stores that are left when nodes lose the types that they are
annotated with. -/

namespace TypedJava

/-- The annotations without the type. -/
def Annotations.bare (annotations : Annotations) : Annotations :=
  { annotations with type := none }

namespace Tree

mutual

/-- The tree without the types of its nodes. -/
def bare : Tree → Tree
  | node payload annotations slots => node payload annotations.bare (bareSlots slots)

def bareSlots : List (Slot Tree) → List (Slot Tree)
  | [] => []
  | ⟨role, children⟩ :: slots => ⟨role, bareAll children⟩ :: bareSlots slots

def bareAll : List Tree → List Tree
  | [] => []
  | tree :: trees => bare tree :: bareAll trees

end

theorem bareSlots_map (roles : List Role) (children : Role → List Tree) :
    bareSlots (roles.map fun role => ⟨role, children role⟩) =
      roles.map fun role => ⟨role, bareAll (children role)⟩ := by
  induction roles with
  | nil =>
      rfl
  | cons role roles inductionHypothesis =>
      rw [List.map_cons, bareSlots, inductionHypothesis, List.map_cons]

end Tree

namespace Branch

mutual

/-- The branch without the types of its nodes. -/
def bare : Branch → Branch
  | node id payload annotations children => node id payload annotations.bare (bareAll children)

def bareAll : List (Role × Branch) → List (Role × Branch)
  | [] => []
  | (role, branch) :: rest => (role, bare branch) :: bareAll rest

end

@[simp]
theorem id_bare (branch : Branch) : branch.bare.id = branch.id := by
  cases branch
  rfl

theorem bareAll_eq_map (children : List (Role × Branch)) :
    bareAll children = children.map fun entry => (entry.1, entry.2.bare) := by
  induction children with
  | nil =>
      rfl
  | cons entry rest inductionHypothesis =>
      rw [bareAll, inductionHypothesis, List.map_cons]

theorem entries_bareAll (children : List (Role × Branch)) :
    entries (bareAll children) = entries children := by
  simp [entries, bareAll_eq_map, Function.comp_def]

mutual

theorem toTree_bare : (branch : Branch) → branch.bare.toTree = branch.toTree.bare
  | node id payload annotations children => by
      rw [bare, toTree, toTree, Tree.bare, Tree.bareSlots_map]
      simp only [treesIn_bareAll children]

theorem treesIn_bareAll :
    (children : List (Role × Branch)) → (role : Role) →
      treesIn role (bareAll children) = Tree.bareAll (treesIn role children)
  | [], role => rfl
  | (found, branch) :: rest, role => by
      rw [bareAll, treesIn, treesIn, treesIn_bareAll rest role, toTree_bare branch]
      split <;> rfl

end

end Branch

namespace Store

/-- The store in which the nodes from an identifier on lose their types. -/
def forgetTypes (store : Store) (first : NodeId) : Store :=
  ⟨store.nodes.mapIdx fun id node =>
    if first ≤ id then { node with annotations := node.annotations.bare } else node⟩

variable {store : Store} {first : NodeId}

theorem node?_forgetTypes (id : NodeId) :
    (store.forgetTypes first).node? (some id) = (store.node? (some id)).map fun node =>
      if first ≤ id then { node with annotations := node.annotations.bare } else node := by
  simp [forgetTypes, node?]

theorem content?_forgetTypes {id : NodeId} (new : first ≤ id) :
    (store.forgetTypes first).content? id = (store.content? id).map fun content =>
      (content.1, content.2.1.bare, content.2.2) := by
  cases found : store.node? (some id) <;>
    simp [content?, node?_forgetTypes, found, new, Node.listing]

/-- Types are of no matter for how nodes hang together. -/
theorem WellFormed.forgetTypes (wellFormed : store.WellFormed) (first : NodeId) :
    (store.forgetTypes first).WellFormed := by
  apply wellFormed.of_same_links
  · intro id node found
    rw [node?_forgetTypes, Option.map_eq_some_iff] at found
    obtain ⟨original, before, rfl⟩ := found
    have slots := wellFormed.slots_match id original before
    split <;> exact slots
  · intro id
    rw [place?, place?, node?_forgetTypes]
    cases store.node? (some id) with
    | none =>
        rfl
    | some node =>
        rw [Option.map_some, Option.bind_some]
        split <;> rfl
  · intro id role
    rw [childrenIn, childrenIn, node?_forgetTypes]
    cases store.node? (some id) with
    | none =>
        rfl
    | some node =>
        by_cases new : first ≤ id <;> simp [new, Node.childrenIn]

end Store

/-- A branch of nodes that lose their types is there without them. -/
theorem Branch.HeldIn.bare
    {store : Store} {first : NodeId} {branch : Branch} (held : branch.HeldIn store)
    (new : ∀ id ∈ branch.ids, first ≤ id) :
    branch.bare.HeldIn (store.forgetTypes first) := by
  induction branch using Branch.induction with
  | node id payload annotations children inductionHypothesis =>
      rw [Branch.bare]
      have content : store.content? id = some (payload, annotations, entries children) :=
        held.content
      refine .node ?_ ?_
      · rw [Store.content?_forgetTypes (new id List.mem_cons_self), content, entries_bareAll]
        rfl
      · intro entry member
        rw [bareAll_eq_map] at member
        obtain ⟨original, isChild, rfl⟩ := List.mem_map.mp member
        apply inductionHypothesis original isChild (held.of_mem_children isChild)
        exact fun id inside => new id (mem_ids_of_mem_children isChild inside)

end TypedJava

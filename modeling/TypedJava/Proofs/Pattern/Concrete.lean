import TypedJava.Proofs.Pattern.Failure
import TypedJava.Proofs.Tree.Same

/-! # Patterns without placeholders

A pattern without placeholders has nothing to capture and no run to shorten. The search for its
children then never goes back, and it matches exactly the trees that are equal to it. -/

namespace TypedJava

namespace Store

/-- Are a tree of one store and a tree of another one equal, annotations apart? What is absent equals
what is absent. -/
def sameTreesIn (first : Store) (left : NodeRef) (second : Store) (right : NodeRef) : Bool :=
  match first.tree? left, second.tree? right with
  | none, none => true
  | some left, some right => left.same right
  | _, _ => false

end Store

variable {patterns store : Store}

/-! ## Tests that only answer -/

/-- The test passes for the nodes whose tree equals the given one, and leaves the captures alone. -/
def NodeTest.Compares (store : Store) (test : NodeTest) (tree : Tree) : Prop :=
  ∀ target captures, test target captures = ((store.tree? target).any tree.same, captures)

namespace Tree

theorem test_of_concrete
    {payload : Payload} (concrete : payload.kind ≠ .patternPlaceholder) (annotations : Annotations)
    (slots : List (Slot Tree)) :
    Tree.test store (.node payload annotations slots) =
      NodeTest.ofNode store payload (Tree.testSlots store slots) := by
  cases payload with
  | placeholder number pattern =>
      exact absurd rfl concrete
  | _ =>
      rfl

theorem item_of_concrete
    {payload : Payload} (concrete : payload.kind ≠ .patternPlaceholder) (annotations : Annotations)
    (slots : List (Slot Tree)) :
    Tree.item store (.node payload annotations slots) =
      .single (Tree.test store (.node payload annotations slots)) := by
  cases payload with
  | placeholder number pattern =>
      exact absurd rfl concrete
  | _ =>
      rfl

/-- A search whose items each compare a node with a tree compares the children one by one. It stops
at the first difference and never tries anything else. -/
theorem search_items
    {trees targetTrees : List Tree} {targets : List NodeRef} {steps : Nat}
    (items : ∀ tree ∈ trees, Tree.item store tree = .single (Tree.test store tree))
    (compares : ∀ tree ∈ trees, NodeTest.Compares store (Tree.test store tree) tree)
    (present : targetTrees.map some = targets.map store.tree?) (enough : trees.length ≤ steps)
    (captures : Captures) :
    (sameChildren trees targetTrees = true ∧
        SearchItem.search (Tree.items store trees) targets steps captures = .found captures) ∨
      (sameChildren trees targetTrees = false ∧
        ∃ stepsLeft, SearchItem.search (Tree.items store trees) targets steps captures =
          .failed stepsLeft captures) := by
  induction trees generalizing targetTrees targets steps with
  | nil =>
      cases targets with
      | nil =>
          rw [List.map_nil, List.map_eq_nil_iff] at present
          subst present
          exact Or.inl ⟨rfl, rfl⟩
      | cons target targets =>
          cases targetTrees with
          | nil =>
              cases present
          | cons targetTree targetTrees =>
              exact Or.inr ⟨rfl, steps, rfl⟩
  | cons tree trees inductionHypothesis =>
      obtain ⟨steps, rfl⟩ := Nat.exists_eq_succ_of_ne_zero (Nat.ne_zero_of_lt enough)
      have compared := compares tree List.mem_cons_self
      rw [Tree.items, items tree List.mem_cons_self, SearchItem.search, compared]
      cases targets with
      | nil =>
          rw [List.map_nil, List.map_eq_nil_iff] at present
          subst present
          exact Or.inr ⟨rfl, steps, rfl⟩
      | cons target targets =>
          cases targetTrees with
          | nil =>
              cases present
          | cons targetTree targetTrees =>
              rw [List.map_cons, List.map_cons, List.cons_eq_cons] at present
              obtain ⟨found, presentLater⟩ := present
              rw [List.headD_cons, ← found, Option.any_some, sameChildren]
              cases tree.same targetTree with
              | false =>
                  exact Or.inr ⟨rfl, steps, rfl⟩
              | true =>
                  exact inductionHypothesis
                    (fun other member => items other (List.mem_cons_of_mem _ member))
                    (fun other member => compares other (List.mem_cons_of_mem _ member))
                    presentLater (Nat.le_of_succ_le_succ enough)

theorem matchAll_items
    {trees targetTrees : List Tree} {targets : List NodeRef}
    (items : ∀ tree ∈ trees, Tree.item store tree = .single (Tree.test store tree))
    (compares : ∀ tree ∈ trees, NodeTest.Compares store (Tree.test store tree) tree)
    (present : targetTrees.map some = targets.map store.tree?)
    (few : trees.length ≤ SearchItem.stepLimit) (captures : Captures) :
    SearchItem.matchAll (Tree.items store trees) targets captures =
      (sameChildren trees targetTrees, captures) := by
  rw [SearchItem.matchAll]
  rcases search_items items compares present few captures with
    ⟨same, outcome⟩ | ⟨different, stepsLeft, outcome⟩
  · rw [outcome, same]
  · rw [outcome, different]

/-- Over the same roles, slots match if the children in each role do. -/
theorem testSlots_map
    (roles : List Role) (trees targetTrees : Role → List Tree) (targets : Role → List NodeId)
    (captures : Captures)
    (each : ∀ role ∈ roles,
      SearchItem.matchAll (Tree.items store (trees role)) ((targets role).map some) captures =
        (sameChildren (trees role) (targetTrees role), captures)) :
    Tree.testSlots store (roles.map fun role => ⟨role, trees role⟩)
        (roles.map fun role => ⟨role, targets role⟩) captures =
      (roles.all fun role => sameChildren (trees role) (targetTrees role), captures) := by
  induction roles with
  | nil =>
      rfl
  | cons role roles inductionHypothesis =>
      rw [List.map_cons, List.map_cons, Tree.testSlots, each role List.mem_cons_self, List.all_cons]
      cases sameChildren (trees role) (targetTrees role) with
      | false =>
          rfl
      | true =>
          exact inductionHypothesis fun other member => each other (List.mem_cons_of_mem _ member)

end Tree

/-! ## Matching is comparing -/

namespace Branch

/-- A tree whose payload does not agree with the target's is not equal to it. -/
theorem same_toTree_of_disagrees
    {first second : Branch} (disagrees : first.payload.agrees second.payload = false) :
    first.toTree.same second.toTree = false := by
  cases first
  cases second
  simp only [payload] at disagrees
  rw [toTree, toTree, Tree.same, disagrees, Bool.false_and]

theorem item_toTree
    {branch : Branch} (concrete : branch.payload.kind ≠ .patternPlaceholder) :
    Tree.item store branch.toTree = .single (Tree.test store branch.toTree) := by
  cases branch
  exact Tree.item_of_concrete concrete _ _

theorem test_toTree
    {branch : Branch} (concrete : branch.payload.kind ≠ .patternPlaceholder) :
    Tree.test store branch.toTree =
      NodeTest.ofNode store branch.payload (Tree.testSlots store
        (branch.payload.kind.roles.map fun role => ⟨role, treesIn role branch.children⟩)) := by
  cases branch
  exact Tree.test_of_concrete concrete _ _

theorem HeldIn.top_concrete
    {branch : Branch} (held : branch.HeldIn patterns)
    (concrete : ∀ id ∈ branch.ids, patterns.kind (some id) ≠ .patternPlaceholder) :
    branch.payload.kind ≠ .patternPlaceholder :=
  held.kind_eq ▸ concrete branch.id (id_mem_ids branch)

/-- A branch without placeholders, with few enough children in each role, is compared with the
target. -/
theorem HeldIn.compares_toTree
    {branch : Branch} (held : branch.HeldIn patterns) (patternsWellFormed : patterns.WellFormed)
    (wellFormed : store.WellFormed)
    (concrete : ∀ id ∈ branch.ids, patterns.kind (some id) ≠ .patternPlaceholder)
    (few : ∀ id ∈ branch.ids, ∀ role,
      (patterns.childrenIn (some id) role).length ≤ SearchItem.stepLimit) :
    NodeTest.Compares store (Tree.test store branch.toTree) branch.toTree := by
  induction branch using Branch.induction with
  | node top payload annotations children inductionHypothesis =>
      intro target captures
      rw [test_toTree (held.top_concrete concrete), NodeTest.ofNode]
      cases found : store.node? target with
      | none =>
          rw [Store.tree?_eq_none found]
          rfl
      | some node =>
          obtain ⟨id, rfl⟩ := Store.exists_id_of_node? found
          obtain ⟨other, otherHeld, rfl⟩ := exists_branch wellFormed (Store.lt_size_of_node? found)
          have samePayload := (otherHeld.of_node? found).1
          rw [otherHeld.tree?_eq wellFormed, Option.any_some]
          simp only [samePayload]
          cases agrees : (Branch.node top payload annotations children).payload.agrees
              other.payload with
          | false =>
              rw [same_toTree_of_disagrees agrees]
              rfl
          | true =>
              have sameKind := Payload.kind_eq_of_agrees agrees
              rw [same_toTree sameKind, agrees, Bool.true_and, if_pos rfl,
                wellFormed.slots_eq_map found, Node.kind, samePayload, ← sameKind]
              apply Tree.testSlots_map
              intro role _
              have fewChildren := few top (id_mem_ids _) role
              have listed := held.childrenIn_eq patternsWellFormed role
              rw [id] at listed
              rw [listed, List.length_map] at fewChildren
              have isChild : ∀ tree ∈ treesIn role children, ∃ entry ∈ children,
                  entry.2.toTree = tree := by
                intro tree member
                rw [treesIn_eq_filter] at member
                obtain ⟨entry, isListed, same⟩ := List.mem_map.mp member
                exact ⟨entry, (List.mem_filter.mp isListed).1, same⟩
              apply Tree.matchAll_items
              · intro tree member
                obtain ⟨entry, isChild, rfl⟩ := isChild tree member
                exact item_toTree ((held.of_mem_children isChild).top_concrete fun id isBelow =>
                  concrete id (mem_ids_of_mem_children isChild isBelow))
              · intro tree member
                obtain ⟨entry, isChild, rfl⟩ := isChild tree member
                exact inductionHypothesis entry isChild (held.of_mem_children isChild)
                  (fun id isBelow => concrete id (mem_ids_of_mem_children isChild isBelow))
                  (fun id isBelow => few id (mem_ids_of_mem_children isChild isBelow))
              · rw [otherHeld.map_some_treesIn wellFormed, List.map_map]
                rfl
              · rw [treesIn_eq_filter, List.length_map]
                exact fewChildren

end Branch

/-- On a pattern without placeholders, none of whose roles holds more children than a search has
steps, matching a node and comparing the two trees give the same answer, and the captures stay as
they are. -/
theorem Store.WellFormed.matchTree_of_concrete
    (patternsWellFormed : patterns.WellFormed) (wellFormed : store.WellFormed)
    (root target : NodeRef) (valid : ∀ id, target = some id → id < store.size)
    (concrete : ∀ id ∈ patterns.subtree root, patterns.kind (some id) ≠ .patternPlaceholder)
    (few : ∀ id ∈ patterns.subtree root, ∀ role,
      (patterns.childrenIn (some id) role).length ≤ SearchItem.stepLimit)
    (captures : Captures) :
    store.matchTree (patterns.tree? root) target captures =
      (patterns.sameTreesIn root store target, captures) := by
  cases found : patterns.node? root with
  | none =>
      rw [matchTree, sameTreesIn, tree?_eq_none found, Pattern.test]
      cases target with
      | none =>
          rfl
      | some id =>
          obtain ⟨branch, held, rfl⟩ := Branch.exists_branch wellFormed (valid id rfl)
          rw [held.tree?_eq wellFormed]
          rfl
  | some node =>
      obtain ⟨id, rfl⟩ := exists_id_of_node? found
      obtain ⟨branch, held, rfl⟩ :=
        Branch.exists_branch patternsWellFormed (lt_size_of_node? found)
      rw [held.subtree_eq patternsWellFormed] at concrete few
      have compared := held.compares_toTree patternsWellFormed wellFormed concrete few
      rw [matchTree, sameTreesIn, held.tree?_eq patternsWellFormed, Pattern.test, compared]
      cases store.tree? target with
      | none =>
          rfl
      | some tree =>
          rfl

/-- Builds the pattern of `a` and `b` joined by some operator. -/
def buildJoined : Edit NodeId := do
  let left ← Edit.mkNode (.identifier "a")
  let right ← Edit.mkNode (.identifier "b")
  Edit.mkBinary .any (some left) (some right)

/-- The pattern of `a` and `b` joined by some operator. -/
def joinedNames : Store :=
  (buildJoined.run .empty).2

theorem wellFormed_joinedNames : joinedNames.WellFormed := by
  refine Edit.Structural.keepsWellFormed ?_ _ Store.wellFormed_empty
  exact .bind (.mkNode _) fun _ => .bind (.mkNode _) fun _ => .mkBinary _ _ _

/-- The pattern with some operator matches the sum and equals it, whatever was captured before. -/
theorem matchTree_of_concrete_of_joinedNames :
    joinedNames.WellFormed ∧ sumOfNames.WellFormed ∧ 2 < sumOfNames.size ∧
      (∀ id ∈ joinedNames.subtree (some 2), joinedNames.kind (some id) ≠ .patternPlaceholder) ∧
      joinedNames.sameTreesIn (some 2) sumOfNames (some 2) = true ∧
      ∀ captures, sumOfNames.matchTree (joinedNames.tree? (some 2)) (some 2) captures =
        (true, captures) := by
  have valid : 2 < sumOfNames.size := by decide +kernel
  have concrete : ∀ id ∈ joinedNames.subtree (some 2),
      joinedNames.kind (some id) ≠ .patternPlaceholder := by decide +kernel
  have same : joinedNames.sameTreesIn (some 2) sumOfNames (some 2) = true := by decide +kernel
  have small : joinedNames.size ≤ SearchItem.stepLimit := by decide +kernel
  refine ⟨wellFormed_joinedNames, wellFormed_sumOfNames, valid, concrete, same, fun captures => ?_⟩
  rw [wellFormed_joinedNames.matchTree_of_concrete wellFormed_sumOfNames (some 2) (some 2)
    (fun id isTarget => by cases isTarget; exact valid) concrete
    (fun id _ role => Nat.le_trans (wellFormed_joinedNames.length_childrenIn_le_size id role) small),
    same]

end TypedJava

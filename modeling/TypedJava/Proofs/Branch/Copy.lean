import TypedJava.Proofs.Edit.Structural
import TypedJava.Proofs.Tree.Same

/-! # The copy of a tree

A copy consists of new nodes alone and has the tree of its original. The copies of all children of a
node follow each other, and what is below them comes later, from the last child to the first. So the
new nodes do not stand in the order of the tree; they are known by their places. -/

namespace TypedJava

namespace Store

/-! ## Adding nodes that have a place -/

/-- Every node of a changed store is an old one at its old place, or a new one that has a place. -/
structure Grows (store changed : Store) : Prop where
  size_le : store.size ≤ changed.size
  place_eq : ∀ id, id < store.size → changed.place? (some id) = store.place? (some id)
  placed : ∀ id, store.size ≤ id → id < changed.size →
    ∃ place, changed.place? (some id) = some place

namespace Grows

variable {store changed further : Store}

theorem refl (store : Store) : store.Grows store :=
  ⟨Nat.le_refl _, fun _ _ => rfl, fun _ new old => absurd old (Nat.not_lt_of_le new)⟩

theorem trans (first : store.Grows changed) (second : changed.Grows further) :
    store.Grows further := by
  refine ⟨Nat.le_trans first.size_le second.size_le, fun id bound => ?_, fun id new bound => ?_⟩
  · rw [second.place_eq id (Nat.lt_of_lt_of_le bound first.size_le), first.place_eq id bound]
  · rcases Nat.lt_or_ge id changed.size with early | late
    · rw [second.place_eq id early]
      exact first.placed id new early
    · exact second.placed id late bound

theorem foldl
    {α : Type} {step : Store → α → Store}
    (grows : ∀ (store : Store) (item : α), store.Grows (step store item))
    (items : List α) (store : Store) :
    store.Grows (items.foldl step store) := by
  induction items generalizing store with
  | nil =>
      exact .refl store
  | cons item items inductionHypothesis =>
      exact (grows store item).trans (inductionHypothesis (step store item))

end Grows

theorem grows_copyUnder (store : Store) (place : Place) (source : NodeId) :
    store.Grows (store.copyUnder place source).2 := by
  cases found : store.node? (some source) with
  | none =>
      simp only [copyUnder, found]
      exact .refl store
  | some node =>
      have pushed (id : NodeId) :
          (store.copyUnder place source).2.place? (some id) =
            (store.push (node.copyAt (some place))).2.place? (some id) := by
        have same : (store.copyUnder place source).2 =
            (store.push (node.copyAt (some place))).2.update place.parent
              (·.updateSlot place.role (· ++ [store.size])) := by
          simp [copyUnder, found, push, Node.copyAt]
        rw [same, place?_update]
        by_cases isParent : id = place.parent <;> simp [isParent, place?]
      refine ⟨?_, fun id bound => ?_, fun id new bound => ⟨place, ?_⟩⟩
      · rw [size_copyUnder place found]
        exact Nat.le_succ _
      · rw [pushed, place?, node?_push_of_lt bound, place?]
      · rw [size_copyUnder place found] at bound
        have isNew : id = store.size := Nat.le_antisymm (Nat.le_of_lt_succ bound) new
        rw [pushed, place?, node?_push, if_pos isNew]
        rfl

theorem grows_copyChildren (store : Store) (node : Node) (copy : NodeId) :
    store.Grows (store.copyChildren node copy).2 := by
  rw [copyChildren_eq_foldl]
  generalize ([] : List (NodeId × NodeId)) = pairs
  induction node.listing generalizing store pairs with
  | nil =>
      exact .refl store
  | cons entry entries inductionHypothesis =>
      exact (store.grows_copyUnder ⟨copy, entry.1⟩ entry.2).trans (inductionHypothesis _ _)

theorem grows_copyBelow (fuel : Nat) (source copy : NodeId) (store : Store) :
    store.Grows (store.copyBelow fuel source copy) := by
  induction fuel generalizing source copy store with
  | zero =>
      exact .refl store
  | succ fuel inductionHypothesis =>
      rw [copyBelow]
      cases store.node? (some source) with
      | none =>
          exact .refl store
      | some node =>
          exact (store.grows_copyChildren node copy).trans
            (.foldl (fun store (pair : NodeId × NodeId) => inductionHypothesis pair.1 pair.2 store) _ _)

/-- If all new nodes but the first have a place, they are all below the first. -/
theorem Grows.above
    {store middle changed : Store} (wellFormed : store.WellFormed)
    (changedWellFormed : changed.WellFormed) (keeps : store.Keeps changed fun _ => False)
    (added : middle.size = store.size + 1) (grows : middle.Grows changed) {id : NodeId}
    (new : store.size ≤ id) (bound : id < changed.size) :
    changed.Above store.size id := by
  have rooted := changedWellFormed.rooted id
  induction rooted with
  | @root id unplaced =>
      rcases Nat.eq_or_lt_of_le new with same | later
      · exact same ▸ .refl
      · obtain ⟨place, placed⟩ := grows.placed id (by omega) bound
        rw [unplaced] at placed
        cases placed
  | @step id place placed _ inductionHypothesis =>
      refine .step placed (inductionHypothesis ?_ (changedWellFormed.parent_lt_size placed))
      -- an old parent lists what it listed before, and so only old nodes
      by_contra isOld
      have listed := changedWellFormed.mem_childrenIn placed
      rw [keeps.childrenIn_eq (Nat.lt_of_not_le isOld) (fun impossible => impossible)] at listed
      exact absurd (lt_size_of_place? (wellFormed.listed _ _ _ listed)) (Nat.not_lt_of_le new)

/-! ## The copies of the children -/

/-- Copying the children of a node gives them the next identifiers, one after the other, and lists
them under the copy in the same roles. -/
theorem CopyingChildren.foldl_copyEntry
    {original start store : Store} {copy : NodeId} {entries : List (Role × NodeId)}
    {pairs : List (NodeId × NodeId)}
    (copying : CopyingChildren original start copy entries (pairs, store)) :
    let listed := entries.zip (List.range' store.size entries.length)
    let result := entries.foldl (Store.copyEntry copy) (pairs, store)
    result.1 = (listed.map fun item => (item.1.2, item.2)).reverse ++ pairs ∧
      result.2.size = store.size + entries.length ∧
      result.2.label? (some copy) = store.label? (some copy) ∧
      ∀ role, result.2.childrenIn (some copy) role =
        store.childrenIn (some copy) role ++
          (listed.filter fun item => item.1.1 = role).map (·.2) := by
  induction entries generalizing pairs store with
  | nil =>
      simp
  | cons entry entries inductionHypothesis =>
      obtain ⟨role, child⟩ := entry
      obtain ⟨parent, foundParent, present⟩ := copying.isParent
      obtain ⟨node, foundOriginal⟩ :=
        exists_node?_of_lt_size (copying.fromOriginal _ List.mem_cons_self)
      have found : store.node? (some child) = some node :=
        copying.keeps.node?_eq foundOriginal (fun impossible => impossible)
      have bound : copy < store.size := lt_size_of_node? foundParent
      have size := size_copyUnder ⟨copy, role⟩ found
      obtain ⟨restPairs, restSize, restLabel, restChildren⟩ := inductionHypothesis copying.copyEntry
      rw [size] at restPairs restSize restChildren
      rw [List.foldl_cons, Store.copyEntry, fst_copyUnder]
      rw [fst_copyUnder] at restPairs restSize restLabel restChildren
      simp only [List.length_cons, List.range'_succ, List.zip_cons_cons]
      refine ⟨?_, ?_, ?_, fun other => ?_⟩
      · rw [restPairs]
        simp
      · rw [restSize]
        omega
      · rw [restLabel, label?, label?, node?_copyUnder ⟨copy, role⟩ found bound,
          if_neg (Nat.ne_of_lt bound), if_pos rfl, foundParent]
        simp [Node.label]
      · rw [restChildren, childrenIn_copyUnder ⟨copy, role⟩ found foundParent
          (present _ List.mem_cons_self)]
        by_cases same : other = role
        · subst same
          simp
        · simp [same, Ne.symm same]

end Store

/-! ## The copy of a branch -/

namespace Branch

theorem toTree_eq
    {first second : Branch} (samePayload : first.payload = second.payload)
    (sameAnnotations : first.annotations = second.annotations)
    (sameTrees : ∀ role, treesIn role first.children = treesIn role second.children) :
    first.toTree = second.toTree := by
  cases first
  cases second
  simp only [payload, annotations, children] at samePayload sameAnnotations sameTrees
  simp only [toTree, samePayload, sameAnnotations, sameTrees]

variable {original store : Store}

/-- A store has at the copy the tree of the branch, made of the copy and of nodes from the bound
on. -/
def CopiedAt (branch : Branch) (bound : NodeId) (store : Store) (copy : NodeId) : Prop :=
  ∃ other : Branch, other.HeldIn store ∧ other.id = copy ∧ other.toTree = branch.toTree ∧
    ∀ id ∈ other.ids, id = copy ∨ bound ≤ id

theorem CopiedAt.tree?_eq
    {branch : Branch} {bound copy : NodeId} (copied : branch.CopiedAt bound store copy)
    (wellFormed : store.WellFormed) :
    store.tree? (some copy) = some branch.toTree := by
  obtain ⟨other, held, rfl, sameTree, _⟩ := copied
  rw [held.tree?_eq wellFormed, sameTree]

theorem CopiedAt.of_keeps
    {branch : Branch} {bound copy : NodeId} (copied : branch.CopiedAt bound store copy)
    {changed : Store} {touched : NodeId → Prop} (keeps : store.Keeps changed touched)
    (copyKept : ¬ touched copy) (newKept : ∀ id, bound ≤ id → ¬ touched id) :
    branch.CopiedAt bound changed copy := by
  obtain ⟨other, held, sameTop, sameTree, fresh⟩ := copied
  refine ⟨other, held.of_keeps keeps fun id member => ?_, sameTop, sameTree, fresh⟩
  rcases fresh id member with isCopy | isNew
  · exact isCopy ▸ copyKept
  · exact newKept id isNew

theorem CopiedAt.weaken
    {branch : Branch} {bound smaller copy : NodeId} (copied : branch.CopiedAt bound store copy)
    (le : smaller ≤ bound) :
    branch.CopiedAt smaller store copy := by
  obtain ⟨other, held, sameTop, sameTree, fresh⟩ := copied
  exact ⟨other, held, sameTop, sameTree, fun id member =>
    (fresh id member).imp_right (Nat.le_trans le)⟩

/-- Copying what is below a branch of the original, as far as the fuel goes, copies all of it. -/
def CopiesBelow (original : Store) (fuel : Nat) (branch : Branch) : Prop :=
  ∀ (store : Store) (copy : NodeId), Store.CopiesWaiting original store [(branch.id, copy)] →
    branch.CopiedAt store.size (store.copyBelow fuel branch.id copy) copy ∧
      (store.copyBelow fuel branch.id copy).size + 1 = store.size + branch.ids.length

/-- Copying what is below one child after the other copies all of it. -/
theorem foldl_copyBelow
    (originalWellFormed : original.WellFormed) {fuel : Nat}
    {items : List ((Role × Branch) × NodeId)}
    (each : ∀ item ∈ items, CopiesBelow original fuel item.1.2)
    (waiting : Store.CopiesWaiting original store
      (items.map fun item => (item.1.2.id, item.2))) :
    let result := items.foldl (fun store item => store.copyBelow fuel item.1.2.id item.2) store
    (∀ item ∈ items, item.1.2.CopiedAt store.size result item.2) ∧
      result.size + items.length = store.size + (idsOfAll (items.map (·.1))).length := by
  induction items generalizing store with
  | nil =>
      simp [idsOfAll]
  | cons item items inductionHypothesis =>
      obtain ⟨copied, size⟩ := each item List.mem_cons_self store item.2 waiting.head
      obtain ⟨stepWellFormed, stepTouches⟩ := originalWellFormed.copyBelow fuel waiting.head
      have later := waiting.tail stepWellFormed stepTouches
      obtain ⟨restCopied, restSize⟩ := inductionHypothesis
        (fun other member => each other (List.mem_cons_of_mem _ member)) later
      obtain ⟨_, restTouches⟩ := later.foldl fun _ _ ready =>
        originalWellFormed.copyBelow fuel ready
      rw [List.foldl_map] at restTouches
      have nodup := waiting.nodup
      rw [List.map_cons, List.map_cons, List.nodup_cons] at nodup
      refine ⟨fun other member => ?_, ?_⟩
      · rcases List.mem_cons.mp member with rfl | isLater
        · refine copied.of_keeps restTouches nodup.1 fun id new listed => ?_
          obtain ⟨pair, isPair, rfl⟩ := List.mem_map.mp listed
          obtain ⟨_, _, _, _, inStore⟩ := waiting.pending pair (List.mem_cons_of_mem _ isPair)
          exact absurd (Store.lt_size_of_node? inStore) (Nat.not_lt_of_le new)
        · exact (restCopied other isLater).weaken stepTouches.size_le
      · simp only [List.foldl_cons, List.length_cons, List.map_cons, idsOfAll_eq_flatMap,
          List.flatMap_cons, List.length_append] at restSize ⊢
        omega

/-- The children of a branch with the identifiers that their copies get in a store. -/
def withCopies (branch : Branch) (store : Store) : List ((Role × Branch) × NodeId) :=
  branch.children.zip (List.range' store.size branch.children.length)

theorem map_fst_withCopies (branch : Branch) (store : Store) :
    (branch.withCopies store).map (·.1) = branch.children :=
  List.map_fst_zip (by simp)

theorem le_of_mem_withCopies
    {branch : Branch} {item : (Role × Branch) × NodeId} (member : item ∈ branch.withCopies store) :
    store.size ≤ item.2 :=
  (List.mem_range'_1.mp (List.of_mem_zip member).2).1

theorem not_mem_withCopies {copy : NodeId} (branch : Branch) (bound : copy < store.size) :
    copy ∉ ((branch.withCopies store).reverse.map fun item => (item.1.2.id, item.2)).map (·.2) := by
  intro member
  simp only [List.map_map, List.mem_map, List.mem_reverse] at member
  obtain ⟨item, isItem, rfl⟩ := member
  exact absurd bound (Nat.not_lt_of_le (le_of_mem_withCopies isItem))

/-- The store between the copying of the children of a branch and that of what is below them. -/
structure ChildrenCopied (original store middle : Store) (branch : Branch) (copy : NodeId) :
    Prop where
  waiting : Store.CopiesWaiting original middle
    ((branch.withCopies store).reverse.map fun item => (item.1.2.id, item.2))
  touched : store.Keeps middle (· = copy)
  size_eq : middle.size = store.size + branch.children.length
  label_eq : middle.label? (some copy) =
    some (branch.payload, branch.annotations, branch.payload.kind.roles)
  children_eq : ∀ role, middle.childrenIn (some copy) role =
    ((branch.withCopies store).filter fun item => item.1.1 = role).map (·.2)

theorem HeldIn.exists_childrenCopied
    {branch : Branch} {copy : NodeId} (held : branch.HeldIn original)
    (originalWellFormed : original.WellFormed)
    (waiting : Store.CopiesWaiting original store [(branch.id, copy)]) (fuel : Nat) :
    ∃ middle, ChildrenCopied original store middle branch copy ∧
      store.copyBelow (fuel + 1) branch.id copy =
        (branch.withCopies store).reverse.foldl
          (fun store item => store.copyBelow fuel item.1.2.id item.2) middle := by
  obtain ⟨isCopy, node, place, foundOriginal, foundCopy⟩ := waiting.pending _ List.mem_cons_self
  have found := waiting.keeps.node?_eq foundOriginal fun impossible => impossible
  obtain ⟨samePayload, sameAnnotations, listing⟩ := held.of_node? foundOriginal
  have start := Store.copyingChildren_start originalWellFormed waiting.wellFormed waiting.keeps
    isCopy foundOriginal foundCopy
  obtain ⟨pairs, size, label, children⟩ := start.foldl_copyEntry
  have copying := start.foldl
  have listed : (node.listing.zip (List.range' store.size node.listing.length)) =
      (branch.withCopies store).map fun item => ((item.1.1, item.1.2.id), item.2) := by
    rw [listing, entries, List.zip_map_left, List.length_map, withCopies]
    rfl
  rw [listed, List.append_nil] at pairs
  have samePairs : (node.listing.foldl (Store.copyEntry copy) ([], store)).1 =
      (branch.withCopies store).reverse.map fun item => (item.1.2.id, item.2) := by
    rw [pairs, List.map_map, List.map_reverse]
    rfl
  refine ⟨_, ⟨samePairs ▸ copying.copiesWaiting, copying.touched, ?_, ?_, fun role => ?_⟩, ?_⟩
  · rw [size, listing, entries, List.length_map]
  · rw [label, Store.label?, foundCopy, Option.map_some, Node.label, Node.slots_copyAt_roles,
      ← samePayload, ← sameAnnotations]
    rfl
  · rw [children, Store.childrenIn_of_node? foundCopy, Node.childrenIn_copyAt, listed,
      List.filter_map, List.map_map]
    rfl
  · rw [Store.copyBelow, found]
    simp only
    rw [Store.copyChildren_eq_foldl, samePairs, List.foldl_map]

/-- If each child has been copied, so has the branch. -/
theorem ChildrenCopied.copiedAt
    {middle result : Store} {branch : Branch} {copy : NodeId}
    (children : ChildrenCopied original store middle branch copy)
    (wellFormed : result.WellFormed) {touched : NodeId → Prop}
    (keeps : middle.Keeps result touched) (copyKept : ¬ touched copy)
    (copied : ∀ item ∈ branch.withCopies store, item.1.2.CopiedAt middle.size result item.2) :
    branch.CopiedAt store.size result copy := by
  obtain ⟨node, foundNode, sameLabel⟩ := Option.map_eq_some_iff.mp children.label_eq
  have bound := Store.lt_size_of_node? foundNode
  have foundLater := keeps.node?_eq foundNode copyKept
  obtain ⟨other, held, rfl⟩ := exists_branch wellFormed (Store.lt_size_of_node? foundLater)
  obtain ⟨samePayload, sameAnnotations, _⟩ := held.of_node? foundLater
  simp only [Node.label, Prod.mk.injEq] at sameLabel
  have lists (role : Role) : result.childrenIn (some other.id) role =
      ((branch.withCopies store).filter fun item => item.1.1 = role).map (·.2) := by
    rw [keeps.childrenIn_eq bound copyKept, children.children_eq]
  refine ⟨other, held, rfl, toTree_eq (samePayload.symm.trans sameLabel.1)
    (sameAnnotations.symm.trans sameLabel.2.1) fun role => ?_, fun id member => ?_⟩
  · apply List.map_injective_iff.mpr fun _ _ => Option.some.inj
    rw [held.map_some_treesIn wellFormed, lists, treesIn_eq_filter,
      ← branch.map_fst_withCopies store, List.filter_map, List.map_map, List.map_map, List.map_map]
    apply List.map_congr_left
    intro item member
    exact (copied item (List.mem_filter.mp member).1).tree?_eq wellFormed
  · rw [ids_eq_cons] at member
    refine (List.mem_cons.mp member).imp_right fun deeper => ?_
    obtain ⟨entry, isChild, inChild⟩ := mem_idsOfAll.mp deeper
    have listed := wellFormed.mem_childrenIn (held.place?_of_mem_children wellFormed isChild)
    rw [lists] at listed
    obtain ⟨item, isListed, sameTop⟩ := List.mem_map.mp listed
    have isItem := (List.mem_filter.mp isListed).1
    obtain ⟨found, foundHeld, foundTop, _, fresh⟩ := copied item isItem
    have sameBranch := foundHeld.unique (held.of_mem_children isChild)
      (sameTop.symm.trans foundTop.symm)
    rw [sameBranch] at inChild
    rcases fresh id inChild with rfl | isNew
    · exact le_of_mem_withCopies isItem
    · have late : store.size ≤ middle.size := children.touched.size_le
      exact Nat.le_trans late isNew

/-- With fuel for the nodes below it, a branch is copied as a whole. -/
theorem HeldIn.copiesBelow
    {branch : Branch} (held : branch.HeldIn original) (originalWellFormed : original.WellFormed)
    (fuel : Nat) {path : List NodeId} (isPath : original.Path branch.id path)
    (enough : original.size < fuel + path.length) :
    CopiesBelow original fuel branch := by
  induction fuel generalizing branch path with
  | zero =>
      have short := originalWellFormed.path_length_le_size isPath held.id_lt_size
      omega
  | succ fuel inductionHypothesis =>
      -- a step down takes one from the fuel and makes the path upwards one longer
      intro store copy waiting
      obtain ⟨middle, children, run⟩ :=
        held.exists_childrenCopied originalWellFormed waiting fuel
      have each : ∀ item ∈ (branch.withCopies store).reverse,
          CopiesBelow original fuel item.1.2 := by
        intro item member
        have isChild := (List.of_mem_zip (List.mem_reverse.mp member)).1
        refine inductionHypothesis (held.of_mem_children isChild)
          (.step (held.place?_of_mem_children originalWellFormed isChild) isPath) ?_
        rw [List.length_cons]
        omega
      obtain ⟨copied, size⟩ := foldl_copyBelow originalWellFormed each children.waiting
      have wellFormed := (originalWellFormed.copyBelow (fuel + 1) waiting).1
      obtain ⟨_, keeps⟩ := children.waiting.foldl fun _ _ ready =>
        originalWellFormed.copyBelow fuel ready
      rw [List.foldl_map, ← run] at keeps
      rw [← run] at size copied
      obtain ⟨_, _, _, _, foundCopy⟩ := waiting.pending _ List.mem_cons_self
      have copyKept := branch.not_mem_withCopies (Store.lt_size_of_node? foundCopy)
      refine ⟨children.copiedAt wellFormed keeps copyKept fun item member =>
        copied item (List.mem_reverse.mpr member), ?_⟩
      have sameLength : (branch.withCopies store).length = branch.children.length := by
        rw [← branch.map_fst_withCopies store, List.length_map]
      have sameNumber : (idsOfAll branch.children.reverse).length =
          (idsOfAll branch.children).length := by
        simp only [idsOfAll_eq_flatMap]
        exact (branch.children.reverse_perm.flatMap_right _).length_eq
      rw [List.map_reverse, map_fst_withCopies, sameNumber, List.length_reverse, sameLength,
        children.size_eq] at size
      rw [ids_eq_cons, List.length_cons]
      omega

end Branch

namespace Store

variable {store : Store}

/-- A copy of a tree is exact, disjoint from what was there and detached: no old node changes, the
copy has the tree of the original with all annotations, and the new nodes are those of the copy, as
many as the original has. The copy is equal to the original exactly if no literal in it is not a
number. -/
theorem WellFormed.copyTree_exact
    (wellFormed : store.WellFormed) {id : NodeId} (valid : id < store.size) :
    ∃ copy copied, store.copyTree (some id) = (some copy, copied) ∧
      (∀ other, other < store.size → copied.node? (some other) = store.node? (some other)) ∧
      copied.size = store.size + (store.subtree (some id)).length ∧
      (∀ other, other ∈ copied.subtree (some copy) ↔
        store.size ≤ other ∧ other < copied.size) ∧
      copied.place? (some copy) = none ∧
      (∃ tree, store.tree? (some id) = some tree ∧ copied.tree? (some copy) = some tree) ∧
      copied.WellFormed ∧
      (copied.sameTrees (some id) (some copy) = true ↔
        ∀ other ∈ store.subtree (some id), ∀ value,
          store.payload? (some other) = some (.literal value) → value.isNotANumber = false) := by
  obtain ⟨branch, held, rfl⟩ := Branch.exists_branch wellFormed valid
  obtain ⟨node, found⟩ := exists_node?_of_lt_size valid
  have waiting := wellFormed.copiesWaiting_push found
  have run := copyTree_of_node? found
  obtain ⟨copiedWellFormed, keeps⟩ := wellFormed.copyTree (some branch.id)
  obtain ⟨path, isPath⟩ := (wellFormed.rooted branch.id).exists_path
  have enough : store.size < store.size + path.length := by
    have positive := isPath.length_pos
    omega
  have copying := held.copiesBelow wellFormed store.size isPath enough
  obtain ⟨⟨other, otherHeld, sameTop, sameTree, fresh⟩, size⟩ := copying _ _ waiting
  have grows := grows_copyBelow store.size branch.id store.size (store.push (node.copyAt none)).2
  rw [run] at copiedWellFormed keeps
  generalize (store.push (node.copyAt none)).2.copyBelow store.size branch.id store.size = copied
    at *
  have heldLater : branch.HeldIn copied := held.of_keeps keeps fun _ _ impossible => impossible
  have copiedTree : copied.tree? (some store.size) = some branch.toTree := by
    rw [← sameTop, otherHeld.tree?_eq copiedWellFormed, sameTree]
  have pushedSize := store.size_push (node.copyAt none)
  refine ⟨store.size, copied, run, fun old bound => ?_, ?_, fun new => ⟨fun member => ?_, ?_⟩, ?_,
    ⟨branch.toTree, held.tree?_eq wellFormed, copiedTree⟩, copiedWellFormed, ?_⟩
  · exact keeps.node_eq old bound fun impossible => impossible
  · rw [held.subtree_eq wellFormed]
    omega
  · rw [← sameTop, otherHeld.subtree_eq copiedWellFormed] at member
    refine ⟨?_, otherHeld.lt_size member⟩
    rcases fresh new member with rfl | isLater
    · exact Nat.le_refl _
    · exact Nat.le_trans (by omega) isLater
  · rintro ⟨isNew, bound⟩
    rw [← sameTop, otherHeld.subtree_eq copiedWellFormed, otherHeld.mem_ids_iff copiedWellFormed,
      sameTop]
    exact grows.above wellFormed copiedWellFormed keeps pushedSize isNew bound
  · rw [grows.place_eq store.size (by omega), place?, node?_push, if_pos rfl]
    rfl
  · rw [sameTrees, heldLater.tree?_eq copiedWellFormed, copiedTree,
      held.subtree_eq wellFormed]
    exact held.same_self_iff wellFormed

/-! ### A sum with a number that is not one -/

/-- The program that builds the sum, which is node 2, of the name `x`, which is node 0, and a literal
of type `float` that is not a number. -/
def buildUndefinedSum : Edit NodeId := do
  let left ← Edit.mkNode (.identifier "x")
  let right ← Edit.mkLiteral (.float 0x7FC00000)
  Edit.setType (some right) (.primitive .float)
  Edit.mkBinary .add (some left) (some right)

/-- The sum `x + Float.NaN`. -/
def undefinedSum : Store :=
  (buildUndefinedSum.run .empty).2

theorem wellFormed_undefinedSum : undefinedSum.WellFormed := by
  refine Edit.Structural.keepsWellFormed ?_ _ wellFormed_empty
  exact .bind (.mkNode _) fun _ => .bind (.mkLiteral _) fun _ => .bind (.setType _ _) fun _ =>
    .mkBinary _ _ _

/-- The copy of the sum consists of the nodes 3, 4 and 5. It has the tree of the sum and is still
not equal to it. -/
theorem copyTree_exact_of_undefinedSum :
    undefinedSum.WellFormed ∧ 2 < undefinedSum.size ∧
      ∃ copied, undefinedSum.copyTree (some 2) = (some 3, copied) ∧
        (∀ other, other < 3 → copied.node? (some other) = undefinedSum.node? (some other)) ∧
        copied.size = 6 ∧
        (∀ other, other ∈ copied.subtree (some 3) ↔ 3 ≤ other ∧ other < 6) ∧
        copied.place? (some 3) = none ∧
        (∃ tree, undefinedSum.tree? (some 2) = some tree ∧ copied.tree? (some 3) = some tree) ∧
        copied.WellFormed ∧ copied.sameTrees (some 2) (some 3) = false := by
  have size : undefinedSum.size = 3 := by decide +kernel
  have valid : 2 < undefinedSum.size := by decide +kernel
  have subtree : undefinedSum.subtree (some 2) = [2, 0, 1] := by decide +kernel
  have isCopy : (undefinedSum.copyTree (some 2)).1 = some 3 := by decide +kernel
  obtain ⟨copy, copied, run, unchanged, copiedSize, members, unplaced, trees, wellFormed, same⟩ :=
    wellFormed_undefinedSum.copyTree_exact valid
  rw [run] at isCopy
  cases isCopy
  rw [subtree, size] at copiedSize
  have sizeIsSix : copied.size = 6 := copiedSize
  rw [size, sizeIsSix] at members
  rw [size] at unchanged
  refine ⟨wellFormed_undefinedSum, valid, copied, run, unchanged, sizeIsSix, members, unplaced,
    trees, wellFormed, Bool.eq_false_iff.mpr fun equal => ?_⟩
  have isNumber := same.mp equal 1 (by rw [subtree]; decide) (.float 0x7FC00000) rfl
  exact absurd isNumber (by decide +kernel)

end Store

end TypedJava

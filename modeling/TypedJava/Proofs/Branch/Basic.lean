import TypedJava.Proofs.Store.Attach

/-! # Branches

A branch is a tree that remembers the identifiers of its nodes. A store holds a branch if the nodes
of the branch are there with the same contents and the same children. In a well-formed store every
node carries exactly one branch, and the bounded walks of the store see all of it. -/

namespace TypedJava

/-- A tree with the identifiers of its nodes. The children stand in the order in which the store
lists them. -/
inductive Branch where
  | node (id : NodeId) (payload : Payload) (annotations : Annotations)
      (children : List (Role × Branch))

namespace Branch

/-- The identifier of the node at the top. -/
def id : Branch → NodeId
  | node id _ _ _ => id

def payload : Branch → Payload
  | node _ payload _ _ => payload

def annotations : Branch → Annotations
  | node _ _ annotations _ => annotations

/-- The branches of the children with their roles. -/
def children : Branch → List (Role × Branch)
  | node _ _ _ children => children

/-- The first child in a role. -/
def child? (branch : Branch) (role : Role) : Option Branch :=
  (branch.children.find? fun entry => entry.1 = role).map (·.2)

mutual

/-- The identifiers of all nodes, each before those of its children. -/
def ids : Branch → List NodeId
  | node id _ _ children => id :: idsOfAll children

/-- The identifiers in several branches. -/
def idsOfAll : List (Role × Branch) → List NodeId
  | [] => []
  | (_, branch) :: rest => ids branch ++ idsOfAll rest

end

mutual

/-- The tree without the identifiers. -/
def toTree : Branch → Tree
  | node _ payload annotations children =>
    .node payload annotations (payload.kind.roles.map fun role => ⟨role, treesIn role children⟩)

/-- The trees of the children in a role. -/
def treesIn (role : Role) : List (Role × Branch) → List Tree
  | [] => []
  | (found, branch) :: rest =>
    if found = role then toTree branch :: treesIn role rest else treesIn role rest

end

/-- What a store lists for children: their roles and identifiers. -/
def entries (children : List (Role × Branch)) : List (Role × NodeId) :=
  children.map fun entry => (entry.1, entry.2.id)

theorem entries_append (first second : List (Role × Branch)) :
    entries (first ++ second) = entries first ++ entries second :=
  List.map_append

theorem entries_cons (role : Role) (branch : Branch) (rest : List (Role × Branch)) :
    entries ((role, branch) :: rest) = (role, branch.id) :: entries rest :=
  rfl

/-- What holds of a node whenever it holds of its children holds of every branch. -/
theorem induction
    {motive : Branch → Prop}
    (node : ∀ id payload annotations children, (∀ entry ∈ children, motive entry.2) →
      motive (.node id payload annotations children))
    (branch : Branch) :
    motive branch := by
  refine @Branch.rec motive (fun children => ∀ entry ∈ children, motive entry.2)
    (fun entry => motive entry.2) ?_ ?_ ?_ ?_ branch
  · exact node
  · exact fun entry member => absurd member List.not_mem_nil
  · intro entry rest first others found member
    rcases List.mem_cons.mp member with rfl | later
    · exact first
    · exact others found later
  · exact fun _ _ property => property

theorem idsOfAll_eq_flatMap (children : List (Role × Branch)) :
    idsOfAll children = children.flatMap fun entry => entry.2.ids := by
  induction children with
  | nil =>
      rfl
  | cons entry rest inductionHypothesis =>
      rw [idsOfAll, inductionHypothesis, List.flatMap_cons]

theorem idsOfAll_append (first second : List (Role × Branch)) :
    idsOfAll (first ++ second) = idsOfAll first ++ idsOfAll second := by
  simp only [idsOfAll_eq_flatMap, List.flatMap_append]

theorem mem_idsOfAll {children : List (Role × Branch)} {id : NodeId} :
    id ∈ idsOfAll children ↔ ∃ entry ∈ children, id ∈ entry.2.ids := by
  rw [idsOfAll_eq_flatMap, List.mem_flatMap]

theorem ids_eq_cons (branch : Branch) : branch.ids = branch.id :: idsOfAll branch.children := by
  cases branch
  rfl

theorem id_mem_ids (branch : Branch) : branch.id ∈ branch.ids := by
  rw [ids_eq_cons]
  exact List.mem_cons_self

theorem mem_ids_of_mem_children
    {branch : Branch} {entry : Role × Branch} (member : entry ∈ branch.children) {id : NodeId}
    (found : id ∈ entry.2.ids) :
    id ∈ branch.ids := by
  rw [ids_eq_cons]
  exact List.mem_cons_of_mem _ (mem_idsOfAll.mpr ⟨entry, member, found⟩)

theorem treesIn_eq_filter (role : Role) (children : List (Role × Branch)) :
    treesIn role children = (children.filter fun entry => entry.1 = role).map fun entry =>
      entry.2.toTree := by
  induction children with
  | nil =>
      rfl
  | cons entry rest inductionHypothesis =>
      rw [treesIn, inductionHypothesis]
      by_cases same : entry.1 = role <;> simp [same]

end Branch

namespace Store

/-- What a node holds and lists, apart from its own place. -/
def content? (store : Store) (id : NodeId) :
    Option (Payload × Annotations × List (Role × NodeId)) :=
  (store.node? (some id)).map fun node => (node.payload, node.annotations, node.listing)

theorem lt_size_of_content?
    {store : Store} {id : NodeId} {content : Payload × Annotations × List (Role × NodeId)}
    (found : store.content? id = some content) :
    id < store.size := by
  obtain ⟨node, foundNode, _⟩ := Option.map_eq_some_iff.mp found
  exact lt_size_of_node? foundNode

theorem Keeps.content?_eq
    {store changed : Store} {touched : NodeId → Prop} (keeps : store.Keeps changed touched)
    {id : NodeId} (bound : id < store.size) (untouched : ¬ touched id) :
    changed.content? id = store.content? id := by
  rw [content?, content?, keeps.node_eq id bound untouched]

end Store

namespace Branch

/-- The store has the nodes of the branch, with the same contents and children. -/
inductive HeldIn (store : Store) : Branch → Prop
  | node {id : NodeId} {payload : Payload} {annotations : Annotations}
      {children : List (Role × Branch)} :
      store.content? id = some (payload, annotations, entries children) →
      (∀ entry ∈ children, HeldIn store entry.2) →
      HeldIn store (.node id payload annotations children)

namespace HeldIn

variable {store : Store} {branch : Branch}

theorem content (held : branch.HeldIn store) :
    store.content? branch.id =
      some (branch.payload, branch.annotations, entries branch.children) := by
  cases held with
  | node content _ =>
      exact content

theorem of_mem_children
    (held : branch.HeldIn store) {entry : Role × Branch} (member : entry ∈ branch.children) :
    entry.2.HeldIn store := by
  cases held with
  | node _ children =>
      exact children entry member

theorem exists_node (held : branch.HeldIn store) :
    ∃ node, store.node? (some branch.id) = some node ∧ node.payload = branch.payload ∧
      node.annotations = branch.annotations ∧ node.listing = entries branch.children := by
  obtain ⟨node, found, same⟩ := Option.map_eq_some_iff.mp held.content
  simp only [Prod.mk.injEq] at same
  exact ⟨node, found, same.1, same.2.1, same.2.2⟩

/-- What the node at the top of a branch is. -/
theorem of_node?
    (held : branch.HeldIn store) {node : Node}
    (found : store.node? (some branch.id) = some node) :
    node.payload = branch.payload ∧ node.annotations = branch.annotations ∧
      node.listing = entries branch.children := by
  obtain ⟨other, foundOther, same⟩ := held.exists_node
  rw [found] at foundOther
  cases foundOther
  exact same

theorem id_lt_size (held : branch.HeldIn store) : branch.id < store.size :=
  Store.lt_size_of_content? held.content

theorem lt_size (held : branch.HeldIn store) {id : NodeId} (member : id ∈ branch.ids) :
    id < store.size := by
  induction branch using Branch.induction with
  | node top payload annotations children inductionHypothesis =>
      rw [ids_eq_cons] at member
      rcases List.mem_cons.mp member with rfl | deeper
      · exact held.id_lt_size
      · obtain ⟨entry, isChild, found⟩ := mem_idsOfAll.mp deeper
        exact inductionHypothesis entry isChild (held.of_mem_children isChild) found

/-- A store with the same contents holds the branch as well. -/
theorem of_content_eq
    (held : branch.HeldIn store) {changed : Store}
    (same : ∀ id ∈ branch.ids, changed.content? id = store.content? id) :
    branch.HeldIn changed := by
  induction branch using Branch.induction with
  | node top payload annotations children inductionHypothesis =>
      refine .node ?_ fun entry member => ?_
      · rw [same top (id_mem_ids _)]
        exact held.content
      · exact inductionHypothesis entry member (held.of_mem_children member) fun id found =>
          same id (mem_ids_of_mem_children member found)

theorem of_keeps
    (held : branch.HeldIn store) {changed : Store} {touched : NodeId → Prop}
    (keeps : store.Keeps changed touched) (untouched : ∀ id ∈ branch.ids, ¬ touched id) :
    branch.HeldIn changed :=
  held.of_content_eq fun id member =>
    keeps.content?_eq (held.lt_size member) (untouched id member)

/-- A store holds one branch at a node at most. -/
theorem unique
    (held : branch.HeldIn store) {other : Branch} (otherHeld : other.HeldIn store)
    (sameTop : other.id = branch.id) :
    other = branch := by
  induction branch using Branch.induction generalizing other with
  | node top payload annotations children inductionHypothesis =>
      obtain ⟨otherTop, otherPayload, otherAnnotations, otherChildren⟩ := other
      have same := otherHeld.content
      rw [sameTop, held.content] at same
      simp only [Option.some.injEq, Prod.mk.injEq, Branch.payload, Branch.annotations,
        Branch.children] at same
      obtain ⟨rfl, rfl, sameEntries⟩ := same
      have sameChildren : otherChildren = children := by
        refine List.ext_getElem ?_ fun position first second => ?_
        · simpa [entries] using (congrArg List.length sameEntries).symm
        · have sameEntry : (entries children)[position]? = (entries otherChildren)[position]? := by
            rw [sameEntries]
          simp only [entries, List.getElem?_map, List.getElem?_eq_getElem first,
            List.getElem?_eq_getElem second, Option.map_some, Option.some.injEq, Prod.mk.injEq]
            at sameEntry
          exact Prod.ext sameEntry.1.symm (inductionHypothesis _ (List.getElem_mem second)
            (held.of_mem_children (List.getElem_mem second))
            (otherHeld.of_mem_children (List.getElem_mem first)) sameEntry.2.symm)
      rw [sameChildren]
      cases sameTop
      rfl

end HeldIn

end Branch

end TypedJava

import TypedJava.Tree

/-! # The store of nodes

All nodes of one method body live in a store and are known by their index. A node records the
place that it occupies under its parent, and its parent lists it in the slot of that role. A
reference may be absent or lead nowhere: looking it up then finds no node, and every question about
it has an empty answer. -/

namespace TypedJava

/-- The index of a node in its store. Indices have no largest value here: that a store runs out of
them after 2^32 nodes is left out. -/
abbrev NodeId := Nat

/-- A reference to a node; `none` is the absent node. -/
abbrev NodeRef := Option NodeId

/-- A reference as messages show it. -/
def NodeRef.text : NodeRef → String
  | none => "#none"
  | some id => "#" ++ toString id

/-- The place of a node: its parent and its role there. -/
structure Place where
  parent : NodeId
  role : Role
  deriving DecidableEq, Repr

/-- A node with its children. -/
structure Node where
  payload : Payload
  annotations : Annotations
  /-- The place that the node occupies; a root has none. -/
  place : Option Place
  /-- One slot for each role of the kind, in the order of the roles. -/
  slots : List (Slot NodeId)

namespace Node

/-- A node without a place, children and annotations. -/
def ofPayload (payload : Payload) : Node where
  payload := payload
  annotations := .empty
  place := none
  slots := payload.kind.roles.map fun role => ⟨role, []⟩

/-- The kind of the node. -/
def kind (node : Node) : NodeKind :=
  node.payload.kind

/-- The slot of a role. -/
def slot? (node : Node) (role : Role) : Option (Slot NodeId) :=
  node.slots.find? (·.role == role)

/-- The children in a role, in order. -/
def childrenIn (node : Node) (role : Role) : List NodeId :=
  Slot.childrenIn node.slots role

/-- All children, role by role. -/
def children (node : Node) : List NodeId :=
  node.slots.flatMap (·.children)

/-- Changes the children in a role. -/
def updateSlot (node : Node) (role : Role) (change : List NodeId → List NodeId) : Node :=
  { node with slots := node.slots.map fun slot =>
      if slot.role = role then { slot with children := change slot.children } else slot }

end Node

/-- A store of nodes. -/
structure Store where
  nodes : Array Node

namespace Store

/-- The store without nodes. -/
def empty : Store := ⟨#[]⟩

/-- The number of nodes, attached or not. -/
def size (store : Store) : Nat :=
  store.nodes.size

/-- The node that a reference leads to. -/
def node? (store : Store) (reference : NodeRef) : Option Node :=
  match reference with
  | none => none
  | some id => store.nodes[id]?

/-- The kind of a node; what is absent or leads nowhere has the kind `null`. -/
def kind (store : Store) (reference : NodeRef) : NodeKind :=
  match store.node? reference with
  | none => .null
  | some node => node.kind

/-- The payload of a node. -/
def payload? (store : Store) (reference : NodeRef) : Option Payload :=
  (store.node? reference).map (·.payload)

/-- The place of an attached node. -/
def place? (store : Store) (reference : NodeRef) : Option Place :=
  (store.node? reference).bind (·.place)

/-- The parent of a node. -/
def parent (store : Store) (reference : NodeRef) : NodeRef :=
  (store.place? reference).map (·.parent)

/-- The role of a node under its parent. -/
def role? (store : Store) (reference : NodeRef) : Option Role :=
  (store.place? reference).map (·.role)

/-- The member annotation of a node. -/
def member? (store : Store) (reference : NodeRef) : Option Member :=
  (store.node? reference).bind (·.annotations.member)

/-- The type annotation of a node. -/
def type? (store : Store) (reference : NodeRef) : Option Ty :=
  (store.node? reference).bind (·.annotations.type)

/-- Changes one node. -/
def update (store : Store) (id : NodeId) (change : Node → Node) : Store :=
  ⟨store.nodes.modify id change⟩

/-- Adds a node; its identifier is the next index. -/
def push (store : Store) (node : Node) : NodeId × Store :=
  (store.size, ⟨store.nodes.push node⟩)

/-- Climbs from a node towards its root, at most as many steps as the fuel. -/
def rootWithin (store : Store) : (fuel : Nat) → NodeRef → NodeRef
  | 0, reference => reference
  | fuel + 1, reference =>
    match store.parent reference with
    | none => reference
    | some parent => rootWithin store fuel (some parent)

/-- The root of the tree that a node belongs to. No path to a root is longer than the store. -/
def root (store : Store) (reference : NodeRef) : NodeRef :=
  store.rootWithin store.size reference

/-- Is a node on the path upwards from another, as far as the fuel goes? -/
def isAtOrAboveWithin (store : Store) (ancestor : NodeRef) : (fuel : Nat) → NodeRef → Bool
  | 0, _ => false
  | _ + 1, none => false
  | fuel + 1, some id =>
    ancestor == some id || isAtOrAboveWithin store ancestor fuel (store.parent (some id))

/-- Is a node another node or above it? -/
def isAtOrAbove (store : Store) (ancestor reference : NodeRef) : Bool :=
  store.isAtOrAboveWithin ancestor (store.size + 1) reference

/-- All children of a node, role by role. -/
def children (store : Store) (reference : NodeRef) : List NodeId :=
  match store.node? reference with
  | none => []
  | some node => node.children

/-- The first child of a node. -/
def firstChild (store : Store) (reference : NodeRef) : NodeRef :=
  (store.children reference).head?

/-- The last child of a node. -/
def lastChild (store : Store) (reference : NodeRef) : NodeRef :=
  (store.children reference).getLast?

/-- The children of a node in a role; none if the node has no such role. -/
def childrenIn (store : Store) (reference : NodeRef) (role : Role) : List NodeId :=
  match store.node? reference with
  | none => []
  | some node => node.childrenIn role

/-- The first child of a node in a role. -/
def childIn (store : Store) (reference : NodeRef) (role : Role) : NodeRef :=
  (store.childrenIn reference role).head?

/-- Where an attached node stands: its place and its position among the children there. -/
structure Location where
  place : Place
  position : Nat
  deriving DecidableEq, Repr

/-- The location of a node that its parent lists. -/
def location? (store : Store) (reference : NodeRef) : Option Location :=
  match reference, store.place? reference with
  | some id, some place =>
    ((store.childrenIn (some place.parent) place.role).idxOf? id).map fun position =>
      ⟨place, position⟩
  | _, _ => none

/-- The children of the parent that come after a location, role by role. -/
def childrenAfter (store : Store) (location : Location) : List NodeId :=
  match store.node? (some location.place.parent) with
  | none => []
  | some parent =>
    match parent.slots.dropWhile (·.role ≠ location.place.role) with
    | [] => []
    | slot :: later => slot.children.drop (location.position + 1) ++ later.flatMap (·.children)

/-- The children of the parent that come before a location, role by role. -/
def childrenBefore (store : Store) (location : Location) : List NodeId :=
  match store.node? (some location.place.parent) with
  | none => []
  | some parent =>
    (parent.slots.takeWhile (·.role ≠ location.place.role)).flatMap (·.children) ++
      (parent.childrenIn location.place.role).take location.position

/-- The sibling after a node, across the roles of the parent. -/
def nextSibling (store : Store) (reference : NodeRef) : NodeRef :=
  (store.location? reference).bind fun location => (store.childrenAfter location).head?

/-- The sibling before a node, across the roles of the parent. -/
def previousSibling (store : Store) (reference : NodeRef) : NodeRef :=
  (store.location? reference).bind fun location => (store.childrenBefore location).getLast?

/-- A node and the nodes at most as many levels below it as the fuel, each before its children. -/
def subtreeWithin (store : Store) : (fuel : Nat) → NodeId → List NodeId
  | 0, _ => []
  | fuel + 1, id =>
    match store.node? (some id) with
    | none => []
    | some node => id :: node.children.flatMap (subtreeWithin store fuel)

/-- A node and everything below it, each node before its children. -/
def subtree (store : Store) (reference : NodeRef) : List NodeId :=
  match reference with
  | none => []
  | some id => store.subtreeWithin store.size id

/-- The tree of a node, cut off at as many levels as the fuel. -/
def treeWithin (store : Store) : (fuel : Nat) → NodeId → Option Tree
  | 0, _ => none
  | fuel + 1, id =>
    (store.node? (some id)).map fun node =>
      .node node.payload node.annotations
        (node.slots.map fun slot => ⟨slot.role, slot.children.filterMap (treeWithin store fuel)⟩)

/-- The tree of a node. No tree has more levels than its store has nodes. -/
def tree? (store : Store) (reference : NodeRef) : Option Tree :=
  match reference with
  | none => none
  | some id => store.treeWithin store.size id

/-- Are the trees of two nodes equal, annotations apart? What is absent equals what is absent. -/
def sameTrees (store : Store) (left right : NodeRef) : Bool :=
  match store.tree? left, store.tree? right with
  | none, none => true
  | some left, some right => left.same right
  | _, _ => false

end Store

end TypedJava

import TypedJava.Store

/-! # Edits

Operations that change the store. An edit that breaks a rule of the store stops with an error, and
what it has done up to then stays done. -/

namespace TypedJava

/-- A rule of the store that an edit would break. -/
inductive EditError where
  /-- The single role of a node holds a child already. -/
  | occupied (node : NodeRef) (role : Role)
  /-- Nodes of the kind have no such role. -/
  | noSuchRole (kind : NodeKind) (role : Role)
  /-- The node has a parent already. -/
  | attached (node : NodeRef)
  /-- The node has no parent. -/
  | detached (node : NodeRef)
  /-- The node would come to stand below itself. -/
  | cyclic (node : NodeRef)
  /-- The reference leads to no node. -/
  | missing (node : NodeRef)
  deriving DecidableEq, Repr

/-- The wording of an error. -/
def EditError.message : EditError → String
  | occupied node role =>
    "role \x60" ++ role.name ++ "\x60 of node " ++ NodeRef.text node ++ " already holds a child"
  | noSuchRole kind role => kind.name ++ " nodes have no \x60" ++ role.name ++ "\x60 role"
  | attached node => "node " ++ NodeRef.text node ++ " is already attached to a parent"
  | detached node => "node " ++ NodeRef.text node ++ " has no parent"
  | cyclic node =>
    "attaching node " ++ NodeRef.text node ++ " would make it its own ancestor"
  | missing node => "node " ++ NodeRef.text node ++ " does not exist in this arena"

/-- A computation that changes a store and may stop with an error. -/
abbrev Edit := ExceptT EditError (StateM Store)

namespace Store

/-- The rule that stands against asking for a role of a node. -/
def roleError? (store : Store) (reference : NodeRef) (role : Role) : Option EditError :=
  match store.node? reference with
  | none => some (.missing reference)
  | some node => if role ∈ node.kind.roles then none else some (.noSuchRole node.kind role)

/-- The first child of a node in a role that the node must have. The absent node has no
children. -/
def requireChild (store : Store) (reference : NodeRef) (role : Role) :
    Except EditError NodeRef :=
  if reference.isNone then .ok none
  else
    match store.roleError? reference role with
    | some error => .error error
    | none => .ok (store.childIn reference role)

/-- The children of a node in a role that the node must have. The absent node has no children. -/
def requireChildren (store : Store) (reference : NodeRef) (role : Role) :
    Except EditError (List NodeId) :=
  if reference.isNone then .ok []
  else
    match store.roleError? reference role with
    | some error => .error error
    | none => .ok (store.childrenIn reference role)

/-- The first rule that stands against attaching a child to a parent. -/
def attachError? (store : Store) (parent : NodeRef) (role : Role) (child : NodeRef) :
    Option EditError :=
  (store.roleError? parent role).or <|
    match store.node? child with
    | none => some (.missing child)
    | some node =>
      if node.place.isSome then some (.attached child)
      else if store.isAtOrAbove child parent then some (.cyclic child)
      else if !role.holdsMany && !(store.childrenIn parent role).isEmpty then
        some (.occupied parent role)
      else none

/-- Puts an item into a list, at the end if the position is beyond it. -/
def insertAt {α : Type} (position : Nat) (item : α) (items : List α) : List α :=
  items.take position ++ item :: items.drop position

/-- Lists a child under a parent and records its place. -/
def attach (store : Store) (place : Place) (position : Nat) (child : NodeId) : Store :=
  (store.update place.parent (·.updateSlot place.role (insertAt position child))).update child
    ({ · with place := some place })

/-- Takes a child off the list of its parent and forgets its place. -/
def detach (store : Store) (location : Location) (child : NodeId) : Store :=
  (store.update location.place.parent
    (·.updateSlot location.place.role (·.eraseIdx location.position))).update child
    ({ · with place := none })

end Store

namespace Edit

/-- Asks a question about the store. -/
def ask {α : Type} (question : Store → α) : Edit α := do
  return question (← get)

/-- Asks a question that may have an error for an answer. -/
def askOrFail {α : Type} (question : Store → Except EditError α) : Edit α := do
  match question (← get) with
  | .ok answer => return answer
  | .error error => throw error

/-- Adds a node without a place and children. -/
def mkNode (payload : Payload) : Edit NodeId :=
  modifyGet (·.push (.ofPayload payload))

/-- Puts a child at a position of a role, at the end if the position is beyond it. Nothing happens
if the child is absent. -/
def attachAt (parent : NodeRef) (role : Role) (position : Nat) (child : NodeRef) :
    Edit Unit := do
  match child, parent, (← get).attachError? parent role child with
  | none, _, _ => return
  | some _, _, some error => throw error
  | some child, some parent, none => modify (·.attach ⟨parent, role⟩ position child)
  | some _, none, none => return

/-- Puts a child at the end of a role. -/
def attachLast (parent : NodeRef) (role : Role) (child : NodeRef) : Edit Unit := do
  let siblings ← ask (·.childrenIn parent role)
  attachAt parent role siblings.length child

/-- Takes a node away from its parent. Nothing happens to a node without a parent. -/
def detach (node : NodeRef) : Edit Unit := do
  match node, (← get).location? node with
  | some id, some location => modify (·.detach location id)
  | _, _ => return

/-- Puts a child in the place of everything that a role holds; the absent child clears the role. -/
def fillRole (parent : NodeRef) (role : Role) (child : NodeRef) : Edit Unit := do
  for occupant in ← askOrFail (·.requireChildren parent role) do
    detach (some occupant)
  attachLast parent role child

/-- Puts the node that a factory makes in the place of an attached node. The node is detached while
the factory works, so that the factory may use it. If the factory fails and has left the node
detached, the node is put back; if the factory makes no node, the place stays empty. -/
def replaceBy (node : NodeRef) (factory : NodeRef → Edit NodeRef) : Edit NodeRef := do
  let some location ← ask (·.location? node) | throw (.detached node)
  let parent := location.place.parent
  let role := location.place.role
  detach node
  let replacement ← tryCatch (factory node) fun error => do
    if (← ask (·.parent node)).isNone then
      attachAt parent role location.position node
    throw error
  attachAt parent role location.position replacement
  return replacement

/-- Puts a detached node in the place of an attached one. -/
def replace (node replacement : NodeRef) : Edit NodeRef :=
  replaceBy node fun _ => return replacement

/-- Annotates a node with a member. -/
def setMember (node : NodeRef) (member : Member) : Edit Unit :=
  match node with
  | none => return
  | some id => modify (·.update id fun node =>
      { node with annotations := { node.annotations with member := some member } })

/-- Annotates a node with a type. -/
def setType (node : NodeRef) (type : Ty) : Edit Unit :=
  match node with
  | none => return
  | some id => modify (·.update id fun node =>
      { node with annotations := { node.annotations with type := some type } })

end Edit

namespace Store

/-- Copies a node, without its children, to the end of a role. -/
def copyUnder (place : Place) (source : NodeId) (store : Store) : NodeId × Store :=
  match store.node? (some source) with
  | none => (store.size, store)
  | some node =>
    let (copy, store) := store.push
      { Node.ofPayload node.payload with annotations := node.annotations, place := some place }
    (copy, store.update place.parent (·.updateSlot place.role (· ++ [copy])))

/-- Copies the children of a node under its copy, and lists every child with its copy, the last one
first. -/
def copyChildren (node : Node) (copy : NodeId) (store : Store) : List (NodeId × NodeId) × Store :=
  node.slots.foldl
    (fun (pairs, store) slot =>
      slot.children.foldl
        (fun (pairs, store) child =>
          let (childCopy, store) := store.copyUnder ⟨copy, slot.role⟩ child
          ((child, childCopy) :: pairs, store))
        (pairs, store))
    ([], store)

/-- Copies what is below a node under its copy: all children first, then what is below each of
them, from the last child to the first. -/
def copyBelow : (fuel : Nat) → (source copy : NodeId) → Store → Store
  | 0, _, _, store => store
  | fuel + 1, source, copy, store =>
    match store.node? (some source) with
    | none => store
    | some node =>
      let (pairs, store) := store.copyChildren node copy
      pairs.foldl (fun store (child, childCopy) => copyBelow fuel child childCopy store) store

/-- Copies a node and everything below it, annotations included. The copy has no parent. -/
def copyTree (store : Store) (reference : NodeRef) : NodeRef × Store :=
  match reference, store.node? reference with
  | some source, some node =>
    let (copy, copied) := store.push
      { Node.ofPayload node.payload with annotations := node.annotations }
    (some copy, copyBelow store.size source copy copied)
  | _, _ => (none, store)

end Store

namespace Edit

/-- Copies a node and everything below it, annotations included. The copy has no parent. -/
def copyTree (node : NodeRef) : Edit NodeRef :=
  modifyGet (·.copyTree node)

end Edit

end TypedJava

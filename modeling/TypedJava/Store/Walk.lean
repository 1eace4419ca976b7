import TypedJava.Store.Build

/-! # Walking over children

A walk visits the children of a node from the first to the last along their sibling links. The link
to the next sibling is read before a child is visited, so a visit may replace the child or take it
away. A visit that has an outcome ends the walk. -/

namespace TypedJava

/-- A visit of one node: it changes a state and may have an outcome. -/
abbrev Visit (σ α : Type) := NodeId → StateM σ (Option α)

namespace Store

/-- Visits a child and the siblings after it, at most as many as the fuel. -/
def visitSiblings {σ α : Type} (view : σ → Store) (visit : Visit σ α) :
    (fuel : Nat) → NodeRef → StateM σ (Option α)
  | 0, _ => return none
  | _ + 1, none => return none
  | fuel + 1, some child => do
    let next := (view (← get)).nextSibling (some child)
    match ← visit child with
    | some outcome => return some outcome
    | none => visitSiblings view visit fuel next

/-- Visits the children of a node, as many as it has when the walk starts. -/
def visitChildren {σ α : Type} (view : σ → Store) (visit : Visit σ α) (node : NodeRef) :
    StateM σ (Option α) := do
  let store := view (← get)
  visitSiblings view visit (store.children node).length (store.firstChild node)

end Store

namespace Edit

/-- An edit as a visit that ends the walk with the error of the edit. -/
def toVisit (edit : NodeRef → Edit Unit) : Visit Store EditError := fun node => do
  match ← (edit (some node)).run with
  | .ok _ => return none
  | .error error => return some error

/-- Applies an edit to the children of a node; the first error ends the walk. -/
def visitChildren (edit : NodeRef → Edit Unit) (node : NodeRef) : Edit Unit :=
  ExceptT.mk do
    match ← Store.visitChildren id (toVisit edit) node with
    | none => return .ok ()
    | some error => return .error error

end Edit

/-! ## Tours

A tour walks over a whole tree and keeps a log of its visits. It may stop at the first node of a
kind, and it may change every node of a kind instead of going below it. -/

/-- What a tour does to a node. -/
inductive TourAction where
  /-- Take the node away. -/
  | remove
  /-- Put a null literal in its place. -/
  | nullify
  /-- Put its negation in its place. -/
  | negate
  deriving DecidableEq, Repr

/-- One entry in the log of a tour. -/
inductive TourEntry where
  | visit (kind : NodeKind) (node : NodeRef) (depth : Nat)
  | failure (error : EditError)
  deriving Repr

/-- The plan of a tour. -/
structure TourPlan where
  /-- The kind of node at which the tour ends. -/
  stopAt : Option NodeKind
  /-- The kind of node that is changed. -/
  changeAt : Option NodeKind
  action : TourAction
  deriving Repr

/-- A store under a tour, with the log so far, latest entry first. -/
structure TourState where
  store : Store
  log : List TourEntry

namespace TourAction

/-- Carries out an action on a node. -/
def edit (action : TourAction) (node : NodeRef) : Edit Unit :=
  match action with
  | remove => Edit.detach node
  | nullify => do
    let _ ← Edit.replaceBy node fun _ => return some (← Edit.mkNull)
  | negate => do
    let _ ← Edit.replaceBy node fun node => return some (← Edit.mkUnary .minus node)

end TourAction

namespace TourState

/-- Writes an entry into the log. -/
def record (state : TourState) (entry : TourEntry) : TourState :=
  { state with log := entry :: state.log }

/-- Changes a node and records an error of the change. -/
def change (action : TourAction) (node : NodeRef) (state : TourState) : TourState :=
  match (action.edit node).run state.store with
  | (.ok _, store) => { state with store := store }
  | (.error error, store) => { state with store := store, log := .failure error :: state.log }

end TourState

namespace Store

/-- Visits a node and, at most as many levels as the fuel, what is below it. The outcome is the
node at which the tour ends. -/
def tourWithin (plan : TourPlan) :
    (fuel depth : Nat) → NodeRef → StateM TourState (Option NodeRef)
  | 0, _, _ => return none
  | fuel + 1, depth, reference => do
    let kind := (← get).store.kind reference
    let node := if kind = .null then none else reference
    modify (·.record (.visit kind node depth))
    if plan.stopAt = some kind then return some node
    else if plan.changeAt = some kind then
      modify (·.change plan.action node)
      return none
    else if kind = .null || kind = .patternPlaceholder then return none
    else
      visitChildren TourState.store (fun child => tourWithin plan fuel (depth + 1) (some child))
        node

/-- Tours the tree of a node: the log, the node at which the tour ended, and the store after it. -/
def tour (store : Store) (plan : TourPlan) (reference : NodeRef) :
    List TourEntry × Option NodeRef × Store :=
  let (found, state) := (tourWithin plan (store.size + 1) 0 reference).run ⟨store, []⟩
  (state.log.reverse, found, state.store)

end Store

end TypedJava

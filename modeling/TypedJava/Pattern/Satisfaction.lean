import TypedJava.Pattern.Search

/-! # Matching

Does a node satisfy a pattern? A concrete tree matches a node whose payload agrees and whose slots
match one by one, each as a list of siblings; a placeholder in the tree hands over to its pattern.
-/

namespace TypedJava

namespace NodeTest

/-- Passes with the first test that passes; a test that fails leaves nothing behind. -/
def firstOf : List NodeTest → NodeTest
  | [], _, captures => (false, captures)
  | test :: tests, target, captures =>
    match test target captures with
    | (true, captures) => (true, captures)
    | (false, _) => firstOf tests target captures

/-- Passes for a node whose payload agrees and whose slots pass. -/
def ofNode (store : Store) (payload : Payload)
    (testSlots : List (Slot NodeId) → Captures → Bool × Captures) : NodeTest :=
  fun target captures =>
    match store.node? target with
    | none => (false, captures)
    | some node =>
      if payload.agrees node.payload then testSlots node.slots captures else (false, captures)

end NodeTest

mutual

/-- Does a node satisfy a pattern? In a place for one node a repeated pattern takes that node at
most once. -/
def Pattern.test (store : Store) : Pattern → NodeTest
  | .any group, target, captures =>
    if target.isNone then (false, captures) else (true, captures.addTo? group target)
  | .anyOrNull group, target, captures => (true, captures.addTo? group target)
  | .named group inner, target, captures =>
    match Pattern.test store inner target captures with
    | (true, captures) => (true, captures.add group target)
    | (false, _) => (false, captures)
  | .choice alternatives, target, captures =>
    NodeTest.firstOf (Pattern.tests store alternatives) target captures
  | .repeated inner least most, target, captures =>
    if target.isNone then (least == 0, captures)
    else if most = some 0 then (false, captures)
    else Pattern.test store inner target captures
  | .backreference group, target, captures =>
    match captures.last? group with
    | none => (false, captures)
    | some captured => (store.sameTrees captured target, captures)
  | .typed kind group, target, captures =>
    if target.isNone || store.kind target ≠ kind then (false, captures)
    else (true, captures.addTo? group target)
  | .subtree none, target, captures => (target.isNone, captures)
  | .subtree (some tree), target, captures => Tree.test store tree target captures
termination_by structural pattern => pattern

/-- The tests of several patterns. -/
def Pattern.tests (store : Store) : List Pattern → List NodeTest
  | [] => []
  | pattern :: patterns => Pattern.test store pattern :: Pattern.tests store patterns
termination_by structural patterns => patterns

/-- Does a node match a concrete tree? -/
def Tree.test (store : Store) : Tree → NodeTest
  | .node (.placeholder _ pattern) _ _, target, captures =>
    Pattern.test store pattern target captures
  | .node payload _ slots, target, captures =>
    NodeTest.ofNode store payload (Tree.testSlots store slots) target captures
termination_by structural tree => tree

/-- Do slots match slots, as far as both sides have them? -/
def Tree.testSlots (store : Store) :
    List (Slot Tree) → List (Slot NodeId) → Captures → Bool × Captures
  | ⟨_, children⟩ :: slots, target :: targets, captures =>
    match SearchItem.matchAll (Tree.items store children) (target.children.map some) captures with
    | (true, captures) => Tree.testSlots store slots targets captures
    | (false, captures) => (false, captures)
  | _, _, captures => (true, captures)
termination_by structural slots => slots

/-- The children of a concrete tree as items of a search. -/
def Tree.items (store : Store) : List Tree → List SearchItem
  | [] => []
  | tree :: trees => Tree.item store tree :: Tree.items store trees
termination_by structural trees => trees

/-- One child of a concrete tree as an item of a search. -/
def Tree.item (store : Store) : Tree → SearchItem
  | .node (.placeholder _ (.repeated inner least most)) _ _ =>
    .repeated (Pattern.test store inner) least most
  | .node (.placeholder _ pattern) _ _ => .single (Pattern.test store pattern)
  | .node payload _ slots => .single (NodeTest.ofNode store payload (Tree.testSlots store slots))
termination_by structural tree => tree

end

namespace Store

/-- Does a node match a concrete tree? The absent tree matches the absent node. -/
def matchTree (store : Store) (tree : Option Tree) : NodeTest :=
  Pattern.test store (.subtree tree)

/-- Does a list of nodes match a list of concrete trees, laid along it as siblings? -/
def matchList (store : Store) (trees : List (Option Tree)) (targets : List NodeRef)
    (captures : Captures) : Bool × Captures :=
  let items := trees.map fun tree =>
    match tree with
    | none => .single (store.matchTree none)
    | some tree => Tree.item store tree
  SearchItem.matchAll items targets captures

end Store

end TypedJava

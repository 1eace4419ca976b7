import TypedJava.Proofs.Pattern.Captured
import TypedJava.Proofs.Pattern.Positions

/-! # Going back by checkpoints

A match can do with a single log of captures. A checkpoint is the number of captures at some moment,
and going back to it cuts the log to that length; what a search may still try lies on one stack.
A match on one log leaves what a match leaves that keeps the earlier captures aside, because no
checkpoint lies below the captures with which the call began that goes back to it. -/

namespace TypedJava

namespace Captures

theorem take_size (captures : Captures) : captures.take captures.size = captures := by
  simp [take]

theorem Adds.isPrefix
    {groups : List String} {before after : Captures} (adds : before.Adds groups after) :
    before.toList <+: after.toList := by
  obtain ⟨made, split, -⟩ := adds
  rw [toList, toList, split, List.reverse_append]
  exact List.prefix_append _ _

end Captures

/-! ## Searches on one log -/

namespace SearchItem

/-- What a search may still try: the items and the targets that are left, and the checkpoint to go
back to. -/
structure Choice where
  items : List SearchItem
  targets : List NodeRef
  checkpoint : Nat

/-- Puts the runs that a repeated item may take on the stack, with the items after it. The longest run
comes to lie on top. -/
def pushRuns (items : List SearchItem) (test : NodeTest) (least : Nat) (most : Option Nat) :
    (count : Nat) → List NodeRef → Captures → List Choice → List Choice × Captures
  | _, [], captures, stack => (stack, captures)
  | count, target :: targets, captures, stack =>
    if mayGrow most count then
      match test target captures with
      | (false, captures) => (stack, captures)
      | (true, captures) =>
        let stack := if least ≤ count + 1 then ⟨items, targets, captures.size⟩ :: stack else stack
        pushRuns items test least most (count + 1) targets captures stack
    else (stack, captures)

mutual

/-- Goes back to the choice on top of the stack. -/
def resume : List Choice → (stepsLeft : Nat) → Captures → SearchOutcome
  | [], stepsLeft, captures => .failed stepsLeft captures
  | choice :: stack, stepsLeft, captures =>
    advance choice.items choice.targets stack stepsLeft (captures.take choice.checkpoint)
termination_by stack stepsLeft => (stepsLeft, stack.length, 0)

/-- Lays the items along the targets; each item that is reached costs one step. -/
def advance :
    List SearchItem → List NodeRef → List Choice → (stepsLeft : Nat) → Captures → SearchOutcome
  | [], [], _, _, captures => .found captures
  | [], _ :: _, stack, stepsLeft, captures => resume stack stepsLeft captures
  | _ :: _, _, _, 0, captures => .exhausted captures
  | .single test :: items, targets, stack, stepsLeft + 1, captures =>
    match test (targets.headD none) captures with
    | (true, captures) => advance items targets.tail stack stepsLeft captures
    | (false, captures) => resume stack stepsLeft captures
  | .repeated test least most :: items, targets, stack, stepsLeft + 1, captures =>
    let stack := if least = 0 then ⟨items, targets, captures.size⟩ :: stack else stack
    let (stack, captures) := pushRuns items test least most 0 targets captures stack
    resume stack stepsLeft captures
termination_by _ _ stack stepsLeft => (stepsLeft, stack.length, 1)

end

/-- Do the items match all of the targets? All captures go to one log. -/
def matchAllOnLog (items : List SearchItem) (targets : List NodeRef) (captures : Captures) :
    Bool × Captures :=
  match resume [⟨items, targets, captures.size⟩] stepLimit captures with
  | .found captures => (true, captures)
  | .failed _ captures => (false, captures)
  | .exhausted captures => (false, captures)

/-- Goes on with the stack after a search that has failed. -/
def orResume (stack : List Choice) : SearchOutcome → SearchOutcome
  | .failed stepsLeft captures => resume stack stepsLeft captures
  | outcome => outcome

/-- A run as a choice, with the items after it. -/
def choiceOf (items : List SearchItem) (run : Run) : Choice :=
  ⟨items, run.rest, run.captures.size⟩

/-- Each run has been made on top of the captures of the next one, the first one below the captures
of now. -/
def Nested (groups : List String) (runs : List Run) (captures : Captures) : Prop :=
  List.IsChain (fun later earlier : Captures => earlier.Adds groups later)
    (captures :: runs.map (·.captures))

section OneLog

variable {groups : List String} {test : NodeTest} {least : Nat} {most : Option Nat}
  {items : List SearchItem} {before captures : Captures}

theorem nested_nil : Nested groups [] captures :=
  .singleton _

theorem nested_cons {run : Run} {runs : List Run} :
    Nested groups (run :: runs) captures ↔
      run.captures.Adds groups captures ∧ Nested groups runs run.captures := by
  rw [Nested, List.map_cons, List.isChain_cons_cons, Nested]

theorem Nested.trans
    {runs : List Run} (nested : Nested groups runs before) (added : before.Adds groups captures) :
    Nested groups runs captures := by
  cases runs with
  | nil =>
      exact nested_nil
  | cons run runs =>
      rw [nested_cons] at nested ⊢
      exact ⟨nested.1.trans added, nested.2⟩

theorem nested_runs
    (adds : test.Adds groups) (count : Nat) (targets : List NodeRef) {shorter : List Run}
    (nested : Nested groups shorter captures) :
    Nested groups (runs test least most count targets captures shorter).1
      (runs test least most count targets captures shorter).2 := by
  induction targets generalizing count captures shorter with
  | nil =>
      exact nested
  | cons target targets inductionHypothesis =>
      have added := adds target captures
      rw [runs]
      split
      · cases result : test target captures with
        | mk passed after =>
            rw [result] at added
            have nestedAfter := nested.trans added
            cases passed with
            | false =>
                exact nestedAfter
            | true =>
                apply inductionHypothesis
                split
                · exact nested_cons.mpr ⟨.refl after, nestedAfter⟩
                · exact nestedAfter
      · exact nested

theorem pushRuns_eq
    (count : Nat) (targets : List NodeRef) (shorter : List Run) (stack : List Choice) :
    pushRuns items test least most count targets captures
        (shorter.map (choiceOf items) ++ stack) =
      ((runs test least most count targets captures shorter).1.map (choiceOf items) ++ stack,
        (runs test least most count targets captures shorter).2) := by
  induction targets generalizing count captures shorter with
  | nil =>
      rfl
  | cons target targets inductionHypothesis =>
      rw [pushRuns, runs]
      split
      · cases test target captures with
        | mk passed after =>
            cases passed with
            | false =>
                rfl
            | true =>
                simp only
                rw [← inductionHypothesis]
                congr 1
                split <;> rfl
      · rfl

/-- Going back to the runs on the stack tries one after the other. -/
theorem resume_runs
    (adds : ∀ item ∈ items, item.test.Adds groups)
    (advances : ∀ targets stack steps captures,
      advance items targets stack steps captures =
        orResume stack (search items targets steps captures))
    {runs : List Run} (nested : Nested groups runs captures) (stack : List Choice) (steps : Nat) :
    resume (runs.map (choiceOf items) ++ stack) steps captures =
      orResume stack (tryRuns (search items) runs steps captures) := by
  induction runs generalizing captures steps with
  | nil =>
      rfl
  | cons run runs inductionHypothesis =>
      obtain ⟨added, nestedBelow⟩ := nested_cons.mp nested
      have searched := adds_search adds run.rest steps run.captures
      rw [List.map_cons, List.cons_append, resume, choiceOf, added.take_eq, advances, tryRuns]
      cases outcome : search items run.rest steps run.captures with
      | found after =>
          rfl
      | exhausted after =>
          rfl
      | failed stepsLeft after =>
          rw [outcome] at searched
          exact inductionHypothesis (nestedBelow.trans searched) stepsLeft

theorem advance_eq
    (adds : ∀ item ∈ items, item.test.Adds groups) (targets : List NodeRef) (stack : List Choice)
    (steps : Nat) (captures : Captures) :
    advance items targets stack steps captures =
      orResume stack (search items targets steps captures) := by
  induction items generalizing targets stack steps captures with
  | nil =>
      cases targets <;> rw [advance, search] <;> rfl
  | cons item items inductionHypothesis =>
      have itemsAdd := fun other member => adds other (List.mem_cons_of_mem _ member)
      have advances := inductionHypothesis itemsAdd
      cases steps with
      | zero =>
          rw [advance, search]
          rfl
      | succ steps =>
          cases item with
          | single test =>
              rw [advance, search]
              cases test (targets.headD none) captures with
              | mk passed after =>
                  cases passed with
                  | true =>
                      exact advances targets.tail stack steps after
                  | false =>
                      rfl
          | repeated test least most =>
              have testAdds : test.Adds groups := adds _ List.mem_cons_self
              have emptyRun : (if least = 0 then ⟨items, targets, captures.size⟩ :: stack
                  else stack : List Choice) =
                  (if least = 0 then [⟨targets, captures⟩] else [] : List Run).map
                    (choiceOf items) ++ stack := by
                split <;> rfl
              have nested : Nested groups
                  (if least = 0 then [⟨targets, captures⟩] else []) captures := by
                split
                · exact nested_cons.mpr ⟨.refl captures, nested_nil⟩
                · exact nested_nil
              rw [advance, search, emptyRun, pushRuns_eq]
              exact resume_runs itemsAdd advances (nested_runs testAdds 0 targets nested) stack steps

theorem matchAllOnLog_eq
    (adds : ∀ item ∈ items, item.test.Adds groups) (targets : List NodeRef) (captures : Captures) :
    matchAllOnLog items targets captures = matchAll items targets captures := by
  rw [matchAllOnLog, matchAll, resume, captures.take_size, advance_eq adds]
  cases search items targets stepLimit captures with
  | found after =>
      rfl
  | exhausted after =>
      rfl
  | failed stepsLeft after =>
      rw [orResume, resume]

end OneLog

end SearchItem

/-! ## Matches on one log -/

/-- Passes with the first test that passes; after a test that fails it goes back to the checkpoint. -/
def NodeTest.firstOnLog (checkpoint : Nat) : List NodeTest → NodeTest
  | [], _, captures => (false, captures)
  | test :: tests, target, captures =>
    match test target captures with
    | (true, captures) => (true, captures)
    | (false, captures) => firstOnLog checkpoint tests target (captures.take checkpoint)

mutual

/-- Does a node satisfy a pattern? All captures go to one log, also while a part of the pattern is
tried. -/
def Pattern.testOnLog (store : Store) : Pattern → NodeTest
  | .named group inner, target, captures =>
    match Pattern.testOnLog store inner target captures with
    | (true, after) => (true, after.add group target)
    | (false, after) => (false, after.take captures.size)
  | .choice alternatives, target, captures =>
    NodeTest.firstOnLog captures.size (Pattern.testsOnLog store alternatives) target captures
  | .repeated inner least most, target, captures =>
    if target.isNone then (least == 0, captures)
    else if most = some 0 then (false, captures)
    else Pattern.testOnLog store inner target captures
  | .subtree (some tree), target, captures => Tree.testOnLog store tree target captures
  | pattern, target, captures => pattern.test store target captures
termination_by structural pattern => pattern

/-- The tests of several patterns. -/
def Pattern.testsOnLog (store : Store) : List Pattern → List NodeTest
  | [] => []
  | pattern :: patterns => Pattern.testOnLog store pattern :: Pattern.testsOnLog store patterns
termination_by structural patterns => patterns

/-- Does a node match a concrete tree? -/
def Tree.testOnLog (store : Store) : Tree → NodeTest
  | .node (.placeholder _ pattern) _ _, target, captures =>
    Pattern.testOnLog store pattern target captures
  | .node payload _ slots, target, captures =>
    NodeTest.ofNode store payload (Tree.testSlotsOnLog store slots) target captures
termination_by structural tree => tree

/-- Do slots match slots, as far as both sides have them? -/
def Tree.testSlotsOnLog (store : Store) :
    List (Slot Tree) → List (Slot NodeId) → Captures → Bool × Captures
  | ⟨_, children⟩ :: slots, target :: targets, captures =>
    match SearchItem.matchAllOnLog (Tree.itemsOnLog store children) (target.children.map some)
        captures with
    | (true, captures) => Tree.testSlotsOnLog store slots targets captures
    | (false, captures) => (false, captures)
  | _, _, captures => (true, captures)
termination_by structural slots => slots

/-- The children of a concrete tree as items of a search. -/
def Tree.itemsOnLog (store : Store) : List Tree → List SearchItem
  | [] => []
  | tree :: trees => Tree.itemOnLog store tree :: Tree.itemsOnLog store trees
termination_by structural trees => trees

/-- One child of a concrete tree as an item of a search. -/
def Tree.itemOnLog (store : Store) : Tree → SearchItem
  | .node (.placeholder _ (.repeated inner least most)) _ _ =>
    .repeated (Pattern.testOnLog store inner) least most
  | .node (.placeholder _ pattern) _ _ => .single (Pattern.testOnLog store pattern)
  | .node payload _ slots =>
    .single (NodeTest.ofNode store payload (Tree.testSlotsOnLog store slots))
termination_by structural tree => tree

end

theorem NodeTest.firstOnLog_eq
    {groups : List String} {tests : List NodeTest} (adds : ∀ test ∈ tests, test.Adds groups)
    (target : NodeRef) (captures : Captures) :
    firstOnLog captures.size tests target captures = firstOf tests target captures := by
  induction tests with
  | nil =>
      rfl
  | cons test tests inductionHypothesis =>
      have added := adds test List.mem_cons_self target captures
      rw [firstOnLog, firstOf]
      cases result : test target captures with
      | mk passed after =>
          rw [result] at added
          cases passed with
          | true =>
              rfl
          | false =>
              simp only [added.take_eq]
              exact inductionHypothesis fun other member => adds other (List.mem_cons_of_mem _ member)

section Logs

variable (store : Store)

theorem Pattern.adds_test_groups (pattern : Pattern) :
    (pattern.test store).Adds pattern.groups :=
  Pattern.adds_test store pattern.groups pattern (List.Subset.refl _)

mutual

theorem Pattern.testOnLog_eq : (pattern : Pattern) → pattern.testOnLog store = pattern.test store
  | .named group inner => by
      funext target captures
      have added := inner.adds_test_groups store target captures
      rw [Pattern.testOnLog, Pattern.testOnLog_eq inner, Pattern.test]
      cases result : inner.test store target captures with
      | mk passed after =>
          rw [result] at added
          cases passed with
          | true =>
              rfl
          | false =>
              exact congrArg (Prod.mk false) added.take_eq
  | .choice alternatives => by
      funext target captures
      have adds := Pattern.adds_tests store (Pattern.groupsOf alternatives) alternatives
        (List.Subset.refl _)
      rw [Pattern.testOnLog, Pattern.testsOnLog_eq alternatives, Pattern.test]
      exact NodeTest.firstOnLog_eq adds target captures
  | .repeated inner least most => by
      funext target captures
      rw [Pattern.testOnLog, Pattern.testOnLog_eq inner, Pattern.test]
  | .subtree (some tree) => by
      funext target captures
      rw [Pattern.testOnLog, Tree.testOnLog_eq tree, Pattern.test]
  | .any _ | .anyOrNull _ | .backreference _ | .typed _ _ | .subtree none => rfl
termination_by structural pattern => pattern

theorem Pattern.testsOnLog_eq :
    (patterns : List Pattern) → Pattern.testsOnLog store patterns = Pattern.tests store patterns
  | [] => rfl
  | pattern :: patterns => by
      rw [Pattern.testsOnLog, Pattern.tests, Pattern.testOnLog_eq pattern,
        Pattern.testsOnLog_eq patterns]
termination_by structural patterns => patterns

theorem Tree.testOnLog_eq : (tree : Tree) → tree.testOnLog store = tree.test store
  | .node payload annotations slots => by
      cases payload with
      | placeholder number pattern =>
          exact Pattern.testOnLog_eq pattern
      | _ =>
          exact congrArg (NodeTest.ofNode store _) (Tree.testSlotsOnLog_eq slots)
termination_by structural tree => tree

theorem Tree.testSlotsOnLog_eq :
    (slots : List (Slot Tree)) → Tree.testSlotsOnLog store slots = Tree.testSlots store slots
  | [] => rfl
  | ⟨role, children⟩ :: slots => by
      funext targets captures
      have adds := Tree.adds_items store (Tree.groupsOf children) children (List.Subset.refl _)
      cases targets with
      | nil =>
          rfl
      | cons target targets =>
          rw [Tree.testSlotsOnLog, Tree.itemsOnLog_eq children, Tree.testSlotsOnLog_eq slots,
            SearchItem.matchAllOnLog_eq adds]
          rfl
termination_by structural slots => slots

theorem Tree.itemsOnLog_eq :
    (trees : List Tree) → Tree.itemsOnLog store trees = Tree.items store trees
  | [] => rfl
  | tree :: trees => by
      rw [Tree.itemsOnLog, Tree.items, Tree.itemOnLog_eq tree, Tree.itemsOnLog_eq trees]
termination_by structural trees => trees

theorem Tree.itemOnLog_eq : (tree : Tree) → tree.itemOnLog store = tree.item store
  | .node payload annotations slots => by
      cases payload with
      | placeholder number pattern =>
          cases pattern with
          | repeated inner least most =>
              exact congrArg (SearchItem.repeated · least most) (Pattern.testOnLog_eq inner)
          | _ =>
              exact congrArg SearchItem.single (Pattern.testOnLog_eq _)
      | _ =>
          exact congrArg (fun test => SearchItem.single (NodeTest.ofNode store _ test))
            (Tree.testSlotsOnLog_eq slots)
termination_by structural tree => tree

end

end Logs

namespace Store

/-- Does a list of nodes match a list of concrete trees? All captures go to one log. -/
def matchListOnLog (store : Store) (trees : List (Option Tree)) (targets : List NodeRef)
    (captures : Captures) : Bool × Captures :=
  let items := trees.map fun tree =>
    match tree with
    | none => .single (Pattern.testOnLog store (.subtree none))
    | some tree => Tree.itemOnLog store tree
  SearchItem.matchAllOnLog items targets captures

/-- The groups of a list of concrete trees. -/
def groupsOfList (trees : List (Option Tree)) : List String :=
  trees.flatMap fun tree => (tree.map Tree.groups).getD []

theorem adds_searchItem (store : Store) {trees : List (Option Tree)} :
    ∀ item ∈ trees.map store.searchItem, item.test.Adds (groupsOfList trees) := by
  intro item member
  obtain ⟨tree, isTree, rfl⟩ := List.mem_map.mp member
  cases tree with
  | none =>
      exact fun target captures => .refl captures
  | some tree =>
      apply Tree.adds_item
      exact fun group member => List.mem_flatMap.mpr ⟨some tree, isTree, member⟩

theorem matchListOnLog_eq (store : Store) (trees : List (Option Tree)) :
    store.matchListOnLog trees = store.matchList trees := by
  funext targets captures
  have items : (trees.map fun tree =>
      match tree with
      | none => SearchItem.single (Pattern.testOnLog store (.subtree none))
      | some tree => Tree.itemOnLog store tree) = trees.map store.searchItem := by
    apply List.map_congr_left
    intro tree _
    cases tree with
    | none =>
        rfl
    | some tree =>
        exact Tree.itemOnLog_eq store tree
  rw [matchListOnLog, items]
  exact SearchItem.matchAllOnLog_eq store.adds_searchItem targets captures

/-- A match keeps the captures from before, in order and in front of the new ones, whether it succeeds,
fails or runs out of steps. A match on one log that goes back by cutting it off at checkpoints leaves
the same captures. -/
theorem captures_kept_by_match (store : Store) :
    (∀ (pattern : Pattern) (target : NodeRef) (captures : Captures),
      captures.toList <+: (pattern.test store target captures).2.toList ∧
        pattern.testOnLog store target captures = pattern.test store target captures) ∧
    (∀ (tree : Option Tree) (target : NodeRef) (captures : Captures),
      captures.toList <+: (store.matchTree tree target captures).2.toList ∧
        Pattern.testOnLog store (.subtree tree) target captures =
          store.matchTree tree target captures) ∧
    ∀ (trees : List (Option Tree)) (targets : List NodeRef) (captures : Captures),
      captures.toList <+: (store.matchList trees targets captures).2.toList ∧
        store.matchListOnLog trees targets captures = store.matchList trees targets captures := by
  refine ⟨?_, ?_, ?_⟩
  · intro pattern target captures
    exact ⟨(pattern.adds_test_groups store target captures).isPrefix,
      congrFun₂ (pattern.testOnLog_eq store) target captures⟩
  · intro tree target captures
    exact ⟨(Pattern.adds_test_groups store (.subtree tree) target captures).isPrefix,
      congrFun₂ (Pattern.testOnLog_eq store (.subtree tree)) target captures⟩
  · intro trees targets captures
    exact ⟨(SearchItem.adds_matchAll store.adds_searchItem targets captures).isPrefix,
      congrFun₂ (store.matchListOnLog_eq trees) targets captures⟩

end Store

end TypedJava

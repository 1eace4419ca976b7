import TypedJava.Pattern.Satisfaction
import TypedJava.Proofs.Pattern.Split

/-! # Matching without backreferences

A pattern without backreferences accepts a node whatever was captured before. The searches inside of
it take the same turns with every log of captures, also where they run out of steps. -/

namespace TypedJava

/-- The outcome with the captures left out. -/
def SearchOutcome.forget : SearchOutcome → SearchOutcome
  | found _ => .found .empty
  | failed stepsLeft _ => .failed stepsLeft .empty
  | exhausted _ => .exhausted .empty

namespace SearchItem

section Turns

variable {test : NodeTest} {least : Nat} {most : Option Nat}

theorem map_rest_runs
    (steady : test.IsSteady) (targets : List NodeRef) (count : Nat) (first second : Captures)
    {shorter other : List Run} (same : shorter.map Run.rest = other.map Run.rest) :
    (runs test least most count targets first shorter).1.map Run.rest =
      (runs test least most count targets second other).1.map Run.rest := by
  induction targets generalizing count first second shorter other with
  | nil =>
      rw [runs, runs]
      exact same
  | cons target targets inductionHypothesis =>
      have answer := steady target first second
      rw [runs, runs]
      by_cases grows : mayGrow most count = true
      · rw [if_pos grows, if_pos grows]
        cases firstResult : test target first with
        | mk passed firstAfter =>
            cases secondResult : test target second with
            | mk otherPassed secondAfter =>
                rw [firstResult, secondResult] at answer
                cases answer
                cases passed with
                | false =>
                    exact same
                | true =>
                    refine inductionHypothesis _ _ _ ?_
                    split <;> simp [same]
      · rw [if_neg grows, if_neg grows]
        exact same

theorem map_rest_allRuns
    (steady : test.IsSteady) (targets : List NodeRef) (first second : Captures) :
    (allRuns test least most targets first).1.map Run.rest =
      (allRuns test least most targets second).1.map Run.rest := by
  refine map_rest_runs steady targets 0 first second ?_
  split <;> rfl

theorem forget_tryRuns
    {continueWith : List NodeRef → Nat → Captures → SearchOutcome}
    (continues : ∀ rest steps first second,
      (continueWith rest steps first).forget = (continueWith rest steps second).forget)
    {runs others : List Run} (same : runs.map Run.rest = others.map Run.rest) (steps : Nat)
    (first second : Captures) :
    (tryRuns continueWith runs steps first).forget =
      (tryRuns continueWith others steps second).forget := by
  induction runs generalizing others steps first second with
  | nil =>
      cases others with
      | nil =>
          rfl
      | cons other others =>
          cases same
  | cons run runs inductionHypothesis =>
      cases others with
      | nil =>
          cases same
      | cons other others =>
          simp only [List.map_cons, List.cons.injEq] at same
          obtain ⟨sameRest, sameOthers⟩ := same
          have outcomes := continues run.rest steps run.captures other.captures
          rw [tryRuns, tryRuns, ← sameRest]
          cases firstOutcome : continueWith run.rest steps run.captures <;>
            cases secondOutcome : continueWith run.rest steps other.captures <;>
            rw [firstOutcome, secondOutcome] at outcomes <;> cases outcomes
          · rfl
          · exact inductionHypothesis sameOthers _ _ _
          · rfl

theorem forget_search
    {items : List SearchItem} (steady : ∀ item ∈ items, item.test.IsSteady)
    (targets : List NodeRef) (steps : Nat) (first second : Captures) :
    (search items targets steps first).forget = (search items targets steps second).forget := by
  induction items generalizing targets steps first second with
  | nil =>
      cases targets <;> rfl
  | cons item items inductionHypothesis =>
      have itemSteady := steady item List.mem_cons_self
      have itemsSteady := inductionHypothesis fun other member =>
        steady other (List.mem_cons_of_mem _ member)
      cases steps with
      | zero =>
          rw [search, search]
          rfl
      | succ steps =>
          cases item with
          | single test =>
              have answer := itemSteady (targets.headD none) first second
              rw [SearchItem.test] at answer
              rw [search, search]
              cases firstResult : test (targets.headD none) first with
              | mk passed firstAfter =>
                  cases secondResult : test (targets.headD none) second with
                  | mk otherPassed secondAfter =>
                      rw [firstResult, secondResult] at answer
                      cases answer
                      cases passed with
                      | false =>
                          rfl
                      | true =>
                          exact itemsSteady _ _ _ _
          | repeated test least most =>
              rw [search, search]
              exact forget_tryRuns itemsSteady (map_rest_allRuns itemSteady targets first second) _ _ _

theorem matchAll_steady
    {items : List SearchItem} (steady : ∀ item ∈ items, item.test.IsSteady)
    (targets : List NodeRef) (first second : Captures) :
    (matchAll items targets first).1 = (matchAll items targets second).1 := by
  have outcomes := forget_search steady targets stepLimit first second
  rw [matchAll, matchAll]
  cases firstOutcome : search items targets stepLimit first <;>
    cases secondOutcome : search items targets stepLimit second <;>
    rw [firstOutcome, secondOutcome] at outcomes <;> cases outcomes

end Turns

end SearchItem

namespace NodeTest

theorem isSteady_firstOf
    {tests : List NodeTest} (steady : ∀ test ∈ tests, test.IsSteady) :
    IsSteady (firstOf tests) := by
  intro target first second
  induction tests with
  | nil =>
      rfl
  | cons test tests inductionHypothesis =>
      have answer := steady test List.mem_cons_self target first second
      rw [firstOf, firstOf]
      cases firstResult : test target first with
      | mk passed firstAfter =>
          cases secondResult : test target second with
          | mk otherPassed secondAfter =>
              rw [firstResult, secondResult] at answer
              cases answer
              cases passed with
              | true =>
                  rfl
              | false =>
                  exact inductionHypothesis fun other member =>
                    steady other (List.mem_cons_of_mem _ member)

theorem isSteady_ofNode
    {store : Store} {payload : Payload}
    {testSlots : List (Slot NodeId) → Captures → Bool × Captures}
    (steady : ∀ slots first second, (testSlots slots first).1 = (testSlots slots second).1) :
    IsSteady (ofNode store payload testSlots) := by
  intro target first second
  rw [ofNode, ofNode]
  split
  · rfl
  · split
    · exact steady _ _ _
    · rfl

end NodeTest

/-! ## Patterns without backreferences -/

mutual

/-- The pattern has no backreference anywhere inside. -/
def Pattern.isDirect : Pattern → Bool
  | .named _ inner => Pattern.isDirect inner
  | .choice alternatives => Pattern.areDirect alternatives
  | .repeated inner _ _ => Pattern.isDirect inner
  | .backreference _ => false
  | .subtree (some tree) => Tree.isDirect tree
  | .any _ | .anyOrNull _ | .typed _ _ | .subtree none => true
termination_by structural pattern => pattern

def Pattern.areDirect : List Pattern → Bool
  | [] => true
  | pattern :: patterns => Pattern.isDirect pattern && Pattern.areDirect patterns
termination_by structural patterns => patterns

/-- No placeholder in the tree has a backreference anywhere inside. -/
def Tree.isDirect : Tree → Bool
  | .node (.placeholder _ pattern) _ slots => Pattern.isDirect pattern && Tree.slotsAreDirect slots
  | .node _ _ slots => Tree.slotsAreDirect slots
termination_by structural tree => tree

def Tree.slotsAreDirect : List (Slot Tree) → Bool
  | [] => true
  | ⟨_, children⟩ :: slots => Tree.areDirect children && Tree.slotsAreDirect slots
termination_by structural slots => slots

def Tree.areDirect : List Tree → Bool
  | [] => true
  | tree :: trees => Tree.isDirect tree && Tree.areDirect trees
termination_by structural trees => trees

end

mutual

theorem Pattern.isSteady_test (store : Store) :
    (pattern : Pattern) → pattern.isDirect = true → (Pattern.test store pattern).IsSteady
  | .any group, _ => fun target first second => by
      rw [Pattern.test, Pattern.test]
      split <;> rfl
  | .anyOrNull group, _ => fun target first second => by
      rw [Pattern.test, Pattern.test]
  | .named group inner, direct => fun target first second => by
      have answer := Pattern.isSteady_test store inner direct target first second
      rw [Pattern.test, Pattern.test]
      cases firstResult : Pattern.test store inner target first with
      | mk passed firstAfter =>
          cases secondResult : Pattern.test store inner target second with
          | mk otherPassed secondAfter =>
              rw [firstResult, secondResult] at answer
              cases answer
              cases passed <;> rfl
  | .choice alternatives, direct => fun target first second => by
      rw [Pattern.test, Pattern.test]
      exact NodeTest.isSteady_firstOf (Pattern.areSteady_tests store alternatives direct) _ _ _
  | .repeated inner least most, direct => fun target first second => by
      rw [Pattern.test, Pattern.test]
      split
      · rfl
      · split
        · rfl
        · exact Pattern.isSteady_test store inner direct target first second
  | .backreference group, direct => by cases direct
  | .typed kind group, _ => fun target first second => by
      rw [Pattern.test, Pattern.test]
      split <;> rfl
  | .subtree none, _ => fun target first second => by
      rw [Pattern.test, Pattern.test]
  | .subtree (some tree), direct => fun target first second => by
      rw [Pattern.test, Pattern.test]
      exact Tree.isSteady_test store tree direct target first second
termination_by structural pattern => pattern

theorem Pattern.areSteady_tests (store : Store) :
    (patterns : List Pattern) → Pattern.areDirect patterns = true →
      ∀ test ∈ Pattern.tests store patterns, test.IsSteady
  | [], _, _, member => by cases member
  | pattern :: patterns, direct, test, member => by
      rw [Pattern.areDirect, Bool.and_eq_true] at direct
      rw [Pattern.tests] at member
      rcases List.mem_cons.mp member with rfl | later
      · exact Pattern.isSteady_test store pattern direct.1
      · exact Pattern.areSteady_tests store patterns direct.2 test later
termination_by structural patterns => patterns

theorem Tree.isSteady_test (store : Store) :
    (tree : Tree) → tree.isDirect = true → (Tree.test store tree).IsSteady
  | .node payload annotations slots, direct => by
      cases payload with
      | placeholder number pattern =>
          rw [Tree.isDirect, Bool.and_eq_true] at direct
          exact Pattern.isSteady_test store pattern direct.1
      | _ =>
          exact NodeTest.isSteady_ofNode (Tree.testSlots_steady store slots direct)
termination_by structural tree => tree

theorem Tree.testSlots_steady (store : Store) :
    (slots : List (Slot Tree)) → Tree.slotsAreDirect slots = true →
      ∀ (targets : List (Slot NodeId)) (first second : Captures),
        (Tree.testSlots store slots targets first).1 = (Tree.testSlots store slots targets second).1
  | [], _, targets, first, second => by
      rw [Tree.testSlots, Tree.testSlots] <;> simp
  | ⟨_, children⟩ :: slots, direct, [], first, second => by
      rw [Tree.testSlots, Tree.testSlots] <;> simp
  | ⟨_, children⟩ :: slots, direct, target :: targets, first, second => by
      rw [Tree.slotsAreDirect, Bool.and_eq_true] at direct
      have answer := SearchItem.matchAll_steady (Tree.areSteady_items store children direct.1)
        (target.children.map some) first second
      rw [Tree.testSlots, Tree.testSlots]
      cases firstResult : SearchItem.matchAll (Tree.items store children)
          (target.children.map some) first with
      | mk passed firstAfter =>
          cases secondResult : SearchItem.matchAll (Tree.items store children)
              (target.children.map some) second with
          | mk otherPassed secondAfter =>
              rw [firstResult, secondResult] at answer
              cases answer
              cases passed with
              | false =>
                  rfl
              | true =>
                  exact Tree.testSlots_steady store slots direct.2 targets firstAfter secondAfter
termination_by structural slots => slots

theorem Tree.areSteady_items (store : Store) :
    (trees : List Tree) → Tree.areDirect trees = true →
      ∀ item ∈ Tree.items store trees, item.test.IsSteady
  | [], _, _, member => by cases member
  | tree :: trees, direct, item, member => by
      rw [Tree.areDirect, Bool.and_eq_true] at direct
      rw [Tree.items] at member
      rcases List.mem_cons.mp member with rfl | later
      · exact Tree.isSteady_item store tree direct.1
      · exact Tree.areSteady_items store trees direct.2 item later
termination_by structural trees => trees

theorem Tree.isSteady_item (store : Store) :
    (tree : Tree) → tree.isDirect = true → (Tree.item store tree).test.IsSteady
  | .node payload annotations slots, direct => by
      cases payload with
      | placeholder number pattern =>
          rw [Tree.isDirect, Bool.and_eq_true] at direct
          cases pattern with
          | repeated inner least most =>
              exact Pattern.isSteady_test store inner direct.1
          | _ =>
              exact Pattern.isSteady_test store _ direct.1
      | _ =>
          exact NodeTest.isSteady_ofNode (Tree.testSlots_steady store slots direct)
termination_by structural tree => tree

end

end TypedJava

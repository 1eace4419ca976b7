import TypedJava.Pattern.Satisfaction
import TypedJava.Proofs.Pattern.Split

/-! # What a match captures

A match adds captures for groups of its pattern to what was captured before, whether it succeeds or
fails. -/

namespace TypedJava

namespace Captures

/-- The later captures are the earlier ones with captures for some groups on top. -/
def Adds (groups : List String) (before after : Captures) : Prop :=
  ∃ made, after.latestFirst = made ++ before.latestFirst ∧
    ∀ capture ∈ made, capture.group ∈ groups

namespace Adds

variable {groups : List String} {before middle after : Captures}

theorem refl (captures : Captures) : captures.Adds groups captures :=
  ⟨[], rfl, fun _ absent => absurd absent List.not_mem_nil⟩

theorem trans (first : before.Adds groups middle) (second : middle.Adds groups after) :
    before.Adds groups after := by
  obtain ⟨made, split, inGroups⟩ := first
  obtain ⟨later, laterSplit, laterInGroups⟩ := second
  refine ⟨later ++ made, by rw [laterSplit, split, List.append_assoc], ?_⟩
  intro capture member
  rcases List.mem_append.mp member with isLater | isMade
  · exact laterInGroups capture isLater
  · exact inGroups capture isMade

theorem add {group : String} (member : group ∈ groups) (captures : Captures) (node : NodeRef) :
    captures.Adds groups (captures.add group node) := by
  refine ⟨[⟨group, node⟩], rfl, ?_⟩
  intro capture isMade
  rw [List.mem_singleton.mp isMade]
  exact member

theorem addTo?
    {group : Option String} (subset : group.toList ⊆ groups) (captures : Captures)
    (node : NodeRef) :
    captures.Adds groups (captures.addTo? group node) := by
  cases group with
  | none =>
      exact .refl captures
  | some group =>
      exact .add (subset (List.mem_singleton.mpr rfl)) captures node

theorem eq_of_nil (adds : before.Adds [] after) : after = before := by
  obtain ⟨made, split, inGroups⟩ := adds
  have none : made = [] := List.eq_nil_iff_forall_not_mem.mpr fun capture member =>
    absurd (inGroups capture member) List.not_mem_nil
  rw [none, List.nil_append] at split
  exact congrArg Captures.mk split

theorem take_eq (adds : before.Adds groups after) : after.take before.size = before := by
  obtain ⟨made, split, _⟩ := adds
  simp [take, size, split]

end Adds

end Captures

namespace NodeTest

/-- The test only adds captures for some groups. -/
def Adds (groups : List String) (test : NodeTest) : Prop :=
  ∀ target (captures : Captures), captures.Adds groups (test target captures).2

theorem adds_firstOf
    {groups : List String} {tests : List NodeTest} (adds : ∀ test ∈ tests, test.Adds groups) :
    (firstOf tests).Adds groups := by
  intro target captures
  induction tests with
  | nil =>
      exact .refl captures
  | cons test tests inductionHypothesis =>
      have first := adds test List.mem_cons_self target captures
      rw [firstOf]
      cases result : test target captures with
      | mk passed after =>
          rw [result] at first
          cases passed with
          | true =>
              exact first
          | false =>
              apply inductionHypothesis
              exact fun other member => adds other (List.mem_cons_of_mem _ member)

theorem adds_ofNode
    {groups : List String} {store : Store} {payload : Payload}
    {testSlots : List (Slot NodeId) → Captures → Bool × Captures}
    (adds : ∀ slots (captures : Captures), captures.Adds groups (testSlots slots captures).2) :
    (ofNode store payload testSlots).Adds groups := by
  intro target captures
  rw [ofNode]
  split
  · exact .refl captures
  · split
    · exact adds _ captures
    · exact .refl captures

end NodeTest

/-- The captures that a search leaves. -/
def SearchOutcome.captures : SearchOutcome → Captures
  | found captures => captures
  | failed _ captures => captures
  | exhausted captures => captures

namespace SearchItem

section Searches

variable {groups : List String} {test : NodeTest} {least : Nat} {most : Option Nat}
  {before captures : Captures}

theorem adds_runs
    (adds : test.Adds groups) (added : before.Adds groups captures) {shorter : List Run}
    (each : ∀ run ∈ shorter, before.Adds groups run.captures) (count : Nat)
    (targets : List NodeRef) :
    (∀ run ∈ (runs test least most count targets captures shorter).1,
      before.Adds groups run.captures) ∧
      before.Adds groups (runs test least most count targets captures shorter).2 := by
  induction targets generalizing count captures shorter with
  | nil =>
      exact ⟨each, added⟩
  | cons target targets inductionHypothesis =>
      have here := added.trans (adds target captures)
      rw [runs]
      split
      · cases result : test target captures with
        | mk passed after =>
            rw [result] at here
            cases passed with
            | false =>
                exact ⟨each, here⟩
            | true =>
                apply inductionHypothesis here
                intro run member
                split at member
                · rcases List.mem_cons.mp member with rfl | isShorter
                  · exact here
                  · exact each run isShorter
                · exact each run member
      · exact ⟨each, added⟩

theorem adds_allRuns (adds : test.Adds groups) (targets : List NodeRef) (captures : Captures) :
    (∀ run ∈ (allRuns test least most targets captures).1, captures.Adds groups run.captures) ∧
      captures.Adds groups (allRuns test least most targets captures).2 := by
  apply adds_runs adds (.refl captures)
  intro run member
  split at member
  · rw [List.mem_singleton.mp member]
    exact .refl captures
  · cases member

theorem adds_tryRuns
    {continueWith : List NodeRef → Nat → Captures → SearchOutcome}
    (continues : ∀ rest steps (captures : Captures),
      captures.Adds groups (continueWith rest steps captures).captures)
    {runs : List Run} (each : ∀ run ∈ runs, before.Adds groups run.captures) (steps : Nat)
    (added : before.Adds groups captures) :
    before.Adds groups (tryRuns continueWith runs steps captures).captures := by
  induction runs generalizing steps captures with
  | nil =>
      exact added
  | cons run runs inductionHypothesis =>
      have here := (each run List.mem_cons_self).trans (continues run.rest steps run.captures)
      rw [tryRuns]
      cases outcome : continueWith run.rest steps run.captures with
      | found after =>
          rw [outcome] at here
          exact here
      | exhausted after =>
          rw [outcome] at here
          exact here
      | failed stepsLeft after =>
          rw [outcome] at here
          exact inductionHypothesis (fun other member => each other (List.mem_cons_of_mem _ member))
            stepsLeft here

theorem adds_search
    {items : List SearchItem} (adds : ∀ item ∈ items, item.test.Adds groups)
    (targets : List NodeRef) (steps : Nat) (captures : Captures) :
    captures.Adds groups (search items targets steps captures).captures := by
  induction items generalizing targets steps captures with
  | nil =>
      cases targets <;> exact .refl captures
  | cons item items inductionHypothesis =>
      have itemAdds := adds item List.mem_cons_self
      have itemsAdd := inductionHypothesis fun other member =>
        adds other (List.mem_cons_of_mem _ member)
      cases steps with
      | zero =>
          exact .refl captures
      | succ steps =>
          cases item with
          | single test =>
              have here := itemAdds (targets.headD none) captures
              rw [SearchItem.test] at here
              rw [search]
              cases result : test (targets.headD none) captures with
              | mk passed after =>
                  rw [result] at here
                  cases passed with
                  | true =>
                      exact here.trans (itemsAdd targets.tail steps after)
                  | false =>
                      exact here
          | repeated test least most =>
              obtain ⟨each, added⟩ := adds_allRuns itemAdds targets captures
              rw [search]
              exact adds_tryRuns itemsAdd each steps added

theorem adds_matchAll
    {items : List SearchItem} (adds : ∀ item ∈ items, item.test.Adds groups)
    (targets : List NodeRef) (captures : Captures) :
    captures.Adds groups (matchAll items targets captures).2 := by
  have searched := adds_search adds targets stepLimit captures
  rw [matchAll]
  cases outcome : search items targets stepLimit captures <;> rw [outcome] at searched <;>
    exact searched

end Searches

end SearchItem

/-! ## The groups of a pattern -/

mutual

/-- The groups for which a match of the pattern may capture. -/
def Pattern.groups : Pattern → List String
  | .any group | .anyOrNull group | .typed _ group => group.toList
  | .named group inner => group :: Pattern.groups inner
  | .choice alternatives => Pattern.groupsOf alternatives
  | .repeated inner _ _ => Pattern.groups inner
  | .subtree (some tree) => Tree.groups tree
  | .backreference _ | .subtree none => []
termination_by structural pattern => pattern

def Pattern.groupsOf : List Pattern → List String
  | [] => []
  | pattern :: patterns => Pattern.groups pattern ++ Pattern.groupsOf patterns
termination_by structural patterns => patterns

def Tree.groups : Tree → List String
  | .node (.placeholder _ pattern) _ _ => Pattern.groups pattern
  | .node _ _ slots => Tree.slotGroups slots
termination_by structural tree => tree

def Tree.slotGroups : List (Slot Tree) → List String
  | [] => []
  | ⟨_, children⟩ :: slots => Tree.groupsOf children ++ Tree.slotGroups slots
termination_by structural slots => slots

def Tree.groupsOf : List Tree → List String
  | [] => []
  | tree :: trees => Tree.groups tree ++ Tree.groupsOf trees
termination_by structural trees => trees

end

section Groups

variable (store : Store) (groups : List String)

mutual

theorem Pattern.adds_test :
    (pattern : Pattern) → pattern.groups ⊆ groups → (Pattern.test store pattern).Adds groups
  | .any group, subset => fun target captures => by
      rw [Pattern.test]
      split
      · exact .refl captures
      · exact .addTo? subset captures target
  | .anyOrNull group, subset => fun target captures => by
      rw [Pattern.test]
      exact .addTo? subset captures target
  | .named group inner, subset => fun target captures => by
      rw [Pattern.groups, List.cons_subset] at subset
      have added := Pattern.adds_test inner subset.2 target captures
      rw [Pattern.test]
      cases result : Pattern.test store inner target captures with
      | mk passed after =>
          rw [result] at added
          cases passed with
          | true =>
              exact added.trans (.add subset.1 after target)
          | false =>
              exact .refl captures
  | .choice alternatives, subset => fun target captures => by
      rw [Pattern.test]
      exact NodeTest.adds_firstOf (Pattern.adds_tests alternatives subset) target captures
  | .repeated inner least most, subset => fun target captures => by
      rw [Pattern.test]
      split
      · exact .refl captures
      · split
        · exact .refl captures
        · exact Pattern.adds_test inner subset target captures
  | .backreference group, _ => fun target captures => by
      rw [Pattern.test]
      split <;> exact .refl captures
  | .typed kind group, subset => fun target captures => by
      rw [Pattern.test]
      split
      · exact .refl captures
      · exact .addTo? subset captures target
  | .subtree none, _ => fun target captures => by
      rw [Pattern.test]
      exact .refl captures
  | .subtree (some tree), subset => fun target captures => by
      rw [Pattern.test]
      exact Tree.adds_test tree subset target captures
termination_by structural pattern => pattern

theorem Pattern.adds_tests :
    (patterns : List Pattern) → Pattern.groupsOf patterns ⊆ groups →
      ∀ test ∈ Pattern.tests store patterns, test.Adds groups
  | [], _, _, member => by cases member
  | pattern :: patterns, subset, test, member => by
      rw [Pattern.groupsOf, List.append_subset] at subset
      rw [Pattern.tests] at member
      rcases List.mem_cons.mp member with rfl | later
      · exact Pattern.adds_test pattern subset.1
      · exact Pattern.adds_tests patterns subset.2 test later
termination_by structural patterns => patterns

theorem Tree.adds_test :
    (tree : Tree) → tree.groups ⊆ groups → (Tree.test store tree).Adds groups
  | .node payload annotations slots, subset => by
      cases payload with
      | placeholder number pattern =>
          exact Pattern.adds_test pattern subset
      | _ =>
          exact NodeTest.adds_ofNode (Tree.adds_testSlots slots subset)
termination_by structural tree => tree

theorem Tree.adds_testSlots :
    (slots : List (Slot Tree)) → Tree.slotGroups slots ⊆ groups →
      ∀ (targets : List (Slot NodeId)) (captures : Captures),
        captures.Adds groups (Tree.testSlots store slots targets captures).2
  | [], _, targets, captures => by
      rw [Tree.testSlots]
      · exact .refl captures
      · simp
  | ⟨_, children⟩ :: slots, subset, [], captures => by
      rw [Tree.testSlots]
      · exact .refl captures
      · simp
  | ⟨_, children⟩ :: slots, subset, target :: targets, captures => by
      rw [Tree.slotGroups, List.append_subset] at subset
      have added := SearchItem.adds_matchAll (Tree.adds_items children subset.1)
        (target.children.map some) captures
      rw [Tree.testSlots]
      cases result : SearchItem.matchAll (Tree.items store children)
          (target.children.map some) captures with
      | mk passed after =>
          rw [result] at added
          cases passed with
          | true =>
              exact added.trans (Tree.adds_testSlots slots subset.2 targets after)
          | false =>
              exact added
termination_by structural slots => slots

theorem Tree.adds_items :
    (trees : List Tree) → Tree.groupsOf trees ⊆ groups →
      ∀ item ∈ Tree.items store trees, item.test.Adds groups
  | [], _, _, member => by cases member
  | tree :: trees, subset, item, member => by
      rw [Tree.groupsOf, List.append_subset] at subset
      rw [Tree.items] at member
      rcases List.mem_cons.mp member with rfl | later
      · exact Tree.adds_item tree subset.1
      · exact Tree.adds_items trees subset.2 item later
termination_by structural trees => trees

theorem Tree.adds_item :
    (tree : Tree) → tree.groups ⊆ groups → (Tree.item store tree).test.Adds groups
  | .node payload annotations slots, subset => by
      cases payload with
      | placeholder number pattern =>
          cases pattern with
          | repeated inner least most =>
              exact Pattern.adds_test inner subset
          | _ =>
              exact Pattern.adds_test _ subset
      | _ =>
          exact NodeTest.adds_ofNode (Tree.adds_testSlots slots subset)
termination_by structural tree => tree

end

end Groups

end TypedJava

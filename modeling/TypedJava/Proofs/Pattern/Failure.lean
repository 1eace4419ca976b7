import TypedJava.Proofs.Edit.Structural
import TypedJava.Proofs.Pattern.Captured

/-! # Captures after a failed match

A failed match may leave captures behind, but not where a pattern goes back to what was captured
before it, nor where nothing can fail any more after a capture. -/

namespace TypedJava

namespace NodeTest

/-- The test leaves the captures alone when it fails. -/
def Restores (test : NodeTest) : Prop :=
  ∀ target captures, (test target captures).1 = false → (test target captures).2 = captures

theorem restores_firstOf (tests : List NodeTest) : (firstOf tests).Restores := by
  intro target captures failed
  induction tests with
  | nil =>
      rfl
  | cons test tests inductionHypothesis =>
      rw [firstOf] at failed ⊢
      cases result : test target captures with
      | mk passed after =>
          rw [result] at failed
          cases passed with
          | true =>
              cases failed
          | false =>
              exact inductionHypothesis failed

theorem restores_ofNode
    {store : Store} {payload : Payload}
    {testSlots : List (Slot NodeId) → Captures → Bool × Captures}
    (restores : ∀ target node, store.node? target = some node → payload.agrees node.payload = true →
      ∀ captures, (testSlots node.slots captures).1 = false →
        (testSlots node.slots captures).2 = captures) :
    (ofNode store payload testSlots).Restores := by
  intro target captures failed
  rw [ofNode] at failed ⊢
  split at failed
  · rfl
  case h_2 node found =>
    split at failed
    · rename_i agrees
      rw [if_pos agrees]
      exact restores target node found agrees captures failed
    · rename_i disagrees
      rw [if_neg disagrees]

end NodeTest

namespace SearchItem

section Searches

variable {test : NodeTest} {least : Nat} {most : Option Nat} {captures : Captures}

/-- The search succeeds, or it leaves the captures from before. -/
def FindsOrRestores (items : List SearchItem) (targets : List NodeRef) : Prop :=
  ∀ steps captures, (∃ after, search items targets (steps + 1) captures = .found after) ∨
    (search items targets (steps + 1) captures).captures = captures

theorem FindsOrRestores.restores
    {items : List SearchItem} {targets : List NodeRef} (finds : FindsOrRestores items targets)
    (failed : (matchAll items targets captures).1 = false) :
    (matchAll items targets captures).2 = captures := by
  have searched : (∃ after, search items targets stepLimit captures = .found after) ∨
      (search items targets stepLimit captures).captures = captures := finds 99999 captures
  rw [matchAll] at failed ⊢
  cases outcome : search items targets stepLimit captures with
  | found after =>
      rw [outcome] at failed
      cases failed
  | failed stepsLeft after =>
      simpa [outcome, SearchOutcome.captures] using searched
  | exhausted after =>
      simpa [outcome, SearchOutcome.captures] using searched

theorem findsOrRestores_single
    (restores : test.Restores) {targets : List NodeRef} (few : targets.length ≤ 1) :
    FindsOrRestores [.single test] targets := by
  intro steps captures
  have noneLeft : targets.tail = [] := by
    apply List.eq_nil_of_length_eq_zero
    rw [List.length_tail]
    omega
  have kept := restores (targets.headD none) captures
  rw [search]
  cases result : test (targets.headD none) captures with
  | mk passed after =>
      rw [result] at kept
      cases passed with
      | true =>
          simp only [noneLeft, search]
          exact Or.inl ⟨after, rfl⟩
      | false =>
          exact Or.inr (kept rfl)

/-- A repeated item takes all of at most one target, or it captures nothing. -/
theorem allRuns_of_few
    (least_le : least ≤ 1) (restores : most = some 0 ∨ test.Restores) {targets : List NodeRef}
    (few : targets.length ≤ 1) (captures : Captures) :
    (∃ after shorter, (allRuns test least most targets captures).1 = ⟨[], after⟩ :: shorter) ∨
      (∀ run ∈ (allRuns test least most targets captures).1, run.captures = captures) ∧
        (allRuns test least most targets captures).2 = captures := by
  have emptyRun : ∀ run ∈ (if least = 0 then [⟨targets, captures⟩] else [] : List Run),
      run.captures = captures := by
    intro run member
    split at member
    · rw [List.mem_singleton.mp member]
    · cases member
  rw [allRuns]
  cases targets with
  | nil =>
      exact Or.inr ⟨emptyRun, rfl⟩
  | cons target targets =>
      have alone : targets = [] := by
        apply List.eq_nil_of_length_eq_zero
        rw [List.length_cons] at few
        omega
      subst alone
      rw [runs]
      by_cases grows : mayGrow most 0 = true
      · rw [if_pos grows]
        have testRestores : test.Restores := by
          apply restores.resolve_left
          rintro rfl
          cases grows
        have kept := testRestores target captures
        cases result : test target captures with
        | mk passed after =>
            rw [result] at kept
            cases passed with
            | false =>
                exact Or.inr ⟨emptyRun, kept rfl⟩
            | true =>
                simp only [runs, if_pos least_le]
                exact Or.inl ⟨after, _, rfl⟩
      · rw [if_neg grows]
        exact Or.inr ⟨emptyRun, rfl⟩

theorem findsOrRestores_repeated
    (least_le : least ≤ 1) (restores : most = some 0 ∨ test.Restores) {targets : List NodeRef}
    (few : targets.length ≤ 1) :
    FindsOrRestores [.repeated test least most] targets := by
  intro steps captures
  rw [search]
  rcases allRuns_of_few least_le restores few captures with
    ⟨after, shorter, isFirst⟩ | ⟨each, kept⟩
  · simp only [isFirst, tryRuns, search]
    exact Or.inl ⟨after, rfl⟩
  · have noGroups : ∀ item ∈ ([] : List SearchItem), item.test.Adds [] := by simp
    have eachAdded : ∀ run ∈ (allRuns test least most targets captures).1,
        captures.Adds [] run.captures := by
      intro run member
      rw [each run member]
      exact .refl captures
    have added : captures.Adds [] (allRuns test least most targets captures).2 := by
      rw [kept]
      exact .refl captures
    exact Or.inr (adds_tryRuns (adds_search noGroups) eachAdded steps added).eq_of_nil

end Searches

end SearchItem

/-! ## Patterns that fail without a capture -/

mutual

/-- Nothing in the pattern can fail after a capture, unless the pattern goes back to what was captured
before it. -/
def Pattern.isTidy : Pattern → Bool
  | .repeated inner _ most => most == some 0 || Pattern.isTidy inner
  | .subtree (some tree) => Tree.isTidy tree
  | .any _ | .anyOrNull _ | .named _ _ | .choice _ | .backreference _ | .typed _ _
  | .subtree none => true
termination_by structural pattern => pattern

def Tree.isTidy : Tree → Bool
  | .node (.placeholder _ pattern) _ _ => Pattern.isTidy pattern
  | .node payload _ slots => Tree.slotsAreTidy slots payload.kind.roles
termination_by structural tree => tree

/-- No slot captures, except for the last one if that is for a single node. -/
def Tree.slotsAreTidy : List (Slot Tree) → List Role → Bool
  | [], _ => true
  | ⟨_, children⟩ :: slots, roles =>
    ((Tree.groupsOf children).isEmpty && Tree.slotsAreTidy slots roles.tail) ||
      (slots.isEmpty && roles.head?.any (!·.holdsMany) && Tree.isTidyAlone children)
termination_by structural slots => slots

/-- The only one of the trees can stand for a single node. -/
def Tree.isTidyAlone : List Tree → Bool
  | [tree] => Tree.isTidyItem tree
  | _ => false
termination_by structural trees => trees

def Tree.isTidyItem : Tree → Bool
  | .node (.placeholder _ (.repeated inner least most)) _ _ =>
    least ≤ 1 && (most == some 0 || Pattern.isTidy inner)
  | .node (.placeholder _ pattern) _ _ => Pattern.isTidy pattern
  | .node payload _ slots => Tree.slotsAreTidy slots payload.kind.roles
termination_by structural tree => tree

end

theorem Payload.kind_eq_of_agrees
    {payload target : Payload} (agrees : payload.agrees target = true) :
    payload.kind = target.kind := by
  rw [Payload.agrees.eq_def] at agrees
  split at agrees
  all_goals first | rfl | exact eq_of_beq agrees

/-- A slot for a single node has at most one node. -/
theorem Store.WellFormed.length_children_le_one
    {store : Store} (wellFormed : store.WellFormed) {target : NodeRef} {node : Node}
    (found : store.node? target = some node) {slot : Slot NodeId} (member : slot ∈ node.slots)
    (single : slot.role.holdsMany = false) :
    slot.children.length ≤ 1 := by
  cases target with
  | none =>
      cases found
  | some id =>
      have few := wellFormed.single id slot.role single
      rw [Store.childrenIn_of_node? found] at few
      rwa [Node.childrenIn, Slot.childrenIn_of_mem (wellFormed.roles_nodup found) member] at few

/-- What a test of slots for some roles leaves when it fails. -/
def Tree.RestoresAlong (roles : List Role)
    (testSlots : List (Slot NodeId) → Captures → Bool × Captures) : Prop :=
  ∀ targets : List (Slot NodeId), targets.map (·.role) = roles →
    (∀ slot ∈ targets, slot.role.holdsMany = false → slot.children.length ≤ 1) →
    ∀ captures, (testSlots targets captures).1 = false → (testSlots targets captures).2 = captures

theorem Store.WellFormed.restores_ofNode
    {store : Store} (wellFormed : store.WellFormed) {payload : Payload}
    {testSlots : List (Slot NodeId) → Captures → Bool × Captures}
    (restores : Tree.RestoresAlong payload.kind.roles testSlots) :
    (NodeTest.ofNode store payload testSlots).Restores := by
  apply NodeTest.restores_ofNode
  intro target node found agrees
  apply restores node.slots
  · rw [Payload.kind_eq_of_agrees agrees]
    cases target with
    | none =>
        cases found
    | some id =>
        exact wellFormed.slots_match id node found
  · intro slot member
    exact wellFormed.length_children_le_one found member

section Tidy

variable {store : Store}

mutual

theorem Pattern.restores_test (wellFormed : store.WellFormed) :
    (pattern : Pattern) → pattern.isTidy = true → (Pattern.test store pattern).Restores
  | .any group, _ => fun target captures failed => by
      rw [Pattern.test] at failed ⊢
      split at failed
      · rename_i absent
        rw [if_pos absent]
      · cases failed
  | .anyOrNull group, _ => fun target captures failed => by
      rw [Pattern.test] at failed
      cases failed
  | .named group inner, _ => fun target captures failed => by
      rw [Pattern.test] at failed ⊢
      cases result : Pattern.test store inner target captures with
      | mk passed after =>
          rw [result] at failed
          cases passed with
          | true =>
              cases failed
          | false =>
              rfl
  | .choice alternatives, _ => fun target captures failed => by
      rw [Pattern.test] at failed ⊢
      exact NodeTest.restores_firstOf _ target captures failed
  | .repeated inner least most, tidy => fun target captures failed => by
      rw [Pattern.isTidy, Bool.or_eq_true, beq_iff_eq] at tidy
      rw [Pattern.test] at failed ⊢
      split at failed
      · rename_i absent
        rw [if_pos absent]
      · rename_i present
        rw [if_neg present]
        split at failed
        · rename_i full
          rw [if_pos full]
        · rename_i grows
          rw [if_neg grows]
          exact Pattern.restores_test wellFormed inner (tidy.resolve_left grows) target captures
            failed
  | .backreference group, _ => fun target captures failed => by
      rw [Pattern.test]
      split <;> rfl
  | .typed kind group, _ => fun target captures failed => by
      rw [Pattern.test] at failed ⊢
      split at failed
      · rename_i other
        rw [if_pos other]
      · cases failed
  | .subtree none, _ => fun target captures _ => by
      rw [Pattern.test]
  | .subtree (some tree), tidy => fun target captures failed => by
      rw [Pattern.test] at failed ⊢
      exact Tree.restores_test wellFormed tree tidy target captures failed
termination_by structural pattern => pattern

theorem Tree.restores_test (wellFormed : store.WellFormed) :
    (tree : Tree) → tree.isTidy = true → (Tree.test store tree).Restores
  | .node payload annotations slots, tidy => by
      cases payload with
      | placeholder number pattern =>
          exact Pattern.restores_test wellFormed pattern tidy
      | _ =>
          exact wellFormed.restores_ofNode (Tree.restores_testSlots wellFormed slots _ tidy)
termination_by structural tree => tree

theorem Tree.restores_testSlots (wellFormed : store.WellFormed) :
    (slots : List (Slot Tree)) → (roles : List Role) → Tree.slotsAreTidy slots roles = true →
      Tree.RestoresAlong roles (Tree.testSlots store slots)
  | [], _, _, targets, _, _, captures, failed => by
      rw [Tree.testSlots] at failed
      · cases failed
      · simp
  | ⟨_, children⟩ :: slots, _, _, [], _, _, captures, failed => by
      rw [Tree.testSlots] at failed
      · cases failed
      · simp
  | ⟨_, children⟩ :: slots, roles, tidy, target :: targets, sameRoles, few, captures, failed => by
      have fewLater := fun slot member => few slot (List.mem_cons_of_mem target member)
      rw [Tree.slotsAreTidy, Bool.or_eq_true, Bool.and_eq_true, Bool.and_eq_true, Bool.and_eq_true,
        List.isEmpty_iff, List.isEmpty_iff] at tidy
      rw [Tree.testSlots] at failed ⊢
      cases result : SearchItem.matchAll (Tree.items store children)
          (target.children.map some) captures with
      | mk passed after =>
          rw [result] at failed
          subst sameRoles
          -- The slot captures nothing, or nothing comes after it that could fail.
          rcases tidy with ⟨silent, tidy⟩ | ⟨⟨isLast, single⟩, tidy⟩
          · have kept := SearchItem.adds_matchAll (Tree.adds_items store [] children
              (List.subset_nil.mpr silent)) (target.children.map some) captures
            rw [result] at kept
            have same : after = captures := kept.eq_of_nil
            subst same
            cases passed with
            | true =>
                exact Tree.restores_testSlots wellFormed slots _ tidy targets rfl fewLater after
                  failed
            | false =>
                rfl
          · subst isLast
            have one := few target List.mem_cons_self (by simpa using single)
            have finds :=
              Tree.findsOrRestores_items wellFormed children tidy (target.children.map some)
              (by simpa using one)
            cases passed with
            | true =>
                simp only [Tree.testSlots] at failed
                cases failed
            | false =>
                have kept := finds.restores (by rw [result])
                rwa [result] at kept
termination_by structural slots => slots

theorem Tree.findsOrRestores_items (wellFormed : store.WellFormed) :
    (trees : List Tree) → Tree.isTidyAlone trees = true → ∀ targets : List NodeRef,
      targets.length ≤ 1 → SearchItem.FindsOrRestores (Tree.items store trees) targets
  | [], tidy, _, _ => by cases tidy
  | [tree], tidy, targets, few => Tree.findsOrRestores_item wellFormed tree tidy targets few
  | _ :: _ :: _, tidy, _, _ => by cases tidy
termination_by structural trees => trees

theorem Tree.findsOrRestores_item (wellFormed : store.WellFormed) :
    (tree : Tree) → Tree.isTidyItem tree = true → ∀ targets : List NodeRef,
      targets.length ≤ 1 → SearchItem.FindsOrRestores [Tree.item store tree] targets
  | .node payload annotations slots, tidy, targets, few => by
      cases payload with
      | placeholder number pattern =>
          cases pattern with
          | repeated inner least most =>
              rw [Tree.isTidyItem, Bool.and_eq_true, decide_eq_true_eq, Bool.or_eq_true,
                beq_iff_eq] at tidy
              apply SearchItem.findsOrRestores_repeated tidy.1 _ few
              exact tidy.2.imp_right (Pattern.restores_test wellFormed inner)
          | _ =>
              exact SearchItem.findsOrRestores_single (Pattern.restores_test wellFormed _ tidy) few
      | _ =>
          apply SearchItem.findsOrRestores_single _ few
          exact wellFormed.restores_ofNode (Tree.restores_testSlots wellFormed slots _ tidy)
termination_by structural tree => tree

end

end Tidy

/-- A failed match leaves the captures from before, with captures for groups of the pattern on top of
them. There are none on top if nothing in the pattern can fail after a capture. -/
theorem Pattern.adds_of_failed_test
    {store : Store} (wellFormed : store.WellFormed) {pattern : Pattern} {target : NodeRef}
    {captures : Captures} (failed : (pattern.test store target captures).1 = false) :
    captures.Adds pattern.groups (pattern.test store target captures).2 ∧
      (pattern.isTidy = true → (pattern.test store target captures).2 = captures) := by
  constructor
  · exact Pattern.adds_test store pattern.groups pattern (List.Subset.refl _) target captures
  · intro tidy
    exact Pattern.restores_test wellFormed pattern tidy target captures failed

/-- Builds the sum `a + b`. -/
def buildSum : Edit NodeId := do
  let left ← Edit.mkNode (.identifier "a")
  let right ← Edit.mkNode (.identifier "b")
  Edit.mkBinary .add (some left) (some right)

/-- The sum `a + b`. -/
def sumOfNames : Store :=
  (buildSum.run .empty).2

theorem wellFormed_sumOfNames : sumOfNames.WellFormed := by
  refine Edit.Structural.keepsWellFormed ?_ _ Store.wellFormed_empty
  exact .bind (.mkNode _) fun _ => .bind (.mkNode _) fun _ => .mkBinary _ _ _

/-- The pattern of a sum of some captured node and the null literal. -/
def sumWithNull : Pattern :=
  .subtree <| some <| .node (.binary .add) .empty
    [⟨.left, [.node (.placeholder 0 (.any (some "x"))) .empty []]⟩,
      ⟨.right, [.node .nullReference .empty []]⟩]

/-- Under a name the pattern goes back to the captures from before. -/
theorem Pattern.adds_of_failed_test_of_named :
    (Pattern.named "sum" sumWithNull).isTidy = true ∧
      ((Pattern.named "sum" sumWithNull).test sumOfNames (some 2) .empty).1 = false ∧
      ((Pattern.named "sum" sumWithNull).test sumOfNames (some 2) .empty).2 = .empty := by
  have failed : ((Pattern.named "sum" sumWithNull).test sumOfNames (some 2) .empty).1 = false := by
    decide +kernel
  exact ⟨rfl, failed, (Pattern.adds_of_failed_test wellFormed_sumOfNames failed).2 rfl⟩

/-- Without a name the left operand stays captured when the right one does not match. -/
theorem Pattern.failed_test_leaves_capture :
    ¬ ∀ (store : Store) (pattern : Pattern) (target : NodeRef) (captures : Captures),
      store.WellFormed → (pattern.test store target captures).1 = false →
      (pattern.test store target captures).2 = captures := by
  intro restores
  have kept := restores sumOfNames sumWithNull (some 2) .empty wellFormed_sumOfNames
    (by decide +kernel)
  exact absurd kept (by decide +kernel)

end TypedJava

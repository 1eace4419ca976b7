import TypedJava.Proofs.Pattern.Positions
import TypedJava.Proofs.Pattern.Shares

/-! # The captures of a match

What a pattern without backreferences captures at a node that it accepts does not depend on what was
captured before. A choice captures what the first alternative that accepts the node captures, and a
concrete tree what its children capture on the shares of the greedy split of each slot. A list of
trees that matches a list of targets adds the captures of its greedy split to the log, and nothing
else. -/

namespace TypedJava

/-- The captures of a node for the group of a pattern, if there is one. -/
def capturesFor (group : Option String) (target : NodeRef) : List Capture :=
  group.toList.map (⟨·, target⟩)

theorem Captures.toList_addTo? (captures : Captures) (group : Option String) (target : NodeRef) :
    (captures.addTo? group target).toList = captures.toList ++ capturesFor group target := by
  cases group with
  | none =>
      exact (List.append_nil _).symm
  | some group =>
      exact captures.toList_add group target

/-- The test rejects a target. -/
def NodeTest.Rejects (test : NodeTest) (target : NodeRef) : Prop :=
  ∀ captures, (test target captures).1 = false

/-- The pattern for a single node in a place for a tree: of a placeholder for a run it is the inner
pattern. -/
def Tree.ownPattern (tree : Option Tree) : Pattern :=
  match tree.bind Tree.repetition? with
  | some (inner, _, _) => inner
  | none => .subtree tree

mutual

/-- The captures that a pattern makes at a node that it accepts. -/
inductive Pattern.Makes (store : Store) : Pattern → NodeRef → List Capture → Prop
  | any {group : Option String} {target : NodeRef} :
      target.isNone = false → Pattern.Makes store (.any group) target (capturesFor group target)
  | anyOrNull {group : Option String} {target : NodeRef} :
      Pattern.Makes store (.anyOrNull group) target (capturesFor group target)
  | typed {kind : NodeKind} {group : Option String} {target : NodeRef} :
      target.isNone = false → store.kind target = kind →
      Pattern.Makes store (.typed kind group) target (capturesFor group target)
  /-- A named pattern captures the node after what is captured inside of it. -/
  | named {group : String} {inner : Pattern} {target : NodeRef} {made : List Capture} :
      Pattern.Makes store inner target made →
      Pattern.Makes store (.named group inner) target (made ++ [⟨group, target⟩])
  | choice {earlier later : List Pattern} {chosen : Pattern} {target : NodeRef}
      {made : List Capture} :
      (∀ alternative ∈ earlier, (alternative.test store).Rejects target) →
      Pattern.Makes store chosen target made →
      Pattern.Makes store (.choice (earlier ++ chosen :: later)) target made
  | absentRun {inner : Pattern} {most : Option Nat} :
      Pattern.Makes store (.repeated inner 0 most) none []
  | run {inner : Pattern} {least : Nat} {most : Option Nat} {target : NodeRef}
      {made : List Capture} :
      target.isNone = false → most ≠ some 0 → Pattern.Makes store inner target made →
      Pattern.Makes store (.repeated inner least most) target made
  | absentTree : Pattern.Makes store (.subtree none) none []
  | placeholder {number : Nat} {pattern : Pattern} {annotations : Annotations}
      {slots : List (Slot Tree)} {target : NodeRef} {made : List Capture} :
      Pattern.Makes store pattern target made →
      Pattern.Makes store (.subtree (some (.node (.placeholder number pattern) annotations slots)))
        target made
  | node {payload : Payload} {annotations : Annotations} {slots : List (Slot Tree)}
      {target : NodeRef} {found : Node} {made : List Capture} :
      (∀ number pattern, payload ≠ .placeholder number pattern) →
      store.node? target = some found → payload.agrees found.payload = true →
      Tree.SlotsMake store slots found.slots made →
      Pattern.Makes store (.subtree (some (.node payload annotations slots))) target made

/-- The captures that slots make at slots, as far as both sides have them. The children of a slot
share out the children at the other side greedily. -/
inductive Tree.SlotsMake (store : Store) :
    List (Slot Tree) → List (Slot NodeId) → List Capture → Prop
  | noPatterns {targets : List (Slot NodeId)} : Tree.SlotsMake store [] targets []
  | noTargets {slots : List (Slot Tree)} : Tree.SlotsMake store slots [] []
  | slot {role : Role} {children : List Tree} {slots : List (Slot Tree)} {target : Slot NodeId}
      {targets : List (Slot NodeId)} {shares : List (List NodeRef)} {made later : List Capture} :
      SearchItem.SharesOut (Tree.items store children) (target.children.map some) shares →
      MakesAlong (Pattern.Makes store) (children.map fun child => Tree.ownPattern (some child))
        shares made →
      Tree.SlotsMake store slots targets later →
      Tree.SlotsMake store (⟨role, children⟩ :: slots) (target :: targets) (made ++ later)

end

theorem NodeTest.IsSteady.rejects
    {test : NodeTest} (steady : test.IsSteady) {target : NodeRef} {captures : Captures}
    (failed : (test target captures).1 = false) :
    test.Rejects target := by
  intro other
  rw [steady target other captures, failed]

section Records

variable (store : Store)

theorem Pattern.records_placeholder
    {number : Nat} {pattern : Pattern} {annotations : Annotations} {slots : List (Slot Tree)}
    (records : (pattern.test store).Records (Pattern.Makes store pattern)) :
    (pattern.test store).Records (Pattern.Makes store
      (.subtree (some (.node (.placeholder number pattern) annotations slots)))) := by
  intro target captures after passed
  obtain ⟨made, makes, log⟩ := records target captures after passed
  exact ⟨made, .placeholder makes, log⟩

theorem Pattern.records_ofNode
    {payload : Payload} {annotations : Annotations} {slots : List (Slot Tree)}
    (concrete : ∀ number pattern, payload ≠ .placeholder number pattern)
    (record : ∀ targets captures after,
      Tree.testSlots store slots targets captures = (true, after) →
      ∃ made, Tree.SlotsMake store slots targets made ∧
        after.toList = captures.toList ++ made) :
    (NodeTest.ofNode store payload (Tree.testSlots store slots)).Records
      (Pattern.Makes store (.subtree (some (.node payload annotations slots)))) := by
  intro target captures after passed
  rw [NodeTest.ofNode] at passed
  split at passed
  · cases passed
  · rename_i found isFound
    split at passed
    · rename_i agrees
      obtain ⟨made, makes, log⟩ := record found.slots captures after passed
      exact ⟨made, .node concrete isFound agrees makes, log⟩
    · cases passed

mutual

theorem Pattern.records_test :
    (pattern : Pattern) → pattern.isDirect = true →
      (pattern.test store).Records (Pattern.Makes store pattern)
  | .any group, _ => fun target captures after passed => by
      rw [Pattern.test] at passed
      split at passed
      · cases passed
      · rename_i present
        cases passed
        exact ⟨_, .any (Bool.eq_false_iff.mpr present), captures.toList_addTo? group target⟩
  | .anyOrNull group, _ => fun target captures after passed => by
      rw [Pattern.test] at passed
      cases passed
      exact ⟨_, .anyOrNull, captures.toList_addTo? group target⟩
  | .named group inner, direct => fun target captures after passed => by
      rw [Pattern.test] at passed
      cases result : Pattern.test store inner target captures with
      | mk innerPassed middle =>
          rw [result] at passed
          cases innerPassed with
          | false =>
              cases passed
          | true =>
              cases passed
              obtain ⟨made, makes, log⟩ :=
                Pattern.records_test inner direct target captures middle result
              refine ⟨_, .named makes, ?_⟩
              rw [Captures.toList_add, log, List.append_assoc]
  | .choice alternatives, direct => fun target captures after passed => by
      rw [Pattern.test] at passed
      obtain ⟨earlier, chosen, later, made, rfl, rejected, makes, log⟩ :=
        Pattern.records_firstOf alternatives direct target captures after passed
      exact ⟨made, .choice rejected makes, log⟩
  | .repeated inner least most, direct => fun target captures after passed => by
      rw [Pattern.test] at passed
      split at passed
      · rename_i absent
        cases target with
        | none =>
            obtain ⟨isZero, rfl⟩ := Prod.mk.injEq .. ▸ passed
            cases eq_of_beq isZero
            exact ⟨[], .absentRun, (List.append_nil _).symm⟩
        | some id =>
            cases absent
      · rename_i present
        split at passed
        · cases passed
        · rename_i room
          obtain ⟨made, makes, log⟩ :=
            Pattern.records_test inner direct target captures after passed
          exact ⟨made, .run (Bool.eq_false_iff.mpr present) room makes, log⟩
  | .backreference group, direct => by cases direct
  | .typed kind group, _ => fun target captures after passed => by
      rw [Pattern.test] at passed
      split at passed
      · cases passed
      · rename_i fits
        cases passed
        rw [Bool.or_eq_true, not_or, decide_eq_true_eq, not_not] at fits
        exact ⟨_, .typed (Bool.eq_false_iff.mpr fits.1) fits.2,
          captures.toList_addTo? group target⟩
  | .subtree none, _ => fun target captures after passed => by
      rw [Pattern.test] at passed
      cases target with
      | none =>
          cases passed
          exact ⟨[], .absentTree, (List.append_nil _).symm⟩
      | some id =>
          cases passed
  | .subtree (some tree), direct => fun target captures after passed => by
      rw [Pattern.test] at passed
      exact Tree.records_test tree direct target captures after passed
termination_by structural pattern => pattern

theorem Pattern.records_firstOf :
    (patterns : List Pattern) → Pattern.areDirect patterns = true → ∀ target captures after,
      NodeTest.firstOf (Pattern.tests store patterns) target captures = (true, after) →
      ∃ earlier chosen later made, patterns = earlier ++ chosen :: later ∧
        (∀ alternative ∈ earlier, (alternative.test store).Rejects target) ∧
        Pattern.Makes store chosen target made ∧ after.toList = captures.toList ++ made
  | [], _, _, _, _, passed => by cases passed
  | pattern :: patterns, direct, target, captures, after, passed => by
      rw [Pattern.areDirect, Bool.and_eq_true] at direct
      rw [Pattern.tests, NodeTest.firstOf] at passed
      cases result : Pattern.test store pattern target captures with
      | mk patternPassed middle =>
          rw [result] at passed
          cases patternPassed with
          | true =>
              cases passed
              obtain ⟨made, makes, log⟩ :=
                Pattern.records_test pattern direct.1 target captures after result
              exact ⟨[], pattern, patterns, made, rfl, fun _ absent => absurd absent
                List.not_mem_nil, makes, log⟩
          | false =>
              have rejects := (Pattern.isSteady_test store pattern direct.1).rejects
                (congrArg Prod.fst result)
              obtain ⟨earlier, chosen, later, made, rfl, rejected, makes, log⟩ :=
                Pattern.records_firstOf patterns direct.2 target captures after passed
              refine ⟨pattern :: earlier, chosen, later, made, rfl, ?_, makes, log⟩
              intro alternative member
              rcases List.mem_cons.mp member with rfl | isEarlier
              · exact rejects
              · exact rejected alternative isEarlier
termination_by structural patterns => patterns

theorem Tree.records_test :
    (tree : Tree) → tree.isDirect = true →
      (tree.test store).Records (Pattern.Makes store (.subtree (some tree)))
  | .node payload annotations slots, direct => by
      cases payload with
      | placeholder number pattern =>
          rw [Tree.isDirect, Bool.and_eq_true] at direct
          exact Pattern.records_placeholder store (Pattern.records_test pattern direct.1)
      | _ =>
          exact Pattern.records_ofNode store nofun (Tree.slots_record slots direct)
termination_by structural tree => tree

theorem Tree.slots_record :
    (slots : List (Slot Tree)) → Tree.slotsAreDirect slots = true →
      ∀ (targets : List (Slot NodeId)) (captures after : Captures),
        Tree.testSlots store slots targets captures = (true, after) →
        ∃ made, Tree.SlotsMake store slots targets made ∧ after.toList = captures.toList ++ made
  | [], _, targets, captures, after, passed => by
      rw [Tree.testSlots] at passed
      · cases passed
        exact ⟨[], .noPatterns, (List.append_nil _).symm⟩
      · simp
  | ⟨_, children⟩ :: slots, direct, [], captures, after, passed => by
      rw [Tree.testSlots] at passed
      · cases passed
        exact ⟨[], .noTargets, (List.append_nil _).symm⟩
      · simp
  | ⟨_, children⟩ :: slots, direct, target :: targets, captures, after, passed => by
      rw [Tree.slotsAreDirect, Bool.and_eq_true] at direct
      rw [Tree.testSlots] at passed
      cases result : SearchItem.matchAll (Tree.items store children)
          (target.children.map some) captures with
      | mk childrenPassed middle =>
          rw [result] at passed
          cases childrenPassed with
          | false =>
              cases passed
          | true =>
              obtain ⟨shares, made, sharesOut, makes, log⟩ :=
                SearchItem.exists_sharesOut_of_matchAll
                  (Tree.areSteady_items store children direct.1)
                  (Tree.records_items children direct.1) result
              obtain ⟨later, makesLater, laterLog⟩ :=
                Tree.slots_record slots direct.2 targets middle after passed
              refine ⟨made ++ later, .slot sharesOut makes makesLater, ?_⟩
              rw [laterLog, log, List.append_assoc]
termination_by structural slots => slots

theorem Tree.records_items :
    (trees : List Tree) → Tree.areDirect trees = true →
      List.Forall₂ (fun item pattern => item.test.Records (Pattern.Makes store pattern))
        (Tree.items store trees) (trees.map fun tree => Tree.ownPattern (some tree))
  | [], _ => .nil
  | tree :: trees, direct => by
      rw [Tree.areDirect, Bool.and_eq_true] at direct
      rw [Tree.items]
      exact .cons (Tree.records_item tree direct.1) (Tree.records_items trees direct.2)
termination_by structural trees => trees

theorem Tree.records_item :
    (tree : Tree) → tree.isDirect = true →
      (tree.item store).test.Records (Pattern.Makes store (Tree.ownPattern (some tree)))
  | .node payload annotations slots, direct => by
      cases payload with
      | placeholder number pattern =>
          rw [Tree.isDirect, Bool.and_eq_true] at direct
          cases pattern with
          | repeated inner least most =>
              exact Pattern.records_test inner direct.1
          | _ =>
              exact Pattern.records_placeholder store (Pattern.records_test _ direct.1)
      | _ =>
          exact Pattern.records_ofNode store nofun (Tree.slots_record slots direct)
termination_by structural tree => tree

end

end Records

namespace Store

theorem records_searchItem
    (store : Store) (tree : Option Tree)
    (direct : ∀ found, tree = some found → found.isDirect = true) :
    (store.searchItem tree).test.Records (Pattern.Makes store (Tree.ownPattern tree)) := by
  cases tree with
  | none =>
      exact Pattern.records_test store (.subtree none) rfl
  | some tree =>
      exact Tree.records_item store tree (direct tree rfl)

/-- A list of trees without backreferences that matches a list of targets adds to the log the
captures that the trees make on the shares of the greedy split, in the order of the trees and then
of the targets. -/
theorem exists_sharesOut_of_matchList
    {store : Store} {trees : List (Option Tree)} {targets : List NodeRef}
    {captures after : Captures} (direct : ∀ tree, some tree ∈ trees → tree.isDirect = true)
    (matched : store.matchList trees targets captures = (true, after)) :
    ∃ shares made, SearchItem.SharesOut (trees.map store.searchItem) targets shares ∧
      MakesAlong (Pattern.Makes store) (trees.map Tree.ownPattern) shares made ∧
      after.toList = captures.toList ++ made := by
  have directIn (tree : Option Tree) (member : tree ∈ trees) (found : Tree)
      (same : tree = some found) : found.isDirect = true :=
    direct found (same ▸ member)
  have steady : ∀ item ∈ trees.map store.searchItem, item.test.IsSteady := by
    intro item member
    obtain ⟨tree, isTree, rfl⟩ := List.mem_map.mp member
    exact isSteady_searchItem tree (directIn tree isTree)
  have records : List.Forall₂ (fun item pattern => item.test.Records (Pattern.Makes store pattern))
      (trees.map store.searchItem) (trees.map Tree.ownPattern) := by
    rw [List.forall₂_map_left_iff, List.forall₂_map_right_iff, List.forall₂_same]
    exact fun tree member => records_searchItem store tree (directIn tree member)
  exact SearchItem.exists_sharesOut_of_matchAll steady records matched

/-- Of two nodes a run takes the first one only, after it was tried with both. The capture of the
second node by the run is gone. -/
theorem exists_sharesOut_of_runBeforeNode :
    let trees := [some (.node (.placeholder 0 (.repeated (.any (some "run")) 0 none)) .empty []),
      some (.node (.placeholder 1 (.any (some "last"))) .empty [])]
    let after : Captures := ⟨[⟨"last", some 1⟩, ⟨"run", some 0⟩]⟩
    empty.matchList trees [some 0, some 1] .empty = (true, after) ∧
      ∃ shares made, SearchItem.SharesOut (trees.map empty.searchItem) [some 0, some 1] shares ∧
        MakesAlong (Pattern.Makes empty) (trees.map Tree.ownPattern) shares made ∧
        after.toList = Captures.empty.toList ++ made := by
  intro trees after
  have matched : empty.matchList trees [some 0, some 1] .empty = (true, after) := by
    decide
  refine ⟨matched, exists_sharesOut_of_matchList ?_ matched⟩
  intro tree member
  simp only [trees, List.mem_cons, Option.some.injEq, List.not_mem_nil, or_false] at member
  rcases member with rfl | rfl <;> rfl

end Store

end TypedJava

import TypedJava.Proofs.Pattern.Steady

/-! # Splits by positions

Where the trees of a list stand along the targets is told by the positions between them. A list of
trees without backreferences matches a list of targets if and only if there are such positions, as
long as the number of repeated trees leaves the search enough steps. -/

namespace TypedJava

/-- The inner pattern of a placeholder for a run of siblings, with the least and the most number. -/
def Tree.repetition? : Tree → Option (Pattern × Nat × Option Nat)
  | .node (.placeholder _ (.repeated inner least most)) _ _ => some (inner, least, most)
  | _ => none

namespace SearchItem

/-- The item takes the targets from one position up to another. -/
def Covers (targets : List NodeRef) (first last : Nat) : SearchItem → Prop
  | single test =>
    test.Accepts (targets.getD first none) ∧ last = min (first + 1) targets.length
  | repeated test least most =>
    first ≤ last ∧ last ≤ targets.length ∧ least ≤ last - first ∧
      (∀ bound, most = some bound → last - first ≤ bound) ∧
      ∀ position, first ≤ position → position < last →
        test.Accepts (targets.getD position none)

section Positions

variable {targets rest : List NodeRef} {first : Nat}

theorem headD_drop (targets : List NodeRef) (first : Nat) :
    (targets.drop first).headD none = targets.getD first none := by
  rw [List.headD_eq_head?_getD, List.head?_drop, List.getD_eq_getElem?_getD]

theorem tail_drop (inside : first ≤ targets.length) :
    (targets.drop first).tail = targets.drop (min (first + 1) targets.length) := by
  rw [List.tail_drop]
  rcases Nat.lt_or_ge first targets.length with before | atEnd
  · rw [Nat.min_eq_left before]
  · rw [Nat.min_eq_right (Nat.le_succ_of_le atEnd), List.drop_length, List.drop_eq_nil_of_le]
    omega

/-- A run at the front of what comes after a position reaches up to another position. -/
theorem getD_of_drop_eq_append
    {run : List NodeRef} (split : targets.drop first = run ++ rest) {position : Nat}
    (after : first ≤ position) (before : position < first + run.length) :
    targets.getD position none ∈ run := by
  have index : position - first < run.length := by omega
  have found : targets[position]? = some run[position - first] := by
    have same := congrArg (fun list => list[position - first]?) split
    simp only [List.getElem?_drop, List.getElem?_append_left index,
      List.getElem?_eq_getElem index] at same
    rwa [Nat.add_sub_cancel' after] at same
  rw [List.getD_eq_getElem?_getD, found]
  exact List.getElem_mem index

/-- What an item takes after a position ends at another position. -/
theorem takes_drop_iff
    (item : SearchItem) (inside : first ≤ targets.length) :
    item.Takes (targets.drop first) rest ↔
      ∃ last, last ≤ targets.length ∧ item.Covers targets first last ∧ rest = targets.drop last := by
  cases item with
  | single test =>
      constructor
      · intro takes
        cases takes with
        | single accepts =>
            rw [headD_drop] at accepts
            exact ⟨_, Nat.min_le_right _ _, ⟨accepts, rfl⟩, tail_drop inside⟩
      · rintro ⟨last, _, ⟨accepts, rfl⟩, rfl⟩
        rw [← tail_drop inside]
        rw [← headD_drop] at accepts
        exact .single accepts
  | repeated test least most =>
      constructor
      · generalize split : targets.drop first = after
        intro takes
        cases takes with
        | @repeated _ _ _ run rest enough bounded accepted =>
            have length := congrArg List.length split
            rw [List.length_drop, List.length_append] at length
            have count : first + run.length - first = run.length := Nat.add_sub_cancel_left _ _
            refine ⟨first + run.length, by omega, ⟨Nat.le_add_right _ _, by omega, ?_, ?_, ?_⟩, ?_⟩
            · rwa [count]
            · rwa [count]
            · intro position after before
              exact accepted _ (getD_of_drop_eq_append split after before)
            · rw [← List.drop_drop, split, List.drop_left]
      · rintro ⟨last, _, ⟨ordered, end_le, enough, bounded, accepted⟩, rfl⟩
        have split : targets.drop first =
            (targets.drop first).take (last - first) ++ targets.drop last := by
          have same := (List.take_append_drop (last - first) (targets.drop first)).symm
          rwa [List.drop_drop, Nat.add_sub_cancel' ordered] at same
        have length : ((targets.drop first).take (last - first)).length = last - first := by
          rw [List.length_take, List.length_drop]
          omega
        rw [split]
        refine .repeated (by rwa [length]) (by rwa [length]) fun target member => ?_
        obtain ⟨index, small, rfl⟩ := List.mem_iff_getElem.mp member
        rw [length] at small
        have accepts := accepted (first + index) (Nat.le_add_right _ _) (by omega)
        rw [List.getElem_take, List.getElem_drop]
        rwa [List.getD_eq_getElem?_getD, List.getElem?_eq_getElem (by omega)] at accepts

/-- Items split what comes after a position if and only if there are positions between them. -/
theorem split_drop_iff
    (items : List SearchItem) (inside : first ≤ targets.length) :
    Split items (targets.drop first) ↔
      ∃ position : Nat → Nat, position 0 = first ∧ position items.length = targets.length ∧
        ∀ (index : Nat) (item : SearchItem), items[index]? = some item →
          item.Covers targets (position index) (position (index + 1)) := by
  induction items generalizing first with
  | nil =>
      constructor
      · generalize split : targets.drop first = after
        intro isSplit
        cases isSplit
        have beyond := List.drop_eq_nil_iff.mp split
        refine ⟨fun _ => first, rfl, Nat.le_antisymm inside beyond, ?_⟩
        intro index item found
        cases found
      · rintro ⟨position, rfl, atEnd, _⟩
        rw [List.length_nil] at atEnd
        rw [atEnd, List.drop_length]
        exact .nil
  | cons item items inductionHypothesis =>
      constructor
      · intro isSplit
        cases isSplit with
        | cons takes split =>
            obtain ⟨last, lastInside, covers, rfl⟩ := (takes_drop_iff item inside).mp takes
            obtain ⟨position, starts, ends, others⟩ := (inductionHypothesis lastInside).mp split
            refine ⟨fun index => index.casesOn first position, rfl, ends, ?_⟩
            intro index other found
            cases index with
            | zero =>
                cases found
                rw [← starts] at covers
                exact covers
            | succ index =>
                exact others index other found
      · rintro ⟨position, rfl, ends, each⟩
        have covers := each 0 item rfl
        have lastInside : position 1 ≤ targets.length := by
          cases item with
          | single test =>
              rw [covers.2]
              exact Nat.min_le_right _ _
          | repeated test least most =>
              exact covers.2.1
        refine .cons ((takes_drop_iff item inside).mpr ⟨position 1, lastInside, covers, rfl⟩) ?_
        exact (inductionHypothesis lastInside).mpr ⟨fun index => position (index + 1), rfl, ends,
          fun index other found => each (index + 1) other found⟩

end Positions

end SearchItem

namespace Store

/-- A tree stands along the targets from one position up to another. A placeholder for a run takes a
run of targets; every other tree takes the next target, or the absent node past the end. -/
def Covers (store : Store) (targets : List NodeRef) (first last : Nat) (tree : Option Tree) :
    Prop :=
  match tree.bind Tree.repetition? with
  | some (inner, least, most) =>
    first ≤ last ∧ last ≤ targets.length ∧ least ≤ last - first ∧
      (∀ bound, most = some bound → last - first ≤ bound) ∧
      ∀ position, first ≤ position → position < last →
        (inner.test store).Accepts (targets.getD position none)
  | none =>
    (store.matchTree tree).Accepts (targets.getD first none) ∧
      last = min (first + 1) targets.length

/-- A tree of a list as an item of the search. -/
def searchItem (store : Store) (tree : Option Tree) : SearchItem :=
  match tree with
  | none => .single (store.matchTree none)
  | some tree => tree.item store

section Lists

variable {store : Store}

theorem covers_searchItem_iff (targets : List NodeRef) (first last : Nat) (tree : Option Tree) :
    (store.searchItem tree).Covers targets first last ↔ store.Covers targets first last tree := by
  cases tree with
  | none =>
      rfl
  | some tree =>
      obtain ⟨payload, annotations, slots⟩ := tree
      cases payload with
      | placeholder number pattern =>
          cases pattern <;> rfl
      | _ =>
          rfl

theorem isRepeated_searchItem (tree : Option Tree) :
    (store.searchItem tree).isRepeated = (tree.bind Tree.repetition?).isSome := by
  cases tree with
  | none =>
      rfl
  | some tree =>
      obtain ⟨payload, annotations, slots⟩ := tree
      cases payload with
      | placeholder number pattern =>
          cases pattern <;> rfl
      | _ =>
          rfl

theorem isSteady_searchItem
    (tree : Option Tree) (direct : ∀ found, tree = some found → found.isDirect = true) :
    (store.searchItem tree).test.IsSteady := by
  cases tree with
  | none =>
      intro target first second
      rfl
  | some tree =>
      exact Tree.isSteady_item store tree (direct tree rfl)

/-- A list of trees without backreferences matches a list of targets if and only if there are
positions between which the trees stand along the targets. Whether a tree accepts a node does not
depend on the captures. -/
theorem matchList_iff_positions
    (store : Store) {trees : List (Option Tree)} {targets : List NodeRef}
    (direct : ∀ tree, some tree ∈ trees → tree.isDirect = true)
    (enough : trees.length *
      (targets.length + 1) ^ trees.countP (fun tree => (tree.bind Tree.repetition?).isSome) ≤
        SearchItem.stepLimit)
    (captures : Captures) :
    ((store.matchList trees targets captures).1 = true ↔
      ∃ position : Nat → Nat, position 0 = 0 ∧ position trees.length = targets.length ∧
        ∀ (index : Nat) (tree : Option Tree), trees[index]? = some tree →
          store.Covers targets (position index) (position (index + 1)) tree) ∧
    ∀ tree, some tree ∈ trees → ∀ target first second,
      (store.matchTree (some tree) target first).1 =
        (store.matchTree (some tree) target second).1 := by
  have steady : ∀ item ∈ trees.map store.searchItem, item.test.IsSteady := by
    intro item member
    obtain ⟨tree, isTree, rfl⟩ := List.mem_map.mp member
    exact isSteady_searchItem tree fun found same => direct found (same ▸ isTree)
  have cost : SearchItem.cost (trees.map store.searchItem) targets.length ≤
      SearchItem.stepLimit := by
    rw [SearchItem.cost, List.length_map, List.countP_map]
    have repeated : SearchItem.isRepeated ∘ store.searchItem =
        fun tree => (tree.bind Tree.repetition?).isSome :=
      funext isRepeated_searchItem
    rwa [repeated]
  have split := SearchItem.split_drop_iff (trees.map store.searchItem) (Nat.zero_le targets.length)
  rw [List.drop_zero] at split
  constructor
  · have matches_iff : (store.matchList trees targets captures).1 = true ↔
        SearchItem.Split (trees.map store.searchItem) targets :=
      SearchItem.matchAll_iff steady cost captures
    rw [matches_iff, split, List.length_map]
    simp only [List.getElem?_map, Option.map_eq_some_iff, forall_exists_index, and_imp,
      forall_apply_eq_imp_iff₂, covers_searchItem_iff]
  · intro tree member target first second
    exact Tree.isSteady_test store tree (direct tree member) target first second

end Lists

/-- A run of at least one node, then a node, then an absent node: of two nodes the run takes the
first, and the absent node is found past the end. -/
def runThenNode : List (Option Tree) :=
  [some (.node (.placeholder 0 (.repeated (.any none) 1 none)) .empty []),
    some (.node (.placeholder 1 (.any none)) .empty []), none]

theorem matchList_iff_positions_of_runThenNode :
    (empty.matchList runThenNode [some 0, some 1] .empty).1 = true ∧
      ∃ position : Nat → Nat, position 0 = 0 ∧ position runThenNode.length = 2 ∧
        ∀ (index : Nat) (tree : Option Tree), runThenNode[index]? = some tree →
          empty.Covers [some 0, some 1] (position index) (position (index + 1)) tree := by
  have direct : ∀ tree, some tree ∈ runThenNode → tree.isDirect = true := by
    intro tree member
    simp only [runThenNode, List.mem_cons, Option.some.injEq, reduceCtorEq, List.not_mem_nil,
      or_false] at member
    rcases member with rfl | rfl <;> rfl
  have enough : runThenNode.length * (([some 0, some 1] : List NodeRef).length + 1) ^
      runThenNode.countP (fun tree => (tree.bind Tree.repetition?).isSome) ≤
        SearchItem.stepLimit := by
    decide
  have found : (empty.matchList runThenNode [some 0, some 1] .empty).1 = true := by decide
  exact ⟨found, (matchList_iff_positions empty direct enough .empty).1.mp found⟩

end Store

end TypedJava

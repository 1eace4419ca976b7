import TypedJava.Proofs.Edit.PutBack

/-! # Replacements

A replacement remembers the position of a node, detaches it, and uses the position again after its
factory has worked. The factory may build the node into something else, move it, or leave it alone;
as long as it leaves the children of the parent alone, the position is still the right one, and the
list of children changes there and nowhere else. -/

namespace TypedJava

namespace Store

/-- Cutting out an entry and putting an item in at its position sets the entry. -/
theorem insertAt_eraseIdx_eq_set
    {α : Type} {items : List α} {position : Nat} (inRange : position < items.length) (item : α) :
    insertAt position item (items.eraseIdx position) = items.set position item := by
  have shortened : (items.take position).length = position :=
    List.length_take_of_le (Nat.le_of_lt inRange)
  rw [insertAt, List.eraseIdx_eq_take_drop_succ, List.take_left' shortened,
    List.drop_left' shortened, List.set_eq_take_cons_drop item inRange]

/-- A node stands where its parent lists it. -/
theorem WellFormed.location?_eq
    {store : Store} (wellFormed : store.WellFormed) {parent node : NodeId} {role : Role}
    {position : Nat} (listed : (store.childrenIn (some parent) role)[position]? = some node) :
    store.location? (some node) = some ⟨⟨parent, role⟩, position⟩ := by
  obtain ⟨inRange, isNode⟩ := List.getElem?_eq_some_iff.mp listed
  have placed : store.place? (some node) = some ⟨parent, role⟩ :=
    wellFormed.listed parent role node (List.mem_of_getElem? listed)
  have isFirst : (store.childrenIn (some parent) role).idxOf? node = some position := by
    refine List.idxOf?_eq_some_iff.mpr ⟨inRange, isNode, fun earlier less same => ?_⟩
    have samePosition : earlier = position :=
      (wellFormed.childrenIn_nodup parent role).getElem_inj_iff.mp (same.trans isNode.symm)
    omega
  simp [location?, placed, isFirst]

end Store

namespace Edit

/-- What a successful replacement does, for every well-formed store, every node that its parent lists
at some position and every factory that is a program over the operations on nodes and leaves the
children of the parent alone, while the node is away. If the factory returns a node that has no
parent and is not on the path upwards from the old parent, that node is returned and stands at the
position of the old one; if it returns none, the position is gone. No other list of children is other
than the factory has left it, so all other roles of the parent are as before. -/
theorem replaceBy_setsEntry
    {store : Store} (wellFormed : store.WellFormed) {parent node : NodeId} {role : Role}
    {position : Nat} (listed : (store.childrenIn (some parent) role)[position]? = some node)
    {factory : NodeRef → Edit NodeRef} (structural : (factory (some node)).Structural)
    {result : NodeRef} {worked : Store}
    (ranFactory : (factory (some node)).run (store.detach ⟨⟨parent, role⟩, position⟩ node) =
      (.ok result, worked))
    (kept : ∀ other, worked.childrenIn (some parent) other =
      (store.detach ⟨⟨parent, role⟩, position⟩ node).childrenIn (some parent) other)
    (fits : ∀ replacement ∈ result, replacement < worked.size ∧
      worked.parent (some replacement) = none ∧
      worked.isAtOrAbove (some replacement) (some parent) = false) :
    ∃ after, (replaceBy (some node) factory).run store = (.ok result, after) ∧
      after.childrenIn (some parent) role =
        (match result with
        | some replacement => (store.childrenIn (some parent) role).set position replacement
        | none => (store.childrenIn (some parent) role).eraseIdx position) ∧
      (∀ other, other ≠ role →
        after.childrenIn (some parent) other = store.childrenIn (some parent) other) ∧
      (∀ id other, ¬ (id = parent ∧ other = role) →
        after.childrenIn (some id) other = worked.childrenIn (some id) other) ∧
      ∀ replacement ∈ result, after.place? (some replacement) = some ⟨parent, role⟩ := by
  have located := wellFormed.location?_eq listed
  obtain ⟨inRange, -⟩ := List.getElem?_eq_some_iff.mp listed
  have follows := structural.follows isFollowed_retains _ (wellFormed.detach located)
  rw [ranFactory] at follows
  obtain ⟨workedWellFormed, retains⟩ := follows
  have without : store.ChangedWithout node ⟨⟨parent, role⟩, position⟩ worked :=
    ⟨located, retains, kept role⟩
  obtain ⟨original, foundOriginal, hadRole⟩ :=
    wellFormed.exists_parent (Store.location?_eq_some located).1
  have shortened : worked.childrenIn (some parent) role =
      (store.childrenIn (some parent) role).eraseIdx position := by
    rw [kept, Store.childrenIn_detach foundOriginal hadRole, if_pos ⟨rfl, rfl⟩]
  have others (other : Role) (different : other ≠ role) :
      worked.childrenIn (some parent) other = store.childrenIn (some parent) other := by
    rw [kept, Store.childrenIn_detach foundOriginal hadRole,
      if_neg fun same => different same.2]
  have ran := run_replaceBy located factory
  rw [ranFactory] at ran
  simp only at ran
  cases result with
  | none =>
      refine ⟨worked, ?_, shortened, others, fun _ _ _ => rfl, fun _ impossible => by cases impossible⟩
      rw [ran, run_bind, run_attachAt]
      rfl
  | some replacement =>
      obtain ⟨valid, noParent, notAbove⟩ := fits replacement rfl
      have unplaced : worked.place? (some replacement) = none := by
        simpa [Store.parent] using noParent
      have attachable : worked.Attachable ⟨parent, role⟩ replacement :=
        without.attachable_of_unplaced wellFormed workedWellFormed valid unplaced notAbove
      have allowed := workedWellFormed.attachError?_eq_none attachable
      obtain ⟨found, isFound, hasRole⟩ := attachable.hasRole
      have children (id : NodeId) (other : Role) :=
        Store.childrenIn_attach isFound hasRole position replacement id other
      refine ⟨worked.attach ⟨parent, role⟩ position replacement, ?_, ?_, ?_, ?_, ?_⟩
      · rw [ran, run_bind_ok (run_attachAt_ok allowed position), run_pure]
      · rw [children, if_pos ⟨rfl, rfl⟩, shortened, Store.insertAt_eraseIdx_eq_set inRange]
      · intro other different
        rw [children, if_neg fun same => different same.2, others other different]
      · intro id other elsewhere
        rw [children, if_neg elsewhere]
      · rintro _ ⟨⟩
        rw [Store.place?_attach valid, if_pos rfl]

/-- Negates a node. -/
def negate (node : NodeRef) : Edit NodeRef := do
  return some (← mkUnary .minus node)

/-- The second argument of the call `f(a, b)` is built into its negation, which takes its place. -/
theorem replaceBy_setsEntry_of_negate :
    (calledBeside.childrenIn (some 3) .argument)[1]? = some 2 ∧
      ∃ after, (replaceBy (some 2) negate).run calledBeside = (.ok (some 8), after) ∧
        after.childrenIn (some 3) .argument = [1, 8] ∧
        after.place? (some 8) = some ⟨3, .argument⟩ := by
  have listed : (calledBeside.childrenIn (some 3) .argument)[1]? = some 2 := by decide +kernel
  have structural : (negate (some 2)).Structural := .bind (.mkUnary _ _) fun _ => .pure _
  have negated : (negate (some 2)).run (calledBeside.detach ⟨⟨3, .argument⟩, 1⟩ 2) =
      (.ok (some 8), ((negate (some 2)).run (calledBeside.detach ⟨⟨3, .argument⟩, 1⟩ 2)).2) :=
    Prod.ext (by decide +kernel) rfl
  obtain ⟨after, ran, children, _, _, place⟩ :=
    replaceBy_setsEntry wellFormed_calledBeside listed structural negated
      (fun other => by cases other <;> decide +kernel) (by rintro _ ⟨⟩; decide +kernel)
  exact ⟨listed, after, ran, children, place 8 rfl⟩

end Edit

end TypedJava

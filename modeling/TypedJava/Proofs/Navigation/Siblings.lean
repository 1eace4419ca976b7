import Mathlib.Data.List.Basic
import TypedJava.Proofs.Branch.InStore

/-! # Siblings and the order of a tree

The children of a node are listed role by role. A location cuts this list in two, and the links to
the next and to the previous sibling lead along it without a gap, however many roles between two
children are empty. The list of everything below a node goes through the children in the same
order. -/

namespace TypedJava

/-- What a list holds before and after the first occurrence of an item. -/
private theorem split_at_idxOf?
    {items : List NodeId} {item : NodeId} {position : Nat}
    (found : items.idxOf? item = some position) :
    items = items.take position ++ item :: items.drop (position + 1) := by
  induction items generalizing position with
  | nil =>
      simp at found
  | cons first rest inductionHypothesis =>
      rw [List.idxOf?_cons] at found
      by_cases same : first = item
      · simp only [same, BEq.rfl, if_true, Option.some.injEq] at found
        simp [← found, same]
      · rw [if_neg (by simpa using same), Option.map_eq_some_iff] at found
        obtain ⟨position, foundRest, rfl⟩ := found
        rw [List.take_succ_cons, List.drop_succ_cons, List.cons_append,
          ← inductionHypothesis foundRest]

/-- The children in several slots around one of them: those of the earlier slots and the earlier
ones of its own slot, then the later ones of its own slot and those of the later slots. -/
private theorem slots_split
    {slots : List (Slot NodeId)} {role : Role} {child : NodeId} {position : Nat}
    (positioned : (Slot.childrenIn slots role).idxOf? child = some position) :
    ∃ slot later, slots.dropWhile (·.role ≠ role) = slot :: later ∧
      slots.flatMap (·.children) =
        ((slots.takeWhile (·.role ≠ role)).flatMap (·.children) ++
          (Slot.childrenIn slots role).take position) ++
        child :: (slot.children.drop (position + 1) ++ later.flatMap (·.children)) := by
  induction slots with
  | nil =>
      simp [Slot.childrenIn_nil] at positioned
  | cons first rest inductionHypothesis =>
      rw [Slot.childrenIn_cons] at positioned ⊢
      by_cases same : first.role = role
      · rw [if_pos same] at positioned ⊢
        refine ⟨first, rest, by simp [same], ?_⟩
        rw [List.takeWhile_cons_of_neg (by simpa using same), List.flatMap_nil, List.nil_append,
          List.flatMap_cons, ← List.cons_append, ← List.append_assoc,
          ← split_at_idxOf? positioned]
      · rw [if_neg same] at positioned ⊢
        obtain ⟨slot, later, dropped, split⟩ := inductionHypothesis positioned
        refine ⟨slot, later, by simpa [same] using dropped, ?_⟩
        rw [List.takeWhile_cons_of_pos (by simpa using same), List.flatMap_cons, split,
          List.flatMap_cons]
        simp only [List.append_assoc]

namespace Store

variable {store : Store}

/-- A location cuts the children of the parent into those before it, the child, and those after
it. -/
theorem children_eq_around
    {child : NodeId} {location : Location}
    (located : store.location? (some child) = some location) :
    store.children (some location.place.parent) =
      store.childrenBefore location ++ child :: store.childrenAfter location := by
  have positioned := (location?_eq_some located).2
  cases found : store.node? (some location.place.parent) with
  | none =>
      rw [childrenIn, found] at positioned
      simp at positioned
  | some parent =>
      rw [childrenIn_of_node? found] at positioned
      obtain ⟨slot, later, rest, split⟩ := slots_split positioned
      rw [children, childrenBefore, childrenAfter, found]
      simp only [rest]
      exact split

/-- The links between a node and its children: no child is listed twice, and each is located under
the node. -/
structure LinksChildren (store : Store) (parent : NodeRef) : Prop where
  nodup : (store.children parent).Nodup
  located : ∀ child ∈ store.children parent,
    ∃ location, store.location? (some child) = some location ∧
      some location.place.parent = parent

theorem WellFormed.mem_children_iff
    (wellFormed : store.WellFormed) {id child : NodeId} :
    child ∈ store.children (some id) ↔
      ∃ place, store.place? (some child) = some place ∧ place.parent = id := by
  cases found : store.node? (some id) with
  | none =>
      rw [children, found]
      refine iff_of_false List.not_mem_nil ?_
      rintro ⟨place, placed, rfl⟩
      obtain ⟨node, foundParent, _⟩ := wellFormed.exists_parent placed
      rw [found] at foundParent
      cases foundParent
  | some node =>
      rw [children, found]
      simp only
      rw [← Node.map_snd_listing, List.mem_map]
      constructor
      · rintro ⟨entry, member, rfl⟩
        exact ⟨_, (wellFormed.mem_listing_iff found).mp member, rfl⟩
      · rintro ⟨place, placed, rfl⟩
        exact ⟨(place.role, child), (wellFormed.mem_listing_iff found).mpr placed, rfl⟩

/-- In a well-formed store every node is linked with its children. -/
theorem WellFormed.linksChildren
    (wellFormed : store.WellFormed) (parent : NodeRef) :
    store.LinksChildren parent := by
  cases parent with
  | none =>
      exact ⟨List.nodup_nil, fun _ member => absurd member List.not_mem_nil⟩
  | some id =>
      constructor
      case nodup =>
        cases found : store.node? (some id) with
        | none =>
            simp [children, found]
        | some node =>
            rw [children, found]
            simp only
            rw [← Node.map_snd_listing]
            exact wellFormed.listing_nodup found
      case located =>
        intro child member
        obtain ⟨place, placed, rfl⟩ := wellFormed.mem_children_iff.mp member
        obtain ⟨position, located⟩ := wellFormed.exists_location? placed
        exact ⟨_, located, rfl⟩

namespace LinksChildren

variable {parent : NodeRef} {child : NodeId} {before after : List NodeId}

/-- The children around a child are those around its location. -/
theorem exists_location?
    (links : store.LinksChildren parent)
    (split : store.children parent = before ++ child :: after) :
    ∃ location, store.location? (some child) = some location ∧
      store.childrenBefore location = before ∧ store.childrenAfter location = after := by
  obtain ⟨location, located, rfl⟩ := links.located child (by simp [split])
  have around := children_eq_around located
  have nodup := links.nodup
  rw [split, List.nodup_append] at nodup
  have notBefore : child ∉ before := fun member =>
    nodup.2.2 child member child List.mem_cons_self rfl
  have notAfter : child ∉ after := (List.nodup_cons.mp nodup.2.1).1
  rw [split] at around
  have same := (List.append_cons_inj_of_notMem notBefore notAfter).mp around
  exact ⟨location, located, same.1.symm, same.2.2.symm⟩

theorem nextSibling_eq
    (links : store.LinksChildren parent)
    (split : store.children parent = before ++ child :: after) :
    store.nextSibling (some child) = after.head? := by
  obtain ⟨location, located, _, sameAfter⟩ := links.exists_location? split
  rw [nextSibling, located, Option.bind_some, sameAfter]

theorem previousSibling_eq
    (links : store.LinksChildren parent)
    (split : store.children parent = before ++ child :: after) :
    store.previousSibling (some child) = before.getLast? := by
  obtain ⟨location, located, sameBefore, _⟩ := links.exists_location? split
  rw [previousSibling, located, Option.bind_some, sameBefore]

end LinksChildren

/-! ## Following links -/

/-- Following the links from a reference until there is none meets these nodes, in this order. -/
inductive Follows (next : NodeRef → NodeRef) : NodeRef → List NodeId → Prop
  | finish : Follows next none []
  | step {id : NodeId} {rest : List NodeId} :
      Follows next (next (some id)) rest → Follows next (some id) (id :: rest)

/-- Links that lead from each item of a list to the one after it lead along the whole list. -/
theorem follows_of_links
    {next : NodeRef → NodeRef} (items : List NodeId)
    (links : ∀ before item after, items = before ++ item :: after →
      next (some item) = after.head?) :
    Follows next items.head? items := by
  induction items with
  | nil =>
      exact .finish
  | cons item rest inductionHypothesis =>
      rw [List.head?_cons]
      refine .step ?_
      rw [links [] item rest rfl]
      apply inductionHypothesis
      intro before other after split
      exact links (item :: before) other after (by rw [split, List.cons_append])

theorem LinksChildren.follows_nextSibling
    {parent : NodeRef} (links : store.LinksChildren parent) :
    Follows store.nextSibling (store.firstChild parent) (store.children parent) :=
  follows_of_links _ fun _ _ _ split => links.nextSibling_eq split

theorem LinksChildren.follows_previousSibling
    {parent : NodeRef} (links : store.LinksChildren parent) :
    Follows store.previousSibling (store.lastChild parent) (store.children parent).reverse := by
  rw [lastChild, ← List.head?_reverse]
  apply follows_of_links
  intro before item after split
  have unreversed : store.children parent = after.reverse ++ item :: before.reverse := by
    rw [← List.reverse_reverse (store.children parent), split, List.reverse_append,
      List.reverse_cons, List.append_assoc, List.singleton_append]
  rw [links.previousSibling_eq unreversed, List.getLast?_reverse]

/-- A node is the next sibling of another exactly if the other is its previous sibling. -/
theorem WellFormed.nextSibling_eq_some_iff
    (wellFormed : store.WellFormed) {first second : NodeId} :
    store.nextSibling (some first) = some second ↔
      store.previousSibling (some second) = some first := by
  constructor
  · intro next
    obtain ⟨location, located, isHead⟩ := Option.bind_eq_some_iff.mp next
    obtain ⟨later, split⟩ := List.head?_eq_some_iff.mp isHead
    have around := children_eq_around located
    rw [split, List.append_cons] at around
    rw [(wellFormed.linksChildren _).previousSibling_eq around, List.getLast?_concat]
  · intro previous
    obtain ⟨location, located, isLast⟩ := Option.bind_eq_some_iff.mp previous
    obtain ⟨earlier, split⟩ := List.getLast?_eq_some_iff.mp isLast
    have around := children_eq_around located
    rw [split, ← List.append_cons] at around
    rw [(wellFormed.linksChildren _).nextSibling_eq around, List.head?_cons]

end Store

end TypedJava

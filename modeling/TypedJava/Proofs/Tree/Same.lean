import TypedJava.Proofs.Branch.InStore

/-! # Equality of trees

Two trees are equal if the payloads at the top agree and the children in each role are equal one by
one. A tree may differ from itself: a floating-point literal that is not a number does. -/

namespace TypedJava

/-- A floating-point literal that is not a number. -/
def Literal.isNotANumber : Literal → Bool
  | .float bits => Decimal.BinaryFormat.single.decode bits.toNat == .notANumber
  | .double bits => Decimal.BinaryFormat.double.decode bits.toNat == .notANumber
  | .boolean _ | .char _ | .byte _ | .short _ | .int _ | .long _ | .string _ => false

/-- A bit pattern is the same number as itself unless it is not a number. -/
theorem Decimal.BinaryFormat.sameNumber_self (format : BinaryFormat) (bits : Nat) :
    format.sameNumber bits bits = !(format.decode bits == .notANumber) := by
  rw [sameNumber]
  cases format.decode bits with
  | notANumber =>
      rfl
  | infinite negative =>
      simp
  | finite negative significand exponent atPowerOfTwo =>
      cases significand <;> simp

theorem Literal.sameValue_self (literal : Literal) :
    literal.sameValue literal = !literal.isNotANumber := by
  cases literal with
  | float bits => exact Decimal.BinaryFormat.single.sameNumber_self bits.toNat
  | double bits => exact Decimal.BinaryFormat.double.sameNumber_self bits.toNat
  | boolean | char | byte | short | int | long | string => simp [sameValue, isNotANumber]

/-- Only a literal that is not a number does not agree with itself. -/
theorem Payload.agrees_self_iff (payload : Payload) :
    payload.agrees payload = true ↔
      ∀ value, payload = .literal value → value.isNotANumber = false := by
  cases payload with
  | literal value =>
      simp [agrees, Literal.sameValue_self]
  | _ =>
      simp [agrees]

namespace Tree

/-- Over the same roles, slots are equal if the children in each role are. -/
theorem sameSlots_map (roles : List Role) (left right : Role → List Tree) :
    sameSlots (roles.map fun role => ⟨role, left role⟩)
        (roles.map fun role => ⟨role, right role⟩) =
      roles.all fun role => sameChildren (left role) (right role) := by
  induction roles with
  | nil =>
      rfl
  | cons role roles inductionHypothesis =>
      rw [List.map_cons, List.map_cons, sameSlots, inductionHypothesis, List.all_cons]

theorem sameChildren_self_iff (trees : List Tree) :
    sameChildren trees trees = true ↔ ∀ tree ∈ trees, tree.same tree = true := by
  induction trees with
  | nil =>
      simp [sameChildren]
  | cons tree trees inductionHypothesis =>
      simp [sameChildren, inductionHypothesis]

end Tree

namespace Branch

variable {store : Store}

/-- The trees of two branches are equal if the payloads at the top agree and the trees of the
children are equal role by role. -/
theorem same_toTree
    {first second : Branch} (sameKind : first.payload.kind = second.payload.kind) :
    first.toTree.same second.toTree =
      (first.payload.agrees second.payload && first.payload.kind.roles.all fun role =>
        Tree.sameChildren (treesIn role first.children) (treesIn role second.children)) := by
  cases first
  cases second
  simp only [payload] at sameKind
  simp only [toTree, Tree.same, payload, children, ← sameKind, Tree.sameSlots_map]

/-- A tree equals itself exactly if no literal in it is not a number. -/
theorem HeldIn.same_self_iff
    {branch : Branch} (held : branch.HeldIn store) (wellFormed : store.WellFormed) :
    branch.toTree.same branch.toTree = true ↔
      ∀ id ∈ branch.ids, ∀ value, store.payload? (some id) = some (.literal value) →
        value.isNotANumber = false := by
  induction branch using Branch.induction with
  | node top payload annotations children inductionHypothesis =>
      have topPayload := held.payload?_eq
      rw [same_toTree rfl, Bool.and_eq_true, Payload.agrees_self_iff, List.all_eq_true, ids_eq_cons]
      simp only [List.forall_mem_cons]
      apply and_congr
      · rw [topPayload]
        simp only [Option.some.injEq]
      · simp only [Tree.sameChildren_self_iff, treesIn_eq_filter, mem_idsOfAll]
        constructor
        · intro same id isBelow
          obtain ⟨entry, isChild, found⟩ := isBelow
          have childSame := same entry.1 (held.role_mem wellFormed isChild) entry.2.toTree
            (List.mem_map_of_mem (List.mem_filter.mpr ⟨isChild, by simp⟩))
          exact (inductionHypothesis entry isChild (held.of_mem_children isChild)).mp childSame
            id found
        · intro numbers role _ tree member
          obtain ⟨entry, isListed, rfl⟩ := List.mem_map.mp member
          have isChild := (List.mem_filter.mp isListed).1
          apply (inductionHypothesis entry isChild (held.of_mem_children isChild)).mpr
          exact fun id found => numbers id ⟨entry, isChild, found⟩

end Branch

end TypedJava

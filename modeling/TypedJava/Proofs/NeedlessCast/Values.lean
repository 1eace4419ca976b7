import Mathlib.Algebra.Group.Int.Defs
import Mathlib.Algebra.Group.Nat.Defs
import TypedJava.NeedlessCast

/-! # Whole numbers in the kinds that hold them

A kind of whole numbers holds an interval, and a number that is converted to the kind wraps around
in it. A conversion that is judged to preserve the value of a number leaves the number as it is. -/

namespace TypedJava

namespace JvmKind

/-- The least and the greatest number that a kind of whole numbers holds. -/
def range? : JvmKind → Option (Int × Int)
  | byte => some (-2 ^ 7, 2 ^ 7 - 1)
  | short => some (-2 ^ 15, 2 ^ 15 - 1)
  | char => some (0, 2 ^ 16 - 1)
  | int => some (-2 ^ 31, 2 ^ 31 - 1)
  | long => some (-2 ^ 63, 2 ^ 63 - 1)
  | boolean | float | double | object | array | typeVariable | wildcard | void => none

/-- The number is one of a kind of whole numbers. -/
def Holds (kind : JvmKind) (value : Int) : Prop :=
  ∃ range ∈ kind.range?, range.1 ≤ value ∧ value ≤ range.2

/-- Converts a whole number to a kind of whole numbers, which keeps the low bits. -/
def wrap (kind : JvmKind) (value : Int) : Int :=
  match kind.range? with
  | some (least, greatest) => least + (value - least) % (greatest - least + 1)
  | none => value

section Wrapping

variable {kind : JvmKind} {value : Int}

theorem exists_range? (integral : kind.isIntegral = true) :
    ∃ least greatest, kind.range? = some (least, greatest) := by
  cases kind with
  | byte => exact ⟨_, _, rfl⟩
  | short => exact ⟨_, _, rfl⟩
  | char => exact ⟨_, _, rfl⟩
  | int => exact ⟨_, _, rfl⟩
  | long => exact ⟨_, _, rfl⟩
  | _ => cases integral

/-- The numbers of a kind are as many as its bits can tell apart. -/
theorem range?_width {least greatest : Int} (found : kind.range? = some (least, greatest)) :
    greatest - least + 1 = 2 ^ kind.width := by
  cases kind <;> cases found <;> rfl

theorem wrap_of_range? {least greatest : Int} (found : kind.range? = some (least, greatest))
    (value : Int) :
    kind.wrap value = least + (value - least) % 2 ^ kind.width := by
  rw [wrap, found]
  simp only
  rw [range?_width found]

/-- A number of a kind is not changed by conversion to the kind. -/
theorem wrap_eq (held : kind.Holds value) : kind.wrap value = value := by
  obtain ⟨⟨least, greatest⟩, found, above, below⟩ := held
  have width := range?_width found
  have inside : (value - least) % 2 ^ kind.width = value - least :=
    Int.emod_eq_of_lt (by simp only at above; omega) (by simp only at below; omega)
  rw [wrap_of_range? found, inside]
  omega

/-- Converting a number to a kind keeps its low bits. -/
theorem wrap_emod (integral : kind.isIntegral = true) (value : Int) :
    kind.wrap value % 2 ^ kind.width = value % 2 ^ kind.width := by
  obtain ⟨least, greatest, found⟩ := exists_range? integral
  rw [wrap_of_range? found, Int.add_emod_emod]
  congr 1
  omega

/-- A kind of whole numbers holds what every kind holds that widens to it. -/
theorem holds_of_widensTo
    {target : JvmKind} (widens : kind.widensTo target = true) (integral : target.isIntegral = true)
    (held : kind.Holds value) :
    target.Holds value := by
  obtain ⟨⟨least, greatest⟩, found, above, below⟩ := held
  simp only at above below
  obtain ⟨targetLeast, targetGreatest, targetFound⟩ := exists_range? integral
  have wider : targetLeast ≤ least ∧ greatest ≤ targetGreatest := by
    cases kind <;> cases target <;> simp_all [widensTo, isIntegral, range?] <;> omega
  refine ⟨_, targetFound, ?_, ?_⟩ <;> simp only <;> omega

/-- Every whole number that some kind holds is held by the widest one. -/
theorem Holds.long (held : kind.Holds value) : JvmKind.long.Holds value := by
  cases kind with
  | long => exact held
  | byte => exact holds_of_widensTo rfl rfl held
  | short => exact holds_of_widensTo rfl rfl held
  | char => exact holds_of_widensTo rfl rfl held
  | int => exact holds_of_widensTo rfl rfl held
  | _ =>
      obtain ⟨_, found, _⟩ := held
      cases found

theorem holds_of_integerRepresentable
    (representable : Literal.integerRepresentable value kind = true)
    (integral : kind.isIntegral = true) (held : JvmKind.long.Holds value) :
    kind.Holds value := by
  cases kind with
  | long => exact held
  | byte => exact ⟨_, rfl, by simpa [Literal.integerRepresentable] using representable⟩
  | short => exact ⟨_, rfl, by simpa [Literal.integerRepresentable] using representable⟩
  | char => exact ⟨_, rfl, by simpa [Literal.integerRepresentable] using representable⟩
  | int => exact ⟨_, rfl, by simpa [Literal.integerRepresentable] using representable⟩
  | _ => cases integral

end Wrapping

end JvmKind

/-- A number whose value a conversion preserves is one of the kind that it is converted to. A known
value is that of a literal of the kind that the number comes from. -/
theorem holds_of_preservesValue
    {source target : JvmKind} {constant : Option Literal} {value : Int}
    (preserves : preservesValue source target constant = true)
    (integral : target.isIntegral = true) (held : source.Holds value)
    (known : ∀ literal, constant = some literal →
      literal.kind? = some source ∧ literal.integer? = some value) :
    target.Holds value := by
  by_cases same : source = target
  · exact same ▸ held
  by_cases representable : ∃ literal, constant = some literal ∧ literal.representableIn target = true
  · obtain ⟨literal, found, represents⟩ := representable
    obtain ⟨kind, integer⟩ := known literal found
    have differs : (literal.kind? == some target) = false := by
      simpa [kind] using same
    rw [Literal.representableIn, differs, integer, Bool.false_or] at represents
    exact JvmKind.holds_of_integerRepresentable represents integral held.long
  by_cases widens : source.widensTo target = true
  · exact JvmKind.holds_of_widensTo widens integral held
  · have unknown : constant.any (·.representableIn target) = false := by
      cases constant <;> simp_all
    cases target <;> simp_all [preservesValue, JvmKind.isIntegral]

end TypedJava

import TypedJava.Proofs.NeedlessCast.Stored

/-! # Needless casts inside casts

A whole number that is cast twice passes through a number of the inner kind. Where the inner cast is
judged needless, every whole number passes through the inner kind unchanged or keeps the bits that
the outer kind keeps. The results still differ where a floating-point number is converted back:
that conversion clamps a large number, while the direct one drops its high bits. -/

namespace TypedJava

/-! ## Whole numbers in floating-point formats -/

namespace Decimal.BinaryFormat

variable {format : BinaryFormat} {value : Int}

/-- The distance between the numbers of a format that surround a whole number. -/
def spacing (format : BinaryFormat) (value : Int) : Int :=
  2 ^ (value.natAbs.log2 + 1 - format.precision)

/-- The number of a format that is nearest to a whole number. Of two that are equally near it is the
one with the even significand. -/
def nearest (format : BinaryFormat) (value : Int) : Int :=
  let below := value / format.spacing value
  let rest := value % format.spacing value
  if 2 * rest < format.spacing value ∨ (2 * rest = format.spacing value ∧ below % 2 = 0) then
    below * format.spacing value
  else
    (below + 1) * format.spacing value

theorem nearest_of_dvd (divides : format.spacing value ∣ value) : format.nearest value = value := by
  have positive : 0 < format.spacing value := Int.pow_pos (by decide)
  have rest : value % format.spacing value = 0 :=
    Int.emod_eq_zero_of_dvd divides
  rw [nearest, rest]
  simp only [Int.mul_zero, positive, true_or, if_true]
  exact Int.ediv_mul_cancel divides

/-- A format holds every whole number up to the first that does not fit into its significand. -/
theorem nearest_of_natAbs_le
    (hasDigits : 0 < format.precision) (fits : value.natAbs ≤ 2 ^ format.precision) :
    format.nearest value = value := by
  apply nearest_of_dvd
  by_cases isZero : value.natAbs = 0
  · rw [Int.natAbs_eq_zero.mp isZero]
    exact Int.dvd_zero _
  by_cases less : value.natAbs < 2 ^ format.precision
  · have short : value.natAbs.log2 < format.precision :=
      (Nat.log2_lt isZero).mpr less
    have unit : value.natAbs.log2 + 1 - format.precision = 0 := by omega
    rw [spacing, unit]
    exact Int.one_dvd value
  · have greatest : value.natAbs = 2 ^ format.precision := by omega
    have even : (2 : Int) ∣ (value.natAbs : Int) := by
      rw [greatest]
      exact_mod_cast Nat.pow_dvd_pow 2 hasDigits
    rw [spacing, greatest, Nat.log2_two_pow, Nat.add_sub_cancel_left]
    exact Int.dvd_natAbs.mp even

/-- A number halfway between two neighbours goes to the even one. -/
example : single.nearest (2 ^ 24 + 1) = 2 ^ 24 ∧ single.nearest (2 ^ 24 + 3) = 2 ^ 24 + 4 := by
  decide

end Decimal.BinaryFormat

/-! ## Conversions of whole numbers -/

namespace JvmKind

open Decimal (BinaryFormat)

/-- The format of the numbers of a floating-point kind. -/
def format? : JvmKind → Option BinaryFormat
  | float => some .single
  | double => some .double
  | _ => none

/-- The number of a kind of whole numbers that is nearest to a whole number. -/
def clamp (kind : JvmKind) (value : Int) : Int :=
  match kind.range? with
  | some (least, greatest) => max least (min greatest value)
  | none => value

/-- Converts a whole number of one kind of numbers to another kind. A floating-point kind takes the
nearest of its numbers. From a floating-point kind a number is clamped, to `long` or else to `int`,
before it is wrapped around. -/
def convert (source target : JvmKind) (value : Int) : Int :=
  match target.format? with
  | some format => format.nearest value
  | none =>
    if source.isFloating then
      if target = .long then long.clamp value else target.wrap (int.clamp value)
    else target.wrap value

section Converting

variable {source kind target : JvmKind} {value : Int}

/-- Conversion to a kind of whole numbers keeps two numbers apart exactly if they differ in the bits
that the kind keeps. -/
theorem wrap_eq_wrap_iff (integral : kind.isIntegral = true) (first second : Int) :
    kind.wrap first = kind.wrap second ↔ 2 ^ kind.width ∣ first - second := by
  obtain ⟨least, greatest, found⟩ := exists_range? integral
  constructor
  · intro same
    apply Int.dvd_of_emod_eq_zero
    apply Int.emod_eq_emod_iff_emod_sub_eq_zero.mp
    rw [← wrap_emod integral first, ← wrap_emod integral second, same]
  · intro divides
    have apart : first - least - (second - least) = first - second := by omega
    have same : (first - least) % 2 ^ kind.width = (second - least) % 2 ^ kind.width := by
      apply Int.emod_eq_emod_iff_emod_sub_eq_zero.mpr
      rw [apart]
      exact Int.emod_eq_zero_of_dvd divides
    rw [wrap_of_range? found, wrap_of_range? found, same]

/-- A kind that keeps no more bits than another one may be reached through it. -/
theorem wrap_wrap_of_width_le
    (integral : kind.isIntegral = true) (targetIntegral : target.isIntegral = true)
    (narrower : target.width ≤ kind.width) (value : Int) :
    target.wrap (kind.wrap value) = target.wrap value := by
  have kept : (2 : Int) ^ kind.width ∣ kind.wrap value - value := by
    apply Int.dvd_of_emod_eq_zero
    apply Int.emod_eq_emod_iff_emod_sub_eq_zero.mp
    exact wrap_emod integral value
  have divides : (2 : Int) ^ target.width ∣ 2 ^ kind.width := by
    exact_mod_cast Nat.pow_dvd_pow 2 narrower
  rw [wrap_eq_wrap_iff targetIntegral]
  exact Int.dvd_trans divides kept

theorem clamp_eq (held : kind.Holds value) : kind.clamp value = value := by
  obtain ⟨⟨least, greatest⟩, found, above, below⟩ := held
  simp only at above below
  rw [clamp, found]
  simp only
  omega

theorem isFloating_of_isIntegral (integral : kind.isIntegral = true) : kind.isFloating = false := by
  revert integral
  cases kind <;> decide

theorem isNumeric_of_isIntegral (integral : kind.isIntegral = true) : kind.isNumeric = true := by
  revert integral
  cases kind <;> decide

theorem isIntegral_of_isNumeric
    (numeric : kind.isNumeric = true) (notFloating : kind.isFloating = false) :
    kind.isIntegral = true := by
  revert numeric notFloating
  cases kind <;> decide

theorem format?_of_isIntegral (integral : kind.isIntegral = true) : kind.format? = none := by
  revert integral
  cases kind <;> decide

theorem convert_of_isIntegral
    (sourceIntegral : source.isIntegral = true) (targetIntegral : target.isIntegral = true)
    (value : Int) :
    source.convert target value = target.wrap value := by
  rw [convert, format?_of_isIntegral targetIntegral, isFloating_of_isIntegral sourceIntegral]
  rfl

theorem convert_of_isFloating
    (floating : source.isFloating = true) (targetIntegral : target.isIntegral = true)
    (value : Int) :
    source.convert target value =
      if target = .long then long.clamp value else target.wrap (int.clamp value) := by
  rw [convert, format?_of_isIntegral targetIntegral, floating]
  rfl

/-- A floating-point kind keeps the numbers that it represents. -/
theorem convert_of_integerRepresentable
    (floating : kind.isFloating = true)
    (representable : Literal.integerRepresentable value kind = true) :
    source.convert kind value = value := by
  cases kind with
  | float =>
      have fits : value.natAbs ≤ 2 ^ 24 := of_decide_eq_true representable
      exact BinaryFormat.nearest_of_natAbs_le (by decide) fits
  | double =>
      have fits : value.natAbs ≤ 2 ^ 53 := of_decide_eq_true representable
      exact BinaryFormat.nearest_of_natAbs_le (by decide) fits
  | _ => cases floating

/-- A floating-point kind represents all numbers of the kinds that it preserves. -/
theorem integerRepresentable_of_preservesValue
    (floating : kind.isFloating = true) (integral : source.isIntegral = true)
    (preserves : preservesValue source kind none = true) (held : source.Holds value) :
    Literal.integerRepresentable value kind = true := by
  obtain ⟨⟨least, greatest⟩, found, above, below⟩ := held
  cases kind <;> cases source <;>
    simp_all [preservesValue, isFloating, isIntegral, range?, Literal.integerRepresentable,
      widensTo] <;>
    omega

end Converting

end JvmKind

/-- A floating-point kind represents a number whose value the conversion to the kind preserves. A
known value is that of a literal of the kind that the number comes from. -/
theorem integerRepresentable_of_known
    {source kind : JvmKind} {constant : Option Literal} {value : Int}
    (preserves : preservesValue source kind constant = true)
    (integral : source.isIntegral = true) (floating : kind.isFloating = true)
    (held : source.Holds value)
    (known : ∀ literal, constant = some literal →
      literal.kind? = some source ∧ literal.integer? = some value) :
    Literal.integerRepresentable value kind = true := by
  by_cases representable :
      ∃ literal, constant = some literal ∧ literal.representableIn kind = true
  · obtain ⟨literal, found, represents⟩ := representable
    obtain ⟨literalKind, integer⟩ := known literal found
    have different : source ≠ kind := by
      intro same
      rw [← same, JvmKind.isFloating_of_isIntegral integral] at floating
      cases floating
    have differs : (literal.kind? == some kind) = false := by
      simpa [literalKind] using different
    rw [Literal.representableIn, differs, integer, Bool.false_or] at represents
    exact represents
  · have unknown : constant.any (·.representableIn kind) = false := by
      cases constant <;> simp_all
    have withoutConstant : preservesValue source kind none = true := by
      simpa [preservesValue, unknown] using preserves
    exact JvmKind.integerRepresentable_of_preservesValue floating integral withoutConstant held

/-- A conversion that preserves the value of a number leaves it as it is. A known value is that of a
literal of the kind that the number comes from. -/
theorem convert_of_preservesValue
    {source kind : JvmKind} {constant : Option Literal} {value : Int}
    (preserves : preservesValue source kind constant = true)
    (integral : source.isIntegral = true) (numeric : kind.isNumeric = true)
    (held : source.Holds value)
    (known : ∀ literal, constant = some literal →
      literal.kind? = some source ∧ literal.integer? = some value) :
    source.convert kind value = value := by
  cases floating : kind.isFloating with
  | false =>
      have kindIntegral := JvmKind.isIntegral_of_isNumeric numeric floating
      have kindHolds := holds_of_preservesValue preserves kindIntegral held known
      rw [JvmKind.convert_of_isIntegral integral kindIntegral]
      exact JvmKind.wrap_eq kindHolds
  | true =>
      apply JvmKind.convert_of_integerRepresentable floating
      exact integerRepresentable_of_known preserves integral floating held known

/-! ## Casts inside casts -/

namespace Store

/-- The value of a cast is cast again, to a type. -/
inductive NestsCast (store : Store) (context : Context) (cast : NodeId) (outer : Ty) : Prop
  | inside {parent : NodeId} :
      store.place? (some cast) = some ⟨parent, .expression⟩ →
      store.payload? (some parent) = some .cast →
      store.typeOf? context (store.childIn (some parent) .type) = some outer →
      NestsCast store context cast outer

section Nested

variable {store : Store} {context : Context} {cast : NodeId}
  {outerKind castKind sourceKind : JvmKind}

theorem valueKind?_of_isNumeric {kind : JvmKind} (numeric : kind.isNumeric = true) :
    (Ty.primitive kind).valueKind? = some kind := by
  revert numeric
  cases kind <;> decide

/-- A cast that is judged needless inside another cast preserves the value, or all three kinds are
whole numbers and the inner one keeps all bits that the outer one keeps. -/
theorem NestsCast.preservesValue_or
    (nests : store.NestsCast context cast (.primitive outerKind))
    (castType : store.typeOf? context (store.childIn (some cast) .type) =
      some (.primitive castKind))
    (sourceType : store.typeOf? context (store.childIn (some cast) .expression) =
      some (.primitive sourceKind))
    (castNumeric : castKind.isNumeric = true) (sourceIntegral : sourceKind.isIntegral = true)
    (outerIntegral : outerKind.isIntegral = true)
    (needless : store.isNeedlessCast context (some cast) = true) :
    ∃ source, store.resolve context (store.childIn (some cast) .expression) = some source ∧
      source.type = .primitive sourceKind ∧
      (preservesValue sourceKind castKind source.constant = true ∨
        (castKind.isIntegral = true ∧ outerKind.width ≤ castKind.width)) := by
  obtain ⟨source, resolved, isSource⟩ := Option.map_eq_some_iff.mp sourceType
  obtain ⟨placed, isCast, outerType⟩ := nests
  refine ⟨source, resolved, isSource, ?_⟩
  have judged := (Bool.and_eq_true_iff.mp needless).2
  rw [castType, resolved] at judged
  simp only [placed, isNeedlessAt, isCast, Context.isNeedlessUnder, outerType] at judged
  rcases Bool.or_eq_true_iff.mp judged with same | nested
  · rw [isSource] at same
    have sameKind : (sourceKind == castKind) = true := same
    exact Or.inl (by simp [preservesValue, sameKind])
  · have inside : needlessInsideCast source (.primitive castKind) (.primitive outerKind) = true :=
      (Bool.and_eq_true_iff.mp nested).2
    rw [needlessInsideCast, isSource,
      valueKind?_of_isNumeric (JvmKind.isNumeric_of_isIntegral sourceIntegral),
      valueKind?_of_isNumeric castNumeric,
      valueKind?_of_isNumeric (JvmKind.isNumeric_of_isIntegral outerIntegral)] at inside
    simpa [sourceIntegral, outerIntegral] using inside

/-- The known value of an operand is that of the literal that stands there. -/
theorem kind?_of_constant
    {reference : NodeRef} {source : Resolved} {literal : Literal}
    (resolved : store.resolve context reference = some source)
    (isSource : source.type = .primitive sourceKind) (constant : source.constant = some literal) :
    literal.kind? = some sourceKind ∧ store.payload? reference = some (.literal literal) := by
  obtain ⟨payload, literalType⟩ := resolveWithin_literal resolved constant
  rw [isSource] at literalType
  cases kind : literal.kind? with
  | none =>
      rw [kind] at literalType
      cases literalType
  | some literalKind =>
      rw [kind] at literalType
      cases literalType
      exact ⟨rfl, payload⟩

/-- Where a cast to a numeric kind is judged needless inside a cast to a kind of whole numbers,
every whole number comes out the same with and without it, unless it passes through a floating-point
kind and back to a kind below `long`: then the bits that the outer kind keeps must be those of the
number clamped to `int`. -/
theorem convert_convert_eq_iff_of_isNeedlessCast
    (nests : store.NestsCast context cast (.primitive outerKind))
    (castType : store.typeOf? context (store.childIn (some cast) .type) =
      some (.primitive castKind))
    (sourceType : store.typeOf? context (store.childIn (some cast) .expression) =
      some (.primitive sourceKind))
    (castNumeric : castKind.isNumeric = true) (sourceIntegral : sourceKind.isIntegral = true)
    (outerIntegral : outerKind.isIntegral = true)
    (needless : store.isNeedlessCast context (some cast) = true) {value : Int}
    (held : sourceKind.Holds value)
    (known : ∀ literal, store.payload? (store.childIn (some cast) .expression) =
      some (.literal literal) → literal.integer? = some value) :
    castKind.convert outerKind (sourceKind.convert castKind value) =
        sourceKind.convert outerKind value ↔
      (castKind.isFloating = true → outerKind ≠ .long →
        2 ^ outerKind.width ∣ value - JvmKind.int.clamp value) := by
  obtain ⟨source, resolved, isSource, reason⟩ :=
    nests.preservesValue_or castType sourceType castNumeric sourceIntegral outerIntegral needless
  have constant (literal : Literal) (isConstant : source.constant = some literal) :
      literal.kind? = some sourceKind ∧ literal.integer? = some value := by
    obtain ⟨kind, payload⟩ := kind?_of_constant resolved isSource isConstant
    exact ⟨kind, known literal payload⟩
  rw [JvmKind.convert_of_isIntegral sourceIntegral outerIntegral]
  cases floating : castKind.isFloating with
  | false =>
      have castIntegral := JvmKind.isIntegral_of_isNumeric castNumeric floating
      rw [JvmKind.convert_of_isIntegral castIntegral outerIntegral]
      refine ⟨fun _ impossible => (by cases impossible), fun _ => ?_⟩
      rcases reason with preserves | ⟨_, narrower⟩
      · rw [convert_of_preservesValue preserves sourceIntegral castNumeric held constant]
      · rw [JvmKind.convert_of_isIntegral sourceIntegral castIntegral]
        exact JvmKind.wrap_wrap_of_width_le castIntegral outerIntegral narrower value
  | true =>
      have preserves : preservesValue sourceKind castKind source.constant = true := by
        rcases reason with preserves | ⟨castIntegral, _⟩
        · exact preserves
        · rw [JvmKind.isFloating_of_isIntegral castIntegral] at floating
          cases floating
      rw [convert_of_preservesValue preserves sourceIntegral castNumeric held constant,
        JvmKind.convert_of_isFloating floating outerIntegral]
      by_cases isLong : outerKind = .long
      · subst isLong
        rw [if_pos rfl, JvmKind.clamp_eq held.long, JvmKind.wrap_eq held.long]
        simp
      · rw [if_neg isLong, eq_comm, JvmKind.wrap_eq_wrap_iff outerIntegral]
        simp [isLong]

end Nested

/-! ### A number that is clamped -/

/-- Builds `(outer) (inner) value`; the inner cast is the third node. -/
def castTwice (outer inner : String) (value : Edit NodeId) : Edit NodeId := do
  let operand ← value
  let innerType ← Edit.mkNamedType inner []
  let cast ← Edit.mkCast (some innerType) (some operand)
  let outerType ← Edit.mkNamedType outer []
  Edit.mkCast (some outerType) (some cast)

/-- The inner cast in `(int) (double) 1099511627776L` is judged needless, but with it the result is
the greatest `int` and without it zero. -/
theorem isNeedlessCast_of_clampedLong :
    let context := Context.ofCatalog .standard
    let store := ((castTwice "int" "double" (Edit.mkLiteral (.long 1099511627776))).run
      Store.empty).2
    store.NestsCast context 2 (.primitive .int) ∧
      store.typeOf? context (store.childIn (some 2) .type) = some (.primitive .double) ∧
      store.typeOf? context (store.childIn (some 2) .expression) = some (.primitive .long) ∧
      store.payload? (store.childIn (some 2) .expression) =
        some (.literal (.long 1099511627776)) ∧
      store.isNeedlessCast context (some 2) = true ∧ JvmKind.long.Holds 1099511627776 ∧
      JvmKind.double.convert .int (JvmKind.long.convert .double 1099511627776) = 2147483647 ∧
      JvmKind.long.convert .int 1099511627776 = 0 := by
  refine ⟨.inside rfl rfl rfl, rfl, rfl, rfl, by decide +kernel, ⟨_, rfl, by decide⟩, ?_, ?_⟩
  · decide +kernel
  · decide +kernel

/-- A number whose high bits do not matter comes out the same: `(int) (double) 6442450943L`. -/
theorem convert_convert_eq_iff_of_clampedBits :
    let context := Context.ofCatalog .standard
    let store := ((castTwice "int" "double" (Edit.mkLiteral (.long 6442450943))).run
      Store.empty).2
    store.isNeedlessCast context (some 2) = true ∧
      (JvmKind.double.convert .int (JvmKind.long.convert .double 6442450943) =
          JvmKind.long.convert .int 6442450943 ↔
        (JvmKind.double.isFloating = true → JvmKind.int ≠ .long →
          2 ^ JvmKind.int.width ∣ 6442450943 - JvmKind.int.clamp 6442450943)) := by
  have needless : (((castTwice "int" "double" (Edit.mkLiteral (.long 6442450943))).run
      Store.empty).2.isNeedlessCast (Context.ofCatalog .standard) (some 2)) = true := by
    decide +kernel
  refine ⟨needless, ?_⟩
  apply convert_convert_eq_iff_of_isNeedlessCast (.inside rfl rfl rfl) rfl rfl rfl rfl rfl needless
    ⟨_, rfl, by decide⟩
  rintro literal ⟨⟩
  rfl

end Store

end TypedJava

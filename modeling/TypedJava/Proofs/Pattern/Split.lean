import Mathlib.Tactic.Ring
import TypedJava.Pattern.Search

/-! # Searches and splits

The items of a search split a list of targets if each of them takes its part of what the items
before it have left. As long as no test looks at the captures, a search with enough steps finds a
split exactly if there is one. -/

namespace TypedJava

namespace NodeTest

/-- The answer of the test does not depend on the captures so far. -/
def IsSteady (test : NodeTest) : Prop :=
  ∀ target first second, (test target first).1 = (test target second).1

/-- The test accepts a target. -/
def Accepts (test : NodeTest) (target : NodeRef) : Prop :=
  ∀ captures, (test target captures).1 = true

theorem IsSteady.accepts
    {test : NodeTest} (steady : test.IsSteady) {target : NodeRef} {captures : Captures}
    (passed : (test target captures).1 = true) :
    test.Accepts target := by
  intro other
  rw [steady target other captures, passed]

end NodeTest

namespace SearchItem

/-- The test of the item. -/
def test : SearchItem → NodeTest
  | single test => test
  | repeated test _ _ => test

/-- May the item take several targets? -/
def isRepeated : SearchItem → Bool
  | single _ => false
  | repeated _ _ _ => true

/-- The targets that the item leaves when it takes its part at the front. An item for one node takes
the next target, or is shown the absent node past the end. -/
inductive Takes : SearchItem → List NodeRef → List NodeRef → Prop
  | single {test : NodeTest} {targets : List NodeRef} :
      test.Accepts (targets.headD none) → Takes (.single test) targets targets.tail
  | repeated {test : NodeTest} {least : Nat} {most : Option Nat} {run rest : List NodeRef} :
      least ≤ run.length → (∀ bound, most = some bound → run.length ≤ bound) →
      (∀ target ∈ run, test.Accepts target) →
      Takes (.repeated test least most) (run ++ rest) rest

theorem Takes.length_le
    {item : SearchItem} {targets rest : List NodeRef} (takes : item.Takes targets rest) :
    rest.length ≤ targets.length := by
  cases takes with
  | single _ =>
      rw [List.length_tail]
      exact Nat.sub_le _ _
  | repeated _ _ _ =>
      rw [List.length_append]
      exact Nat.le_add_left _ _

/-- The items take all of the targets between them. -/
inductive Split : List SearchItem → List NodeRef → Prop
  | nil : Split [] []
  | cons {item : SearchItem} {items : List SearchItem} {targets rest : List NodeRef} :
      item.Takes targets rest → Split items rest → Split (item :: items) targets

/-! ## The runs of a repeated item -/

section Runs

variable {test : NodeTest} {least : Nat} {most : Option Nat} {count : Nat}
  {targets rest : List NodeRef} {captures : Captures} {shorter : List Run}

/-- The part of the targets that a run with a rest takes from them, when a number of targets was
taken before. -/
def IsRunTo (test : NodeTest) (least : Nat) (most : Option Nat) (count : Nat)
    (targets rest : List NodeRef) : Prop :=
  ∃ run, run ≠ [] ∧ targets = run ++ rest ∧ least ≤ count + run.length ∧
    (∀ bound, most = some bound → count + run.length ≤ bound) ∧ ∀ target ∈ run, test.Accepts target

theorem mayGrow_iff : mayGrow most count = true ↔ ∀ bound, most = some bound → count < bound := by
  cases most <;> simp [mayGrow]

/-- A run that takes one target either ends there or goes on. -/
theorem isRunTo_cons
    {target : NodeRef} (grows : mayGrow most count = true) (accepts : test.Accepts target) :
    IsRunTo test least most count (target :: targets) rest ↔
      (rest = targets ∧ least ≤ count + 1) ∨
        IsRunTo test least most (count + 1) targets rest := by
  rw [mayGrow_iff] at grows
  constructor
  · rintro ⟨run, nonempty, split, enough, bounded, accepted⟩
    cases run with
    | nil =>
        exact absurd rfl nonempty
    | cons first run =>
        injection split with sameTarget sameRest
        simp only [List.length_cons] at enough bounded
        cases run with
        | nil =>
            exact Or.inl ⟨sameRest.symm, enough⟩
        | cons second run =>
            refine Or.inr ⟨second :: run, by simp, sameRest, ?_, fun bound isBound => ?_, ?_⟩
            · simp only [List.length_cons] at enough ⊢
              omega
            · have := bounded bound isBound
              simp only [List.length_cons] at this ⊢
              omega
            · exact fun other member => accepted other (List.mem_cons_of_mem _ member)
  · rintro (⟨rfl, enough⟩ | ⟨run, nonempty, split, enough, bounded, accepted⟩)
    · refine ⟨[target], by simp, rfl, enough, fun bound isBound => ?_, ?_⟩
      · have := grows bound isBound
        simp only [List.length_cons, List.length_nil]
        omega
      · intro other member
        rw [List.mem_singleton.mp member]
        exact accepts
    · refine ⟨target :: run, by simp, by rw [split, List.cons_append], ?_, fun bound isBound => ?_, ?_⟩
      · simp only [List.length_cons]
        omega
      · have := bounded bound isBound
        simp only [List.length_cons]
        omega
      · intro other member
        rcases List.mem_cons.mp member with rfl | later
        · exact accepts
        · exact accepted other later

/-- Without room to grow there is no further run. -/
theorem not_isRunTo_of_full (full : mayGrow most count = false) :
    ¬ IsRunTo test least most count targets rest := by
  rintro ⟨run, nonempty, _, _, bounded, _⟩
  have grows : mayGrow most count = true := by
    rw [mayGrow_iff]
    intro bound isBound
    have length := List.length_pos_iff.mpr nonempty
    have := bounded bound isBound
    omega
  rw [full] at grows
  cases grows

/-- No run goes past a target that is not accepted. -/
theorem not_isRunTo_of_rejected
    {target : NodeRef} (rejected : (test target captures).1 = false) :
    ¬ IsRunTo test least most count (target :: targets) rest := by
  rintro ⟨run, nonempty, split, _, _, accepted⟩
  cases run with
  | nil =>
      exact absurd rfl nonempty
  | cons first run =>
      injection split with sameTarget
      have passed := accepted first List.mem_cons_self captures
      rw [← sameTarget, rejected] at passed
      cases passed

/-- The search finds the runs that there are. -/
theorem exists_mem_runs_iff (steady : test.IsSteady) :
    (∃ run ∈ (runs test least most count targets captures shorter).1, run.rest = rest) ↔
      IsRunTo test least most count targets rest ∨ ∃ run ∈ shorter, run.rest = rest := by
  induction targets generalizing count captures shorter with
  | nil =>
      have noRun : ¬ IsRunTo test least most count [] rest := by
        rintro ⟨run, nonempty, split, _⟩
        exact nonempty (List.append_eq_nil_iff.mp split.symm).1
      rw [runs]
      simp only [noRun, false_or]
  | cons target targets inductionHypothesis =>
      rw [runs]
      by_cases grows : mayGrow most count = true
      · rw [if_pos grows]
        cases result : test target captures with
        | mk passed after =>
            have answer : (test target captures).1 = passed := by rw [result]
            cases passed with
            | false =>
                simp only [not_isRunTo_of_rejected answer, false_or]
            | true =>
                have accepts := steady.accepts answer
                simp only
                rw [inductionHypothesis, isRunTo_cons grows accepts]
                by_cases enough : least ≤ count + 1
                · rw [if_pos enough]
                  simp only [List.mem_cons, exists_eq_or_imp, enough, and_true]
                  tauto
                · rw [if_neg enough]
                  simp only [enough, and_false, false_or]
      · have full := Bool.eq_false_iff.mpr grows
        rw [if_neg grows]
        simp only [not_isRunTo_of_full full, false_or]

theorem length_runs_le :
    (runs test least most count targets captures shorter).1.length ≤
      shorter.length + targets.length := by
  induction targets generalizing count captures shorter with
  | nil =>
      rw [runs]
      simp
  | cons target targets inductionHypothesis =>
      rw [runs]
      split
      · split
        · simp
        · refine Nat.le_trans inductionHypothesis ?_
          split <;> simp only [List.length_cons] <;> omega
      · simp

/-- The runs that a repeated item tries are the parts that it may take. -/
theorem exists_mem_allRuns_iff (steady : test.IsSteady) :
    (∃ run ∈ (allRuns test least most targets captures).1, run.rest = rest) ↔
      (SearchItem.repeated test least most).Takes targets rest := by
  rw [allRuns, exists_mem_runs_iff steady]
  constructor
  · rintro (⟨run, _, rfl, enough, bounded, accepted⟩ | ⟨run, member, rfl⟩)
    · rw [Nat.zero_add] at enough bounded
      exact .repeated enough bounded accepted
    · split at member
      · rename_i isZero
        rw [List.mem_singleton.mp member, ← List.nil_append targets]
        exact .repeated (by simp [isZero]) (by simp) fun _ absent => by cases absent
      · cases member
  · intro takes
    cases takes with
    | @repeated _ _ _ run rest enough bounded accepted =>
        cases run with
        | nil =>
            have isZero : least = 0 := Nat.le_zero.mp enough
            refine Or.inr ⟨⟨rest, captures⟩, ?_, rfl⟩
            rw [if_pos isZero]
            exact List.mem_singleton.mpr rfl
        | cons first run =>
            rw [← Nat.zero_add (first :: run).length] at enough bounded
            exact Or.inl ⟨first :: run, by simp, rfl, enough, bounded, accepted⟩

theorem length_allRuns_le :
    (allRuns test least most targets captures).1.length ≤ targets.length + 1 := by
  refine Nat.le_trans length_runs_le ?_
  split <;> simp only [List.length_cons, List.length_nil] <;> omega

end Runs

/-! ## The steps of a search -/

/-- A search with a number of steps tells whether something holds, and a search that fails takes no
more steps than its cost. -/
inductive Answers (holds : Prop) (steps cost : Nat) : SearchOutcome → Prop
  | found {captures : Captures} : holds → Answers holds steps cost (.found captures)
  | failed {stepsLeft : Nat} {captures : Captures} :
      ¬ holds → steps ≤ stepsLeft + cost → Answers holds steps cost (.failed stepsLeft captures)

theorem Answers.of_iff
    {holds other : Prop} {steps cost more moreCost : Nat} {outcome : SearchOutcome}
    (answers : Answers holds steps cost outcome) (same : holds ↔ other)
    (enough : more + cost ≤ steps + moreCost) :
    Answers other more moreCost outcome := by
  cases answers with
  | found isHeld =>
      exact .found (same.mp isHeld)
  | failed fails few =>
      exact .failed (fun isOther => fails (same.mpr isOther)) (by omega)

/-- The most steps that items may need along a number of targets. -/
def cost (items : List SearchItem) (targets : Nat) : Nat :=
  items.length * (targets + 1) ^ items.countP isRepeated

theorem cost_single (test : NodeTest) (items : List SearchItem) (targets : Nat) :
    cost items targets + 1 ≤ cost (single test :: items) targets := by
  have positive : 0 < (targets + 1) ^ items.countP isRepeated := Nat.pow_pos (Nat.succ_pos _)
  rw [cost, cost, List.length_cons, List.countP_cons_of_neg (by simp [isRepeated]), Nat.add_mul]
  omega

theorem cost_repeated
    (test : NodeTest) (least : Nat) (most : Option Nat) (items : List SearchItem) (targets : Nat) :
    (targets + 1) * cost items targets + 1 ≤ cost (repeated test least most :: items) targets := by
  have positive : 0 < (targets + 1) ^ (items.countP isRepeated + 1) :=
    Nat.pow_pos (Nat.succ_pos _)
  have expanded : (targets + 1) * cost items targets =
      items.length * (targets + 1) ^ (items.countP isRepeated + 1) := by
    rw [cost]
    ring
  rw [expanded, cost, List.length_cons, List.countP_cons_of_pos (by simp [isRepeated]), Nat.add_mul]
  omega

/-- Trying runs tells whether one of them can be gone on after. -/
theorem tryRuns_answers
    {continueWith : List NodeRef → Nat → Captures → SearchOutcome} {goesOn : List NodeRef → Prop}
    {runs : List Run} {steps each : Nat}
    (continues : ∀ run ∈ runs, ∀ steps captures, each ≤ steps →
      Answers (goesOn run.rest) steps each (continueWith run.rest steps captures))
    (enough : runs.length * each ≤ steps) (captures : Captures) :
    Answers (∃ run ∈ runs, goesOn run.rest) steps (runs.length * each)
      (tryRuns continueWith runs steps captures) := by
  induction runs generalizing steps captures with
  | nil =>
      rw [tryRuns]
      exact .failed (by simp) (by simp)
  | cons run runs inductionHypothesis =>
      rw [List.length_cons, Nat.succ_mul] at enough ⊢
      have first := continues run List.mem_cons_self steps run.captures (by omega)
      rw [tryRuns]
      cases outcome : continueWith run.rest steps run.captures with
      | found after =>
          rw [outcome] at first
          cases first with
          | found holds =>
              exact .found ⟨run, List.mem_cons_self, holds⟩
      | exhausted after =>
          rw [outcome] at first
          cases first
      | failed stepsLeft after =>
          rw [outcome] at first
          cases first with
          | failed fails few =>
              have others := inductionHypothesis
                (fun other member => continues other (List.mem_cons_of_mem _ member))
                (by omega : runs.length * each ≤ stepsLeft) after
              refine others.of_iff ?_ (by omega)
              simp only [List.mem_cons, exists_eq_or_imp, fails, false_or]

/-- A search with enough steps tells whether the items split the targets. -/
theorem search_answers
    {items : List SearchItem} (steady : ∀ item ∈ items, item.test.IsSteady)
    {targets : List NodeRef} {bound : Nat} (short : targets.length ≤ bound) {steps : Nat}
    (enough : cost items bound ≤ steps) (captures : Captures) :
    Answers (Split items targets) steps (cost items bound)
      (search items targets steps captures) := by
  induction items generalizing targets steps captures with
  | nil =>
      cases targets with
      | nil =>
          rw [search]
          exact .found .nil
      | cons target targets =>
          rw [search]
          exact .failed (fun impossible => by cases impossible) (Nat.le_add_right _ _)
  | cons item items inductionHypothesis =>
      have itemSteady := steady item List.mem_cons_self
      have itemsSteady := fun other member => steady other (List.mem_cons_of_mem _ member)
      cases item with
      | single test =>
          have less := cost_single test items bound
          obtain ⟨steps, rfl⟩ : ∃ rest, steps = rest + 1 := ⟨steps - 1, by omega⟩
          rw [search]
          cases result : test (targets.headD none) captures with
          | mk passed after =>
              have answer : (test (targets.headD none) captures).1 = passed := by rw [result]
              cases passed with
              | false =>
                  refine .failed ?_ (by omega)
                  rintro (_ | ⟨takes, _⟩)
                  cases takes with
                  | single accepts =>
                      rw [accepts captures] at answer
                      cases answer
              | true =>
                  have accepts := NodeTest.IsSteady.accepts itemSteady answer
                  have shorter : targets.tail.length ≤ bound := by
                    rw [List.length_tail]
                    omega
                  have rest := inductionHypothesis itemsSteady shorter
                    (by omega : cost items bound ≤ steps) after
                  refine rest.of_iff ⟨fun split => .cons (.single accepts) split, ?_⟩ (by omega)
                  rintro (_ | ⟨takes, split⟩)
                  cases takes with
                  | single _ =>
                      exact split
      | repeated test least most =>
          have less := cost_repeated test least most items bound
          have steadyTest : test.IsSteady := itemSteady
          obtain ⟨steps, rfl⟩ : ∃ rest, steps = rest + 1 := ⟨steps - 1, by omega⟩
          have continues (run : Run)
              (member : run ∈ (allRuns test least most targets captures).1) (steps : Nat)
              (captures : Captures) (enough : cost items bound ≤ steps) :
              Answers (Split items run.rest) steps (cost items bound)
                (search items run.rest steps captures) := by
            have takes := (exists_mem_allRuns_iff steadyTest).mp ⟨run, member, rfl⟩
            exact inductionHypothesis itemsSteady (Nat.le_trans takes.length_le short) enough captures
          have count : (allRuns test least most targets captures).1.length * cost items bound ≤
              (bound + 1) * cost items bound :=
            Nat.mul_le_mul_right _ (Nat.le_trans length_allRuns_le (Nat.succ_le_succ short))
          rw [search]
          have tried := tryRuns_answers continues (by omega : _ ≤ steps)
            (allRuns test least most targets captures).2
          refine tried.of_iff ⟨?_, ?_⟩ (by omega)
          · rintro ⟨run, member, split⟩
            exact .cons ((exists_mem_allRuns_iff steadyTest).mp ⟨run, member, rfl⟩) split
          · rintro (_ | ⟨takes, split⟩)
            obtain ⟨run, member, rfl⟩ := (exists_mem_allRuns_iff steadyTest).mpr takes
            exact ⟨run, member, split⟩

/-- Items match all of the targets exactly if they split them, as long as the steps suffice. -/
theorem matchAll_iff
    {items : List SearchItem} (steady : ∀ item ∈ items, item.test.IsSteady)
    {targets : List NodeRef} (enough : cost items targets.length ≤ stepLimit)
    (captures : Captures) :
    (matchAll items targets captures).1 = true ↔ Split items targets := by
  have answers := search_answers steady (Nat.le_refl targets.length) enough captures
  rw [matchAll]
  cases outcome : search items targets stepLimit captures with
  | found after =>
      rw [outcome] at answers
      cases answers with
      | found split =>
          simp only [split]
  | failed stepsLeft after =>
      rw [outcome] at answers
      cases answers with
      | failed fails _ =>
          simp only [fails, Bool.false_eq_true]
  | exhausted after =>
      rw [outcome] at answers
      cases answers

end SearchItem

end TypedJava

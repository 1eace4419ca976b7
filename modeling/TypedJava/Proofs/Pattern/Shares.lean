import Mathlib.Data.List.Forall2
import TypedJava.Proofs.Pattern.Split

/-! # Greedy splits

A search that succeeds has shared out the targets greedily: every repeated item took the longest run
after which the items behind it could still split the rest. The log then ends with the captures made
on these shares, item by item and target by target; whatever was captured on the way to a run that
was given up is gone. -/

namespace TypedJava

namespace NodeTest

/-- Where the test accepts a target, it adds captures that may be made there to the log. -/
def Records (test : NodeTest) (makes : NodeRef → List Capture → Prop) : Prop :=
  ∀ target captures after, test target captures = (true, after) →
    ∃ made, makes target made ∧ after.toList = captures.toList ++ made

end NodeTest

/-- The captures that are made when each key of a list has its share of the targets: those of the
first key on all of its targets, then those of the next key. -/
inductive MakesAlong {Key : Type} (makes : Key → NodeRef → List Capture → Prop) :
    List Key → List (List NodeRef) → List Capture → Prop
  | nil : MakesAlong makes [] [] []
  | done {key : Key} {keys : List Key} {shares : List (List NodeRef)} {made : List Capture} :
      MakesAlong makes keys shares made → MakesAlong makes (key :: keys) ([] :: shares) made
  | next {key : Key} {keys : List Key} {target : NodeRef} {share : List NodeRef}
      {shares : List (List NodeRef)} {made later : List Capture} :
      makes key target made → MakesAlong makes (key :: keys) (share :: shares) later →
      MakesAlong makes (key :: keys) ((target :: share) :: shares) (made ++ later)

namespace MakesAlong

variable {Key : Type} {makes : Key → NodeRef → List Capture → Prop} {key : Key} {keys : List Key}
  {share : List NodeRef} {shares : List (List NodeRef)} {made later : List Capture}

theorem single {target : NodeRef} (makesHere : makes key target made)
    (others : MakesAlong makes keys shares later) :
    MakesAlong makes (key :: keys) ([target] :: shares) (made ++ later) :=
  .next makesHere (.done others)

theorem append
    (first : MakesAlong makes [key] [share] made) (others : MakesAlong makes keys shares later) :
    MakesAlong makes (key :: keys) (share :: shares) (made ++ later) := by
  induction share generalizing made with
  | nil =>
      cases first with
      | done none =>
          cases none
          exact .done others
  | cons target share inductionHypothesis =>
      cases first with
      | next makesHere rest =>
          rw [List.append_assoc]
          exact .next makesHere (inductionHypothesis rest)

theorem concat {target : NodeRef}
    (before : MakesAlong makes [key] [share] made) (makesHere : makes key target later) :
    MakesAlong makes [key] [share ++ [target]] (made ++ later) := by
  induction share generalizing made with
  | nil =>
      cases before with
      | done none =>
          cases none
          have alone : MakesAlong makes [key] [[target]] (later ++ []) := .single makesHere .nil
          rw [List.append_nil] at alone
          exact alone
  | cons first share inductionHypothesis =>
      cases before with
      | next makesFirst rest =>
          rw [List.append_assoc]
          exact .next makesFirst (inductionHypothesis rest)

end MakesAlong

namespace SearchItem

/-- The items share out the targets greedily. Each item has its part of what the items before it
left; a repeated item has the longest run after which the items behind it can split the rest. -/
inductive SharesOut : List SearchItem → List NodeRef → List (List NodeRef) → Prop
  | nil : SharesOut [] [] []
  | single {test : NodeTest} {items : List SearchItem} {targets : List NodeRef}
      {shares : List (List NodeRef)} :
      test.Accepts (targets.headD none) → SharesOut items targets.tail shares →
      SharesOut (.single test :: items) targets ([targets.headD none] :: shares)
  | repeated {test : NodeTest} {least : Nat} {most : Option Nat} {items : List SearchItem}
      {run rest : List NodeRef} {shares : List (List NodeRef)} :
      (SearchItem.repeated test least most).Takes (run ++ rest) rest →
      (∀ less, (SearchItem.repeated test least most).Takes (run ++ rest) less →
        less.length < rest.length → ¬Split items less) →
      SharesOut items rest shares →
      SharesOut (.repeated test least most :: items) (run ++ rest) (run :: shares)

theorem SharesOut.split
    {items : List SearchItem} {targets : List NodeRef} {shares : List (List NodeRef)}
    (sharesOut : SharesOut items targets shares) :
    Split items targets := by
  induction sharesOut with
  | nil =>
      exact .nil
  | single accepts _ inductionHypothesis =>
      exact .cons (.single accepts) inductionHypothesis
  | repeated takes _ _ inductionHypothesis =>
      exact .cons takes inductionHypothesis

/-- There is one way only of sharing out targets greedily. -/
theorem SharesOut.unique
    {items : List SearchItem} {targets : List NodeRef} {shares others : List (List NodeRef)}
    (first : SharesOut items targets shares) (second : SharesOut items targets others) :
    shares = others := by
  induction first generalizing others with
  | nil =>
      cases second
      rfl
  | single _ _ inductionHypothesis =>
      cases second with
      | single _ rest =>
          rw [inductionHypothesis rest]
  | @repeated test least most items run rest shares takes greedy sharesRest inductionHypothesis =>
      generalize same : run ++ rest = targets at second
      cases second with
      | @repeated _ _ _ _ otherRun otherRest otherShares otherTakes otherGreedy otherShares =>
          have sameLength : rest.length = otherRest.length := by
            rcases Nat.lt_trichotomy rest.length otherRest.length with less | same | more
            · exact absurd sharesRest.split (otherGreedy rest (same ▸ takes) less)
            · exact same
            · exact absurd otherShares.split (greedy otherRest (same.symm ▸ otherTakes) more)
          obtain ⟨rfl, rfl⟩ := List.append_inj' same sameLength
          rw [inductionHypothesis otherShares]

/-! ## Failed searches -/

section Failed

variable {continueWith : List NodeRef → Nat → Captures → SearchOutcome} {runs : List Run}
  {steps stepsLeft : Nat} {captures after : Captures}

/-- The search goes on after a run with some number of steps and fails. -/
def FailsAfter (continueWith : List NodeRef → Nat → Captures → SearchOutcome) (run : Run) : Prop :=
  ∃ steps stepsLeft captures,
    continueWith run.rest steps run.captures = .failed stepsLeft captures

theorem failsAfter_of_tryRuns
    (failed : tryRuns continueWith runs steps captures = .failed stepsLeft after) :
    ∀ run ∈ runs, FailsAfter continueWith run := by
  induction runs generalizing steps captures with
  | nil =>
      intro run member
      cases member
  | cons run runs inductionHypothesis =>
      rw [tryRuns] at failed
      cases outcome : continueWith run.rest steps run.captures with
      | found found =>
          rw [outcome] at failed
          cases failed
      | exhausted captures =>
          rw [outcome] at failed
          cases failed
      | failed stepsLeft captures =>
          rw [outcome] at failed
          intro other member
          rcases List.mem_cons.mp member with rfl | later
          · exact ⟨_, _, _, outcome⟩
          · exact inductionHypothesis failed other later

/-- Trying runs finds the first one that can be gone on after. -/
theorem exists_of_tryRuns
    (found : tryRuns continueWith runs steps captures = .found after) :
    ∃ earlier run later, runs = earlier ++ run :: later ∧
      (∀ other ∈ earlier, FailsAfter continueWith other) ∧
      ∃ steps, continueWith run.rest steps run.captures = .found after := by
  induction runs generalizing steps captures with
  | nil =>
      cases found
  | cons run runs inductionHypothesis =>
      rw [tryRuns] at found
      cases outcome : continueWith run.rest steps run.captures with
      | found captures =>
          rw [outcome] at found
          cases found
          exact ⟨[], run, runs, rfl, fun _ absent => absurd absent List.not_mem_nil, _, outcome⟩
      | exhausted captures =>
          rw [outcome] at found
          cases found
      | failed stepsLeft captures =>
          rw [outcome] at found
          obtain ⟨earlier, chosen, later, rfl, fails, continues⟩ := inductionHypothesis found
          refine ⟨run :: earlier, chosen, later, rfl, fun other member => ?_, continues⟩
          rcases List.mem_cons.mp member with rfl | isEarlier
          · exact ⟨_, _, _, outcome⟩
          · exact fails other isEarlier

/-- A search that fails with steps left has tried every split. -/
theorem not_split_of_failed
    {items : List SearchItem} (steady : ∀ item ∈ items, item.test.IsSteady)
    {targets : List NodeRef}
    (failed : search items targets steps captures = .failed stepsLeft after) :
    ¬Split items targets := by
  induction items generalizing targets steps captures stepsLeft after with
  | nil =>
      rintro ⟨⟩
      cases failed
  | cons item items inductionHypothesis =>
      have itemSteady := steady item List.mem_cons_self
      have itemsSteady := fun other member => steady other (List.mem_cons_of_mem _ member)
      cases steps with
      | zero =>
          cases failed
      | succ steps =>
          rintro (_ | ⟨takes, split⟩)
          cases item with
          | single test =>
              cases takes with
              | single accepts =>
                  have answer := accepts captures
                  rw [search] at failed
                  cases result : test (targets.headD none) captures with
                  | mk passed middle =>
                      rw [result] at answer failed
                      cases answer
                      exact inductionHypothesis itemsSteady failed split
          | repeated test least most =>
              have tried : tryRuns (search items) (allRuns test least most targets captures).1 steps
                  (allRuns test least most targets captures).2 = .failed stepsLeft after := failed
              obtain ⟨run, member, rfl⟩ :
                  ∃ run ∈ (allRuns test least most targets captures).1, run.rest = _ :=
                (exists_mem_allRuns_iff itemSteady).mpr takes
              obtain ⟨_, _, _, failsHere⟩ := failsAfter_of_tryRuns tried run member
              exact inductionHypothesis itemsSteady failsHere split

end Failed

/-! ## The runs in their order -/

section Order

variable {test : NodeTest} {least : Nat} {most : Option Nat}

/-- Longer runs come first. -/
theorem pairwise_runs
    {shorter : List Run} (ordered : shorter.Pairwise fun first second =>
      first.rest.length < second.rest.length) (targets : List NodeRef)
    (beyond : ∀ run ∈ shorter, targets.length ≤ run.rest.length) (count : Nat)
    (captures : Captures) :
    (runs test least most count targets captures shorter).1.Pairwise fun first second =>
      first.rest.length < second.rest.length := by
  induction targets generalizing count captures shorter with
  | nil =>
      exact ordered
  | cons target targets inductionHypothesis =>
      have less (run : Run) (member : run ∈ shorter) : targets.length < run.rest.length := by
        have := beyond run member
        rw [List.length_cons] at this
        omega
      rw [runs]
      split
      · split
        · exact ordered
        · apply inductionHypothesis
          · split
            · exact List.pairwise_cons.mpr ⟨less, ordered⟩
            · exact ordered
          · intro run member
            split at member
            · rcases List.mem_cons.mp member with rfl | isShorter
              · exact Nat.le_refl _
              · exact Nat.le_of_lt (less run isShorter)
            · exact Nat.le_of_lt (less run member)
      · exact ordered

theorem pairwise_allRuns
    (test : NodeTest) (least : Nat) (most : Option Nat) (targets : List NodeRef)
    (captures : Captures) :
    (allRuns test least most targets captures).1.Pairwise fun first second =>
      first.rest.length < second.rest.length := by
  refine pairwise_runs ?_ targets ?_ 0 captures
  · split
    · exact List.pairwise_singleton _ _
    · exact List.Pairwise.nil
  · intro run member
    split at member
    · rw [List.mem_singleton.mp member]
    · cases member

/-- A run that leaves less than another one is tried before it. -/
theorem exists_mem_earlier
    (steady : test.IsSteady) {targets less : List NodeRef} {captures : Captures}
    {earlier later : List Run} {run : Run}
    (order : (allRuns test least most targets captures).1 = earlier ++ run :: later)
    (takes : (SearchItem.repeated test least most).Takes targets less)
    (isLess : less.length < run.rest.length) :
    ∃ other ∈ earlier, other.rest = less := by
  obtain ⟨other, member, rfl⟩ :
      ∃ other ∈ (allRuns test least most targets captures).1, other.rest = less :=
    (exists_mem_allRuns_iff steady).mpr takes
  have ordered := pairwise_allRuns test least most targets captures
  rw [order] at member ordered
  rcases List.mem_append.mp member with isEarlier | notEarlier
  · exact ⟨other, isEarlier, rfl⟩
  · rcases List.mem_cons.mp notEarlier with rfl | isLater
    · omega
    · have behind := (List.pairwise_append.mp ordered).2.1
      have more := (List.pairwise_cons.mp behind).1 other isLater
      omega

variable {Key : Type} {makes : Key → NodeRef → List Capture → Prop} {key : Key}
  {origin : List NodeRef} {start : Captures}

/-- A run takes targets from the front and holds the captures that the key makes on them. -/
def Reaches (makes : Key → NodeRef → List Capture → Prop) (key : Key) (origin : List NodeRef)
    (start : Captures) (run : Run) : Prop :=
  ∃ taken made, origin = taken ++ run.rest ∧ MakesAlong makes [key] [taken] made ∧
    run.captures.toList = start.toList ++ made

theorem reaches_runs
    (records : test.Records (makes key)) {shorter : List Run}
    (each : ∀ run ∈ shorter, Reaches makes key origin start run) (targets : List NodeRef)
    (count : Nat) {captures : Captures}
    (here : Reaches makes key origin start ⟨targets, captures⟩) :
    ∀ run ∈ (runs test least most count targets captures shorter).1,
      Reaches makes key origin start run := by
  induction targets generalizing count captures shorter with
  | nil =>
      exact each
  | cons target targets inductionHypothesis =>
      rw [runs]
      split
      · cases result : test target captures with
        | mk passed after =>
            cases passed with
            | false =>
                exact each
            | true =>
                have next : Reaches makes key origin start ⟨targets, after⟩ := by
                  obtain ⟨taken, made, split, makesTaken, log⟩ := here
                  obtain ⟨later, makesHere, laterLog⟩ := records target captures after result
                  refine ⟨taken ++ [target], made ++ later, ?_, makesTaken.concat makesHere, ?_⟩
                  · rw [split, List.append_assoc]
                    rfl
                  · rw [laterLog, log, List.append_assoc]
                refine inductionHypothesis (fun run member => ?_) (count + 1) next
                split at member
                · rcases List.mem_cons.mp member with rfl | isShorter
                  · exact next
                  · exact each run isShorter
                · exact each run member
      · exact each

theorem reaches_allRuns
    (records : test.Records (makes key)) (targets : List NodeRef) (captures : Captures) :
    ∀ run ∈ (allRuns test least most targets captures).1,
      Reaches makes key targets captures run := by
  have here : Reaches makes key targets captures ⟨targets, captures⟩ :=
    ⟨[], [], rfl, .done .nil, (List.append_nil _).symm⟩
  refine reaches_runs records (fun run member => ?_) targets 0 here
  split at member
  · rw [List.mem_singleton.mp member]
    exact here
  · cases member

end Order

/-! ## Successful searches -/

section Found

variable {Key : Type} {makes : Key → NodeRef → List Capture → Prop}

/-- A search that succeeds shares out the targets greedily, and the log grows by the captures made
on the shares. -/
theorem exists_sharesOut_of_found
    {items : List SearchItem} {keys : List Key} (steady : ∀ item ∈ items, item.test.IsSteady)
    (records : List.Forall₂ (fun item key => item.test.Records (makes key)) items keys)
    {targets : List NodeRef} {steps : Nat} {captures after : Captures}
    (found : search items targets steps captures = .found after) :
    ∃ shares made, SharesOut items targets shares ∧ MakesAlong makes keys shares made ∧
      after.toList = captures.toList ++ made := by
  induction records generalizing targets steps captures with
  | nil =>
      cases targets with
      | nil =>
          cases found
          exact ⟨[], [], .nil, .nil, (List.append_nil _).symm⟩
      | cons target targets =>
          cases found
  | @cons item key items keys records _ inductionHypothesis =>
      have itemSteady := steady item List.mem_cons_self
      have itemsSteady := fun other member => steady other (List.mem_cons_of_mem _ member)
      cases steps with
      | zero =>
          cases found
      | succ steps =>
          cases item with
          | single test =>
              rw [search] at found
              cases result : test (targets.headD none) captures with
              | mk passed middle =>
                  rw [result] at found
                  cases passed with
                  | false =>
                      cases found
                  | true =>
                      have accepts : test.Accepts (targets.headD none) :=
                        NodeTest.IsSteady.accepts itemSteady (congrArg Prod.fst result)
                      obtain ⟨made, makesHere, log⟩ := records _ _ _ result
                      obtain ⟨shares, later, sharesOut, makesLater, laterLog⟩ :=
                        inductionHypothesis itemsSteady found
                      refine ⟨_, _, .single accepts sharesOut, .single makesHere makesLater, ?_⟩
                      rw [laterLog, log, List.append_assoc]
          | repeated test least most =>
              have tried : tryRuns (search items) (allRuns test least most targets captures).1 steps
                  (allRuns test least most targets captures).2 = .found after := found
              obtain ⟨earlier, run, later, order, fails, _, continues⟩ := exists_of_tryRuns tried
              have member : run ∈ (allRuns test least most targets captures).1 := by
                rw [order]
                exact List.mem_append_right _ List.mem_cons_self
              obtain ⟨taken, made, rfl, makesTaken, log⟩ :=
                reaches_allRuns records targets captures run member
              obtain ⟨shares, laterMade, sharesOut, makesLater, laterLog⟩ :=
                inductionHypothesis itemsSteady continues
              have takes := (exists_mem_allRuns_iff itemSteady).mp ⟨run, member, rfl⟩
              refine ⟨_, _, .repeated takes ?_ sharesOut, makesTaken.append makesLater, ?_⟩
              · intro less takesLess isLess
                obtain ⟨other, isEarlier, rfl⟩ :=
                  exists_mem_earlier itemSteady order takesLess isLess
                obtain ⟨_, _, _, failsHere⟩ := fails other isEarlier
                exact not_split_of_failed itemsSteady failsHere
              · rw [laterLog, log, List.append_assoc]

theorem exists_sharesOut_of_matchAll
    {items : List SearchItem} {keys : List Key} (steady : ∀ item ∈ items, item.test.IsSteady)
    (records : List.Forall₂ (fun item key => item.test.Records (makes key)) items keys)
    {targets : List NodeRef} {captures after : Captures}
    (matched : matchAll items targets captures = (true, after)) :
    ∃ shares made, SharesOut items targets shares ∧ MakesAlong makes keys shares made ∧
      after.toList = captures.toList ++ made := by
  rw [matchAll] at matched
  cases outcome : search items targets stepLimit captures with
  | found found =>
      rw [outcome] at matched
      cases matched
      exact exists_sharesOut_of_found steady records outcome
  | failed stepsLeft left =>
      rw [outcome] at matched
      cases matched
  | exhausted left =>
      rw [outcome] at matched
      cases matched

end Found

end SearchItem

end TypedJava

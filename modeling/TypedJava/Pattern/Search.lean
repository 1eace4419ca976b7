import TypedJava.Pattern.Captures

/-! # Matching a list of siblings

A list of items is laid along a list of targets. An item for one node takes one target; past the
end it is shown the absent node. A repeated item takes a run of targets: the longest run is tried
first, and when the items after it cannot be matched, a shorter one. All runs together may take a
fixed number of steps. -/

namespace TypedJava

/-- A test of one node, there or not. It answers with the captures that it leaves, also when it
fails. -/
abbrev NodeTest := NodeRef → Captures → Bool × Captures

/-- One item of a list that is laid along the targets. -/
inductive SearchItem where
  /-- Takes one target. -/
  | single (test : NodeTest)
  /-- Takes a run of targets, from the least to the most number; `none` sets no upper limit. -/
  | repeated (test : NodeTest) (least : Nat) (most : Option Nat)

/-- How a search ends, with the captures that it leaves. -/
inductive SearchOutcome where
  | found (captures : Captures)
  /-- No way of laying the items fits; so many steps are left. -/
  | failed (stepsLeft : Nat) (captures : Captures)
  /-- The steps ran out. -/
  | exhausted (captures : Captures)
  deriving DecidableEq, Repr

/-- A run that a repeated item may take: the targets after it and the captures made in it. -/
structure Run where
  rest : List NodeRef
  captures : Captures
  deriving DecidableEq, Repr

namespace SearchItem

/-- May a run still grow? -/
def mayGrow (most : Option Nat) (count : Nat) : Bool :=
  match most with
  | none => true
  | some most => count < most

/-- The runs that a repeated item may take when it has taken a number of targets, the longest run
first, and the captures after the last test. -/
def runs (test : NodeTest) (least : Nat) (most : Option Nat) :
    (count : Nat) → List NodeRef → Captures → List Run → List Run × Captures
  | _, [], captures, shorter => (shorter, captures)
  | count, target :: targets, captures, shorter =>
    if mayGrow most count then
      match test target captures with
      | (false, captures) => (shorter, captures)
      | (true, captures) =>
        let longer := if least ≤ count + 1 then ⟨targets, captures⟩ :: shorter else shorter
        runs test least most (count + 1) targets captures longer
    else (shorter, captures)

/-- The runs that a repeated item may take at the front of the targets. The empty run is one of
them if the item may take nothing. -/
def allRuns (test : NodeTest) (least : Nat) (most : Option Nat) (targets : List NodeRef)
    (captures : Captures) : List Run × Captures :=
  runs test least most 0 targets captures (if least = 0 then [⟨targets, captures⟩] else [])

/-- Goes on after one run after the other until the rest can be matched. -/
def tryRuns (continueWith : List NodeRef → Nat → Captures → SearchOutcome) :
    List Run → Nat → Captures → SearchOutcome
  | [], stepsLeft, captures => .failed stepsLeft captures
  | run :: runs, stepsLeft, _ =>
    match continueWith run.rest stepsLeft run.captures with
    | .found captures => .found captures
    | .exhausted captures => .exhausted captures
    | .failed stepsLeft captures => tryRuns continueWith runs stepsLeft captures

/-- Lays the items along the targets; each item that is reached costs one step. -/
def search : List SearchItem → List NodeRef → (stepsLeft : Nat) → Captures → SearchOutcome
  | [], [], _, captures => .found captures
  | [], _ :: _, stepsLeft, captures => .failed stepsLeft captures
  | _ :: _, _, 0, captures => .exhausted captures
  | .single test :: items, targets, stepsLeft + 1, captures =>
    match test (targets.headD none) captures with
    | (true, captures) => search items targets.tail stepsLeft captures
    | (false, captures) => .failed stepsLeft captures
  | .repeated test least most :: items, targets, stepsLeft + 1, captures =>
    let (runs, captures) := allRuns test least most targets captures
    tryRuns (search items) runs stepsLeft captures

/-- The number of steps that one search may take. -/
def stepLimit : Nat := 100000

/-- Do the items match all of the targets? -/
def matchAll (items : List SearchItem) (targets : List NodeRef) (captures : Captures) :
    Bool × Captures :=
  match search items targets stepLimit captures with
  | .found captures => (true, captures)
  | .failed _ captures => (false, captures)
  | .exhausted captures => (false, captures)

end SearchItem

end TypedJava

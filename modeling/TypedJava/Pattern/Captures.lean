import TypedJava.Store

/-! # Captures

The log of what a match has captured. It grows at one end, and going back to an earlier state takes
the later captures off that end. -/

namespace TypedJava

/-- A node, there or not, captured under the name of a group. -/
structure Capture where
  group : String
  node : NodeRef
  deriving DecidableEq, Repr

/-- The captures so far, the latest first. -/
structure Captures where
  latestFirst : List Capture
  deriving DecidableEq, Repr

namespace Captures

/-- No captures. -/
def empty : Captures := ⟨[]⟩

/-- Adds a capture. -/
def add (captures : Captures) (group : String) (node : NodeRef) : Captures :=
  ⟨⟨group, node⟩ :: captures.latestFirst⟩

/-- Adds a capture if there is a group to capture for. -/
def addTo? (captures : Captures) (group : Option String) (node : NodeRef) : Captures :=
  match group with
  | none => captures
  | some group => captures.add group node

/-- The captures in the order in which they were made. -/
def toList (captures : Captures) : List Capture :=
  captures.latestFirst.reverse

/-- The number of captures. -/
def size (captures : Captures) : Nat :=
  captures.latestFirst.length

/-- The earliest captures, up to a number. -/
def take (captures : Captures) (count : Nat) : Captures :=
  ⟨captures.latestFirst.drop (captures.size - count)⟩

/-- The nodes captured for a group, in the order in which they were captured. -/
def nodes (captures : Captures) (group : String) : List NodeRef :=
  (captures.toList.filter (·.group == group)).map (·.node)

/-- The node captured last for a group. -/
def last? (captures : Captures) (group : String) : Option NodeRef :=
  (captures.latestFirst.find? (·.group == group)).map (·.node)

/-- A new capture comes last. -/
theorem toList_add (captures : Captures) (group : String) (node : NodeRef) :
    (captures.add group node).toList = captures.toList ++ [⟨group, node⟩] := by
  simp [add, toList]

end Captures

end TypedJava

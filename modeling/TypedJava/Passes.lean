import TypedJava.ConversionPass

/-! # Passes

The passes that the settings enable, one after the other. -/

namespace TypedJava

/-- A pass over a tree. -/
inductive Pass where
  | insertConversions
  deriving DecidableEq, Repr

namespace Pass

/-- The name of a pass. -/
def name : Pass → String
  | insertConversions => "InsertNecessaryConversions"

/-- What a pass does to the tree below a node. -/
def run (context : Context) (root : NodeRef) : Pass → Edit Unit
  | insertConversions => Edit.insertConversions context root

/-- The passes that settings enable, in the order in which they run. -/
def enabled (settings : Settings) : List Pass :=
  if settings.insertConversions then [insertConversions] else []

end Pass

namespace Edit

/-- Runs every enabled pass; the first error ends the run. -/
def runPasses (context : Context) (root : NodeRef) : Edit Unit :=
  (Pass.enabled context.settings).forM (Pass.run context root)

end Edit

end TypedJava

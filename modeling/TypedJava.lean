import TypedJava.LogLayout
import TypedJava.Passes
import TypedJava.Pattern.Satisfaction
import TypedJava.Proofs.Branch.Basic
import TypedJava.Proofs.Edit.Structural
import TypedJava.Tree.Outline
import TypedJava.Proofs.Branch.Build
import TypedJava.Proofs.Branch.Visit
import TypedJava.Proofs.Conversion.Castable
import TypedJava.Proofs.ConversionPass.Content
import TypedJava.Proofs.ConversionPass.Idempotence
import TypedJava.Proofs.NeedlessCast.Stored
import TypedJava.Proofs.Pattern.Positions
import TypedJava.Proofs.Conversion.Shallow
import TypedJava.Proofs.ConversionPass.Accesses
import TypedJava.Proofs.ConversionPass.Assigned
import TypedJava.Proofs.ConversionPass.Legal
import TypedJava.Proofs.NeedlessCast.Nested
import TypedJava.Proofs.Subtyping.Transitivity
import TypedJava.Proofs.Edit.PutBack
import TypedJava.Proofs.Subtyping.Inference
import TypedJava.Proofs.ConversionPass.Receivers
import TypedJava.Proofs.Pattern.Failure
import TypedJava.Proofs.Pattern.Greedy
import TypedJava.Proofs.Typing.ArmOrder
import TypedJava.Proofs.Typing.Limit
import TypedJava.Proofs.TypeSyntax.ReadBack
import TypedJava.Proofs.ConversionPass.CastTypes
import TypedJava.Proofs.Conversion.Directions
import TypedJava.Proofs.Edit.Replacement
import TypedJava.Proofs.Member.Scope
import TypedJava.Proofs.Edit.FillRole
import TypedJava.Proofs.Navigation.Preorder
import TypedJava.Proofs.Navigation.Walk
import TypedJava.Proofs.Branch.Copy
import TypedJava.Proofs.Pattern.Concrete
import TypedJava.Proofs.ConversionPass.Beyond
import TypedJava.Proofs.TypeSyntax.Depiction
import TypedJava.Proofs.Member.Nearest
import TypedJava.Proofs.Subtyping.RawClass
import TypedJava.Proofs.NeedlessCast.Operand
import TypedJava.Proofs.TypeSyntax.Text
import TypedJava.Proofs.Typing.Moved
import TypedJava.Proofs.Rendering.Reading
import TypedJava.Proofs.Catalog.History
import TypedJava.Proofs.Pattern.Checkpoints
import TypedJava.Proofs.Json.Reading
import TypedJava.Proofs.Settings.Document

import TypedTree.Command.Arguments
import TypedTree.Command.Run
import TypedTree.Main
import TypedTree.Proofs.Convert.Conformance
import TypedTree.Proofs.Convert.FixedPoint
import TypedTree.Proofs.Convert.Pruning
import TypedTree.Proofs.Convert.RoundTrip
import TypedTree.Proofs.Schema.Fingerprint
import TypedTree.Proofs.Schema.Recursion
import TypedTree.Schema.Reference
import TypedTree.Proofs.Schema.Reordering
import TypedTree.Proofs.Json.Pointer
import TypedTree.Proofs.Schema.Lookup
import TypedTree.Proofs.Json.Equality
import TypedTree.Proofs.Shape.Writing
import TypedTree.Proofs.Convert.Decoding
import TypedTree.Proofs.Convert.Contents
import TypedTree.Proofs.Convert.Obstruction
import TypedTree.Proofs.Convert.FirstFault
import TypedTree.Proofs.Convert.Dynamic
import TypedTree.Proofs.Convert.Stated
import TypedTree.Proofs.Schema.Budget
import TypedTree.Proofs.Schema.Failures
import TypedTree.Proofs.Decimal.Range
import TypedTree.Proofs.Convert.Range
import TypedTree.Proofs.Convert.EqualShapes
import TypedTree.Proofs.Convert.Rearrangement
import TypedTree.Proofs.Schema.Locations
import TypedTree.Proofs.Schema.Writing
import TypedTree.Proofs.Schema.Dialects
import TypedTree.Proofs.Command.Reports
import TypedTree.Proofs.Shape.Order
import TypedTree.Proofs.Shape.Reading
import TypedTree.Proofs.Value.Multisets
import TypedTree.Proofs.Convert.EqualValues
import TypedTree.Proofs.Schema.References
import TypedTree.Proofs.Schema.Indifference
import TypedTree.Proofs.Schema.Adaptation
import TypedTree.Proofs.Schema.Annotations
import TypedTree.Proofs.Decimal.Numerals
import TypedTree.Proofs.Decimal.Reading
import TypedTree.Proofs.Binary64.Nearest
import TypedTree.Proofs.Binary64.Shortest
import TypedTree.Proofs.Decimal.Origins
import TypedTree.Proofs.Decimal.Texts
import TypedTree.Proofs.Decimal.Integers

import Emend.Main
import Emend.Proofs.Collection.Rebuild
import Emend.Proofs.Except
import Emend.Proofs.Fields
import Emend.Proofs.Formula.Acceptance
import Emend.Proofs.Formula.Grammar
import Emend.Proofs.Formula.Provenance
import Emend.Proofs.Formula.Reading
import Emend.Proofs.Formula.Unambiguous
import Emend.Proofs.Patch.Conformance
import Emend.Proofs.Patch.Conforms
import Emend.Proofs.Patch.Edits
import Emend.Proofs.Patch.ExactIndex
import Emend.Proofs.Patch.Failure
import Emend.Proofs.Patch.InPlace
import Emend.Proofs.Patch.Stored
import Emend.Proofs.Registry
import Emend.Proofs.Formula.Construction
import Emend.Proofs.Formula.Kinds
import Emend.Proofs.Patch.Reserved
import Emend.Proofs.Collection.Distinct
import Emend.Proofs.Patch.Distinct
import Emend.Proofs.Formula.Names
import Emend.Proofs.Patch.InTurn
import Emend.Proofs.Patch.SortedStore
import Emend.Proofs.Formula.Sharing
import Emend.Proofs.Formula.Direct
import Emend.Proofs.Formula.Agreement
import Emend.Proofs.Formula.Parts
import Emend.Proofs.Formula.Phases
import Emend.Proofs.Collection.Indexed
import Emend.Proofs.Collection.Lookup
import Emend.Proofs.Formula.Rebinding
import Emend.Proofs.Patch.Located
import Emend.Proofs.Patch.Repeated
import Emend.Proofs.Patch.OneByOne
import Emend.Proofs.Patch.Contracts
import Emend.Proofs.Patch.Account
import Emend.Proofs.Patch.Truncation
import Emend.Proofs.Formula.Paths
import Emend.Proofs.Collection.NextFree
import Emend.Proofs.Patch.Indirect
import Emend.Proofs.Registry.RoundTrip
import Emend.Proofs.Formula.Height
import Emend.Proofs.Formula.Limit
import Emend.Proofs.Formula.Counter
import Emend.Proofs.Number.Order
import Emend.Proofs.Collection.Sorting
import Emend.Proofs.Collection.Compaction
import Emend.Proofs.Formula.Quotation
import Emend.Proofs.Patch.Spellings
import Emend.Proofs.Collection.Comparator
import Emend.Proofs.Collection.Keys
import Emend.Proofs.Collection.Matching
import Emend.Proofs.Collection.Numbered
import Emend.Proofs.Collection.Told
import Emend.Proofs.Number.Decimal
import Emend.Proofs.Number.ReadBack
import Emend.Proofs.Number.Shortest
import Emend.Proofs.Number.Whole
import Emend.Proofs.Patch.OneRecord
import Emend.Proofs.Patch.RemoveAll
import Emend.Proofs.Patch.Neighbours
import Emend.Proofs.Collection.Unused
import Emend.Proofs.Collection.Vacated
import Emend.Proofs.Number.Nearest
import Emend.Proofs.Number.Denoted
import Emend.Proofs.Patch.AllOrNothing
import Emend.Proofs.Patch.Elements
import Emend.Proofs.Patch.ArrayLimit
import Emend.Proofs.Patch.WrittenBack
import Emend.Proofs.Number.Valued
import Emend.Proofs.Coercion.IntegerFields
import Emend.Proofs.Formula.Tiling
import Emend.Proofs.Formula.Scanning
import Emend.Proofs.Patch.AnyOrder
import Emend.Proofs.Text.Cutting
import Emend.Proofs.Version.Reading
import Emend.Proofs.Version.Order
import Emend.Proofs.Version.RoundTrip
import Emend.Proofs.Version.Bounds
import Emend.Proofs.Version.Range
import Emend.Proofs.Formula.Escapes
import Emend.Proofs.Comparison
import Emend.Proofs.Formula.Repetition
import Emend.Proofs.Formula.Pointing
import Emend.Proofs.Formula.Demand
import Emend.Proofs.Formula.Hoisting

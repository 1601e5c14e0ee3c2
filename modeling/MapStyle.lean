import MapStyle.Main
import MapStyle.Extensions
import MapStyle.Proofs.Bag
import MapStyle.Proofs.Spelling
import MapStyle.Proofs.Assignment
import MapStyle.Proofs.Inheritance
import MapStyle.Proofs.Derivation
import MapStyle.Proofs.Action
import MapStyle.Proofs.BodyRun
import MapStyle.Proofs.ProgramRun
import MapStyle.Proofs.LayerOrder
import MapStyle.Proofs.Truth
import MapStyle.Proofs.Frame
import MapStyle.Proofs.RefinedFilter
import MapStyle.Proofs.Reading
import MapStyle.Proofs.Conjuncts
import MapStyle.Proofs.Uncascaded
import MapStyle.Proofs.UncascadedReach
import MapStyle.Proofs.Diversion
import MapStyle.Proofs.Bracketing
import MapStyle.Proofs.Formula
import MapStyle.Proofs.References
import MapStyle.Proofs.Scanning
import MapStyle.Proofs.TermBoundary
import MapStyle.Proofs.TermLevels
import MapStyle.Proofs.TermReading
import MapStyle.Proofs.Sweep
import MapStyle.Proofs.Reachable
import MapStyle.Proofs.Deeds
import MapStyle.Proofs.KeptNames
import MapStyle.Proofs.WrittenLayer
import MapStyle.Proofs.Unlogged
import MapStyle.Proofs.Splicing
import MapStyle.Proofs.Naming
import MapStyle.Proofs.LayerNames
import MapStyle.Proofs.Extending
import MapStyle.Proofs.TermExtension
import MapStyle.Proofs.Concatenation
import MapStyle.Proofs.CascadeBlocks
import MapStyle.Proofs.SettledType
import MapStyle.Proofs.FailedLayer
import MapStyle.Proofs.EmittedFilter
import MapStyle.Proofs.Compilation
import MapStyle.Proofs.WrittenParts
import MapStyle.Proofs.Suppression
import MapStyle.Proofs.SourceInheritance
import MapStyle.Proofs.StructuralEquality
import MapStyle.Proofs.CascadeRuns
import MapStyle.Proofs.IntegerArithmetic
import MapStyle.Proofs.DataDriven
import MapStyle.Proofs.ColorText
import MapStyle.Proofs.RoundingInterval
import MapStyle.Proofs.NumberText
import MapStyle.Proofs.JsonText
import MapStyle.Proofs.Agreement
import MapStyle.Proofs.Decoding
import MapStyle.Proofs.Wrapping
import MapStyle.Proofs.PropertyOrder
import MapStyle.Proofs.IntegerFailure
import MapStyle.Proofs.FailurePosition
import MapStyle.Proofs.NamesApart
import MapStyle.Proofs.WordOrder
import MapStyle.Proofs.Membership

import FieldGate.Directive
import FieldGate.Environment
import FieldGate.Proofs.Binding
import FieldGate.Proofs.GateDecision
import FieldGate.Proofs.PathGrammar
import FieldGate.Report.Options
import FieldGate.Proofs.Denials
import FieldGate.Proofs.Comparisons
import FieldGate.Proofs.Decimals
import FieldGate.Proofs.Spelling
import FieldGate.Proofs.DoubleRange
import FieldGate.Proofs.Evaluation
import FieldGate.Proofs.LongIndices
import FieldGate.Proofs.Walking
import FieldGate.Proofs.Enforcing
import FieldGate.Proofs.GuardStack
import FieldGate.Proofs.LegacyOrder
import FieldGate.Proofs.MalformedChecks
import FieldGate.Proofs.MalformedDirectives
import FieldGate.Proofs.PathConcatenation
import FieldGate.Proofs.NearestDouble
import FieldGate.Proofs.DecimalEquality
import FieldGate.Proofs.NumericTexts
import FieldGate.Proofs.Thresholds
import FieldGate.Proofs.ValueOrder
import FieldGate.Proofs.MonotoneChecks
import FieldGate.Proofs.Equalities
import FieldGate.Proofs.Positions
import FieldGate.Proofs.Spacing
import FieldGate.Proofs.MissingData
import FieldGate.Proofs.CorrectRounding
import FieldGate.Proofs.NumericIndices
import FieldGate.Proofs.HiddenAttributes
import FieldGate.Proofs.WrittenIndices
import FieldGate.Proofs.Containment
import FieldGate.Proofs.LogLines
import FieldGate.Proofs.InsertionOrder
import FieldGate.Proofs.CheckRecords
import FieldGate.Proofs.SettingNumerals
import FieldGate.Proofs.TypedLookup
import FieldGate.Proofs.LiteralUnits
import FieldGate.Proofs.TokenPlaces
import FieldGate.Proofs.NestedLists

import MeterGate.Script.Session
import MeterGate.Telemetry
import MeterGate.Proofs.Course
import MeterGate.Proofs.MetricCap
import MeterGate.Proofs.ByteOrder
import MeterGate.Proofs.Place
import MeterGate.Proofs.TagCap
import MeterGate.Proofs.RuleEffect
import MeterGate.Proofs.Rounding
import MeterGate.Proofs.GoodConfig
import MeterGate.Proofs.History
import MeterGate.Proofs.Range
import MeterGate.Proofs.Nesting
import MeterGate.Proofs.Settling
import MeterGate.Proofs.Panic
import MeterGate.Proofs.Repetition
import MeterGate.Proofs.CostControl
import MeterGate.Proofs.Passes
import MeterGate.Proofs.ReadOnly
import MeterGate.Proofs.Operations
import MeterGate.Proofs.SeriesOnly
import MeterGate.Proofs.Holdings
import MeterGate.Proofs.Clones
import MeterGate.Proofs.Alike
import MeterGate.Proofs.Isolation
import MeterGate.Proofs.WellFormed
import MeterGate.Proofs.Acceptance
import MeterGate.Proofs.Spelling
import MeterGate.Proofs.RuleFields
import MeterGate.Proofs.Decoding
import MeterGate.Proofs.EntrySteps
import MeterGate.Proofs.UnknownKeys
import MeterGate.Proofs.Holes
import MeterGate.Proofs.Lookahead
import MeterGate.Proofs.Numerals
import MeterGate.Proofs.Parallel
import MeterGate.Proofs.Gaps
import MeterGate.Proofs.WrittenNumbers
import MeterGate.Proofs.Steps
import MeterGate.Proofs.PanicPoint
import MeterGate.Proofs.Loading
import MeterGate.Proofs.NearestNatural
import MeterGate.Proofs.TimerRange
import MeterGate.Proofs.FinalSettings
import MeterGate.Proofs.TagImages
import MeterGate.Proofs.Collapse
import MeterGate.Proofs.TimerBounds
import MeterGate.Proofs.Overlay
import MeterGate.Proofs.Retagging
import MeterGate.Proofs.SeriesSet

import Metering.Description
import Metering.Collector.Run
import Metering.Proofs.Attribute.Equality
import Metering.Proofs.Table
import Metering.Proofs.Table.ByKey
import Metering.Proofs.Quantity
import Metering.Proofs.Tally
import Metering.Proofs.Handle
import Metering.Proofs.Collector.Cycle
import Metering.Proofs.Collector.Ledger
import Metering.Proofs.Reports.Delta
import Metering.Proofs.Collector.Retention
import Metering.Proofs.Reports.Cumulative
import Metering.Proofs.Instrument.Run
import Metering.Proofs.Reports.Readers
import Metering.Proofs.Difference
import Metering.Proofs.Tally.Inverse
import Metering.Proofs.Tally.Ties
import Metering.Proofs.Collector.Roster
import Metering.Proofs.Collector.Accounts
import Metering.Proofs.Collector.Twins
import Metering.Proofs.Reports.Agreement
import Metering.Proofs.Collector.Limit
import Metering.Proofs.Collector.Shutdown
import Metering.Proofs.Reports.Bounds
import Metering.Proofs.Interleaving.Journal
import Metering.Proofs.Interleaving.Steps
import Metering.Proofs.Interleaving.Waiting
import Metering.Proofs.Interleaving.Collecting
import Metering.Proofs.Interleaving.Passing
import Metering.Proofs.Interleaving.Run
import Metering.Proofs.Interleaving.Commands
import Metering.Proofs.Reports.Interleaved
import Metering.Proofs.Boundaries
import Metering.Proofs.Tally.Invariant
import Metering.Proofs.Histogram
import Metering.Proofs.Collector.Tallies
import Metering.Proofs.Reports.Histograms
import Metering.Proofs.Collector.Hands
import Metering.Proofs.Collector.Eviction
import Metering.Proofs.Attribute.Identity
import Metering.Proofs.Reports.Uniqueness
import Metering.Proofs.Attribute.LastValue
import Metering.Proofs.Attribute.Reflexivity
import Metering.Proofs.Attribute.Canonical
import Metering.Proofs.Collector.Positions
import Metering.Proofs.Reports.Exemplars
import Metering.Proofs.Handle.Uses
import Metering.Proofs.Handle.Cuts
import Metering.Proofs.Reports.Coarsening
import Metering.Proofs.Reports.Shuffling
import Metering.Proofs.Reports.AllowLists
import Metering.Proofs.Reports.Sampling
import Metering.Proofs.Collector.Pointwise
import Metering.Proofs.Instrument.Reporting
import Metering.Proofs.Reservoir.Buckets
import Metering.Proofs.Reports.BucketExemplars
import Metering.Proofs.Quantity.Rounding
import Metering.Proofs.Reports.Extremes
import Metering.Proofs.Reports.Monotonic
import Metering.Proofs.Instrument.Shutdown
import Metering.Proofs.Reports.Flushing
import Metering.Proofs.Collector.Standing
import Metering.Proofs.Reports.HeldSeries
import Metering.Proofs.Reports.Windows
import Metering.Proofs.Instrument.Setup
import Metering.Proofs.Reservoir.Sample
import Metering.Proofs.Quantity.Nearest
import Metering.Proofs.Handle.Buckets

import MetricStore.Wire.Records
import MetricStore.Console.Admission
import MetricStore.Replay
import MetricStore.Retention.Runs
import MetricStore.Telemetry.Exposition
import MetricStore.Settings.Load
import MetricStore.Proofs.InTurn
import MetricStore.Proofs.Outdated
import MetricStore.Proofs.OwnHistory
import MetricStore.Proofs.Pace
import MetricStore.Proofs.Addressing
import MetricStore.Proofs.Schedule
import MetricStore.Checked
import MetricStore.Proofs.Bounds
import MetricStore.Proofs.Admission
import MetricStore.Proofs.Acts
import MetricStore.Proofs.Recording
import MetricStore.Proofs.Staleness
import MetricStore.Proofs.InPlace
import MetricStore.Proofs.Origin
import MetricStore.Proofs.Except
import MetricStore.Proofs.Utf8
import MetricStore.Proofs.Formats
import MetricStore.Proofs.Records
import MetricStore.Proofs.SeriesText
import MetricStore.Proofs.Selections
import MetricStore.Proofs.Accounts
import MetricStore.Proofs.Epochs
import MetricStore.Proofs.Capacity
import MetricStore.Proofs.Grammar
import MetricStore.Proofs.Siblings
import MetricStore.Proofs.Answers
import MetricStore.Proofs.Oversized
import MetricStore.Proofs.Rates
import MetricStore.Proofs.Statistics
import MetricStore.Proofs.Batches
import MetricStore.Proofs.Overrides

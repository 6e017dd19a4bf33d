import RequestMeter.Config.Load
import RequestMeter.Http.Server
import RequestMeter.Load.Interleaving
import RequestMeter.Load.Run
import RequestMeter.Report.Sink
import RequestMeter.Proofs.Collector.Run
import RequestMeter.Proofs.Collector.Step
import RequestMeter.Proofs.Collector.Demultiplexing
import RequestMeter.Proofs.Record.Fold
import RequestMeter.Proofs.Collector.Overflow
import RequestMeter.Proofs.Tally.Records
import RequestMeter.Proofs.Collector.Conservation
import RequestMeter.Proofs.Statistics.Definition
import RequestMeter.Proofs.Statistics.Aggregate
import RequestMeter.Proofs.Percentile.OrderStatistic
import RequestMeter.Proofs.Statistics.Coherence
import RequestMeter.Proofs.Http.Availability
import RequestMeter.Proofs.Report.Lookup
import RequestMeter.Proofs.Collector.Report
import RequestMeter.Proofs.Load.Exclusion
import RequestMeter.Proofs.Load.Sequential
import RequestMeter.Proofs.Collector.Isolation
import RequestMeter.Proofs.Report.Contents
import RequestMeter.Bus.Interleaving
import RequestMeter.Proofs.Bus.Observers
import RequestMeter.Proofs.Bus.Line
import RequestMeter.Proofs.Bus.Delivery
import RequestMeter.Proofs.Bus.Survival
import RequestMeter.Proofs.Bus.Sequential
import RequestMeter.Proofs.Collector.Transports
import RequestMeter.Proofs.Load.Accounting
import RequestMeter.Proofs.Event.RoundTrip
import RequestMeter.Proofs.Event.Fields
import RequestMeter.Proofs.Timestamp.Text
import RequestMeter.Proofs.Ring.Slots
import RequestMeter.Proofs.Statistics.Throughput
import RequestMeter.Proofs.Collector.Durations
import RequestMeter.Proofs.Http.LoadControl
import RequestMeter.Proofs.Collector.ReusedMap
import RequestMeter.Proofs.Json.Write
import RequestMeter.Proofs.Report.Line
import RequestMeter.Proofs.Report.Writing

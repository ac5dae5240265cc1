import FleetTelemetry.Foundations.OrdMap
import FleetTelemetry.Foundations.Interleaving
import FleetTelemetry.Foundations.Schedule
import FleetTelemetry.Foundations.Locking
import FleetTelemetry.Service.Effects
import FleetTelemetry.Service.Registration
import FleetTelemetry.Service.FaultHandling
import FleetTelemetry.Service.Deadlock
import FleetTelemetry.Service.Independence
import FleetTelemetry.Ingest.ZoneCounts
import FleetTelemetry.Ingest.Aggregate
import FleetTelemetry.Ingest.Serializable
import FleetTelemetry.Ingest.StuckRule
import FleetTelemetry.Ingest.Teleport
import FleetTelemetry.Ingest.Acceptance
import FleetTelemetry.Ingest.History
import FleetTelemetry.Ingest.Silence
import FleetTelemetry.Ingest.Overlap
import FleetTelemetry.Ingest.Verdicts
import FleetTelemetry.Cdc.AtLeastOnce
import FleetTelemetry.Cdc.Confirming
import FleetTelemetry.Cdc.Supervisor
import FleetTelemetry.Cdc.Feedback
import FleetTelemetry.Cdc.ColdStart
import FleetTelemetry.Dashboard.SnapshotThenStream
import FleetTelemetry.Dashboard.LatestAnomaly
import FleetTelemetry.Dashboard.LaggingReplica
import FleetTelemetry.Frontend.Socket
import FleetTelemetry.Frontend.Fidelity
import FleetTelemetry.Service.Maintenance
import FleetTelemetry.Service.Ledger
import FleetTelemetry.Service.Redelivery
import FleetTelemetry.Frontend.ConnectSnapshot
import FleetTelemetry.Frontend.Subscriber
import FleetTelemetry.Dashboard.OneRow
import FleetTelemetry.Dashboard.Identity
import FleetTelemetry.Frontend.Transport
import FleetTelemetry.Frontend.Mounting
import FleetTelemetry.Frontend.Rendering
import FleetTelemetry.Frontend.Painting
import FleetTelemetry.Frontend.Screen
import FleetTelemetry.Frontend.Live
import FleetTelemetry.Frontend.Loaded
import FleetTelemetry.Frontend.TraceContext
import FleetTelemetry.Frontend.Connections
import FleetTelemetry.Frontend.AnomalyQuery
import FleetTelemetry.Frontend.CounterStream
import FleetTelemetry.Cdc.Truncation
import FleetTelemetry.Migrate.History

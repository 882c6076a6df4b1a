import RevenueRecovery.Lib.Run
import RevenueRecovery.Lib.Table
import RevenueRecovery.Lib.Transaction
import RevenueRecovery.Domain.Events
import RevenueRecovery.Domain.Records
import RevenueRecovery.Database
import RevenueRecovery.Analytics
import RevenueRecovery.Degradation.StateMachine
import RevenueRecovery.Degradation.Service
import RevenueRecovery.RootCause.Service
import RevenueRecovery.RootCause.Baseline
import RevenueRecovery.Prediction.Features
import RevenueRecovery.Prediction.Service
import RevenueRecovery.Lib.Decimal
import RevenueRecovery.Intervention.Policy
import RevenueRecovery.Intervention.Service
import RevenueRecovery.Execution.Service
import RevenueRecovery.Execution.LifeCycle
import RevenueRecovery.Execution.Worker
import RevenueRecovery.Execution.Observation
import RevenueRecovery.Attribution.Calculator
import RevenueRecovery.Attribution.Service
import RevenueRecovery.Attribution.Soundness
import RevenueRecovery.LivePipeline.Run
import RevenueRecovery.LivePipeline.Ledger
import RevenueRecovery.Intervention.Fingerprint
import RevenueRecovery.Rows
import RevenueRecovery.Services.Transactions
import RevenueRecovery.Execution.ObservationLog
import RevenueRecovery.Execution.Finality
import RevenueRecovery.Attribution.AsOf
import RevenueRecovery.Attribution.Replay
import RevenueRecovery.Degradation.History
import RevenueRecovery.LivePipeline.LateEvents
import RevenueRecovery.Degradation.Concurrent
import RevenueRecovery.Analytics.Concurrent
import RevenueRecovery.RootCause.Fingerprint
import RevenueRecovery.Lib.Simulation
import RevenueRecovery.LivePipeline.Simulation
import RevenueRecovery.LivePipeline.Barrier
import RevenueRecovery.Lib.Locked
import RevenueRecovery.Services.Registry
import RevenueRecovery.Intervention.DecisionLog
import RevenueRecovery.Attribution.Log
import RevenueRecovery.Lib.Beside
import RevenueRecovery.LivePipeline.Identity
import RevenueRecovery.Prediction.Concurrent
import RevenueRecovery.RootCause.Concurrent
import RevenueRecovery.Lib.Solo
import RevenueRecovery.LivePipeline.Atomicity
import RevenueRecovery.Ingestion.Normalizers
import RevenueRecovery.Ingestion.Service
import RevenueRecovery.Ingestion.Store
import RevenueRecovery.Lib.Restriction
import RevenueRecovery.Services.Providers
import RevenueRecovery.Services.Isolation
import RevenueRecovery.Services.Confined
import RevenueRecovery.LivePipeline.Noninterference
import RevenueRecovery.Lib.Streak
import RevenueRecovery.Degradation.Reference
import RevenueRecovery.Degradation.Episodes
import RevenueRecovery.Analytics.Columns
import RevenueRecovery.Attribution.Arithmetic
import RevenueRecovery.RootCause.Coverage
import RevenueRecovery.RootCause.EarlyReturn
import RevenueRecovery.Intervention.Specification
import RevenueRecovery.Intervention.Reuse
import RevenueRecovery.Ingestion.Redelivery
import RevenueRecovery.Ingestion.Containment
import RevenueRecovery.Lib.Relational
import RevenueRecovery.Migration.Schema
import RevenueRecovery.Migration.Contract
import RevenueRecovery.Migration.Resolution
import RevenueRecovery.Migration.Soundness
import RevenueRecovery.Execution.Barred
import RevenueRecovery.Prediction.Labels
import RevenueRecovery.RootCause.Superseded
import RevenueRecovery.Attribution.Amounts
import RevenueRecovery.Intervention.Diagnosis
import RevenueRecovery.Ingestion.Money
import RevenueRecovery.Ingestion.Roles
import RevenueRecovery.Ingestion.Verification
import RevenueRecovery.Lib.Regex
import RevenueRecovery.LivePipeline.Registration
import RevenueRecovery.LivePipeline.Lookahead
import RevenueRecovery.LivePipeline.Settlement
import RevenueRecovery.Analytics.Conservation
import RevenueRecovery.Analytics.LateRecalculation
import RevenueRecovery.Degradation.Monotone
import RevenueRecovery.Identifiers
import RevenueRecovery.Inspection
import RevenueRecovery.Inspection.Conservation
import RevenueRecovery.Inspection.Pages
import RevenueRecovery.Lib.Tenure
import RevenueRecovery.Prediction.Binding
import RevenueRecovery.Verification.Progress
import RevenueRecovery.Webhooks
import RevenueRecovery.Webhooks.Deliveries
import RevenueRecovery.Webhooks.Intake
import RevenueRecovery.Webhooks.Pipeline
import RevenueRecovery.Lib.Interning
import RevenueRecovery.Lib.Traverse
import RevenueRecovery.Upgrades.Alembic
import RevenueRecovery.Upgrades.Downgrade
import RevenueRecovery.Upgrades.Evolution
import RevenueRecovery.Training.Encoding
import RevenueRecovery.Training.Evaluation
import RevenueRecovery.Views.Summary

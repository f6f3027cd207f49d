import AxSentinel.LostUpdate
import AxSentinel.Lifecycle
import AxSentinel.Completion
import AxSentinel.Alarms
import AxSentinel.Decisions
import AxSentinel.AutomaticIncidents
import AxSentinel.Passing
import AxSentinel.Versions
import AxSentinel.Reviews
import AxSentinel.Evidence
import AxSentinel.Resolution
import AxSentinel.Routing
import AxSentinel.Deduplication
import AxSentinel.Migration
import AxSentinel.Listing
import AxSentinel.WorkOrders
import AxSentinel.ReviewNotes
import AxSentinel.Refusals
import AxSentinel.Uncontended
import AxSentinel.Documents
import AxSentinel.Repository
import AxSentinel.Convergence
import AxSentinel.Updating
import AxSentinel.Interpretation
import AxSentinel.Retrying
import AxSentinel.Thresholds
import AxSentinel.Engine
import AxSentinel.ActionPlans
import AxSentinel.AuditedVersions
import AxSentinel.SqsMessages
import AxSentinel.BadTokens
import AxSentinel.Ranking
import AxSentinel.LocalRetrieval
import AxSentinel.FixedWidth
import AxSentinel.Evaluations
import AxSentinel.Shares
import AxSentinel.EvaluationScores
import AxSentinel.DocumentHits
import AxSentinel.Selection
import AxSentinel.LiveTelemetry
import AxSentinel.BatchWrites
import AxSentinel.MigrateDomainTables
import AxSentinel.AnalysisEngines
import AxSentinel.Guardrails
import AxSentinel.PublishedEvents
import AxSentinel.RealtimeBus
import AxSentinel.MaintenanceRecords
import AxSentinel.EvaluationFigures
import AxSentinel.Reports

import EtlOrchestrator.Dag.DanglingKeys
import EtlOrchestrator.Dag.EveryCycle
import EtlOrchestrator.Dag.Identifiers
import EtlOrchestrator.Dag.Chains
import EtlOrchestrator.Cli.SchedulesFile
import EtlOrchestrator.Scheduler.BackgroundLoop
import EtlOrchestrator.Scheduler.Registrations
import EtlOrchestrator.Scheduler.Spacing
import EtlOrchestrator.Persistence.Concurrency
import EtlOrchestrator.Engine.BlockingDelay
import EtlOrchestrator.Engine.Hooks
import EtlOrchestrator.Engine.RaisingHooks
import EtlOrchestrator.Observability.LogLines
import EtlOrchestrator.Engine.Independence
import EtlOrchestrator.Engine.Timestamps
import EtlOrchestrator.Engine.Metrics
import EtlOrchestrator.Engine.Retries
import EtlOrchestrator.Engine.DeclaredDependencies
import EtlOrchestrator.Engine.LiveWorkflow
import EtlOrchestrator.Cli.WorkflowFiles
import EtlOrchestrator.Engine.BackoffDelays
import EtlOrchestrator.Persistence.NewestFirst
import EtlOrchestrator.Engine.Levels
import EtlOrchestrator.Engine.BlockedTasks
import EtlOrchestrator.Scheduler.Reloading
import EtlOrchestrator.Cli.BuiltinRuns
import EtlOrchestrator.Engine.EndPoints
import EtlOrchestrator.Cli.ScheduleSessions
import EtlOrchestrator.Engine.WorkAndSpan
import EtlOrchestrator.Persistence.LogReplay

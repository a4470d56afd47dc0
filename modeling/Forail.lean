import Forail.Core.Reach
import Forail.Core.Worklist
import Forail.Scheduler.SimpleDag
import Forail.Scheduler.CycleSearch
import Forail.Core.Sweep
import Forail.Scheduler.TopologicalSort
import Forail.Models.UnifiedJobs
import Forail.Scheduler.DagWorkflow
import Forail.Scheduler.NodesToRun
import Forail.Core.Runs
import Forail.Scheduler.DoNotRun
import Forail.Scheduler.WorkflowManager
import Forail.Scheduler.WorkflowProgress
import Forail.Scheduler.WorkflowCancel
import Forail.Api.WorkflowEdges
import Forail.Scheduler.DependencyLinks
import Forail.Scheduler.DependencyCycles
import Forail.Models.Tasks
import Forail.Scheduler.TaskManagerModels
import Forail.Scheduler.DependencyGraph
import Forail.Scheduler.TaskManager
import Forail.Scheduler.InstanceCapacity
import Forail.Scheduler.GroupLimits
import Forail.Scheduler.TemplateExclusivity
import Forail.Core.Custody
import Forail.Dispatch.MessageAccounting
import Forail.Scheduler.WorkflowSpawns
import Forail.Utils.BulkReschedule
import Forail.Scheduler.NestedWorkflows
import Forail.Scheduler.WorkflowAncestors
import Forail.Scheduler.WorkflowNesting
import Forail.Core.Stride
import Forail.Models.FactCacheSlices
import Forail.Models.SlicedHosts
import Forail.Models.InventoryScript
import Forail.Core.Copies
import Forail.Models.WorkflowApprovals
import Forail.Tasks.StatusWriters
import Forail.Models.ServiceCatalog
import Forail.Models.ServiceRequests
import Forail.Models.ServiceRequestStarts
import Forail.Api.Launches
import Forail.Tenancy.ConcurrentJobs
import Forail.Tenancy.DailyQuota
import Forail.Tenancy.RateLimit
import Forail.Tenancy.Isolation
import Forail.Tenancy.StrictIsolation
import Forail.Tenancy.RlsScope
import Forail.Api.LaunchGates
import Forail.Api.WebAuthn
import Forail.Api.WebAuthnReplay
import Forail.Api.WebAuthnMatching
import Forail.Core.Verdicts
import Forail.Core.Json
import Forail.Policy.OpaClient
import Forail.Policy.PolicyVerdict
import Forail.Policy.DroppedDenials
import Forail.Scanning.Tools
import Forail.Scanning.Runner
import Forail.Scanning.ScanVerdict
import Forail.Tasks.Facts
import Forail.Tasks.FactWriteBack
import Forail.Tasks.FactConfinement
import Forail.Core.StackWalk
import Forail.Core.Texts
import Forail.Core.PercentDecoding
import Forail.Utils.NamedUrlGraph
import Forail.Utils.NamedUrlWalks
import Forail.Utils.NamedUrlCounters
import Forail.Utils.NamedUrlRoundTrip
import Forail.Scheduler.WorkflowVerdict
import Forail.Eda.EventRules
import Forail.Eda.Evaluation
import Forail.Eda.Throttle
import Forail.Eda.OncePerEvent
import Forail.Models.Schedules
import Forail.Models.TemplateSchedules
import Forail.Tasks.PeriodicScheduler
import Forail.Api.MfaSessions
import Forail.Dispatch.CallbackReceiver
import Forail.Dispatch.MarkedParents
import Forail.Models.Surveys
import Forail.Models.CatalogVariables
import Forail.Core.Dictionaries
import Forail.Core.Grouping
import Forail.Core.Allowance
import Forail.Core.Batches
import Forail.Core.UniqueRows
import Forail.Core.VertexRemoval
import Forail.Inventory.ImportModels
import Forail.Inventory.InventoryImport
import Forail.Inventory.HostMatching
import Forail.Inventory.ImportDeletions
import Forail.Inventory.ImportGroups
import Forail.Inventory.ImportHosts
import Forail.Inventory.ImportRelations
import Forail.Inventory.ImportedRows
import Forail.Inventory.ImportExact
import Forail.Inventory.SecondMatching
import Forail.Inventory.SecondUpdate
import Forail.Inventory.SecondImport
import Forail.Core.Slices
import Forail.Analytics.Gather
import Forail.Analytics.NoGap
import Forail.Analytics.GatherRuns
import Forail.Analytics.GatherHistory
import Forail.Relay.RelayManager
import Forail.Relay.RelayConsistency
import Forail.Relay.RelayIterations
import Forail.Relay.Subscriptions
import Forail.Relay.NoLostSubscription
import Forail.Api.Webhooks
import Forail.Api.WebhookLaunches
import Forail.Core.Tables
import Forail.Core.FallibleLoops
import Forail.Migration.LocalObjects
import Forail.Migration.Importers
import Forail.Migration.ImportFromAwx
import Forail.Migration.ImportSteps
import Forail.Migration.Privileges
import Forail.Migration.StoredSecrets
import Forail.Migration.SecretRuns
import Forail.Migration.ImportedKeys
import Forail.Migration.WorkflowGraphs
import Forail.Migration.GraphRuns
import Forail.Core.FixedDigits
import Forail.Cleanup.PartitionNames
import Forail.Cleanup.DeleteMeta
import Forail.Cleanup.CleanupReport
import Forail.Sso.LdapLogin
import Forail.Sso.SamlRoles
import Forail.Models.LaunchPrompts
import Forail.Models.SlicedLaunches
import Forail.Models.SavedPrompts
import Forail.Models.SlicedRuns
import Forail.Core.OrderedDicts
import Forail.Tasks.HostMetrics
import Forail.Tasks.MonthlyTotals
import Forail.Models.WorkflowCopies
import Forail.Models.NodeKwargs
import Forail.Models.WorkflowArtifacts
import Forail.Core.CascadingRelease
import Forail.Inventory.GroupDeletion
import Forail.Dispatch.FlushMetrics
import Forail.Dispatch.FlushOutcomes
import Forail.Dispatch.TruthfulGauge
import Forail.Core.Interleaving
import Forail.Conf.EncryptedSettings
import Forail.Conf.SettingsContract
import Forail.Conf.SettingsOperations
import Forail.Conf.SafeReads
import Forail.Conf.SettingsRuns
import Forail.Api.ClientAddress
import Forail.Core.GreedyFill
import Forail.Tasks.MembershipPolicies
import Forail.Core.Patterns
import Forail.Utils.InlineJinja
import Forail.Models.SurveySorting
import Forail.Core.Base64
import Forail.Utils.Encryption
import Forail.Utils.SafeYaml
import Forail.Core.JsonText
import Forail.Tasks.Drift
import Forail.Core.InfixNotation
import Forail.Utils.SmartFilter
import Forail.Core.Grids
import Forail.Dispatch.Periodic
import Forail.Core.LeafPruning
import Forail.Inventory.EmptyGroups
import Forail.Inventory.RenamedHosts
import Forail.Analytics.CollectionIntervals
import Forail.Models.Relaunches
import Forail.Models.HostSummaries
import Forail.Dispatch.EventConstruction
import Forail.Models.JobOutput
import Forail.Models.Credentials
import Forail.Models.CredentialInjection
import Forail.Core.ClosureRounds
import Forail.Inventory.GroupClosures
import Forail.Inventory.MigratedChildren
import Forail.Analytics.SubsystemMetrics
import Forail.Analytics.MetricIncrements
import Forail.Analytics.HistogramExport
import Forail.Services.ApiChoices
import Forail.Services.DbChoices
import Forail.Dispatch.LocalReaper
import Forail.Services.DynamicChoices

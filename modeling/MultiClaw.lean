import MultiClaw.Agent.Context
import MultiClaw.Agent.History
import MultiClaw.Agent.Resumption
import MultiClaw.Agent.ToolCalls
import MultiClaw.Agent.ToolHistory
import MultiClaw.Auth.Codes
import MultiClaw.Auth.CodesSpec
import MultiClaw.Auth.GuessLimit
import MultiClaw.Auth.Routes
import MultiClaw.Auth.SendLimit
import MultiClaw.Base.Dicts
import MultiClaw.Base.Double
import MultiClaw.Base.Exec
import MultiClaw.Base.FloatText
import MultiClaw.Base.Frames
import MultiClaw.Base.Hmac
import MultiClaw.Base.Json
import MultiClaw.Base.JsonDump
import MultiClaw.Base.JsonStyle
import MultiClaw.Base.JsonText
import MultiClaw.Base.Lines
import MultiClaw.Base.Lists
import MultiClaw.Base.Locks
import MultiClaw.Base.Regex
import MultiClaw.Base.Replace
import MultiClaw.Base.Rounding
import MultiClaw.Base.Sha256
import MultiClaw.Base.Table
import MultiClaw.Base.TextProto
import MultiClaw.Base.Toposort
import MultiClaw.Base.Transaction
import MultiClaw.Base.Updates
import MultiClaw.Collaboration.ClosedTeams
import MultiClaw.Collaboration.Models
import MultiClaw.Collaboration.Moves
import MultiClaw.Collaboration.PassSpec
import MultiClaw.Collaboration.Progress
import MultiClaw.Collaboration.Repository
import MultiClaw.Collaboration.RepositorySpec
import MultiClaw.Collaboration.Service
import MultiClaw.Collaboration.System
import MultiClaw.Deletion.Batch
import MultiClaw.Deletion.DecidedApprovals
import MultiClaw.Deletion.Exclusion
import MultiClaw.Deletion.FinishedRuns
import MultiClaw.Deletion.Lifecycle
import MultiClaw.Deletion.LiveRuns
import MultiClaw.Deletion.Moves
import MultiClaw.Deletion.Repository
import MultiClaw.Deletion.Restoration
import MultiClaw.Deletion.Service
import MultiClaw.Deletion.Spec
import MultiClaw.Deletion.System
import MultiClaw.Deletion.Worker
import MultiClaw.Llm.Providers
import MultiClaw.Llm.ProvidersSpec
import MultiClaw.Llm.Router
import MultiClaw.Mcp.Arguments
import MultiClaw.Mcp.AtMostOnce
import MultiClaw.Mcp.Breaker
import MultiClaw.Mcp.Client
import MultiClaw.Mcp.Config
import MultiClaw.Mcp.Registry
import MultiClaw.Mcp.Schema
import MultiClaw.Mcp.ToolAdapter
import MultiClaw.Planner.Changes
import MultiClaw.Planner.Execution
import MultiClaw.Planner.Models
import MultiClaw.Planner.ResultLimits
import MultiClaw.Planner.Results
import MultiClaw.Planner.Revalidation
import MultiClaw.Planner.Selection
import MultiClaw.Planner.SortSpec
import MultiClaw.Planner.StoredVersions
import MultiClaw.Planner.Validation
import MultiClaw.Planner.ValidationSpec
import MultiClaw.Planner.VersionChain
import MultiClaw.Planner.VersionRows
import MultiClaw.Runtime.Admission
import MultiClaw.Runtime.DailyLimit
import MultiClaw.Runtime.DailyQuota
import MultiClaw.Runtime.DailyRecords
import MultiClaw.Runtime.Delivery
import MultiClaw.Runtime.Eviction
import MultiClaw.Runtime.Inference
import MultiClaw.Runtime.Journal
import MultiClaw.Runtime.Models
import MultiClaw.Runtime.Pool
import MultiClaw.Runtime.PoolCapacity
import MultiClaw.Runtime.PoolDeadlock
import MultiClaw.Runtime.Streaming
import MultiClaw.Runtime.TokenBudget
import MultiClaw.Sandbox.NsJail
import MultiClaw.Sandbox.NsJailSpec
import MultiClaw.Sandbox.Runner
import MultiClaw.Secrets.Envelope
import MultiClaw.Secrets.EnvelopeSpec
import MultiClaw.Secrets.Rotation
import MultiClaw.Secrets.RotationSpec
import MultiClaw.Security.Redaction
import MultiClaw.Skills.Activation
import MultiClaw.Storage.Defaults
import MultiClaw.Storage.Memory
import MultiClaw.Storage.PlanAttempts
import MultiClaw.Storage.Plans
import MultiClaw.Storage.Schema
import MultiClaw.Storage.Workflow
import MultiClaw.Storage.WorkflowSpec
import MultiClaw.Tools.Closings
import MultiClaw.Tools.EditFile
import MultiClaw.Tools.EditFileSpec
import MultiClaw.Tools.EditHistory
import MultiClaw.Tools.Files
import MultiClaw.Tools.InputRecovery
import MultiClaw.Tools.Observation
import MultiClaw.Tools.OpenExecutions
import MultiClaw.Tools.Parameters
import MultiClaw.Tools.ReadFile
import MultiClaw.Tools.ReadFileSpec
import MultiClaw.Tools.Recovery
import MultiClaw.Tools.Scheduler
import MultiClaw.Tools.SchedulerSpec
import MultiClaw.Tools.Search
import MultiClaw.Tools.SearchSpec
import MultiClaw.Tools.System
import MultiClaw.Tools.WebFetch
import MultiClaw.Tools.WebFetchSpec
import MultiClaw.Tools.Wedging
import MultiClaw.Tools.WriteFile
import MultiClaw.Workflow.Candidates
import MultiClaw.Workflow.Checkpoint
import MultiClaw.Workflow.CheckpointOrder
import MultiClaw.Workflow.CheckpointSpec
import MultiClaw.Workflow.Coordinator
import MultiClaw.Workflow.CoordinatorSpec
import MultiClaw.Workflow.Fencing
import MultiClaw.Workflow.Frames
import MultiClaw.Workflow.Models
import MultiClaw.Workflow.Recovery
import MultiClaw.Workflow.RunQuota
import MultiClaw.Workflow.Steps
import MultiClaw.Workflow.System
import MultiClaw.Workflow.TerminalRuns
import MultiClaw.Workflow.Writes

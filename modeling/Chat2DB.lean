import Chat2DB.Base.Occurrences
import Chat2DB.Base.Outcome
import Chat2DB.Base.Rows
import Chat2DB.Base.Trace
import Chat2DB.Storage.AgentTypes
import Chat2DB.Storage.AgentMessages
import Chat2DB.Storage.AgentStatements
import Chat2DB.Storage.AgentRuns
import Chat2DB.Storage.AgentPermissions
import Chat2DB.Storage.AgentSessions
import Chat2DB.Storage.AgentOps
import Chat2DB.Storage.RunLifecycle
import Chat2DB.Storage.RunRefinement
import Chat2DB.Storage.AgentRunSafety
import Chat2DB.Storage.AgentRunHistory
import Chat2DB.Base.Consecutive
import Chat2DB.Storage.AgentTranscript
import Chat2DB.Storage.AgentCalls
import Chat2DB.Storage.CallHistory
import Chat2DB.Agent.Hub
import Chat2DB.Agent.HubSafety
import Chat2DB.Agent.HubHistory
import Chat2DB.Storage.OutsideCalls
import Chat2DB.Agent.SqlTools
import Chat2DB.Agent.WriteOutcome
import Chat2DB.Bridge.Credit
import Chat2DB.Bridge.CreditLedger
import Chat2DB.Base.Retained
import Chat2DB.Operation.Journal
import Chat2DB.Operation.Replay
import Chat2DB.Engine.Manager
import Chat2DB.Engine.ManagerSafety
import Chat2DB.Engine.Leases
import Chat2DB.Supervisor.QueryEvents
import Chat2DB.Base.Channel
import Chat2DB.Supervisor.StreamPending
import Chat2DB.Supervisor.Pending
import Chat2DB.Supervisor.StreamRules
import Chat2DB.Supervisor.StreamRoom
import Chat2DB.Supervisor.StreamDelivery
import Chat2DB.Base.Stepwise
import Chat2DB.Base.Guarded
import Chat2DB.Base.Acyclic
import Chat2DB.Results.Frames
import Chat2DB.Results.Store
import Chat2DB.Base.Fill
import Chat2DB.Results.Holdings
import Chat2DB.Results.Pages
import Chat2DB.Results.Durability
import Chat2DB.Results.Accounting
import Chat2DB.Results.Faults
import Chat2DB.Results.Purging
import Chat2DB.Results.Quota
import Chat2DB.Results.Upkeep
import Chat2DB.Results.Appending
import Chat2DB.Results.Finishing
import Chat2DB.Results.Recovery
import Chat2DB.Results.Reopening
import Chat2DB.Results.Runs
import Chat2DB.Results.RoundTrip
import Chat2DB.Results.FaultyRuns
import Chat2DB.Results.PurgedPages
import Chat2DB.Results.CrashConsistency
import Chat2DB.Results.Acceptance
import Chat2DB.Query.Consume
import Chat2DB.Query.Agreement
import Chat2DB.Query.Keeping
import Chat2DB.Query.Streams
import Chat2DB.Engine.Answers
import Chat2DB.Engine.IdleTimer
import Chat2DB.Engine.AnsweredOnce
import Chat2DB.Engine.Progress
import Chat2DB.Base.Placement
import Chat2DB.Schema.TableDiff
import Chat2DB.Schema.Convergence
import Chat2DB.Schema.AutoIncrement
import Chat2DB.Schema.CatalogText
import Chat2DB.Schema.ForeignKeyText
import Chat2DB.Schema.SchemaDiff
import Chat2DB.Schema.ViewOrder
import Chat2DB.Schema.ViewTopology
import Chat2DB.Schema.ForeignKeys
import Chat2DB.Schema.NoDifferences
import Chat2DB.Schema.CatalogBytes
import Chat2DB.Schema.ViewText
import Chat2DB.Supervisor.Accounting
import Chat2DB.Supervisor.SinkAnswers
import Chat2DB.Base.Marking
import Chat2DB.Sql.AppError
import Chat2DB.SqlServer.Scanners
import Chat2DB.SqlServer.Agreement
import Chat2DB.SqlServer.Decimals
import Chat2DB.SqlServer.Parameters
import Chat2DB.Base.Utf8
import Chat2DB.MySql.Scripts
import Chat2DB.MySql.Lexer
import Chat2DB.MySql.Splitting
import Chat2DB.MySql.Lexemes
import Chat2DB.MySql.Words
import Chat2DB.MySql.LexerAgreement
import Chat2DB.MySql.ReadOnly
import Chat2DB.Supervisor.StreamGrammar
import Chat2DB.Supervisor.RetiredMemory
import Chat2DB.Agent.Context
import Chat2DB.Agent.Messages
import Chat2DB.Agent.Compaction
import Chat2DB.Agent.SettledContext
import Chat2DB.Providers.ModelRound
import Chat2DB.Agent.RunProgress
import Chat2DB.Agent.UsageAgreement
import Chat2DB.Base.Transducer
import Chat2DB.Providers.RoundContract
import Chat2DB.Providers.Gemini
import Chat2DB.Providers.GeminiReplay
import Chat2DB.Operation.EmitLaw
import Chat2DB.Operation.Retention
import Chat2DB.Operation.Hub
import Chat2DB.Base.Base64
import Chat2DB.LargeValue.Store
import Chat2DB.LargeValue.Retention
import Chat2DB.Base.Pieces
import Chat2DB.LargeValue.Chunks
import Chat2DB.Base.Decimal
import Chat2DB.Base.Recent
import Chat2DB.Postgres.Reading
import Chat2DB.Postgres.Numeric
import Chat2DB.Postgres.Temporal
import Chat2DB.Postgres.ArrayInput
import Chat2DB.Postgres.Array
import Chat2DB.Postgres.ArrayText
import Chat2DB.MySql.ResultBatches
import Chat2DB.MySql.Tokens
import Chat2DB.MySql.Literals
import Chat2DB.MySql.Values
import Chat2DB.MySql.Statements
import Chat2DB.MySql.ResultGrid
import Chat2DB.MySql.GridStatements
import Chat2DB.MySql.TokenMarks
import Chat2DB.MySql.GridScripts
import Chat2DB.MySql.RoutinePreview
import Chat2DB.MySql.RoutineReading
import Chat2DB.Transfer.Tabular
import Chat2DB.Transfer.TabularRoundTrip
import Chat2DB.Transfer.Archive
import Chat2DB.Base.JsonBytes
import Chat2DB.Results.Contract
import Chat2DB.Agent.ResultInspection
import Chat2DB.Agent.InspectionAnswers
import Chat2DB.Agent.InspectionPaging
import Chat2DB.Agent.PermissionSignals
import Chat2DB.Agent.PermissionSlot
import Chat2DB.Agent.PermissionWaiters

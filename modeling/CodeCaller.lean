import CodeCaller.Library.Proc
import CodeCaller.Library.Machine
import CodeCaller.Library.Pool
import CodeCaller.Library.Table
import CodeCaller.Library.JsString
import CodeCaller.Schema
import CodeCaller.Events
import CodeCaller.Crypto
import CodeCaller.Envelopes
import CodeCaller.Hub.State
import CodeCaller.Hub.Realtime
import CodeCaller.Hub.Workers
import CodeCaller.Hub.Tasks
import CodeCaller.Hub.Approvals
import CodeCaller.Hub.Registrations
import CodeCaller.Hub.System
import CodeCaller.Hub.Effects
import CodeCaller.Hub.Changes
import CodeCaller.Hub.Operations
import CodeCaller.Hub.Nodes
import CodeCaller.Hub.ServiceEffects
import CodeCaller.Hub.DispatchEffects
import CodeCaller.Hub.Handlers
import CodeCaller.Hub.Integrity
import CodeCaller.Hub.Isolation
import CodeCaller.Hub.Tenants
import CodeCaller.Hub.Answers
import CodeCaller.Hub.TenantIsolation
import CodeCaller.Hub.DaemonChannel
import CodeCaller.Hub.Attempts
import CodeCaller.Hub.Failover
import CodeCaller.Hub.Attribution
import CodeCaller.Hub.Queue
import CodeCaller.Hub.ApprovalRuns
import CodeCaller.Hub.Finality
import CodeCaller.Hub.Tracking
import CodeCaller.Hub.Agreement
import CodeCaller.Hub.DecisionRaces
import CodeCaller.Hub.RegistrationRuns
import CodeCaller.Hub.Credentials
import CodeCaller.Hub.RegistrationRaces
import CodeCaller.Hub.LogWriters
import CodeCaller.Hub.LogRaces
import CodeCaller.Hub.ResultRaces
import CodeCaller.Library.Symbolic
import CodeCaller.Library.Template
import CodeCaller.Library.ShellWords
import CodeCaller.Library.Lines
import CodeCaller.Library.Runs
import CodeCaller.Library.Regex
import CodeCaller.Library.Sorting
import CodeCaller.Library.Upsert
import CodeCaller.Library.Faults
import CodeCaller.Hub.Presence
import CodeCaller.Hub.SealedKeys
import CodeCaller.Hub.Auth
import CodeCaller.Hub.TokenRaces
import CodeCaller.Hub.Cancellation
import CodeCaller.Hub.CandidateOrder
import CodeCaller.Hub.ClosedTasks
import CodeCaller.Hub.PushTokens
import CodeCaller.Hub.FailedOperations
import CodeCaller.Daemon.Runner
import CodeCaller.Daemon.Client
import CodeCaller.Daemon.Channel
import CodeCaller.Daemon.Exits
import CodeCaller.Daemon.SpawnPlan
import CodeCaller.Daemon.ShellPlan
import CodeCaller.Daemon.Tokens
import CodeCaller.Daemon.Starts
import CodeCaller.Daemon.Detector
import CodeCaller.Daemon.Prompts
import CodeCaller.Daemon.Register
import CodeCaller.Fleet.System
import CodeCaller.Fleet.Registering
import CodeCaller.Fleet.Polls
import CodeCaller.Fleet.Collecting
import CodeCaller.Library.Recall
import CodeCaller.Library.Chronicle
import CodeCaller.Hub.Deeds
import CodeCaller.Hub.Reasons
import CodeCaller.Hub.Replies
import CodeCaller.Hub.Archive
import CodeCaller.Daemon.Trust
import CodeCaller.Daemon.Records
import CodeCaller.Fleet.History
import CodeCaller.Fleet.Tenancy
import CodeCaller.Fleet.Execution
import CodeCaller.Fleet.Consent
import CodeCaller.Fleet.Isolation
import CodeCaller.Fleet.Accounts
import CodeCaller.Fleet.Replies
import CodeCaller.Hub.Sessions
import CodeCaller.App.Deployment
import CodeCaller.Hub.Timestamps
import CodeCaller.Hub.Watchdog
import CodeCaller.App.Session
import CodeCaller.App.Exchange
import CodeCaller.App.StoredToken
import CodeCaller.App.Retries
import CodeCaller.App.OneTap
import CodeCaller.App.Screen
import CodeCaller.App.Shown
import CodeCaller.Daemon.Failures
import CodeCaller.Fleet.Messages

import Swarm.Lib.Journal
import Swarm.Lib.Dag
import Swarm.Lib.Runs
import Swarm.Lib.Rounding
import Swarm.Lib.Settle
import Swarm.Lib.Undo
import Swarm.Lib.Newest
import Swarm.Lib.Lanes
import Swarm.Lib.Transact
import Swarm.Lib.Assoc
import Swarm.Lib.Collect
import Swarm.Lib.Attempt
import Swarm.Lib.Reading
import Swarm.Lib.Fold
import Swarm.Lib.Mailboxes
import Swarm.Lib.Schedule
import Swarm.Lib.Tally
import Swarm.Lib.Disk
import Swarm.Lib.Pool
import Swarm.Python
import Swarm.Value
import Swarm.Kanban.Code
import Swarm.Kanban.Spec
import Swarm.Kanban.Claim
import Swarm.Kanban.Update
import Swarm.Kanban.Timeline
import Swarm.Kanban.Edges
import Swarm.Kanban.Gains
import Swarm.Kanban.Statements
import Swarm.Kanban.Mirror
import Swarm.Kanban.Lens
import Swarm.Kanban.Confluence
import Swarm.Kanban.Readable
import Swarm.Kanban.Limit
import Swarm.Kanban.TornUpdate
import Swarm.Kanban.Atomic
import Swarm.Kanban.Order
import Swarm.Supervisor.Code
import Swarm.Supervisor.WriteBack
import Swarm.Supervisor.Drain
import Swarm.Supervisor.Ends
import Swarm.Supervisor.Parallel
import Swarm.Supervisor.HeadOfLine
import Swarm.Supervisor.Order
import Swarm.Supervisor.Complete
import Swarm.Resilience
import Swarm.Resilience.Trace
import Swarm.Resilience.Law
import Swarm.Resilience.Backoff
import Swarm.Resilience.Credential
import Swarm.Perpetual.Code
import Swarm.Perpetual.Driver
import Swarm.Perpetual.Team
import Swarm.Perpetual.Order
import Swarm.Perpetual.Ledger
import Swarm.Perpetual.Report
import Swarm.Perpetual.Run
import Swarm.Perpetual.Idle
import Swarm.Perpetual.Heartbeat
import Swarm.Perpetual.Pidfile
import Swarm.Perpetual.Guard
import Swarm.Perpetual.Launch
import Swarm.Perpetual.OneTeam
import Swarm.Perpetual.Abort
import Swarm.Agents
import Swarm.AtomicWrite
import Swarm.Agents.Registry
import Swarm.Agents.Shared
import Swarm.MetaSupervisor
import Swarm.MetaSupervisor.Monitor
import Swarm.GithubTasks
import Swarm.GithubTasks.Turns
import Swarm.GithubTasks.Workers
import Swarm.Usage
import Swarm.Usage.Restart
import Swarm.Usage.Ingest
import Swarm.Usage.Window
import Swarm.Usage.Reported
import Swarm.Usage.Malformed
import Swarm.Usage.StateFile
import Swarm.CoordBus
import Swarm.CoordBus.Shared
import Swarm.Messaging
import Swarm.Messaging.Inboxes
import Swarm.Bus.Code
import Swarm.Bus.Readable
import Swarm.Bus.Terminal
import Swarm.Bus.Survive
import Swarm.Postgres.Schema
import Swarm.Postgres.Migration
import Swarm.Postgres.Code
import Swarm.Postgres.Spec
import Swarm.Postgres.Broadcast
import Swarm.Postgres.Gates
import Swarm.Postgres.Transports
import Swarm.RateMode.Code
import Swarm.RateMode.Trace
import Swarm.RateMode.Modes
import Swarm.RateMode.Budget
import Swarm.RateMode.Restart
import Swarm.RateMode.Choice
import Swarm.RateMode.FirstTick
import Swarm.RateMode.StateFile
import Swarm.Worktree.Code
import Swarm.Worktree.Merge
import Swarm.Worktree.Stale
import Swarm.Worktree.Pipeline
import Swarm.Worktree.Gate
import Swarm.Worktree.Account
import Swarm.Worktree.Retry
import Swarm.Worktree.History
import Swarm.Workflow.Code
import Swarm.Workflow.FanOut
import Swarm.Workflow.Approval
import Swarm.Workflow.Trace
import Swarm.Workflow.Pipeline
import Swarm.Workflow.Verdict
import Swarm.Cost
import Swarm.Conductors.Api
import Swarm.Conductors.Turns
import Swarm.Conductors.Backends
import Swarm.Conductors.Outcome
import Swarm.Conductors.Conversation
import Swarm.Conductors.Spend
import Swarm.Autoresearch.Code
import Swarm.Autoresearch.Merge
import Swarm.Autoresearch.Meet
import Swarm.Autoresearch.Pass
import Swarm.Autoresearch.Incremental
import Swarm.Cli.Transcript
import Swarm.Cli.Daemon

import Workforce.Berth
import Workforce.Custody
import Workforce.Draw
import Workforce.Duration
import Workforce.Event
import Workforce.FileTree
import Workforce.Isolation
import Workforce.Lock
import Workforce.Lock.Contention
import Workforce.Log.Filter
import Workforce.Log.Level
import Workforce.Log.Setup
import Workforce.Mailbox
import Workforce.Named
import Workforce.Payload
import Workforce.Pool.Basic
import Workforce.Pool.Course
import Workforce.Pool.Dispatch
import Workforce.Pool.Effort
import Workforce.Pool.Lifecycle
import Workforce.Pool.Mail
import Workforce.Pool.Metrics
import Workforce.Pool.Settle
import Workforce.Pool.Step
import Workforce.Pool.Turn
import Workforce.Proofs.Act.Basic
import Workforce.Proofs.Act.Commute
import Workforce.Proofs.Act.Outcome
import Workforce.Proofs.Act.Parallel
import Workforce.Proofs.Act.Spares
import Workforce.Proofs.Calm.Dispatch
import Workforce.Proofs.Calm.Steps
import Workforce.Proofs.Calm.Tasks
import Workforce.Proofs.Count
import Workforce.Proofs.Course.Accounts
import Workforce.Proofs.Course.Cleanup
import Workforce.Proofs.Course.Closing
import Workforce.Proofs.Course.Fresh
import Workforce.Proofs.Course.Handoffs
import Workforce.Proofs.Course.History
import Workforce.Proofs.Course.Idleness
import Workforce.Proofs.Course.Independence
import Workforce.Proofs.Course.Isolated
import Workforce.Proofs.Course.Janitor
import Workforce.Proofs.Course.Launch
import Workforce.Proofs.Course.Lifecycle
import Workforce.Proofs.Course.Lingering
import Workforce.Proofs.Course.Ownership
import Workforce.Proofs.Course.Rest
import Workforce.Proofs.Course.Routing
import Workforce.Proofs.Course.Serving
import Workforce.Proofs.Course.Sound
import Workforce.Proofs.Mailbox
import Workforce.Proofs.Pool.Accounts
import Workforce.Proofs.Pool.Advance
import Workforce.Proofs.Pool.Aging
import Workforce.Proofs.Pool.Apart
import Workforce.Proofs.Pool.AtRest
import Workforce.Proofs.Pool.Bookings
import Workforce.Proofs.Pool.Cargo
import Workforce.Proofs.Pool.Census
import Workforce.Proofs.Pool.Evictions
import Workforce.Proofs.Pool.Handlers
import Workforce.Proofs.Pool.Hiring
import Workforce.Proofs.Pool.Idle
import Workforce.Proofs.Pool.Lasting
import Workforce.Proofs.Pool.Ledger
import Workforce.Proofs.Pool.Local
import Workforce.Proofs.Pool.Loops
import Workforce.Proofs.Pool.Orderly
import Workforce.Proofs.Pool.Owner
import Workforce.Proofs.Pool.Pending
import Workforce.Proofs.Pool.Quiet
import Workforce.Proofs.Pool.Refusals
import Workforce.Proofs.Pool.Register
import Workforce.Proofs.Pool.Routing
import Workforce.Proofs.Pool.Sends
import Workforce.Proofs.Pool.Sound
import Workforce.Proofs.Pool.Stages
import Workforce.Proofs.Pool.Still
import Workforce.Proofs.Pool.Timely
import Workforce.Proofs.Shard.Expiry
import Workforce.Proofs.Shard.Order
import Workforce.Proofs.Shard.Parking
import Workforce.Proofs.Worker
import Workforce.Script
import Workforce.Session.BoundaryTrial
import Workforce.Session.CustodySession
import Workforce.Session.FileSession
import Workforce.Session.IsolationSession
import Workforce.Session.LockSession
import Workforce.Session.LogSession
import Workforce.Session.PoolSession
import Workforce.Session.ShardSession
import Workforce.Session.Verdict
import Workforce.Settings
import Workforce.Shard.Basic
import Workforce.Shard.Expiry
import Workforce.Text
import Workforce.Text.Parts
import Workforce.Ticket
import Workforce.Ticket.Word
import Workforce.Total
import Workforce.Worker
import Workforce.Proofs.Course.Sweeping
import Workforce.Proofs.Pool.Reuse
import Workforce.Proofs.Course.Reuse
import Workforce.Proofs.FileTree
import Workforce.Proofs.Log.Setup
import Workforce.Proofs.Pool.Exertion
import Workforce.Proofs.Pool.Wakeful
import Workforce.Proofs.Course.Settling
import Workforce.Proofs.Shard.Probing
import Workforce.Proofs.Course.CatchingUp
import Workforce.Proofs.Shard.Publishing
import Workforce.Proofs.Pool.Publishing
import Workforce.Proofs.Pool.Dismissal
import Workforce.Proofs.Course.Dismissal
import Workforce.Proofs.Pool.Cancelling
import Workforce.Proofs.Course.Cancelling
import Workforce.Proofs.Pool.Summoning
import Workforce.Proofs.Pool.Parting
import Workforce.Proofs.Pool.Stopping
import Workforce.Proofs.Course.Stopping
import Workforce.Proofs.Shard.Boundary
import Workforce.Proofs.Pool.Turnover
import Workforce.Proofs.Course.Turnover
import Workforce.Proofs.Pool.Lost
import Workforce.Proofs.Course.Panics
import Workforce.Proofs.Pool.Brief
import Workforce.Proofs.Pool.Provision
import Workforce.Proofs.Course.Provision
import Workforce.Proofs.Isolation
import Workforce.Proofs.Named
import Workforce.Proofs.Custody
import Workforce.Proofs.Log.Directive
import Workforce.Proofs.Log.Filter
import Workforce.Proofs.Contention
import Workforce.Proofs.Ticket
import Workforce.Proofs.Course.Configuring

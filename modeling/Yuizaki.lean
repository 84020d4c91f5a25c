import Yuizaki.Store.Authority
import Yuizaki.Store.Tokens
import Yuizaki.Store.Identity
import Yuizaki.Store.Delivery
import Yuizaki.Store.ConnectorRun
import Yuizaki.Connector.NoResend
import Yuizaki.Plan.AtMostOnce
import Yuizaki.Plan.Compensate
import Yuizaki.Plan.Conditional
import Yuizaki.Plan.Order
import Yuizaki.Recovery.Secrets
import Yuizaki.Recovery.SingleUse
import Yuizaki.Recovery.Reap
import Yuizaki.Recovery.Due
import Yuizaki.Events.Identity
import Yuizaki.Tool.Recheck
import Yuizaki.Tool.Names
import Yuizaki.Tool.Budget
import Yuizaki.Tool.Remembered
import Yuizaki.Scheduler.Removal
import Yuizaki.Connector.Admission
import Yuizaki.Connector.Retriable
import Yuizaki.Connector.Recognition
import Yuizaki.Conversation.Compression
import Yuizaki.Memory.Paging
import Yuizaki.Memory.Mirror
import Yuizaki.Stream.Ingress
import Yuizaki.Database.Workspace
import Yuizaki.Database.Counters
import Yuizaki.Database.Pairs
import Yuizaki.Stream.Audit
import Yuizaki.Memory.Routes
import Yuizaki.Memory.Written
import Yuizaki.Memory.Rewrite
import Yuizaki.Memory.Removal
import Yuizaki.Memory.Batch
import Yuizaki.Memory.Update
import Yuizaki.Memory.Requests
import Yuizaki.Memory.Review
import Yuizaki.Activity.Category
import Yuizaki.Activity.Feedback
import Yuizaki.Activity.Evaluate
import Yuizaki.Heartbeat.Queue
import Yuizaki.Stream.Connection
import Yuizaki.Desktop.Lease
import Yuizaki.Desktop.Honesty
import Yuizaki.Package.Atomic
import Yuizaki.Credential.Migration
import Yuizaki.ComputerUse.Session
import Yuizaki.ComputerUse.Confirm
import Yuizaki.Settings.Failure
import Yuizaki.Settings.Rollback
import Yuizaki.Memory.Audit
import Yuizaki.Bridge.Output
import Yuizaki.Prompt.Assembly
import Yuizaki.Memory.Rollback
import Yuizaki.Context.Window
import Yuizaki.Memory.Closure
import Yuizaki.Memory.Scopes
import Yuizaki.Memory.Pushdown
import Yuizaki.Memory.CandidateId
import Yuizaki.Memory.Rebuild
import Yuizaki.Memory.Duplicates
import Yuizaki.Memory.Bundle
import Yuizaki.Stream.RateLimit
import Yuizaki.Settings.Endpoint
import Yuizaki.Memory.Retrieval
import Yuizaki.Tool.Grant
import Yuizaki.Audio.Player
import Yuizaki.System.RateLimiter
import Yuizaki.Tool.Redaction

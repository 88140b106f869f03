import ServerlessPatterns.ApprovalWorkflow.DataFlow
import ServerlessPatterns.ApprovalWorkflow.Decisions
import ServerlessPatterns.ApprovalWorkflow.GatedAction
import ServerlessPatterns.Saga.Rollback
import ServerlessPatterns.Saga.Accounting
import ServerlessPatterns.Saga.Orphans
import ServerlessPatterns.Saga.NestedUpdates
import ServerlessPatterns.Saga.Abandoned
import ServerlessPatterns.FanOut.Queue
import ServerlessPatterns.FanOut.Isolation
import ServerlessPatterns.RetryBackoff.Isolation
import ServerlessPatterns.WebhookIngest.Rotation
import ServerlessPatterns.WebhookIngest.Batches
import ServerlessPatterns.IdempotentProcessor.Window
import ServerlessPatterns.LongRunning.PollLoop
import ServerlessPatterns.LongRunning.Overlap
import ServerlessPatterns.LongRunning.Budget
import ServerlessPatterns.RetryBackoff.BatchContract
import ServerlessPatterns.Library.Backoff
import ServerlessPatterns.Library.Retention
import ServerlessPatterns.Library.Configuration
import ServerlessPatterns.RetryBackoff.Redrive
import ServerlessPatterns.Library.Timing
import ServerlessPatterns.LongRunning.PollTime
import ServerlessPatterns.Library.AtLeastOnce
import ServerlessPatterns.Saga.Reruns
import ServerlessPatterns.Saga.Rejected
import ServerlessPatterns.Library.WeakestPre
import ServerlessPatterns.Saga.Flaky
import ServerlessPatterns.Saga.FlakyRuns
import ServerlessPatterns.Saga.Timeout
import ServerlessPatterns.IdempotentProcessor.Keys
import ServerlessPatterns.Library.MapState
import ServerlessPatterns.Library.Ranges
import ServerlessPatterns.ScheduledBatch.Conservation
import ServerlessPatterns.ScheduledBatch.Ends
import ServerlessPatterns.Library.Draws
import ServerlessPatterns.RetryBackoff.Jitter
import ServerlessPatterns.LongRunning.Progress
import ServerlessPatterns.WebhookIngest.Signatures
import ServerlessPatterns.ApprovalWorkflow.Causes
import ServerlessPatterns.ApprovalWorkflow.Links
import ServerlessPatterns.Metadata
import ServerlessPatterns.DeployAll.Reports
import ServerlessPatterns.ApprovalWorkflow.Settlement
import ServerlessPatterns.DeployAll.CommandLine
import ServerlessPatterns.DeployAll.Invocation
import ServerlessPatterns.FanOut.Topic
import ServerlessPatterns.IdempotentProcessor.ExactlyOnce
import ServerlessPatterns.Library.Footprints
import ServerlessPatterns.Library.Forms
import ServerlessPatterns.LongRunning.Endings
import ServerlessPatterns.RetryBackoff.Queue
import ServerlessPatterns.Saga.Independence
import ServerlessPatterns.WebhookIngest.Edge
import ServerlessPatterns.Library.Occurrences
import ServerlessPatterns.Library.Deliveries
import ServerlessPatterns.WebhookIngest.Queue
import ServerlessPatterns.Library.Products
import ServerlessPatterns.Library.Callers
import ServerlessPatterns.Library.Markup
import ServerlessPatterns.ApprovalWorkflow.Pages
import ServerlessPatterns.LongRunning.Independence

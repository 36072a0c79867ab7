import ObjectTransfer.ByteUnit
import ObjectTransfer.Config
import ObjectTransfer.Connection
import ObjectTransfer.Crew.Run
import ObjectTransfer.Crew.Step
import ObjectTransfer.Digest.Md5
import ObjectTransfer.Download.Concurrent
import ObjectTransfer.Download.Part
import ObjectTransfer.Download.RangeSource
import ObjectTransfer.Download.Resumed
import ObjectTransfer.Download.Sequencer
import ObjectTransfer.Error
import ObjectTransfer.Files.Content
import ObjectTransfer.Files.Fault
import ObjectTransfer.Files.Path
import ObjectTransfer.Files.Store
import ObjectTransfer.Http.Body
import ObjectTransfer.Http.ByteRange
import ObjectTransfer.Http.Headers
import ObjectTransfer.Http.Message
import ObjectTransfer.Http.Range
import ObjectTransfer.Http.Status
import ObjectTransfer.Keyed
import ObjectTransfer.Metrics
import ObjectTransfer.ObjectKey
import ObjectTransfer.Progress
import ObjectTransfer.Proofs.Config
import ObjectTransfer.Proofs.Connection
import ObjectTransfer.Proofs.Counters
import ObjectTransfer.Proofs.Crew.Budget
import ObjectTransfer.Proofs.Crew.Ending
import ObjectTransfer.Proofs.Crew.Holdings
import ObjectTransfer.Proofs.Crew.Interference
import ObjectTransfer.Proofs.Crew.Keeping
import ObjectTransfer.Proofs.Crew.Likeness
import ObjectTransfer.Proofs.Crew.Liveness
import ObjectTransfer.Proofs.Crew.Places
import ObjectTransfer.Proofs.Crew.Protocol
import ObjectTransfer.Proofs.Crew.Steps
import ObjectTransfer.Proofs.Crew.Strokes
import ObjectTransfer.Proofs.Download.Assembly
import ObjectTransfer.Proofs.Download.Budget
import ObjectTransfer.Proofs.Download.Copies
import ObjectTransfer.Proofs.Download.Course
import ObjectTransfer.Proofs.Download.Delivery
import ObjectTransfer.Proofs.Download.Ending
import ObjectTransfer.Proofs.Download.Fetches
import ObjectTransfer.Proofs.Download.Keeping
import ObjectTransfer.Proofs.Download.Moments
import ObjectTransfer.Proofs.Download.Offers
import ObjectTransfer.Proofs.Download.Ordering
import ObjectTransfer.Proofs.Download.Parts
import ObjectTransfer.Proofs.Download.Reports
import ObjectTransfer.Proofs.Download.Sequencer
import ObjectTransfer.Proofs.Download.Tries
import ObjectTransfer.Proofs.Download.Unwatched
import ObjectTransfer.Proofs.Files.Beside
import ObjectTransfer.Proofs.Files.Content
import ObjectTransfer.Proofs.Files.Destination
import ObjectTransfer.Proofs.Files.Staging
import ObjectTransfer.Proofs.Files.Store
import ObjectTransfer.Proofs.Files.Tidy
import ObjectTransfer.Proofs.Http.Body
import ObjectTransfer.Proofs.Http.Grammar
import ObjectTransfer.Proofs.Http.Range
import ObjectTransfer.Proofs.Http.Selection
import ObjectTransfer.Proofs.ObjectKey
import ObjectTransfer.Proofs.Limits
import ObjectTransfer.Proofs.Observed
import ObjectTransfer.Proofs.Progress
import ObjectTransfer.Proofs.Progress.Intervals
import ObjectTransfer.Proofs.Rehearsal.Cutting
import ObjectTransfer.Proofs.Rehearsal.Delivery
import ObjectTransfer.Proofs.Rehearsal.Held
import ObjectTransfer.Proofs.Rehearsal.Honest
import ObjectTransfer.Proofs.Rehearsal.MemoryObject
import ObjectTransfer.Proofs.Rehearsal.Naming
import ObjectTransfer.Proofs.Rehearsal.Served
import ObjectTransfer.Proofs.Rehearsal.Server
import ObjectTransfer.Proofs.Rehearsal.Storing
import ObjectTransfer.Proofs.Resumed.Attempts
import ObjectTransfer.Proofs.Resumed.Bounds
import ObjectTransfer.Proofs.Resumed.Course
import ObjectTransfer.Proofs.Resumed.Delivery
import ObjectTransfer.Proofs.Resumed.Endings
import ObjectTransfer.Proofs.Resumed.Likeness
import ObjectTransfer.Proofs.Resumed.Moments
import ObjectTransfer.Proofs.Resumed.Offers
import ObjectTransfer.Proofs.Resumed.Reports
import ObjectTransfer.Proofs.Resumed.Unwatched
import ObjectTransfer.Proofs.Resumed.Versions
import ObjectTransfer.Proofs.Retry
import ObjectTransfer.Proofs.Retry.Bounds
import ObjectTransfer.Proofs.Retry.Budget
import ObjectTransfer.Proofs.Retry.Likeness
import ObjectTransfer.Proofs.Retry.Stopping
import ObjectTransfer.Proofs.Retry.Stuck
import ObjectTransfer.Proofs.S3.Budget
import ObjectTransfer.Proofs.S3.Calls
import ObjectTransfer.Proofs.S3.Completion
import ObjectTransfer.Proofs.S3.Course
import ObjectTransfer.Proofs.S3.Delivery
import ObjectTransfer.Proofs.S3.Keeping
import ObjectTransfer.Proofs.S3.Listing
import ObjectTransfer.Proofs.S3.Moments
import ObjectTransfer.Proofs.S3.Parts
import ObjectTransfer.Proofs.S3.Reports
import ObjectTransfer.Proofs.Source
import ObjectTransfer.Proofs.Source.Changes
import ObjectTransfer.Proofs.Source.Stream
import ObjectTransfer.Proofs.Splitting
import ObjectTransfer.Proofs.Text
import ObjectTransfer.Proofs.Text.Numeral
import ObjectTransfer.Proofs.Text.Percent
import ObjectTransfer.Proofs.Text.Pieces
import ObjectTransfer.Proofs.TrackerFile
import ObjectTransfer.Proofs.Unobserved
import ObjectTransfer.Proofs.Upload.Bounds
import ObjectTransfer.Proofs.Upload.Buffers
import ObjectTransfer.Proofs.Upload.Changes
import ObjectTransfer.Proofs.Upload.Counted
import ObjectTransfer.Proofs.Upload.Course
import ObjectTransfer.Proofs.Upload.Deletions
import ObjectTransfer.Proofs.Upload.Delivery
import ObjectTransfer.Proofs.Upload.Exchange
import ObjectTransfer.Proofs.Upload.Integrity
import ObjectTransfer.Proofs.Upload.Kept
import ObjectTransfer.Proofs.Upload.Ledger
import ObjectTransfer.Proofs.Upload.Ownership
import ObjectTransfer.Proofs.Upload.Persistence
import ObjectTransfer.Proofs.Upload.Repeats
import ObjectTransfer.Proofs.Upload.Send
import ObjectTransfer.Proofs.Upload.SessionUri
import ObjectTransfer.Proofs.Upload.Stuck
import ObjectTransfer.Proofs.Upload.Through
import ObjectTransfer.Proofs.Upload.Tracking
import ObjectTransfer.Proofs.Upload.Unobserved
import ObjectTransfer.Proofs.Upload.Verification
import ObjectTransfer.Proofs.Upload.Wire
import ObjectTransfer.Proofs.Uri
import ObjectTransfer.Proofs.Word
import ObjectTransfer.Rehearsal.MemoryObject
import ObjectTransfer.Rehearsal.S3Script
import ObjectTransfer.Rehearsal.Script
import ObjectTransfer.Rehearsal.Server
import ObjectTransfer.Rehearsal.Session
import ObjectTransfer.Retry
import ObjectTransfer.S3.Arn
import ObjectTransfer.S3.Concurrent
import ObjectTransfer.S3.FilePart
import ObjectTransfer.S3.Multipart
import ObjectTransfer.S3.Object
import ObjectTransfer.S3.Service
import ObjectTransfer.Source.Body
import ObjectTransfer.Source.Input
import ObjectTransfer.Text.Blank
import ObjectTransfer.Text.Decimal
import ObjectTransfer.Text.Glyphless
import ObjectTransfer.Text.Hex
import ObjectTransfer.Text.Percent
import ObjectTransfer.Text.Pieces
import ObjectTransfer.Text.Quoted
import ObjectTransfer.Text.Unsigned
import ObjectTransfer.Text.Xml
import ObjectTransfer.TrackerFile
import ObjectTransfer.Upload.Attempt
import ObjectTransfer.Upload.Exchange
import ObjectTransfer.Upload.Handler
import ObjectTransfer.Upload.SessionUri
import ObjectTransfer.Uri
import ObjectTransfer.Url
import ObjectTransfer.Url.Host
import ObjectTransfer.Url.Path
import ObjectTransfer.World

import RestClient.Operation
import RestClient.Users
import RestClient.Proofs.World
import RestClient.Proofs.Moves
import RestClient.Proofs.Retrying
import RestClient.Proofs.DecidingAttempt
import RestClient.Sample
import RestClient.Proofs.Creation
import RestClient.Proofs.UnderWay
import RestClient.Proofs.Collecting
import RestClient.Proofs.Cancellation
import RestClient.Proofs.Deadline
import RestClient.Proofs.Intake
import RestClient.Proofs.Streaming
import RestClient.Proofs.Serving
import RestClient.Proofs.PageSize
import RestClient.Proofs.Transient
import RestClient.Proofs.HinderedListing
import RestClient.Proofs.Coding
import RestClient.Proofs.Templates
import RestClient.Proofs.Segments
import RestClient.Proofs.Rejections
import RestClient.Proofs.Sending
import RestClient.Proofs.Joining
import RestClient.Proofs.Destinations
import RestClient.Proofs.Bounds
import RestClient.Proofs.Supplying
import RestClient.Proofs.Walked
import RestClient.Proofs.Laziness
import RestClient.Retry.Steps
import RestClient.Proofs.RetryBudget
import RestClient.Proofs.Advice
import RestClient.Proofs.SinglePages
import RestClient.Proofs.LateReplies
import RestClient.Proofs.Timeouts
import RestClient.Proofs.Refusals
import RestClient.Proofs.FaultyArguments
import RestClient.Proofs.Settings
import RestClient.Proofs.Layers
import RestClient.Proofs.Lockstep
import RestClient.Proofs.Programs
import RestClient.Proofs.Secrecy
import RestClient.Proofs.Grammar
import RestClient.Proofs.Skipping
import RestClient.Proofs.Settling
import RestClient.Proofs.Reading
import RestClient.Proofs.Records
import RestClient.Proofs.Values
import RestClient.Proofs.Extending
import RestClient.Proofs.ReadingBack
import RestClient.Proofs.PartialUpdates
import RestClient.Proofs.Doubling
import RestClient.Proofs.SuccessBodies
import RestClient.Proofs.LastReplies
import RestClient.Proofs.Skipped
import RestClient.Proofs.Deletions
import RestClient.Proofs.Turns
import RestClient.Proofs.Diagram
import RestClient.Proofs.Bookkeeping
import RestClient.Proofs.Rendering
import RestClient.Proofs.Queries
import RestClient.Proofs.WholeNumbers
import RestClient.Proofs.WireRecords
import RestClient.Proofs.Reasons
import RestClient.Cancel.Steps
import RestClient.Proofs.Families
import RestClient.Proofs.Trees
import RestClient.Proofs.FieldTexts
import RestClient.Proofs.LastWrites
import RestClient.Proofs.PageRequests
import RestClient.Proofs.Filters
import RestClient.Proofs.Limits
import RestClient.Proofs.Parameters
import RestClient.Proofs.LentQueries
import RestClient.Proofs.PageQueries

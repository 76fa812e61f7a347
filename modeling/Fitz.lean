import Fitz.Lib.BigEndian
import Fitz.Lib.Framing
import Fitz.Lib.Machine
import Fitz.Lib.Tables
import Fitz.Lib.Census
import Fitz.Model.Acquire
import Fitz.Model.Client
import Fitz.Model.Codec
import Fitz.Model.Connection
import Fitz.Model.Error
import Fitz.Model.Handle
import Fitz.Model.Handshake
import Fitz.Model.Loop
import Fitz.Model.Managed
import Fitz.Model.Observer
import Fitz.Model.Reader
import Fitz.Model.Routes
import Fitz.Model.Session
import Fitz.Model.Subscription
import Fitz.Model.Supervisor
import Fitz.Model.Worker
import Fitz.Model.Domains
import Fitz.Proof.Asked
import Fitz.Proof.Budget
import Fitz.Proof.Callers
import Fitz.Proof.Cancellation
import Fitz.Proof.Capabilities
import Fitz.Proof.Closed
import Fitz.Proof.Correlation
import Fitz.Proof.Disabled
import Fitz.Proof.Envelope
import Fitz.Proof.Fencing
import Fitz.Proof.Fields
import Fitz.Proof.FrameSizes
import Fitz.Proof.Frames
import Fitz.Proof.Grants
import Fitz.Proof.Handshake
import Fitz.Proof.History
import Fitz.Proof.Invalidations
import Fitz.Proof.Lifecycle
import Fitz.Proof.Limits
import Fitz.Proof.Managed
import Fitz.Proof.Moves
import Fitz.Proof.Negotiation
import Fitz.Proof.Notifications
import Fitz.Proof.Outcomes
import Fitz.Proof.Reader
import Fitz.Proof.Registrations
import Fitz.Proof.Registry
import Fitz.Proof.Restore
import Fitz.Proof.RoundTrip
import Fitz.Proof.Sessions
import Fitz.Proof.Stretches
import Fitz.Proof.Transports
import Fitz.Proof.Turns
import Fitz.Proof.Wiring
import Fitz.Proof.DomainMoves
import Fitz.Proof.Ledger
import Fitz.Proof.References
import Fitz.Proof.Orphans
import Fitz.Proof.Exclusive
import Fitz.Proof.WorkerMoves
import Fitz.Proof.WorkerRequests
import Fitz.Proof.WorkerFrames
import Fitz.Proof.WorkerCancels
import Fitz.Proof.Coherence
import Fitz.Proof.Matching
import Fitz.Proof.Backoff
import Fitz.Proof.Heartbeat
import Fitz.Proof.Renewal
import Fitz.Proof.Responding
import Fitz.Proof.Polling
import Fitz.Proof.WorkerGenerations
import Fitz.Proof.Enqueue
import Fitz.Proof.Reservation
import Fitz.Proof.ResponseStream
import Fitz.Model.StreamRead
import Fitz.Model.Pages
import Fitz.Proof.Formats
import Fitz.Proof.FieldCodec
import Fitz.Proof.Filters
import Fitz.Lib.Utf8
import Fitz.Proof.RouteText
import Fitz.Proof.Patterns
import Fitz.Proof.Selectors
import Fitz.Proof.StreamPages
import Fitz.Proof.Pages
import Fitz.Proof.Capacities
import Fitz.Proof.Selection
import Fitz.Proof.Tombstones
import Fitz.Model.Usize
import Fitz.Proof.Usize
import Fitz.Lib.Outputs
import Fitz.Proof.Passages
import Fitz.Proof.Conservation
import Fitz.Proof.Survival
import Fitz.Lib.Format
import Fitz.Model.Requests
import Fitz.Model.Feeds
import Fitz.Proof.UnderWay
import Fitz.Proof.HandleMoves
import Fitz.Proof.Feeds
import Fitz.Proof.Requests
import Fitz.Model.Responses
import Fitz.Proof.Responses
import Fitz.Lib.Doubling
import Fitz.Model.Retrying
import Fitz.Proof.Retrying
import Fitz.Proof.Calls
import Fitz.Proof.Replies
import Fitz.Model.LeaseClock
import Fitz.Proof.LeaseClock
import Fitz.Proof.Publications
import Fitz.Proof.Deliveries
import Fitz.Proof.Connects
import Fitz.Proof.Verdicts
import Fitz.Model.HeartbeatClock
import Fitz.Model.Link
import Fitz.Proof.Link
import Fitz.Proof.SessionIo
import Fitz.Proof.HeartbeatClock

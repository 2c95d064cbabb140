import Http2.Pool.Loopback
import Http2.Proofs.Checked.Connection
import Http2.Proofs.Checked.Editing
import Http2.Proofs.Codec.Buffering
import Http2.Proofs.Codec.Delivery
import Http2.Proofs.Codec.Draining
import Http2.Proofs.Codec.Echoing
import Http2.Proofs.Codec.Eviction
import Http2.Proofs.Codec.Faults
import Http2.Proofs.Codec.Independence
import Http2.Proofs.Codec.Interruption
import Http2.Proofs.Codec.Limit
import Http2.Proofs.Codec.Ordering
import Http2.Proofs.Codec.Oversize
import Http2.Proofs.Codec.Registration
import Http2.Proofs.Connection.Requesting
import Http2.Proofs.Connection.Uploading
import Http2.Proofs.Duplex.Agreement
import Http2.Proofs.Engine.Conservation
import Http2.Proofs.Engine.Placement
import Http2.Proofs.Engine.Routing
import Http2.Proofs.Engine.Turn
import Http2.Proofs.Frame.Parsing
import Http2.Proofs.Frame.RoundTrip
import Http2.Proofs.Worker.Backpressure
import Http2.Proofs.Worker.Converging
import Http2.Proofs.Worker.Isolation
import Http2.Proofs.Worker.Stalling

import Rejoin.Decision.Handles
import Rejoin.Json.Forms
import Rejoin.Json.Reader
import Rejoin.Json.Writer
import Rejoin.Rehearsal.Pipeline
import Rejoin.Rehearsal.Sampling
import Rejoin.Rehearsal.Session
import Rejoin.Proofs.Decision.Acceptance
import Rejoin.Proofs.Decision.Families
import Rejoin.Proofs.Delay.Ceiling
import Rejoin.Proofs.Delay.Floor
import Rejoin.Proofs.Delay.Growth
import Rejoin.Proofs.Delay.Overflow
import Rejoin.Proofs.Delay.Reach
import Rejoin.Proofs.Delay.Share
import Rejoin.Proofs.Delay.Spread
import Rejoin.Proofs.Json.Documents
import Rejoin.Proofs.Number.Rounding
import Rejoin.Proofs.Record.Counts
import Rejoin.Proofs.Task.Cancellation
import Rejoin.Proofs.Task.Chains
import Rejoin.Proofs.Task.Delivery
import Rejoin.Proofs.Task.Mirror
import Rejoin.Proofs.Task.Outlay
import Rejoin.Proofs.Task.Parking
import Rejoin.Proofs.Task.Reporting
import Rejoin.Proofs.Task.Spending
import Rejoin.Proofs.Session.Apart
import Rejoin.Proofs.Session.Asking
import Rejoin.Proofs.Session.Beginnings
import Rejoin.Proofs.Session.Budget
import Rejoin.Proofs.Session.Closing
import Rejoin.Proofs.Session.Course
import Rejoin.Proofs.Session.Handshakes
import Rejoin.Proofs.Session.Layers
import Rejoin.Proofs.Session.Provenance
import Rejoin.Proofs.Session.Tallies

import BtTracker.Foundation.ByteOrder
import BtTracker.Foundation.Memory
import BtTracker.Foundation.Program
import BtTracker.Foundation.Extent
import BtTracker.Foundation.Unwinding
import BtTracker.Foundation.Environment
import BtTracker.Foundation.Resource
import BtTracker.Foundation.Exchange
import BtTracker.Foundation.Interleaving
import BtTracker.Foundation.Decimal
import BtTracker.Foundation.Glob
import BtTracker.Redis.Store
import BtTracker.Redis.Command
import BtTracker.Model.Types
import BtTracker.Model.Conf
import BtTracker.Model.Net
import BtTracker.Model.Worker
import BtTracker.Model.Random
import BtTracker.Model.Data
import BtTracker.Model.Handlers
import BtTracker.Model.Processor
import BtTracker.Semantics.World
import BtTracker.Semantics.Run
import BtTracker.Semantics.Pool
import BtTracker.Semantics.Startup
import BtTracker.Semantics.Contexts
import BtTracker.Correctness.Wire
import BtTracker.Correctness.Keys
import BtTracker.Correctness.Request
import BtTracker.Correctness.Calls
import BtTracker.Correctness.Jobs
import BtTracker.Correctness.Observers
import BtTracker.Correctness.Serve
import BtTracker.Correctness.Screening
import BtTracker.Correctness.Update
import BtTracker.Correctness.Reach
import BtTracker.Correctness.Reads
import BtTracker.Correctness.Swarm
import BtTracker.Correctness.Answer
import BtTracker.Correctness.PeerLists
import BtTracker.Correctness.Records
import BtTracker.Correctness.Duties
import BtTracker.Correctness.Scrapes
import BtTracker.Correctness.Effort
import BtTracker.Correctness.Verdicts
import BtTracker.Correctness.Focus
import BtTracker.Correctness.Conduct
import BtTracker.Correctness.Threads
import BtTracker.Specification.Tracker
import BtTracker.Correctness.Keyspace
import BtTracker.Foundation.Reader
import BtTracker.Properties.Responses
import BtTracker.Properties.Requests
import BtTracker.Properties.Echo
import BtTracker.Properties.Restriction
import BtTracker.Properties.Ownership
import BtTracker.Properties.Databases
import BtTracker.Properties.Independence
import BtTracker.Properties.Vanishing
import BtTracker.Properties.Selection
import BtTracker.Properties.Retransmission
import BtTracker.Properties.Errors
import BtTracker.Properties.Frame
import BtTracker.Properties.Connections
import BtTracker.Properties.Replies
import BtTracker.Properties.Downloads
import BtTracker.Properties.Leftovers
import BtTracker.Properties.Renewal
import BtTracker.Properties.Departure
import BtTracker.Properties.Roles
import BtTracker.Properties.Addresses
import BtTracker.Properties.Shuffle
import BtTracker.Properties.Hexadecimal
import BtTracker.Properties.Releases
import BtTracker.Properties.Statistics
import BtTracker.Properties.Counting
import BtTracker.Properties.Scrapes
import BtTracker.Properties.Conversions
import BtTracker.Properties.Delivery
import BtTracker.Properties.Progress
import BtTracker.Properties.Linearization
import BtTracker.Properties.Retention
import BtTracker.Properties.Shutdown
import BtTracker.Properties.Survival
import BtTracker.Properties.Discovery
import BtTracker.Properties.Configuration
import BtTracker.Properties.Noninterference
import BtTracker.Properties.Testimony
import BtTracker.Properties.Provenance
import BtTracker.Properties.Censuses
import BtTracker.Properties.Revocation

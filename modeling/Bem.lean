import Bem.Lib.Locking
import Bem.Lib.Waking
import Bem.Lib.Simulation
import Bem.Lib.Tape
import Bem.Lib.Guarded
import Bem.Lib.ShellWords
import Bem.Lib.Channel
import Bem.Lib.Ranking
import Bem.Common.RoundTrip
import Bem.Common.Delivery
import Bem.Common.Robust
import Bem.Common.Fragments
import Bem.Common.Arrivals
import Bem.Common.Verifying
import Bem.Common.Documents
import Bem.Common.Bson
import Bem.Common.Boundaries
import Bem.Common.Writing
import Bem.Common.Reads
import Bem.Common.Wires
import Bem.Common.Writes
import Bem.Common.Appending
import Bem.Common.Amplification
import Bem.Coordinator.Attended
import Bem.Coordinator.Booking
import Bem.Coordinator.Cancelled
import Bem.Coordinator.Dispatch
import Bem.Coordinator.Fitness
import Bem.Coordinator.Survival
import Bem.Coordinator.Strangers
import Bem.Coordinator.Remembered
import Bem.Coordinator.Posting
import Bem.Coordinator.Handshake
import Bem.Coordinator.Rejected
import Bem.Coordinator.Failover
import Bem.Coordinator.LongRuns
import Bem.Coordinator.Totals
import Bem.Coordinator.Tallies
import Bem.Coordinator.Splitting
import Bem.Coordinator.Balancing
import Bem.Coordinator.Withdrawing
import Bem.Coordinator.Reordering
import Bem.Coordinator.Locks
import Bem.Coordinator.Fleet
import Bem.Coordinator.Refusals
import Bem.Coordinator.WriteNode
import Bem.Coordinator.Pings
import Bem.Coordinator.Console
import Bem.Coordinator.Percentages
import Bem.Coordinator.Listing
import Bem.Coordinator.Calm
import Bem.Coordinator.Lasting
import Bem.Coordinator.Dealing
import Bem.Coordinator.Faults
import Bem.Coordinator.Courtesy
import Bem.Node.Cancelling
import Bem.Node.Answers
import Bem.Node.Startup
import Bem.Node.Quitting
import Bem.Node.Config
import Bem.Node.Launching
import Bem.Node.Communication
import Bem.Node.LaunchLine
import Bem.Node.Sessions
import Bem.Node.Answering
import Bem.Node.Replies
import Bem.Node.Diligence
import Bem.Node.Effort
import Bem.Node.Shutdown
import Bem.Network.System
import Bem.Network.Custody
import Bem.Network.Provenance
import Bem.Network.Survival
import Bem.Network.Conversation
import Bem.Network.Programs
import Bem.Network.Totals
import Bem.Network.Pings
import Bem.Network.Working
import Bem.Network.Completion
import Bem.Network.Effort
import Bem.Network.Acquaintance
import Bem.Network.Wired
import Bem.Network.Readers
import Bem.Network.Carrying
import Bem.Network.Faults
import Bem.Network.Bytes

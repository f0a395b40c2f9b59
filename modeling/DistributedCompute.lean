import DistributedCompute.Dict
import DistributedCompute.Transition
import DistributedCompute.Values
import DistributedCompute.Protocol
import DistributedCompute.WorkerManager
import DistributedCompute.RpcHandler
import DistributedCompute.Scheduler
import DistributedCompute.Master
import DistributedCompute.Moves
import DistributedCompute.Invariants
import DistributedCompute.Lease
import DistributedCompute.Leases
import DistributedCompute.Outcomes
import DistributedCompute.Effects
import DistributedCompute.Exclusivity
import DistributedCompute.Succession
import DistributedCompute.Connections
import DistributedCompute.LiveWorkers
import DistributedCompute.Condemnation
import DistributedCompute.ScopedDrain
import DistributedCompute.Executor
import DistributedCompute.Grouping
import DistributedCompute.Jobs
import DistributedCompute.MapReduce
import DistributedCompute.TaskRecords
import DistributedCompute.Service
import DistributedCompute.Replies
import DistributedCompute.Footprint
import DistributedCompute.Draining
import DistributedCompute.Futures
import DistributedCompute.WaitForTasks
import DistributedCompute.Lifecycle
import DistributedCompute.Winding
import DistributedCompute.Shutdown
import DistributedCompute.AsyncWorker
import DistributedCompute.Json
import DistributedCompute.Wire
import DistributedCompute.ByteStream
import DistributedCompute.Framing
import DistributedCompute.Semaphore
import DistributedCompute.WorkerLink
import DistributedCompute.Backend
import DistributedCompute.InFlight
import DistributedCompute.JobResults
import DistributedCompute.TaskIds
import DistributedCompute.Assignment
import DistributedCompute.Shuffle
import DistributedCompute.JobSubmission
import DistributedCompute.Metrics
import DistributedCompute.Cleanup
import DistributedCompute.RunWorker
import DistributedCompute.Cluster
import DistributedCompute.Handshake
import DistributedCompute.ClusterRuns
import DistributedCompute.ClusterAnswers
import DistributedCompute.Callers
import DistributedCompute.Engine
import DistributedCompute.EngineRuns
import DistributedCompute.EngineJobs
import DistributedCompute.Calls
import DistributedCompute.ThreadedMaster
import DistributedCompute.ThreadFence
import DistributedCompute.ThreadedRuns
import DistributedCompute.ThreadedDiscipline
import DistributedCompute.Conversations
import DistributedCompute.ThreadedAnswers
import DistributedCompute.ThreadedOutcomes
import DistributedCompute.CodedResults

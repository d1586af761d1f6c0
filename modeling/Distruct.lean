import Distruct.Cluster.Deadlines
import Distruct.Cluster.FailedJoin
import Distruct.Cluster.Joining
import Distruct.Cluster.QuorumCheck
import Distruct.Cluster.Replicas
import Distruct.Cluster.Roster
import Distruct.Cluster.SnapshotIds
import Distruct.Cluster.StopPaths
import Distruct.Cluster.WatchMembership
import Distruct.Collections.Borrow
import Distruct.Collections.Healing
import Distruct.Collections.SerializationErrors
import Distruct.Collections.Requests
import Distruct.Connection.MessageSize
import Distruct.Connection.Redirect
import Distruct.Connection.RedirectChain
import Distruct.Connection.Responses
import Distruct.Connection.ServerNames
import Distruct.Framework.Tasks
import Distruct.Raft.LogRefinement
import Distruct.Raft.Membership
import Distruct.Raft.RemoteErrors
import Distruct.Raft.Replication
import Distruct.Raft.Snapshot
import Distruct.Raft.StoredSnapshots

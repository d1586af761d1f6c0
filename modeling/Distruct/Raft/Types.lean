import Distruct.Framework.HashMap
import Distruct.Framework.Postcard

/-! # Nodes, Log Entries and Raft Messages

    `raft/node.rs`, `raft/mod.rs`, and the types of openraft 0.9 that the
    program passes around: log ids, votes, memberships, log entries, RPCs and
    the errors of the Raft handle. Of the metrics only the fields that the
    program reads are kept.
-/

namespace Distruct

open Postcard (Bytes)

/-! ### Nodes -/

/-- A node id. The number stands for the 128-bit value of the ULID. -/
abbrev NodeId := Nat

/-- A socket address. Two IPv6 addresses that differ in the flow information or
    in the scope only are different addresses. -/
inductive SocketAddr where
  | V4 (ip : Vector UInt8 4) (port : UInt16)
  | V6 (ip : Vector UInt8 16) (port : UInt16) (flowinfo scope_id : UInt32)
  deriving DecidableEq

structure Node where
  addr : SocketAddr
  server_name : String
  deriving DecidableEq

/-- An address on the local machine. -/
def SocketAddr.localhost : SocketAddr := .V4 #v[127, 0, 0, 1] 35001

/-- The node at that address. -/
def Node.localhost : Node := ⟨.localhost, "localhost"⟩

/-- The node at another port of the local machine. -/
def Node.on_port (port : UInt16) : Node := ⟨.V4 #v[127, 0, 0, 1] port, "localhost"⟩

/-! ### Requests to the replicated state machine -/

inductive RaftRequest where
  | Insert (map : String) (key value : Bytes)
  | InsertMulti (multi_map : String) (key value : Bytes)
  | Clear (map : String)
  deriving DecidableEq

inductive RaftResponse where
  | Insert (value : Option Bytes)
  | InsertMulti (inserted : Bool)
  | Clear
  | Noop
  deriving DecidableEq

/-! ### Log ids, votes and memberships -/

structure LeaderId where
  term : Nat
  node_id : NodeId
  deriving DecidableEq

/-- How openraft displays a leader id. The number of the node stands for its text. -/
def LeaderId.display (l : LeaderId) : String :=
  "T" ++ toString l.term ++ "-N" ++ toString l.node_id

structure LogId where
  leader_id : LeaderId
  index : Nat
  deriving DecidableEq

structure Vote where
  leader_id : LeaderId
  committed : Bool
  deriving DecidableEq

/-- A membership: one voter configuration, or two while a change is under way,
    and the address book of all members. -/
structure Membership where
  configs : List (Finset NodeId)
  nodes : HashMap NodeId Node
  deriving DecidableEq

namespace Membership

/-- The members of any of the voter configurations. -/
def voter_ids (m : Membership) : Finset NodeId := m.configs.foldr (· ∪ ·) ∅

/-- The members that are in none of them. -/
def learner_ids (m : Membership) : Finset NodeId := m.nodes.keys \ m.voter_ids

def get_node (m : Membership) (id : NodeId) : Option Node := m.nodes.lookup id

end Membership

/-- The default membership: no configuration and no nodes. -/
instance : Inhabited Membership := ⟨⟨[], ∅⟩⟩

structure StoredMembership where
  log_id : Option LogId
  membership : Membership
  deriving DecidableEq

instance : Inhabited StoredMembership := ⟨⟨none, default⟩⟩

inductive EntryPayload where
  | Blank
  | Normal (req : RaftRequest)
  | Membership (mem : Membership)
  deriving DecidableEq

structure Entry where
  log_id : LogId
  payload : EntryPayload
  deriving DecidableEq

/-! ### RPCs -/

structure AppendEntriesRequest where
  vote : Vote
  prev_log_id : Option LogId
  entries : List Entry
  leader_commit : Option LogId
  deriving DecidableEq

inductive AppendEntriesResponse where
  | Success
  | PartialSuccess (matching : Option LogId)
  | Conflict
  | HigherVote (vote : Vote)
  deriving DecidableEq

structure VoteRequest where
  vote : Vote
  last_log_id : Option LogId
  deriving DecidableEq

structure VoteResponse where
  vote : Vote
  vote_granted : Bool
  last_log_id : Option LogId
  deriving DecidableEq

structure ClientWriteResponse where
  log_id : LogId
  data : RaftResponse
  membership : Option Membership
  deriving DecidableEq

/-- A change of the membership. -/
inductive ChangeMembers where
  | AddVoterIds (ids : Finset NodeId)
  | AddVoters (nodes : HashMap NodeId Node)
  | RemoveVoters (ids : Finset NodeId)
  | ReplaceAllVoters (ids : Finset NodeId)
  | AddNodes (nodes : HashMap NodeId Node)
  | SetNodes (nodes : HashMap NodeId Node)
  | RemoveNodes (ids : Finset NodeId)
  | ReplaceAllNodes (nodes : HashMap NodeId Node)
  deriving DecidableEq

/-! ### Metrics -/

inductive ServerState where
  | Learner
  | Follower
  | Candidate
  | Leader
  | Shutdown
  deriving DecidableEq

def ServerState.is_leader (s : ServerState) : Bool := s == .Leader

def ServerState.is_learner (s : ServerState) : Bool := s == .Learner

/-- What `raft.server_metrics()` shows. -/
structure RaftServerMetrics where
  id : NodeId
  state : ServerState
  deriving DecidableEq

/-- What `raft.metrics()` shows. -/
structure RaftMetrics where
  id : NodeId
  state : ServerState
  current_leader : Option NodeId
  membership_config : StoredMembership
  deriving DecidableEq

/-! ### Errors of the Raft handle -/

/-- Errors of the storage; the reason is a text. -/
structure StorageError where
  reason : String
  deriving DecidableEq

inductive Fatal where
  | StorageError (e : StorageError)
  | Panicked
  | Stopped
  deriving DecidableEq

/-- An error of a call into Raft: one of the call's own errors `E`, or fatal. -/
inductive RaftError (E : Type) where
  | APIError (e : E)
  | Fatal (f : Fatal)
  deriving DecidableEq

structure ForwardToLeader where
  leader_id : Option NodeId
  leader_node : Option Node
  deriving DecidableEq

inductive ChangeMembershipError where
  | InProgress (committed membership_log_id : Option LogId)
  | EmptyMembership
  | LearnerNotFound (node_id : NodeId)
  deriving DecidableEq

inductive ClientWriteError where
  | ForwardToLeader (f : ForwardToLeader)
  | ChangeMembershipError (e : ChangeMembershipError)
  deriving DecidableEq

inductive CheckIsLeaderError where
  | ForwardToLeader (f : ForwardToLeader)
  | QuorumNotEnough (cluster : String) (got : Finset NodeId)
  deriving DecidableEq

/-- `RaftError::forward_to_leader` for the errors of a write. -/
def RaftError.forward_to_leader : RaftError ClientWriteError → Option ForwardToLeader
  | .APIError (.ForwardToLeader f) => some f
  | _ => none

end Distruct

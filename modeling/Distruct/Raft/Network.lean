import Distruct.Connection.Server
import Distruct.Raft.State

/-! # The Network of Raft

    `raft/network.rs`: how the Raft instance of a node sends its RPCs. A
    `Network` leads from the node `owner` to one other node.
-/

namespace Distruct

open Postcard (Bytes)

/-! ### RPCs -/

structure InstallSnapshotRequest where
  vote : Vote
  snapshot_meta : SnapshotMeta
  offset : Nat
  data : Bytes
  done : Bool
  deriving DecidableEq

structure InstallSnapshotResponse where
  vote : Vote
  deriving DecidableEq

/-- A segment of a snapshot arrived out of order. -/
structure InstallSnapshotError where
  expect_offset : Nat
  got_offset : Nat
  deriving DecidableEq

/-- Why a node counts as unreachable. -/
inductive Unreachable where
  | Error (e : Error)
  | Elapsed
  deriving DecidableEq

inductive RPCError (E : Type) where
  | Unreachable (u : Unreachable)
  | Network (e : TransportError)
  | RemoteError (target : NodeId) (target_node : Node) (source : RaftError E)
  deriving DecidableEq

structure Network where
  owner : NodeId
  node_id : NodeId
  node : Node
  deriving DecidableEq

/-- `tokio::time::timeout`: the operation is dropped once the time is over,
    between two calls or while it waits for one that has taken effect. -/
def timeout {α : Type} (i : NodeId) : NodeProg α → NodeProg (Option α)
  | .pure a => return some a
  | .call o k => do
    if ← ask (.elapsed i) then
      return none
    let r ← ask o
    if ← ask (.elapsed i) then
      return none
    timeout i (k r)

namespace Network

/-- How the errors of a client are reported to Raft. -/
def rpc_error (net : Network) : Error → RPCError Empty
  | .Transport transport_error => .Network transport_error
  | .Raft raft_error => .RemoteError net.node_id net.node raft_error
  | e => .Unreachable (.Error e)

def perform_raft_action {R : Type} (net : Network) (operation : Client → NodeResult Error R) :
    NodeResult (RPCError Empty) R := do
  let client ← ExceptT.mk (Except.mapError (fun e => RPCError.Unreachable (.Error e)) <$>
    (Client.new net.owner net.node (some net.node_id)).run)
  match ← timeout net.owner (operation client).run with
  | none =>
    ask (.force_remove net.owner net.node.addr)
    throw (.Unreachable .Elapsed)
  | some (.ok result) =>
    ask (.on_heartbeat net.owner net.node_id)
    return result
  | some (.error e) => throw (net.rpc_error e)

def append_entries (fuel : Nat) (net : Network) (rpc : AppendEntriesRequest) :
    NodeResult (RPCError Empty) AppendEntriesResponse :=
  net.perform_raft_action fun client => client.append_entries fuel rpc

def vote (fuel : Nat) (net : Network) (rpc : VoteRequest) :
    NodeResult (RPCError Empty) VoteResponse :=
  net.perform_raft_action fun client => client.vote fuel rpc

/-- `todo!()` -/
def install_snapshot (_net : Network) (_rpc : InstallSnapshotRequest) :
    NodeResult (RPCError InstallSnapshotError) InstallSnapshotResponse := do
  let never ← (ask (.panic "not yet implemented") : NodeProg Empty)
  nomatch never

end Network

end Distruct

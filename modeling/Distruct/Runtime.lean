import Distruct.Connection.Message
import Distruct.Framework.Prog

/-! # What the Code Calls

    The program's functions are interaction programs over the calls below: into
    the Raft handle of a node, into its state machine, its connection cache and
    its heartbeat monitor, and over a QUIC connection. Every call names the node whose code
    makes it.

    Two asynchronous calls into Raft matter by their beginning as well as by
    their end and are split accordingly: a write is submitted and then waited
    for, a linearizable read takes a ticket and then waits. Everything that the
    rest of the cluster does in between happens between the two.
-/

namespace Distruct

open Postcard (Bytes)

/-- An established connection, identified by the node that accepted it. -/
structure Connection where
  peer : NodeId
  deriving DecidableEq

/-- What a linearizable read has to wait for: the length of the committed log
    when it began. -/
structure ReadTicket where
  commit_index : Nat
  deriving DecidableEq

inductive Op where
  /-- `raft.server_metrics().borrow()` -/
  | server_metrics (i : NodeId)
  /-- `raft.metrics().borrow()` -/
  | metrics (i : NodeId)
  /-- `raft.current_leader()` -/
  | current_leader (i : NodeId)
  | add_learner (i : NodeId) (id : NodeId) (node : Node) (blocking : Bool)
  | change_membership (i : NodeId) (members : ChangeMembers) (retain : Bool)
  | append_entries (i : NodeId) (rpc : AppendEntriesRequest)
  | vote (i : NodeId) (rpc : VoteRequest)
  /-- Beginning and end of `raft.client_write(req)` -/
  | submit_write (i : NodeId) (req : RaftRequest)
  | await_write (i : NodeId) (req : RaftRequest)
  /-- Beginning and end of `raft.ensure_linearizable()` -/
  | begin_read (i : NodeId)
  | await_read (i : NodeId) (ticket : ReadTicket)
  /-- The functions of `StateMachine` -/
  | contains_key (i : NodeId) (map : String) (key : Bytes)
  | get_with_lock (i : NodeId) (map : String) (key : Bytes)
  | get_with_lock_multi (i : NodeId) (multi_map : String) (key : Bytes)
  | remove (i : NodeId) (map : String) (key : Bytes)
  | remove_multi_value (i : NodeId) (multi_map : String) (key value : Bytes)
  | map_len (i : NodeId) (map : String)
  /-- `connection_cache.connect(node)` -/
  | connect (i : NodeId) (node : Node)
  /-- `connection_cache.force_remove(addr)` -/
  | force_remove (i : NodeId) (addr : SocketAddr)
  /-- `heartbeat_monitor.on_heartbeat(id)` -/
  | on_heartbeat (i : NodeId) (id : NodeId)
  /-- Whether the time given to an operation is over -/
  | elapsed (i : NodeId)
  /-- `raft.shutdown()` -/
  | shutdown (i : NodeId)
  /-- `shutdown_broadcast_tx.send(())` -/
  | broadcast_shutdown (i : NodeId)
  /-- One request and its response on a new stream of a connection -/
  | exchange (i : NodeId) (conn : Connection) (msg : Request)
  /-- Bytes travel one way over a connection -/
  | transmit (i : NodeId) (conn : Connection)
  /-- The calling task panics -/
  | panic (reason : String)
  /-- A loop is followed no further -/
  | out_of_fuel

/-- The answers. A hash set comes back as the list of its elements in
    iteration order. Nothing comes back from a panic. -/
@[reducible] def Op.Resp : Op → Type
  | .server_metrics _ => RaftServerMetrics
  | .metrics _ => RaftMetrics
  | .current_leader _ => Option NodeId
  | .add_learner .. => Except (RaftError ClientWriteError) ClientWriteResponse
  | .change_membership .. => Except (RaftError ClientWriteError) ClientWriteResponse
  | .append_entries .. => Except (RaftError Empty) AppendEntriesResponse
  | .vote .. => Except (RaftError Empty) VoteResponse
  | .submit_write .. => Unit
  | .await_write .. => Except (RaftError ClientWriteError) ClientWriteResponse
  | .begin_read _ => ReadTicket
  | .await_read .. => Except (RaftError CheckIsLeaderError) (Option LogId)
  | .contains_key .. => Bool
  | .get_with_lock .. => Option Bytes
  | .get_with_lock_multi .. => Option (List Bytes)
  | .remove .. => Option Bytes
  | .remove_multi_value .. => Option Bool
  | .map_len .. => Option Nat
  | .connect .. => Except TransportError Connection
  | .force_remove .. => Unit
  | .on_heartbeat .. => Unit
  | .elapsed _ => Bool
  | .shutdown _ => Except String Unit
  | .broadcast_shutdown _ => Except String Unit
  | .exchange .. => Except Error (Except RemoteError Response)
  | .transmit .. => Except Error Unit
  | .panic _ => Empty
  | .out_of_fuel => Empty

/-- The code that runs on the nodes. -/
abbrev NodeProg := Prog Op Op.Resp

/-- Code that fails with errors in `ε`. -/
abbrev NodeResult (ε : Type) := ExceptT ε NodeProg

/-- Makes a call. -/
def ask (o : Op) : NodeProg o.Resp := Prog.perform o

theorem ask_eq (o : Op) : ask o = .call o .pure := rfl

namespace Raft

/-- `raft.client_write(req).await` -/
def client_write (i : NodeId) (req : RaftRequest) :
    NodeProg (Except (RaftError ClientWriteError) ClientWriteResponse) := do
  ask (.submit_write i req)
  ask (.await_write i req)

/-- `raft.ensure_linearizable().await` -/
def ensure_linearizable (i : NodeId) :
    NodeProg (Except (RaftError CheckIsLeaderError) (Option LogId)) := do
  let ticket ← ask (.begin_read i)
  ask (.await_read i ticket)

end Raft

/-! ### Possible results of the calls -/

section returns
variable {A : (o : Op) → o.Resp → Prop} {i : NodeId}

theorem returns_ask {o : Op} {r : o.Resp} : (ask o).Returns A r ↔ A o r :=
  Prog.returns_perform

theorem returns_client_write {req : RaftRequest}
    {r : Except (RaftError ClientWriteError) ClientWriteResponse}
    (h : (Raft.client_write i req).Returns A r) : A (.await_write i req) r := by
  obtain ⟨_, _, h⟩ := Prog.returns_bind.mp h
  exact returns_ask.mp h

end returns

/-! ### Translated results -/

section results
variable {ε ε' α β : Type} {r : Except ε α} {f : α → β} {g : ε → ε'}

theorem map_mapError_eq_ok {b : β} :
    (r.map f).mapError g = .ok b ↔ ∃ a, r = .ok a ∧ b = f a := by
  cases r with
  | ok a => simp [Except.map, Except.mapError, eq_comm]
  | error e => simp [Except.map, Except.mapError]

theorem map_mapError_eq_error {e : ε'} :
    (r.map f).mapError g = .error e ↔ ∃ x, r = .error x ∧ e = g x := by
  cases r with
  | ok a => simp [Except.map, Except.mapError]
  | error x => simp [Except.map, Except.mapError, eq_comm]

end results

end Distruct

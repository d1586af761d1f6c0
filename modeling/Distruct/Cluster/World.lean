import Distruct.Cluster.Node
import Distruct.Framework.Tasks
import Distruct.Raft.Snapshot

/-! # The Cluster

    All nodes together. Of Raft the model keeps what the program relies on:

    - There is one committed log. It only grows, and a request is in it only
      if some node handed it to Raft.
    - Every node applies the committed log in order, in batches of any size,
      or takes over a snapshot that was built somewhere in the cluster.
    - A write is acknowledged with the response that the node's own `apply`
      produced for it. A linearizable read is confirmed only by a node that has
      applied everything that was committed when the read began.

    What a node believes about the membership, the leader and its own role is
    not constrained at all: its metrics may change to anything at any time.
-/

namespace Distruct

open Postcard (Bytes)

structure World where
  /-- The committed log. -/
  log : List Entry
  node : NodeId → NodeState
  /-- What `apply` answered on each node. -/
  answers : NodeId → List (LogId × RaftResponse)
  /-- The snapshots built so far, by any node. -/
  snapshots : List StoredSnapshot
  /-- The requests handed to Raft so far. -/
  proposed : List RaftRequest
  /-- The positions in the log of the writes acknowledged so far. -/
  acked : List Nat

/-- The moves of Raft. -/
inductive RaftMove where
  /-- An entry is committed. -/
  | commit (e : Entry)
  /-- Node `i` applies the next `n` entries, or as many as there are. -/
  | apply (i : NodeId) (n : Nat)
  | build_snapshot (i : NodeId) (ord : HashOrder)
  | install_snapshot (i : NodeId) (snap : StoredSnapshot)
  /-- Node `i` sees other metrics. -/
  | observe (i : NodeId) (m : RaftMetrics)

/-- The number of entries that a node has applied, going by `last_applied_log`. -/
def StateMachineInner.applied (sm : StateMachineInner) : Nat :=
  (sm.last_applied_log.map fun id => id.index + 1).getD 0

namespace World

/-- The data of node `i`. -/
def data (w : World) (i : NodeId) : StateMachineData := (w.node i).data

/-- The number of entries that node `i` has applied. -/
def applied (w : World) (i : NodeId) : Nat := (w.node i).sm.state_machine.applied

/-- The entries that node `i` has yet to apply. -/
def backlog (w : World) (i : NodeId) : List Entry := w.log.drop (w.applied i)

def set_node (w : World) (i : NodeId) (s : NodeState) : World :=
  { w with node := Function.update w.node i s }

def set_sm (w : World) (i : NodeId) (sm : StateMachine) : World :=
  w.set_node i { w.node i with sm := sm }

/-- Every node starts with an empty state machine. -/
def init (w : World) : Prop :=
  w.log = [] ∧ (∀ i, (w.node i).sm = default) ∧ w.answers = (fun _ => []) ∧
    w.snapshots = [] ∧ w.proposed = [] ∧ w.acked = []

def move (w : World) : RaftMove → World → Prop
  | .commit e, w' =>
      e.log_id.index = w.log.length ∧
      -- blank and membership entries come from Raft itself
      (∀ req, e.payload = .Normal req → req ∈ w.proposed) ∧
      w' = { w with log := w.log ++ [e] }
  | .apply i n, w' =>
      -- the responses are kept for the writes that wait for them
      let batch := (w.backlog i).take n
      let r := (w.node i).sm.apply batch
      w' = { w.set_sm i r.2 with
        answers := Function.update w.answers i
          (w.answers i ++ (batch.map Entry.log_id).zip r.1) }
  | .build_snapshot i ord, w' =>
      ∃ snap sm, (w.node i).sm.build_snapshot ord = (.ok snap, sm) ∧
        w' = { w.set_sm i sm with snapshots := snap :: w.snapshots }
  | .install_snapshot i snap, w' =>
      snap ∈ w.snapshots ∧
      w' = w.set_sm i ((w.node i).sm.install_snapshot snap.snapshot_meta snap.data).2
  | .observe i m, w' =>
      w' = w.set_node i { w.node i with metrics := m }

/-- A call and its answer. Changes of the membership and the RPCs of Raft have
    no immediate effect on the log or on a state machine; what they lead to is
    a move of Raft. Exchanges are resolved by `link` beforehand. -/
def call (w : World) : (o : Op) → o.Resp → World → Prop
  | .server_metrics i, r, w' =>
      r = ⟨(w.node i).metrics.id, (w.node i).metrics.state⟩ ∧ w' = w
  | .metrics i, r, w' => r = (w.node i).metrics ∧ w' = w
  | .current_leader i, r, w' => r = (w.node i).metrics.current_leader ∧ w' = w
  | .add_learner .., _, w' => w' = w
  | .change_membership .., _, w' => w' = w
  | .append_entries .., _, w' => w' = w
  | .vote .., _, w' => w' = w
  | .submit_write _ req, _, w' => w' = { w with proposed := req :: w.proposed }
  | .await_write _ _, .error _, w' => w' = w
  -- the response is the one that `apply` gave on this node
  | .await_write i req, .ok resp, w' =>
      ∃ e ∈ w.log, e.payload = .Normal req ∧ resp.log_id = e.log_id ∧
        (e.log_id, resp.data) ∈ w.answers i ∧
        w' = { w with acked := e.log_id.index :: w.acked }
  -- a read has to wait for what is committed now
  | .begin_read _, ticket, w' => ticket.commit_index = w.log.length ∧ w' = w
  | .await_read _ _, .error _, w' => w' = w
  | .await_read i ticket, .ok _, w' => ticket.commit_index ≤ w.applied i ∧ w' = w
  | .contains_key i map key, r, w' => r = (w.data i).contains_key map key ∧ w' = w
  | .get_with_lock i map key, r, w' => r = (w.data i).get_with_lock map key ∧ w' = w
  | .get_with_lock_multi i multi_map key, r, w' =>
      -- in whichever order the set is enumerated
      Option.Rel HashSet.Lists ((w.data i).get_with_lock_multi multi_map key) r ∧ w' = w
  | .remove i map key, r, w' =>
      r = ((w.data i).remove map key).1 ∧
      w' = w.set_node i ((w.node i).withData ((w.data i).remove map key).2)
  | .remove_multi_value i multi_map key value, r, w' =>
      r = ((w.data i).remove_multi_value multi_map key value).1 ∧
      w' = w.set_node i ((w.node i).withData ((w.data i).remove_multi_value multi_map key value).2)
  | .map_len i map, r, w' => r = (w.data i).map_len map ∧ w' = w
  | .connect .., _, w' => w' = w
  | .force_remove .., _, w' => w' = w
  | .on_heartbeat .., _, w' => w' = w
  | .elapsed _, _, w' => w' = w
  | .shutdown _, _, w' => w' = w
  | .broadcast_shutdown _, _, w' => w' = w
  | .exchange .., _, _ => False
  | .transmit .., _, w' => w' = w
  | .panic _, never, _ => nomatch never
  | .out_of_fuel, never, _ => nomatch never

end World

/-- The cluster as the shared state of the tasks that run on its nodes. -/
def world : LTS.Shared World RaftMove Op Op.Resp where
  init := World.init
  env := World.move
  call := World.call

end Distruct

import Distruct.Cluster.HandleMessage

/-! # Nodes

    The state of a node as far as its message handler sees it, and how a node
    that is not the leader answers the calls of a mutating request. Such a
    node refuses writes and changes of the membership: the only guard in
    `handle_message` itself compares ids, so what is left of a request is safe
    exactly when it goes through Raft. A removal does not.
-/

namespace Distruct

structure NodeState where
  sm : StateMachine
  metrics : RaftMetrics
  deriving DecidableEq

/-- The data of the node's state machine. -/
def NodeState.data (s : NodeState) : StateMachineData := s.sm.state_machine.data

def NodeState.withData (s : NodeState) (d : StateMachineData) : NodeState :=
  { s with sm := { s.sm with state_machine := { s.sm.state_machine with data := d } } }

/-- Requests that ask for a change. -/
def RequestBody.mutating : RequestBody → Bool
  | .Insert .. | .InsertMulti .. | .Remove .. | .RemoveMulti .. | .Clear _
  | .AddLearner .. | .ChangeMembership .. => true
  | _ => false

/-- The requests that bypass the log. -/
def RequestBody.removes : RequestBody → Bool
  | .Remove .. | .RemoveMulti .. => true
  | _ => false

/-- Node `i` while it is not the leader: Raft changes nothing and answers with
    what it knows of the leader. Calls that no mutating request makes are left
    out. -/
def nonleader (i : NodeId) (known : ForwardToLeader) :
    (o : Op) → NodeState → Option (o.Resp × NodeState)
  | .server_metrics j, s => if j = i then some (⟨s.metrics.id, s.metrics.state⟩, s) else none
  | .metrics j, s => if j = i then some (s.metrics, s) else none
  | .add_learner .., s | .change_membership .., s | .await_write .., s =>
    if s.metrics.state = .Leader then none
    else some (.error (.APIError (.ForwardToLeader known)), s)
  | .submit_write .., s => some ((), s)
  | .remove j map key, s =>
    if j = i then some ((s.data.remove map key).1, s.withData (s.data.remove map key).2) else none
  | .remove_multi_value j multi_map key value, s =>
    if j = i then
      some ((s.data.remove_multi_value multi_map key value).1,
        s.withData (s.data.remove_multi_value multi_map key value).2)
    else none
  | _, _ => none

section nonleader
variable (i : NodeId) (known : ForwardToLeader) (s : NodeState)

/-- A message for this node, or for no node in particular, reaches its branch. -/
theorem run_handle_message_nonleader (hid : s.metrics.id = i) {msg : Request}
    (ht : msg.target_id = none ∨ msg.target_id = some i) :
    (handle_message i msg).run (nonleader i known) s
      = (handle_body i msg.body).run (nonleader i known) s := by
  unfold handle_message
  rcases ht with ht | ht
  · rw [ht]
  · simp [ht, ask_eq, nonleader, hid]

/-- A request that goes through Raft is refused and changes nothing. -/
theorem run_handle_body_refused (hl : s.metrics.state ≠ .Leader) {body : RequestBody}
    (hm : body.mutating = true) (hr : body.removes = false) :
    ∃ e, (handle_body i body).run (nonleader i known) s = some (.error e, s) := by
  cases body with
  | AddLearner id peer blocking =>
    -- the addresses of the members are compared before Raft is asked
    have hmetrics : nonleader i known (.metrics i) s = some (s.metrics, s) := by simp [nonleader]
    simp only [handle_body, ask_eq, Prog.call_bind, Prog.pure_bind', Prog.run_call,
      hmetrics, Option.bind_some]
    split
    · exact ⟨_, rfl⟩
    · refine ⟨.RaftWrite (.APIError (.ForwardToLeader known)), ?_⟩
      simp [nonleader, hl, Except.map, Except.mapError]
  | ChangeMembership members retain =>
    refine ⟨.RaftWrite (.APIError (.ForwardToLeader known)), ?_⟩
    simp [handle_body, ask_eq, nonleader, hl, Except.map, Except.mapError]
  | Insert map key value =>
    refine ⟨.RaftWrite (.APIError (.ForwardToLeader known)), ?_⟩
    simp [handle_body, Raft.client_write, ask_eq, nonleader, hl, Except.map, Except.mapError]
  | InsertMulti multi_map key value =>
    refine ⟨.RaftWrite (.APIError (.ForwardToLeader known)), ?_⟩
    simp [handle_body, Raft.client_write, ask_eq, nonleader, hl, Except.map, Except.mapError]
  | Clear map =>
    refine ⟨.RaftWrite (.APIError (.ForwardToLeader known)), ?_⟩
    simp [handle_body, Raft.client_write, ask_eq, nonleader, hl, Except.map, Except.mapError]
  | Remove map key => cases hr
  | RemoveMulti multi_map key value => cases hr
  | _ => cases hm

/-- A removal is carried out and reported as done. -/
theorem run_handle_body_removed {body : RequestBody} (hr : body.removes = true) :
    ∃ resp s', (handle_body i body).run (nonleader i known) s = some (.ok resp, s') := by
  cases body with
  | Remove map key => simp [handle_body, ask_eq, nonleader]
  | RemoveMulti multi_map key value => simp [handle_body, ask_eq, nonleader]
  | _ => cases hr

/-- **Only a leader performs writes, except for removals.** A node that is not
    the leader answers a mutating request with an error and leaves its data and
    membership alone exactly when the request is not a removal. -/
theorem nonleader_refuses_iff (i : NodeId) (known : ForwardToLeader) (s : NodeState)
    (hid : s.metrics.id = i) (hl : s.metrics.state ≠ .Leader) (msg : Request)
    (ht : msg.target_id = none ∨ msg.target_id = some i) (hm : msg.body.mutating = true) :
    (∃ e s', (handle_message i msg).run (nonleader i known) s = some (.error e, s') ∧
      s'.data = s.data ∧ s'.metrics.membership_config = s.metrics.membership_config) ↔
    msg.body.removes = false := by
  rw [run_handle_message_nonleader i known s hid ht]
  constructor
  · intro hrefused
    obtain ⟨e, s', hrun, _, _⟩ := hrefused
    -- a removal is answered with success, so it is no refusal
    by_contra hr
    obtain ⟨resp, s'', hok⟩ := run_handle_body_removed i known s
      (Bool.not_eq_false _ ▸ hr)
    rw [hok] at hrun
    cases hrun
  · intro hr
    obtain ⟨e, he⟩ := run_handle_body_refused i known s hl hm hr
    exact ⟨e, s, he, rfl, rfl⟩

/-- A follower that holds one entry. -/
def follower_holding (map : String) (key value : Postcard.Bytes) : NodeState where
  sm := ((default : StateMachine).apply
    [⟨⟨⟨1, 0⟩, 0⟩, .Normal (.Insert map key value)⟩]).2
  metrics := { id := 1, state := .Follower, current_leader := some 0, membership_config := default }

/-- A follower refuses to clear a map. -/
theorem nonleader_refuses_clear :
    ∃ e s', (handle_message 1 ⟨some 1, .Clear "m"⟩).run (nonleader 1 ⟨some 0, none⟩)
        (follower_holding "m" [1] [2]) = some (.error e, s') ∧
      s'.data = (follower_holding "m" [1] [2]).data ∧
      s'.metrics.membership_config = (follower_holding "m" [1] [2]).metrics.membership_config :=
  (nonleader_refuses_iff 1 ⟨some 0, none⟩ (follower_holding "m" [1] [2]) rfl (by decide)
    ⟨some 1, .Clear "m"⟩ (.inr rfl) rfl).mpr rfl

/-- A follower that is asked to remove an entry reports the removed value and
    has lost the entry. -/
theorem follower_removes :
    (follower_holding "m" [1] [2]).metrics.state ≠ .Leader ∧
    ∃ s', (handle_message 1 ⟨some 1, .Remove "m" [1]⟩).run (nonleader 1 ⟨some 0, none⟩)
        (follower_holding "m" [1] [2]) = some (.ok (.Remove (some [2])), s') ∧
      s'.data ≠ (follower_holding "m" [1] [2]).data := by
  refine ⟨by decide, _, rfl, ?_⟩
  decide

end nonleader

end Distruct

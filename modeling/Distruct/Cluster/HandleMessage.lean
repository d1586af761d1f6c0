import Distruct.Raft.State
import Distruct.Runtime

/-! # Handling a Message

    `handle_message` of `cluster.rs`: what a node's main loop does with one
    request, and the reply it sends.
-/

namespace Distruct

/-- `ensure_consistency` of `cluster.rs`. -/
def ensure_consistency (i : NodeId) : ReadConsistency → NodeResult RemoteError Unit
  | .Stale | .LeaderStale => pure ()
  | .LeaseRead | .ReadIndex => do
    let _ ← ExceptT.mk (Except.mapError RemoteError.RaftCheckIsLeader <$> Raft.ensure_linearizable i)
    return ()

/-- A read behind its consistency check. -/
def consistent_read {α : Type} (i : NodeId) (consistency : ReadConsistency) (read : NodeProg α)
    (respond : α → Response) : NodeProg (Except RemoteError Response) :=
  ExceptT.run do
    ensure_consistency i consistency
    let value ← read
    return respond value

/-- The branch of `handle_message` for a body, on node `i`. -/
def handle_body (i : NodeId) : RequestBody → NodeProg (Except RemoteError Response)
  | .AddLearner id peer blocking => do
    let metrics ← ask (.metrics i)
    let nodes := metrics.membership_config.membership.nodes
    -- a node with this socket address has already joined
    match nodes.keys.sort.findSome? fun other =>
        (nodes.lookup other).bind fun m => if m.addr = peer.addr then some (other, m.addr) else none with
    | some (other_id, addr) => return .error (.NodeExists other_id addr)
    | none =>
      let r ← ask (.add_learner i id peer blocking)
      return (r.map Response.AddLearner).mapError RemoteError.RaftWrite
  | .ChangeMembership members retain => do
    let r ← ask (.change_membership i members retain)
    return (r.map Response.ClientWrite).mapError RemoteError.RaftWrite
  | .Append entries => do
    let r ← ask (.append_entries i entries)
    return (r.map Response.Append).mapError RemoteError.Raft
  | .Vote rpc => do
    let r ← ask (.vote i rpc)
    return (r.map Response.Vote).mapError RemoteError.Raft
  | .ContainsKey map key consistency =>
    consistent_read i consistency (ask (.contains_key i map key)) Response.ContainsKey
  | .Insert map key value => do
    let r ← Raft.client_write i (.Insert map key value)
    return (r.map Response.ClientWrite).mapError RemoteError.RaftWrite
  | .InsertMulti multi_map key value => do
    let r ← Raft.client_write i (.InsertMulti multi_map key value)
    return (r.map Response.ClientWrite).mapError RemoteError.RaftWrite
  | .Get map key consistency =>
    consistent_read i consistency (ask (.get_with_lock i map key)) Response.Get
  | .GetMulti multi_map key consistency =>
    consistent_read i consistency (ask (.get_with_lock_multi i multi_map key)) Response.GetMulti
  -- removals go to the state machine directly, without a log entry
  | .Remove map key => do
    let value ← ask (.remove i map key)
    return .ok (.Remove value)
  | .RemoveMulti multi_map key value => do
    let removed ← ask (.remove_multi_value i multi_map key value)
    return .ok (.RemoveMulti (removed.getD false))
  | .Len map consistency =>
    consistent_read i consistency (ask (.map_len i map)) Response.Len
  | .Clear map => do
    let r ← Raft.client_write i (.Clear map)
    return (r.map Response.ClientWrite).mapError RemoteError.RaftWrite

/-- `handle_message` on node `i`, as the reply it sends. -/
def handle_message (i : NodeId) (message : Request) : NodeProg (Except RemoteError Response) := do
  match message.target_id with
  | none => handle_body i message.body
  | some target_id =>
    let metrics ← ask (.server_metrics i)
    -- the sender expected another node at this address
    if target_id ≠ metrics.id then
      return .error (.InvalidNode target_id metrics.id)
    else
      handle_body i message.body

/-! ### What a reply can be

    The branches of `handle_message` read backwards: which answers of Raft and
    of the state machine lie behind a reply. -/

/-- The consistencies that a read confirms with Raft. -/
def ReadConsistency.linearizable : ReadConsistency → Bool
  | .Stale | .LeaderStale => false
  | .LeaseRead | .ReadIndex => true

section replies
variable {A : (o : Op) → o.Resp → Prop} {i : NodeId}

theorem ensure_consistency_error {c : ReadConsistency} {e : RemoteError}
    (h : (ensure_consistency i c).run.Returns A (.error e)) :
    c.linearizable = true ∧ ∃ f, e = .RaftCheckIsLeader f := by
  -- both consistencies that need Raft run the same check
  have hlin : ∀ h : (ExceptT.mk (Except.mapError RemoteError.RaftCheckIsLeader <$>
      Raft.ensure_linearizable i) >>= fun _ => pure ()).run.Returns A (.error e),
      ∃ f, e = .RaftCheckIsLeader f := by
    intro h
    rcases Prog.returns_run_bind.mp h with ⟨_, _, h⟩ | ⟨e', he, h⟩
    · cases h
    · cases h
      obtain ⟨r, _, hr⟩ := Prog.returns_map.mp he
      cases r with
      | ok l => cases hr
      | error f =>
        cases hr
        exact ⟨f, rfl⟩
  cases c with
  | Stale => cases h
  | LeaderStale => cases h
  | LeaseRead => exact ⟨rfl, hlin h⟩
  | ReadIndex => exact ⟨rfl, hlin h⟩

theorem consistent_read_error {α : Type} {c : ReadConsistency} {read : NodeProg α}
    {respond : α → Response} {e : RemoteError}
    (h : (consistent_read i c read respond).Returns A (.error e)) :
    c.linearizable = true ∧ ∃ f, e = .RaftCheckIsLeader f := by
  rcases Prog.returns_run_bind.mp h with ⟨_, _, h⟩ | ⟨e', he, h⟩
  · rcases Prog.returns_run_bind.mp h with ⟨_, _, h⟩ | ⟨e', he, h⟩
    · cases h
    · obtain ⟨_, _, h⟩ := Prog.returns_run_lift.mp he
      cases h
  · cases h
    exact ensure_consistency_error he

theorem consistent_read_ok {α : Type} {c : ReadConsistency} {read : NodeProg α}
    {respond : α → Response} {resp : Response}
    (h : (consistent_read i c read respond).Returns A (.ok resp)) :
    ∃ v, read.Returns A v ∧ resp = respond v := by
  rcases Prog.returns_run_bind.mp h with ⟨_, _, h⟩ | ⟨e', he, h⟩
  · rcases Prog.returns_run_bind.mp h with ⟨v, hv, h⟩ | ⟨e', he, h⟩
    · obtain ⟨v', hv', h'⟩ := Prog.returns_run_lift.mp hv
      cases h'
      cases h
      exact ⟨v, hv', rfl⟩
    · cases h
  · cases h

/-- A response that is made from a result of Raft. -/
theorem translated_ok {ε α : Type} {x : NodeProg (Except ε α)} {f : α → Response}
    {g : ε → RemoteError} {resp : Response}
    (h : (do let r ← x
             return (r.map f).mapError g : NodeProg (Except RemoteError Response)).Returns A
      (.ok resp)) :
    ∃ a, x.Returns A (.ok a) ∧ resp = f a := by
  obtain ⟨r, hr, h⟩ := Prog.returns_bind.mp h
  obtain ⟨a, rfl, ha⟩ := map_mapError_eq_ok.mp (Prog.returns_pure.mp h).symm
  exact ⟨a, hr, ha⟩

/-- An error reply that is made from an error of Raft. -/
theorem translated_error {ε α : Type} {x : NodeProg (Except ε α)} {f : α → Response}
    {g : ε → RemoteError} {e : RemoteError}
    (h : (do let r ← x
             return (r.map f).mapError g : NodeProg (Except RemoteError Response)).Returns A
      (.error e)) :
    ∃ e', x.Returns A (.error e') ∧ e = g e' := by
  obtain ⟨r, hr, h⟩ := Prog.returns_bind.mp h
  obtain ⟨e', rfl, he⟩ := map_mapError_eq_error.mp (Prog.returns_pure.mp h).symm
  exact ⟨e', hr, he⟩

/-- A message for another node is refused, every other one is handled. -/
theorem handle_message_reply {message : Request} {reply : Except RemoteError Response}
    (h : (handle_message i message).Returns A reply) :
    (∃ target_id actual_id, reply = .error (.InvalidNode target_id actual_id)) ∨
      (handle_body i message.body).Returns A reply := by
  unfold handle_message at h
  split at h
  · exact .inr h
  · next target_id _ =>
    obtain ⟨metrics, _, h⟩ := Prog.returns_bind.mp h
    split at h
    · exact .inl ⟨target_id, metrics.id, Prog.returns_pure.mp h⟩
    · exact .inr h

end replies

end Distruct

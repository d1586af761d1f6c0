import Distruct.Connection.MessageSize
import Distruct.Raft.Heartbeat
import Distruct.Raft.Network

/-! # Errors of a Remote Raft

    How an error of Raft on one node comes back to Raft on another node. On its
    way from `raft.append_entries` or `raft.vote` of the peer to the result of
    the RPC it is wrapped by `handle_message`, sent, wrapped again by
    `Client::request`, and unwrapped by `perform_raft_action`, which looks for
    an error that the client never returns.
-/

namespace Distruct

/-! ### The RPCs -/

/-- The RPCs that go through `perform_raft_action`. -/
inductive RaftRpc where
  | AppendEntries (rpc : AppendEntriesRequest)
  | Vote (rpc : VoteRequest)

namespace RaftRpc

@[reducible] def Resp : RaftRpc → Type
  | .AppendEntries _ => AppendEntriesResponse
  | .Vote _ => VoteResponse

def body : RaftRpc → RequestBody
  | .AppendEntries rpc => .Append rpc
  | .Vote rpc => .Vote rpc

def respond : (rpc : RaftRpc) → rpc.Resp → Response
  | .AppendEntries _ => Response.Append
  | .Vote _ => Response.Vote

/-- The response that the client's method takes. -/
def accept : (rpc : RaftRpc) → Response → Option rpc.Resp
  | .AppendEntries _ => fun
    | .Append r => some r
    | _ => none
  | .Vote _ => fun
    | .Vote r => some r
    | _ => none

theorem accept_respond (rpc : RaftRpc) (r : rpc.Resp) : rpc.accept (rpc.respond r) = some r := by
  cases rpc <;> rfl

end RaftRpc

/-- `RaftNetwork::append_entries` and `RaftNetwork::vote`. -/
def Network.send (fuel : Nat) (net : Network) :
    (rpc : RaftRpc) → NodeResult (RPCError Empty) rpc.Resp
  | .AppendEntries rpc => net.append_entries fuel rpc
  | .Vote rpc => net.vote fuel rpc

theorem Network.send_eq (fuel : Nat) (net : Network) (rpc : RaftRpc) :
    net.send fuel rpc
      = net.perform_raft_action fun client => client.call fuel rpc.body rpc.accept := by
  cases rpc <;> rfl

/-! ### The surroundings of an RPC -/

/-- Why a response does not arrive. -/
inductive ReceiveError where
  | Transport (e : TransportError)
  | Deserialize (e : Postcard.Error)

def ReceiveError.error : ReceiveError → Error
  | .Transport e => .Transport e
  | .Deserialize e => .Protocol (.DeserializeResponse e)

/-- All that decides what becomes of an RPC. -/
structure RpcWorld where
  /-- What the connection cache answers. The node at the other end may be
      another one than the RPC is meant for. -/
  connect : Except TransportError Connection
  /-- The time is over before the request is sent, or before the response is there. -/
  elapsed_before : Bool
  elapsed_after : Bool
  sent : Except TransportError Unit
  received : Except ReceiveError Unit
  /-- The Raft instances of the nodes. -/
  state : NodeId → ServerState
  append_entries : NodeId → AppendEntriesRequest → Except (RaftError Empty) AppendEntriesResponse
  vote : NodeId → VoteRequest → Except (RaftError Empty) VoteResponse
  now : Instant

/-- What changes while the RPC runs. -/
structure RpcState where
  /-- The monitor of the node that sends the RPC. -/
  heartbeat_monitor : HeartbeatMonitor
  /-- The request has been sent, or an attempt was made. -/
  under_way : Bool

namespace RpcWorld

variable (env : RpcWorld)

/-- How the calls are answered. -/
def answer : (o : Op) → RpcState → Option (o.Resp × RpcState)
  | .connect .., s => some (env.connect, s)
  | .elapsed _, s => some (if s.under_way then env.elapsed_after else env.elapsed_before, s)
  | .transmit .., s =>
    if s.under_way then some (env.received.mapError ReceiveError.error, s)
    else some (env.sent.mapError Error.Transport, { s with under_way := true })
  | .server_metrics j, s => some (⟨j, env.state j⟩, s)
  | .append_entries j rpc, s => some (env.append_entries j rpc, s)
  | .vote j rpc, s => some (env.vote j rpc, s)
  | .force_remove .., s => some ((), s)
  | .on_heartbeat _ id, s =>
    some ((), { s with heartbeat_monitor := s.heartbeat_monitor.on_heartbeat env.now id })
  | _, _ => none

/-- What Raft on node `j` answers. -/
def raft (j : NodeId) : (rpc : RaftRpc) → Except (RaftError Empty) rpc.Resp
  | .AppendEntries rpc => env.append_entries j rpc
  | .Vote rpc => env.vote j rpc

/-! ### One exchange -/

/-- What node `j` replies to an RPC that is meant for node `target`. -/
def reply (j target : NodeId) (rpc : RaftRpc) : Except RemoteError Response :=
  if target ≠ j then .error (.InvalidNode target j)
  else ((env.raft j rpc).map rpc.respond).mapError RemoteError.Raft

theorem run_handle_message (j target : NodeId) (rpc : RaftRpc) (s : RpcState) :
    (handle_message j ⟨some target, rpc.body⟩).run env.answer s
      = some (env.reply j target rpc, s) := by
  unfold handle_message reply
  by_cases htarget : target = j
  · cases rpc <;> simp [htarget, ask_eq, answer, RaftRpc.body, handle_body, raft, RaftRpc.respond]
  · simp [htarget, ask_eq, answer]

/-- What the client gets out of the exchange. -/
def exchanged (conn : Connection) (target : NodeId) (rpc : RaftRpc) :
    Except Error (Except RemoteError Response) := do
  env.sent.mapError Error.Transport
  if accepts ⟨some target, rpc.body⟩ then
    env.received.mapError ReceiveError.error
    return env.reply conn.peer target rpc
  else
    throw no_reply

/-- The first transmission sends the request. -/
theorem run_transmit_request (i : NodeId) (conn : Connection) {s : RpcState}
    (hs : s.under_way = false) :
    (ExceptT.mk (ask (.transmit i conn))).run.run env.answer s
      = some (env.sent.mapError Error.Transport, { s with under_way := true }) := by
  simp [ask_eq, answer, hs]

/-- Any later one receives the response. -/
theorem run_transmit_response (i : NodeId) (conn : Connection) {s : RpcState}
    (hs : s.under_way = true) :
    (ExceptT.mk (ask (.transmit i conn))).run.run env.answer s
      = some (env.received.mapError ReceiveError.error, s) := by
  simp [ask_eq, answer, hs]

theorem run_deliver (i : NodeId) (conn : Connection) (target : NodeId) (rpc : RaftRpc)
    (s : RpcState) (hs : s.under_way = false) :
    (deliver i conn ⟨some target, rpc.body⟩).run env.answer s
      = some (env.exchanged conn target rpc, { s with under_way := true }) := by
  unfold deliver exchanged handle_request
  rw [Prog.run_run_bind, env.run_transmit_request i conn hs, Option.bind_some]
  cases env.sent with
  | error e => rfl
  | ok u =>
    simp only [Except.mapError]
    rw [Prog.run_run_lift_bind]
    by_cases haccepts : accepts ⟨some target, rpc.body⟩ = true
    · simp only [haccepts, if_true, Prog.run_map, run_handle_message, Option.map_some,
        Option.bind_some]
      rw [Prog.run_run_bind, env.run_transmit_response i conn rfl, Option.bind_some]
      cases env.received with
      | error e => rfl
      | ok u => rfl
    · simp only [haccepts]
      rfl

/-- A reply arrives when nothing fails on the way. -/
theorem exchanged_eq_ok {conn : Connection} {target : NodeId} {rpc : RaftRpc}
    {r : Except RemoteError Response} :
    env.exchanged conn target rpc = .ok r ↔
      env.sent = .ok () ∧ accepts ⟨some target, rpc.body⟩ = true ∧ env.received = .ok () ∧
        r = env.reply conn.peer target rpc := by
  unfold exchanged
  cases hsent : env.sent with
  | error e => simp [Except.mapError, bind, Except.bind]
  | ok u =>
    by_cases haccepts : accepts ⟨some target, rpc.body⟩ = true
    · cases hreceived : env.received with
      | error e => simp [haccepts, Except.mapError, bind, Except.bind]
      | ok u => simp [haccepts, Except.mapError, bind, Except.bind, pure, Except.pure, eq_comm]
    · simp [haccepts, Except.mapError, bind, Except.bind, throw, throwThe, MonadExceptOf.throw]

/-! ### The whole RPC -/

/-- What the client's method makes of an exchange. -/
def performed (rpc : RaftRpc) : Except Error (Except RemoteError Response) → Except Error rpc.Resp
  | .error e => .error e
  | .ok (.error e) => .error (.Remote e)
  | .ok (.ok resp) =>
    match rpc.accept resp with
    | some r => .ok r
    | none => .error (.Protocol .UnknownResponse)

/-- No reply to an RPC redirects the client. -/
theorem redirect_reply {j target : NodeId} {rpc : RaftRpc} {e : RemoteError}
    (h : env.reply j target rpc = .error e) : Client.redirect e = none := by
  unfold reply at h
  split at h
  · cases h
    rfl
  · obtain ⟨_, _, rfl⟩ := map_mapError_eq_error.mp h
    rfl

/-- An RPC makes a single exchange. -/
theorem run_exchange (fuel : Nat) (c : Client) (rpc : RaftRpc) :
    ∃ k, (c.call (fuel + 1) rpc.body rpc.accept).run
        = .call (.exchange c.owner c.conn ⟨c.target_id, rpc.body⟩) k ∧
      ∀ x, (∀ e, x = .ok (.error e) → Client.redirect e = none) → k x = .pure (performed rpc x) := by
  refine ⟨_, rfl, ?_⟩
  intro x hx
  match x with
  | .error e => rfl
  | .ok (.ok resp) =>
    simp only [Prog.bind, ExceptT.bindCont, performed]
    show Prog.bind (.pure (Except.ok resp)) _ = _
    simp only [Prog.bind, ExceptT.bindCont]
    cases rpc.accept resp <;> rfl
  | .ok (.error e) =>
    simp only [Prog.bind, ExceptT.bindCont, hx e rfl]
    rfl

/-- The exchange of an RPC under its timeout. -/
theorem run_timeout (fuel : Nat) (c : Client) (target : NodeId) (rpc : RaftRpc) (s : RpcState)
    (hc : c.target_id = some target) (hs : s.under_way = false) :
    ∃ s', ((timeout c.owner (c.call (fuel + 1) rpc.body rpc.accept).run).interp link).run env.answer s
        = some (if env.elapsed_before || env.elapsed_after then none
            else some (performed rpc (env.exchanged c.conn target rpc)), s') ∧
      s'.heartbeat_monitor = s.heartbeat_monitor := by
  obtain ⟨k, hcall, hk⟩ := run_exchange fuel c rpc
  rw [hcall, hc]
  have hresult : k (env.exchanged c.conn target rpc)
      = .pure (performed rpc (env.exchanged c.conn target rpc)) := by
    refine hk _ ?_
    intro e he
    exact env.redirect_reply (env.exchanged_eq_ok.mp he).2.2.2.symm
  cases hbefore : env.elapsed_before with
  | true =>
    refine ⟨s, ?_, rfl⟩
    simp [timeout, ask_eq, link, answer, hs, hbefore]
  | false =>
    refine ⟨{ s with under_way := true }, ?_, rfl⟩
    have hexchange := env.run_deliver c.owner c.conn target rpc s hs
    simp only [timeout, ask_eq, Prog.pure_def, Prog.call_bind, Prog.pure_bind', Prog.interp_call, link,
      Prog.run_call, Prog.run_bind, answer, hs, hbefore, hexchange, Bool.false_eq_true, if_false,
      Option.bind_some, Bool.false_or]
    cases hafter : env.elapsed_after with
    | true => simp
    | false => simp [hresult, timeout]

/-- What Raft is told about its RPC. -/
def outcome (net : Network) (rpc : RaftRpc) : Except (RPCError Empty) rpc.Resp :=
  match env.connect with
  | .error e => .error (.Unreachable (.Error (.Transport e)))
  | .ok conn =>
    if env.elapsed_before || env.elapsed_after then .error (.Unreachable .Elapsed)
    else (performed rpc (env.exchanged conn net.node_id rpc)).mapError net.rpc_error

theorem run_new (net : Network) (s : RpcState) :
    (linked (ExceptT.mk (Except.mapError (fun e => (.Unreachable (.Error e) : RPCError Empty)) <$>
        (Client.new net.owner net.node (some net.node_id)).run))).run env.answer s
      = some ((env.connect.map fun conn => (⟨net.owner, conn, some net.node_id⟩ : Client)).mapError
          fun e => .Unreachable (.Error (.Transport e)), s) := by
  show Prog.run env.answer (.call (.connect net.owner net.node) _) s = _
  simp only [Prog.run_call, answer, Option.bind_some]
  cases env.connect <;> rfl

/-- The RPC comes to an end, and the heartbeat monitor is told of success. -/
theorem run_send (fuel : Nat) (net : Network) (rpc : RaftRpc) (s : RpcState)
    (hs : s.under_way = false) :
    ∃ s', (linked (net.send (fuel + 1) rpc)).run env.answer s = some (env.outcome net rpc, s') ∧
      s'.heartbeat_monitor =
        if (env.outcome net rpc).isOk then s.heartbeat_monitor.on_heartbeat env.now net.node_id
        else s.heartbeat_monitor := by
  rw [Network.send_eq]
  unfold Network.perform_raft_action outcome
  rw [run_linked_bind, run_new]
  cases hconnect : env.connect with
  | error e => exact ⟨s, rfl, rfl⟩
  | ok conn =>
    simp only [Except.map, Except.mapError, Option.bind_some]
    rw [run_linked_lift_bind]
    obtain ⟨s', htimeout, hmonitor⟩ :=
      env.run_timeout fuel ⟨net.owner, conn, some net.node_id⟩ net.node_id rpc s rfl hs
    rw [htimeout, Option.bind_some]
    by_cases helapsed : (env.elapsed_before || env.elapsed_after) = true
    · simp only [helapsed, if_true]
      exact ⟨s', rfl, hmonitor⟩
    · simp only [helapsed]
      cases performed rpc (env.exchanged conn net.node_id rpc) with
      | error e => exact ⟨s', rfl, hmonitor⟩
      | ok r =>
        refine ⟨{ s' with
          heartbeat_monitor := s'.heartbeat_monitor.on_heartbeat env.now net.node_id }, rfl, ?_⟩
        rw [hmonitor]
        rfl

/-! ### Which errors keep their kind -/

/-- The reply of the node that the RPC is meant for arrives in time. -/
def Delivered (net : Network) (rpc : RaftRpc) : Prop :=
  env.connect = .ok ⟨net.node_id⟩ ∧ env.elapsed_before = false ∧ env.elapsed_after = false ∧
    env.sent = .ok () ∧ accepts ⟨some net.node_id, rpc.body⟩ = true ∧ env.received = .ok ()

/-- An error of the peer's Raft is reported as such, with the peer's id and
    node; the peer counts as unreachable, or the network as broken, only if no
    reply arrived; and the heartbeat monitor is updated for the peer exactly
    when the RPC returned a response. -/
structure KeepsKind (net : Network) (rpc : RaftRpc) (r : Except (RPCError Empty) rpc.Resp)
    (monitor monitor' : HeartbeatMonitor) : Prop where
  remote : ∀ e, env.Delivered net rpc → env.raft net.node_id rpc = .error e →
    r = .error (.RemoteError net.node_id net.node e)
  unreachable : ∀ u, r = .error (.Unreachable u) → ¬ env.Delivered net rpc
  network : ∀ e, r = .error (.Network e) → ¬ env.Delivered net rpc
  monitor : monitor' = if r.isOk then monitor.on_heartbeat env.now net.node_id else monitor

/-- What a delivered reply becomes. -/
theorem outcome_of_delivered {net : Network} {rpc : RaftRpc} (h : env.Delivered net rpc) :
    env.outcome net rpc = (env.raft net.node_id rpc).mapError fun e =>
      .Unreachable (.Error (.Remote (.Raft e))) := by
  obtain ⟨hconnect, hbefore, hafter, hsent, haccepts, hreceived⟩ := h
  have hexchanged : env.exchanged ⟨net.node_id⟩ net.node_id rpc
      = .ok (env.reply net.node_id net.node_id rpc) :=
    env.exchanged_eq_ok.mpr ⟨hsent, haccepts, hreceived, rfl⟩
  unfold outcome
  rw [hconnect]
  simp only [hbefore, hafter, Bool.or_self, Bool.false_eq_true, if_false]
  rw [hexchanged]
  unfold reply
  simp only [ne_eq, not_true_eq_false, if_false]
  cases env.raft net.node_id rpc with
  | error e => rfl
  | ok r => simp [performed, Except.map, Except.mapError, RaftRpc.accept_respond]

/-- **Errors of a remote Raft lose their kind.** An RPC always comes to an end.
    It keeps the kinds of the errors apart exactly unless the peer's Raft
    answers with an error and this answer is delivered. -/
theorem remote_error_kept_iff (fuel : Nat) (net : Network) (rpc : RaftRpc) (env : RpcWorld)
    (monitor : HeartbeatMonitor) :
    ∃ r s', (linked (net.send (fuel + 1) rpc)).run env.answer ⟨monitor, false⟩ = some (r, s') ∧
      (env.KeepsKind net rpc r monitor s'.heartbeat_monitor ↔
        ¬ (env.Delivered net rpc ∧ ∃ e, env.raft net.node_id rpc = .error e)) := by
  obtain ⟨s', hrun, hmonitor⟩ := env.run_send fuel net rpc ⟨monitor, false⟩ rfl
  refine ⟨_, s', hrun, ?_⟩
  constructor
  · intro hkeeps herror
    obtain ⟨hdelivered, e, he⟩ := herror
    have hremote := hkeeps.remote e hdelivered he
    rw [env.outcome_of_delivered hdelivered, he] at hremote
    cases hremote
  · intro hnot
    -- then a reply that is delivered is a response
    have hok : env.Delivered net rpc → ∃ r, env.outcome net rpc = .ok r := by
      intro hdelivered
      rw [env.outcome_of_delivered hdelivered]
      cases hraft : env.raft net.node_id rpc with
      | error e => exact absurd ⟨hdelivered, e, hraft⟩ hnot
      | ok r => exact ⟨r, rfl⟩
    refine ⟨?_, ?_, ?_, hmonitor⟩
    · intro e hdelivered he
      exact absurd ⟨hdelivered, e, he⟩ hnot
    · intro u hu hdelivered
      obtain ⟨r, hr⟩ := hok hdelivered
      rw [hr] at hu
      cases hu
    · intro e he hdelivered
      obtain ⟨r, hr⟩ := hok hdelivered
      rw [hr] at he
      cases he

/-- Node 1 is reachable, but its Raft has been stopped. -/
def stopped_peer : RpcWorld where
  connect := .ok ⟨1⟩
  elapsed_before := false
  elapsed_after := false
  sent := .ok ()
  received := .ok ()
  state := fun _ => .Shutdown
  append_entries := fun _ _ => .error (.Fatal .Stopped)
  vote := fun _ _ => .error (.Fatal .Stopped)
  now := 0

/-- A request for a vote in the first term. -/
def first_vote : RaftRpc := .Vote ⟨⟨⟨1, 0⟩, false⟩, none⟩

theorem accepts_first_vote (target : NodeId) : accepts ⟨some target, first_vote.body⟩ = true := by
  rw [accepts, decide_eq_true_iff, length_request]
  simp [first_vote, RaftRpc.body, Encode.requestBody, Encode.voteRequest, length_vote,
    length_optionLogId, length_varint, Postcard.varintLen_lt, Size.vote, Size.optionLogId, Size.nodeId,
    Size.target, max_message_size]

/-- A peer whose Raft has been stopped says so, in time, and is reported as
    unreachable. -/
theorem stopped_peer_unreachable :
    stopped_peer.Delivered ⟨0, 1, .on_port 35002⟩ first_vote ∧
    stopped_peer.raft 1 first_vote = .error (.Fatal .Stopped) ∧
    ∃ s', (linked (Network.send 1 ⟨0, 1, .on_port 35002⟩ first_vote)).run stopped_peer.answer
        ⟨∅, false⟩ = some (.error (.Unreachable (.Error (.Remote (.Raft (.Fatal .Stopped))))), s') := by
  have hdelivered : stopped_peer.Delivered ⟨0, 1, .on_port 35002⟩ first_vote :=
    ⟨rfl, rfl, rfl, rfl, accepts_first_vote 1, rfl⟩
  obtain ⟨s', hrun, _⟩ :=
    stopped_peer.run_send 0 ⟨0, 1, .on_port 35002⟩ first_vote ⟨∅, false⟩ rfl
  rw [stopped_peer.outcome_of_delivered hdelivered] at hrun
  exact ⟨hdelivered, rfl, s', hrun⟩

end RpcWorld

end Distruct

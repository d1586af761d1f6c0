import Distruct.Connection.Client

/-! # Following the Leader

    A node that is not the leader answers a request that needs leadership with
    an error that may name the leader. The error is wrapped in one variant of
    `RemoteError` when it comes from a write or a change of the membership and
    in another one when it comes from a linearizable read.
    `Client::request` looks at the first variant only.
-/

namespace Distruct

open Prog (AnyAnswer)

/-- The redirection that an error carries, whichever variant wraps it. -/
def RemoteError.forward_to_leader : RemoteError → Option ForwardToLeader
  | .RaftWrite (.APIError (.ForwardToLeader f)) => some f
  | .RaftCheckIsLeader (.APIError (.ForwardToLeader f)) => some f
  | _ => none

/-- The reads of the collections. -/
def RequestBody.is_read : RequestBody → Bool
  | .ContainsKey .. | .Get .. | .GetMulti .. | .Len .. => true
  | _ => false

/-! ### Which variant wraps the redirection -/

/-- A reply that redirects a read wraps the error of the leadership check, and
    a reply that redirects anything else the error of a write. -/
theorem redirecting_reply {j : NodeId} {msg : Request} {e : RemoteError} {f : ForwardToLeader}
    (h : (handle_message j msg).Returns AnyAnswer (.error e))
    (hf : e.forward_to_leader = some f) :
    if msg.body.is_read then ∃ x, e = .RaftCheckIsLeader x
    else e = .RaftWrite (.APIError (.ForwardToLeader f)) := by
  -- all branches but the reads wrap what Raft returned for a write
  have hwrite : ∀ {α : Type} {x : NodeProg (Except (RaftError ClientWriteError) α)} {g : α → Response},
      (do let r ← x
          return (r.map g).mapError RemoteError.RaftWrite :
        NodeProg (Except RemoteError Response)).Returns AnyAnswer (.error e) →
      e = .RaftWrite (.APIError (.ForwardToLeader f)) := by
    intro α x g h
    obtain ⟨y, _, rfl⟩ := translated_error h
    match y, hf with
    | .APIError (.ForwardToLeader f'), hf =>
      cases hf
      rfl
  -- the RPCs of Raft itself have no error that redirects
  have hraft : ∀ {α : Type} {x : NodeProg (Except (RaftError Empty) α)} {g : α → Response},
      ¬ (do let r ← x
            return (r.map g).mapError RemoteError.Raft :
          NodeProg (Except RemoteError Response)).Returns AnyAnswer (.error e) := by
    intro α x g h
    obtain ⟨y, _, rfl⟩ := translated_error h
    cases hf
  rcases handle_message_reply h with ⟨_, _, h⟩ | h
  · cases h
    cases hf
  obtain ⟨target_id, body⟩ := msg
  cases body with
  | AddLearner id peer blocking =>
    obtain ⟨metrics, _, h⟩ := Prog.returns_bind.mp h
    dsimp only at h
    split at h
    · cases h
      cases hf
    · exact hwrite h
  | ChangeMembership members retain => exact hwrite h
  | Append entries => exact absurd h hraft
  | Vote rpc => exact absurd h hraft
  | ContainsKey map key c => exact (consistent_read_error h).2
  | Get map key c => exact (consistent_read_error h).2
  | GetMulti multi_map key c => exact (consistent_read_error h).2
  | Len map c => exact (consistent_read_error h).2
  | Insert map key value => exact hwrite h
  | InsertMulti multi_map key value => exact hwrite h
  | Clear map => exact hwrite h
  | Remove map key =>
    obtain ⟨v, _, h⟩ := Prog.returns_bind.mp h
    cases h
  | RemoveMulti multi_map key value =>
    obtain ⟨v, _, h⟩ := Prog.returns_bind.mp h
    cases h

/-! ### What the client does with it -/

namespace Client

/-- Connects to the named leader and sends it the same body, addressed to its id. -/
def resend (owner : NodeId) (fuel : Nat) (leader_id : NodeId) (leader : Node)
    (body : RequestBody) : NodeResult Error Response := do
  let conn ← ExceptT.mk (Except.mapError Error.Transport <$> ask (.connect owner leader))
  request_loop owner fuel conn { target_id := some leader_id, body := body }

/-- One round of the loop, after the peer replied. -/
theorem request_loop_reply {σ : Type} {h : (o : Op) → σ → Option (o.Resp × σ)} {s s' : σ}
    (owner : NodeId) (fuel : Nat) (conn : Connection) (msg : Request)
    {reply : Except RemoteError Response}
    (hx : h (.exchange owner conn msg) s = some (.ok reply, s')) :
    (request_loop owner (fuel + 1) conn msg).run.run h s =
      match reply with
      | .ok resp => some (.ok resp, s')
      | .error e =>
        match redirect e with
        | some (leader_id, leader) => (resend owner fuel leader_id leader msg.body).run.run h s'
        | none => some (.error (.Remote e), s') := by
  rw [request_loop, Prog.run_run_bind]
  have hex : (ExceptT.mk (ask (.exchange owner conn msg))).run.run h s = some (.ok reply, s') := by
    simp [ask, Prog.perform, hx]
  rw [hex]
  cases reply with
  | ok resp => rfl
  | error e =>
    simp only [Option.bind_some]
    cases redirect e <;> rfl

/-- Whatever happens around it, a client that gets the reply `e` goes on by
    resending the request to the leader. -/
def Resends (owner : NodeId) (fuel : Nat) (conn : Connection) (msg : Request) (e : RemoteError)
    (leader_id : NodeId) (leader : Node) : Prop :=
  ∀ {σ : Type} (h : (o : Op) → σ → Option (o.Resp × σ)) (s s' : σ),
    h (.exchange owner conn msg) s = some (.ok (.error e), s') →
      (request_loop owner (fuel + 1) conn msg).run.run h s
        = (resend owner fuel leader_id leader msg.body).run.run h s'

/-- A peer that gives one reply to everything, on a node that can connect to
    nobody else. -/
def only_reply (e : RemoteError) : (o : Op) → Unit → Option (o.Resp × Unit)
  | .exchange .., _ => some (.ok (.error e), ())
  | _, _ => none

/-- **Redirections are followed, except for reads.** When a node answers a
    request with an error that names the leader, the client resends the same
    body to that leader under its id exactly when the request is not a read. -/
theorem resends_iff (owner : NodeId) (fuel : Nat) (conn : Connection) (msg : Request) (j : NodeId)
    (e : RemoteError) (leader_id : NodeId) (leader : Node)
    (h : (handle_message j msg).Returns AnyAnswer (.error e))
    (hf : e.forward_to_leader = some ⟨some leader_id, some leader⟩) :
    Resends owner fuel conn msg e leader_id leader ↔ msg.body.is_read = false := by
  have hkind := redirecting_reply h hf
  cases hread : msg.body.is_read with
  | true =>
    rw [hread, if_pos rfl] at hkind
    obtain ⟨x, rfl⟩ := hkind
    simp only [Bool.true_eq_false, iff_false]
    intro hre
    -- the error goes to the caller: without a connection to the leader the two runs differ
    have hrun := hre (only_reply (.RaftCheckIsLeader x)) () () rfl
    rw [request_loop_reply owner fuel conn msg rfl] at hrun
    cases hrun
  | false =>
    rw [hread, if_neg (by simp)] at hkind
    simp only [iff_true]
    intro σ h s s' hx
    -- a write error with a complete redirection is what the loop looks for
    rw [request_loop_reply owner fuel conn msg hx]
    subst hkind
    rfl

/-! ### A leader change between lookup and request -/

section example_cluster

/-- The node that took over the leadership. -/
def newLeader : Node := .localhost

/-- What node 1 knows: node 2 leads now. -/
def toNewLeader : ForwardToLeader := ⟨some 2, some newLeader⟩

/-- Clearing a map on the old leader is redirected. -/
theorem resends_clear :
    Resends 3 0 ⟨1⟩ ⟨some 1, .Clear "m"⟩ (.RaftWrite (.APIError (.ForwardToLeader toNewLeader)))
      2 newLeader ↔ (RequestBody.Clear "m").is_read = false :=
  resends_iff 3 0 ⟨1⟩ ⟨some 1, .Clear "m"⟩ 1 _ 2 newLeader
    (.call ⟨1, .Follower⟩ trivial (.call () trivial
      (.call (.error (.APIError (.ForwardToLeader toNewLeader))) trivial (.pure _)))) rfl

/-- The two nodes as node 3 sees them: node 1 redirects to node 2, the way
    `handle_message` does it, and node 2 answers. -/
def afterElection : (o : Op) → Unit → Option (o.Resp × Unit)
  | .exchange _ conn msg, _ =>
    if conn.peer = 1 then
      if msg.body.is_read then
        some (.ok (.error (.RaftCheckIsLeader (.APIError (.ForwardToLeader toNewLeader)))), ())
      else
        some (.ok (.error (.RaftWrite (.APIError (.ForwardToLeader toNewLeader)))), ())
    else
      if msg.body.is_read then some (.ok (.ok (.Get none)), ())
      else some (.ok (.ok (.ClientWrite ⟨⟨⟨2, 2⟩, 3⟩, .Insert none, none⟩)), ())
  | .connect _ node, _ => if node = newLeader then some (.ok ⟨2⟩, ()) else none
  | _, _ => none

/-- Just after a leader change, a linearizable read sent to the old leader fails
    with the redirection that a write sent at the same moment follows. -/
theorem read_not_redirected :
    (handle_message 1 ⟨some 1, .Get "m" [1] .ReadIndex⟩).Returns AnyAnswer
        (.error (.RaftCheckIsLeader (.APIError (.ForwardToLeader toNewLeader)))) ∧
      ¬ Resends 3 0 ⟨1⟩ ⟨some 1, .Get "m" [1] .ReadIndex⟩
        (.RaftCheckIsLeader (.APIError (.ForwardToLeader toNewLeader))) 2 newLeader ∧
      (request 2 ⟨3, ⟨1⟩, some 1⟩ (.Get "m" [1] .ReadIndex)).run.run afterElection ()
        = some (.error (.Remote
            (.RaftCheckIsLeader (.APIError (.ForwardToLeader toNewLeader)))), ()) ∧
      (request 2 ⟨3, ⟨1⟩, some 1⟩ (.Insert "m" [1] [2])).run.run afterElection ()
        = some (.ok (.ClientWrite ⟨⟨⟨2, 2⟩, 3⟩, .Insert none, none⟩), ()) := by
  refine ⟨.call ⟨1, .Follower⟩ trivial (.call ⟨3⟩ trivial
    (.call (.error (.APIError (.ForwardToLeader toNewLeader))) trivial (.pure _))), ?_, rfl, rfl⟩
  intro hre
  have hrun := hre
    (only_reply (.RaftCheckIsLeader (.APIError (.ForwardToLeader toNewLeader)))) () () rfl
  rw [request_loop_reply 3 0 ⟨1⟩ _ rfl] at hrun
  cases hrun

end example_cluster

end Client

end Distruct

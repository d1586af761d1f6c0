import Distruct.Connection.Client

/-! # Clients and Servers Agree on Responses

    The pairing of a client method with the branch of `handle_message` that
    answers it. It goes through four enumerations: the request, the logged
    request, what applying it returns, and the response. Every method accepts
    the response that its request is answered with, except `clear`: its
    request is answered like every logged write, but the method waits for
    `Response::Clear`, which no branch produces.
-/

namespace Distruct

open Postcard (Bytes)

/-- A call of a client method. -/
inductive Method where
  | add_learner (id : NodeId) (node : Node) (blocking : Bool)
  | change_membership (members : ChangeMembers) (retain : Bool)
  | append_entries (entries : AppendEntriesRequest)
  | vote (rpc : VoteRequest)
  | contains_key (map : String) (key : Bytes) (consistency : ReadConsistency)
  | insert (map : String) (key value : Bytes)
  | insert_multi (multi_map : String) (key value : Bytes)
  | get (map : String) (key : Bytes) (consistency : ReadConsistency)
  | get_multi (multi_map : String) (key : Bytes) (consistency : ReadConsistency)
  | remove (map : String) (key : Bytes)
  | remove_multi (multi_map : String) (key value : Bytes)
  | len (map : String) (consistency : ReadConsistency)
  | clear (map : String)

namespace Method

/-- What the method returns. -/
@[reducible] def Payload : Method → Type
  | .add_learner .. | .change_membership .. => ClientWriteResponse
  | .append_entries _ => AppendEntriesResponse
  | .vote _ => VoteResponse
  | .contains_key .. | .insert_multi .. | .remove_multi .. => Bool
  | .insert .. | .get .. | .remove .. => Option Bytes
  | .get_multi .. => Option (List Bytes)
  | .len .. => Option Nat
  | .clear _ => Unit

/-- The request that the method sends. -/
def body : Method → RequestBody
  | .add_learner id node blocking => .AddLearner id node blocking
  | .change_membership members retain => .ChangeMembership members retain
  | .append_entries entries => .Append entries
  | .vote rpc => .Vote rpc
  | .contains_key map key c => .ContainsKey map key c
  | .insert map key value => .Insert map key value
  | .insert_multi multi_map key value => .InsertMulti multi_map key value
  | .get map key c => .Get map key c
  | .get_multi multi_map key c => .GetMulti multi_map key c
  | .remove map key => .Remove map key
  | .remove_multi multi_map key value => .RemoveMulti multi_map key value
  | .len map c => .Len map c
  | .clear map => .Clear map

/-- The call itself. -/
def run (fuel : Nat) (c : Client) : (m : Method) → NodeResult Error m.Payload
  | .add_learner id node blocking => c.add_learner fuel id node blocking
  | .change_membership members retain => c.change_membership fuel members retain
  | .append_entries entries => c.append_entries fuel entries
  | .vote rpc => c.vote fuel rpc
  | .contains_key map key consistency => c.contains_key fuel map key consistency
  | .insert map key value => c.insert fuel map key value
  | .insert_multi multi_map key value => c.insert_multi fuel multi_map key value
  | .get map key consistency => c.get fuel map key consistency
  | .get_multi multi_map key consistency => c.get_multi fuel multi_map key consistency
  | .remove map key => c.remove fuel map key
  | .remove_multi multi_map key value => c.remove_multi fuel multi_map key value
  | .len map consistency => c.len fuel map consistency
  | .clear map => c.clear fuel map

/-- The payload that a response carries for the method, wherever the server
    puts it. -/
def Carries : (m : Method) → Response → m.Payload → Prop
  | .add_learner .., resp, p => resp = .AddLearner p
  | .change_membership .., resp, p => resp = .ClientWrite p
  | .append_entries _, resp, p => resp = .Append p
  | .vote _, resp, p => resp = .Vote p
  | .contains_key .., resp, p => resp = .ContainsKey p
  | .insert .., resp, p => ∃ r, resp = .ClientWrite r ∧ r.data = .Insert p
  | .insert_multi .., resp, p => ∃ r, resp = .ClientWrite r ∧ r.data = .InsertMulti p
  | .get .., resp, p => resp = .Get p
  | .get_multi .., resp, p => resp = .GetMulti p
  | .remove .., resp, p => resp = .Remove p
  | .remove_multi .., resp, p => resp = .RemoveMulti p
  | .len .., resp, p => resp = .Len p
  | .clear _, resp, _ => ∃ r, resp = .ClientWrite r ∧ r.data = .Clear

end Method

/-! ### The server's side -/

/-- A write that Raft reports as done carries what applying that very request
    returned, in some state of the data. -/
def WritesApplied : (o : Op) → o.Resp → Prop
  | .await_write _ req, .ok r => ∃ d, r.data = (apply_request d req).2
  | _, _ => True

/-- The reply to a logged write. -/
theorem write_response {i : NodeId} {req : RaftRequest} {resp : Response}
    (h : (do let r ← Raft.client_write i req
             return (r.map Response.ClientWrite).mapError RemoteError.RaftWrite :
          NodeProg (Except RemoteError Response)).Returns WritesApplied (.ok resp)) :
    ∃ r d, resp = .ClientWrite r ∧ r.data = (apply_request d req).2 := by
  obtain ⟨r, hr, rfl⟩ := translated_ok h
  obtain ⟨d, hd⟩ := returns_client_write hr
  exact ⟨r, d, rfl, hd⟩

/-- Every successful reply carries a payload for the method that asked. -/
theorem reply_carries {m : Method} {i : NodeId} {target_id : Option NodeId} {resp : Response}
    (h : (handle_message i ⟨target_id, m.body⟩).Returns WritesApplied (.ok resp)) :
    ∃ p, m.Carries resp p := by
  rcases handle_message_reply h with ⟨_, _, h⟩ | h
  · cases h
  cases m with
  | add_learner id node blocking =>
    obtain ⟨metrics, _, h⟩ := Prog.returns_bind.mp h
    dsimp only at h
    split at h
    · cases h
    · obtain ⟨r, _, rfl⟩ := translated_ok h
      exact ⟨r, rfl⟩
  | change_membership members retain =>
    obtain ⟨r, _, rfl⟩ := translated_ok h
    exact ⟨r, rfl⟩
  | append_entries entries =>
    obtain ⟨r, _, rfl⟩ := translated_ok h
    exact ⟨r, rfl⟩
  | vote rpc =>
    obtain ⟨r, _, rfl⟩ := translated_ok h
    exact ⟨r, rfl⟩
  | contains_key map key consistency =>
    obtain ⟨v, _, rfl⟩ := consistent_read_ok h
    exact ⟨v, rfl⟩
  | insert map key value =>
    obtain ⟨r, d, rfl, hd⟩ := write_response h
    exact ⟨_, r, rfl, hd⟩
  | insert_multi multi_map key value =>
    obtain ⟨r, d, rfl, hd⟩ := write_response h
    exact ⟨_, r, rfl, hd⟩
  | get map key consistency =>
    obtain ⟨v, _, rfl⟩ := consistent_read_ok h
    exact ⟨v, rfl⟩
  | get_multi multi_map key consistency =>
    obtain ⟨v, _, rfl⟩ := consistent_read_ok h
    exact ⟨v, rfl⟩
  | remove map key =>
    obtain ⟨v, _, h⟩ := Prog.returns_bind.mp h
    cases h
    exact ⟨v, rfl⟩
  | remove_multi multi_map key value =>
    obtain ⟨v, _, h⟩ := Prog.returns_bind.mp h
    cases h
    exact ⟨_, rfl⟩
  | len map consistency =>
    obtain ⟨v, _, rfl⟩ := consistent_read_ok h
    exact ⟨v, rfl⟩
  | clear map =>
    obtain ⟨r, d, rfl, hd⟩ := write_response h
    exact ⟨(), r, rfl, hd⟩

/-! ### The client's side -/

/-- A peer that answers the message `msg` with `resp`. -/
def replies_with (msg : Request) (resp : Response) :
    (o : Op) → Unit → Option (o.Resp × Unit)
  | .exchange _ _ msg', _ => if msg' = msg then some (.ok (.ok resp), ()) else none
  | _, _ => none

/-- What the method returns to its caller when the request it sends is
    answered with `resp`. -/
def Method.result (m : Method) (fuel : Nat) (c : Client) (resp : Response) :
    Option (Except Error m.Payload) :=
  ((m.run (fuel + 1) c).run.run (replies_with ⟨c.target_id, m.body⟩ resp) ()).map Prod.fst

theorem request_replies (fuel : Nat) (c : Client) (body : RequestBody) (resp : Response) :
    (c.request (fuel + 1) body).run.run (replies_with ⟨c.target_id, body⟩ resp) ()
      = some (.ok resp, ()) := by
  rw [Client.request, Client.request_loop, Prog.run_run_bind]
  have hx : (ExceptT.mk (ask (.exchange c.owner c.conn ⟨c.target_id, body⟩))).run.run
      (replies_with ⟨c.target_id, body⟩ resp) () = some (.ok (.ok resp), ()) := by
    simp [ask, Prog.perform, replies_with]
  rw [hx]
  rfl

theorem call_replies {α : Type} (fuel : Nat) (c : Client) (body : RequestBody) (resp : Response)
    (accept : Response → Option α) :
    ((c.call (fuel + 1) body accept).run.run (replies_with ⟨c.target_id, body⟩ resp) ()).map
        Prod.fst
      = some (match accept resp with
        | some a => .ok a
        | none => .error (.Protocol .UnknownResponse)) := by
  rw [Client.call, Prog.run_run_bind, request_replies]
  simp only [Option.bind_some]
  cases accept resp <;> rfl

/-- A method other than `clear` returns the payload of a response made for it. -/
theorem result_of_carries {m : Method} (hm : ∀ map, m ≠ .clear map) (fuel : Nat) (c : Client)
    {resp : Response} {p : m.Payload} (h : m.Carries resp p) :
    m.result fuel c resp = some (.ok p) := by
  cases m with
  | insert map key value =>
    obtain ⟨r, rfl, hr⟩ := h
    refine (call_replies fuel c _ _ _).trans ?_
    -- the payload is the response of the state machine inside
    obtain ⟨_, _, _⟩ := r
    cases hr
    rfl
  | insert_multi multi_map key value =>
    obtain ⟨r, rfl, hr⟩ := h
    refine (call_replies fuel c _ _ _).trans ?_
    obtain ⟨_, _, _⟩ := r
    cases hr
    rfl
  | clear map => exact absurd rfl (hm map)
  | _ =>
    cases h
    exact call_replies fuel c _ _ _

/-- `clear` does not recognise the response to a logged write. -/
theorem result_clear (fuel : Nat) (c : Client) (map : String) (r : ClientWriteResponse) :
    (Method.clear map).result fuel c (.ClientWrite r)
      = some (.error (.Protocol .UnknownResponse)) :=
  call_replies fuel c _ _ _

/-- **Client and server agree on responses, except for `clear`.** Whatever the
    server's state, if it answers the request of a method with a response, the
    method returns the payload of that response to its caller exactly when the
    method is not `clear`. -/
theorem method_returns_payload_iff (m : Method) (c : Client) (fuel : Nat) (j : NodeId)
    (resp : Response)
    (h : (handle_message j ⟨c.target_id, m.body⟩).Returns WritesApplied (.ok resp)) :
    (∃ p, m.Carries resp p ∧ m.result fuel c resp = some (.ok p)) ↔ ∀ map, m ≠ .clear map := by
  obtain ⟨p, hp⟩ := reply_carries h
  constructor
  · rintro ⟨_, _, hres⟩ map rfl
    obtain ⟨r, rfl, _⟩ := hp
    -- the caller of `clear` got an error
    rw [result_clear] at hres
    cases hres
  · intro hm
    exact ⟨p, hp, result_of_carries hm fuel c hp⟩

/-- A node that was just created has no map named `m`. -/
theorem method_returns_payload_len :
    (∃ p, (Method.len "m" .Stale).Carries (.Len none) p ∧
      (Method.len "m" .Stale).result 0 ⟨1, ⟨2⟩, none⟩ (.Len none) = some (.ok p)) ↔
    ∀ map, Method.len "m" .Stale ≠ .clear map :=
  method_returns_payload_iff (.len "m" .Stale) ⟨1, ⟨2⟩, none⟩ 0 2 (.Len none)
    (.call none trivial (.pure _))

/-- The log id and response of a `clear` that was applied. -/
def clearedResponse : ClientWriteResponse := ⟨⟨⟨1, 1⟩, 2⟩, .Clear, none⟩

/-- A `clear` that took effect is reported to its caller as a protocol error. -/
theorem clear_reported_as_error :
    (handle_message 1 ⟨some 1, (Method.clear "m").body⟩).Returns WritesApplied
        (.ok (.ClientWrite clearedResponse)) ∧
      (Method.clear "m").result 0 ⟨2, ⟨1⟩, some 1⟩ (.ClientWrite clearedResponse)
        = some (.error (.Protocol .UnknownResponse)) ∧
      ¬ ∀ (m : Method) (c : Client) (fuel : Nat) (j : NodeId) (resp : Response),
        (handle_message j ⟨c.target_id, m.body⟩).Returns WritesApplied (.ok resp) →
          ∃ p, m.Carries resp p ∧ m.result fuel c resp = some (.ok p) := by
  have hreply : (handle_message 1 ⟨some 1, (Method.clear "m").body⟩).Returns WritesApplied
      (.ok (.ClientWrite clearedResponse)) :=
    .call ⟨1, .Leader⟩ trivial (.call () trivial (.call (.ok clearedResponse)
      ⟨default, rfl⟩ (.pure _)))
  have hresult := result_clear 0 ⟨2, ⟨1⟩, some 1⟩ "m" clearedResponse
  refine ⟨hreply, hresult, ?_⟩
  intro hall
  obtain ⟨p, _, hp⟩ := hall (.clear "m") ⟨2, ⟨1⟩, some 1⟩ 0 1 _ hreply
  rw [hresult] at hp
  cases hp

end Distruct

import Distruct.Cluster.HandleMessage

/-! # The Client

    `connection/client.rs`. A client is bound to a connection and, unless it
    talks to a seed, to the id of the node it expects there. `Client::request`
    loops for as long as replies redirect it; `fuel` bounds the number of
    rounds that are followed.
-/

namespace Distruct

open Postcard (Bytes)

structure Client where
  /-- The node on which the client lives and whose connection cache it uses. -/
  owner : NodeId
  conn : Connection
  target_id : Option NodeId
  deriving DecidableEq

namespace Client

def new (owner : NodeId) (node : Node) (node_id : Option NodeId) : NodeResult Error Client := do
  let conn ← ExceptT.mk (Except.mapError Error.Transport <$> ask (.connect owner node))
  return { owner := owner, conn := conn, target_id := node_id }

/-- The leader that a reply redirects a request to. -/
def redirect (e : RemoteError) : Option (NodeId × Node) :=
  match e with
  -- only the error of a write is looked at
  | .RaftWrite raft_error => do
    let ftl ← raft_error.forward_to_leader
    let new_leader_id ← ftl.leader_id
    let new_leader ← ftl.leader_node
    return (new_leader_id, new_leader)
  | _ => none

/-- The loop of `Client::request`: send `msg` over `conn` and return the
    response, or resend it to the leader that the reply names. -/
def request_loop (owner : NodeId) : Nat → Connection → Request → NodeResult Error Response
  | 0, _, _ => do
    let never ← (ask .out_of_fuel : NodeProg Empty)
    nomatch never
  | fuel + 1, conn, msg => do
    -- a new stream for every round
    let resp ← ExceptT.mk (ask (.exchange owner conn msg))
    match resp with
    | .ok resp => return resp
    | .error e =>
      match redirect e with
      | some (leader_id, leader) =>
        let conn ← ExceptT.mk (Except.mapError Error.Transport <$> ask (.connect owner leader))
        request_loop owner fuel conn { msg with target_id := some leader_id }
      | none => throw (.Remote e)

def request (fuel : Nat) (c : Client) (request : RequestBody) : NodeResult Error Response :=
  request_loop c.owner fuel c.conn { target_id := c.target_id, body := request }

/-! ### The methods

    Each sends one kind of request and accepts one kind of response. -/

/-- Sends `body` and takes from the response what the method accepts. -/
def call {α : Type} (fuel : Nat) (c : Client) (body : RequestBody)
    (accept : Response → Option α) : NodeResult Error α := do
  let resp ← c.request fuel body
  match accept resp with
  | some a => return a
  | none => throw (.Protocol .UnknownResponse)

section methods
variable (fuel : Nat) (c : Client)

def add_learner (id : NodeId) (node : Node) (blocking : Bool) :
    NodeResult Error ClientWriteResponse :=
  c.call fuel (.AddLearner id node blocking) fun
    | .AddLearner r => some r
    | _ => none

def change_membership (members : ChangeMembers) (retain : Bool) :
    NodeResult Error ClientWriteResponse :=
  c.call fuel (.ChangeMembership members retain) fun
    | .ClientWrite r => some r
    | _ => none

def append_entries (entries : AppendEntriesRequest) : NodeResult Error AppendEntriesResponse :=
  c.call fuel (.Append entries) fun
    | .Append r => some r
    | _ => none

def vote (rpc : VoteRequest) : NodeResult Error VoteResponse :=
  c.call fuel (.Vote rpc) fun
    | .Vote r => some r
    | _ => none

def contains_key (map : String) (key : Bytes) (consistency : ReadConsistency) :
    NodeResult Error Bool :=
  c.call fuel (.ContainsKey map key consistency) fun
    | .ContainsKey response => some response
    | _ => none

def insert (map : String) (key value : Bytes) : NodeResult Error (Option Bytes) :=
  c.call fuel (.Insert map key value) fun
    | .ClientWrite { data := .Insert value, .. } => some value
    | _ => none

def insert_multi (multi_map : String) (key value : Bytes) : NodeResult Error Bool :=
  c.call fuel (.InsertMulti multi_map key value) fun
    | .ClientWrite { data := .InsertMulti inserted, .. } => some inserted
    | _ => none

def get (map : String) (key : Bytes) (consistency : ReadConsistency) :
    NodeResult Error (Option Bytes) :=
  c.call fuel (.Get map key consistency) fun
    | .Get response => some response
    | _ => none

def get_multi (multi_map : String) (key : Bytes) (consistency : ReadConsistency) :
    NodeResult Error (Option (List Bytes)) :=
  c.call fuel (.GetMulti multi_map key consistency) fun
    | .GetMulti response => some response
    | _ => none

def remove (map : String) (key : Bytes) : NodeResult Error (Option Bytes) :=
  c.call fuel (.Remove map key) fun
    | .Remove response => some response
    | _ => none

def remove_multi (multi_map : String) (key value : Bytes) : NodeResult Error Bool :=
  c.call fuel (.RemoveMulti multi_map key value) fun
    | .RemoveMulti response => some response
    | _ => none

def len (map : String) (consistency : ReadConsistency) : NodeResult Error (Option Nat) :=
  c.call fuel (.Len map consistency) fun
    | .Len response => some response
    | _ => none

def clear (map : String) : NodeResult Error Unit :=
  c.call fuel (.Clear map) fun
    | .Clear => some ()
    | _ => none

end methods

/-! ### The calls of a client -/

/-- The calls that a client makes: connections and exchanges. -/
def Talks : Op → Prop
  | .connect .. => True
  | .exchange .. => True
  | .out_of_fuel => True
  | _ => False

section uses
variable {A : (o : Op) → o.Resp → Prop}

theorem uses_new (owner : NodeId) (node : Node) (node_id : Option NodeId) :
    (Client.new owner node node_id).run.Uses A Talks :=
  Prog.uses_run_bind (Prog.uses_map ⟨trivial, fun _ _ => trivial⟩) fun _ _ => trivial

theorem uses_request_loop (owner : NodeId) (fuel : Nat) (conn : Connection) (msg : Request) :
    (request_loop owner fuel conn msg).run.Uses A Talks := by
  induction fuel generalizing conn msg with
  | zero => exact ⟨trivial, nofun⟩
  | succ fuel ih =>
    refine Prog.uses_run_bind ⟨trivial, fun _ _ => trivial⟩ ?_
    intro reply _
    cases reply with
    | ok resp => trivial
    | error e =>
      dsimp only
      split
      · exact Prog.uses_run_bind (Prog.uses_map ⟨trivial, fun _ _ => trivial⟩) fun conn _ => ih conn _
      · trivial

theorem uses_call {α : Type} (fuel : Nat) (c : Client) (body : RequestBody)
    (accept : Response → Option α) : (c.call fuel body accept).run.Uses A Talks := by
  refine Prog.uses_run_bind (uses_request_loop c.owner fuel c.conn _) ?_
  intro resp _
  split
  · trivial
  · trivial

end uses

end Client

end Distruct

import Distruct.Connection.Client
import Distruct.Raft.Membership

/-! # Spawning a Node

    `Cluster::spawn`: the endpoint and its accept loop, Raft and the background
    tasks are started, and then the node joins the cluster of its seed or
    initializes one of its own. Each of these steps can fail, and every failure
    leaves the function at once.
-/

namespace Distruct

open Postcard (Bytes)

/-! ### The function -/

structure ClusterConfig where
  bind_addr : SocketAddr
  public_addr : Option SocketAddr
  public_server_name : String
  seed : Option (SocketAddr × String)
  certs : List Bytes
  key : Bytes

inductive ConfigError where
  | Rustls (reason : String)
  | NoInitialCipherSuite (reason : String)

inductive InitializeError where
  | NotAllowed (last_log_id : Option LogId) (vote : Vote)
  | NotInMembers (node_id : NodeId) (membership : Membership)

inductive WaitError where
  | Timeout (timeout : Nat) (msg : String)
  | ShuttingDown

inductive SpawnClusterError where
  | Config (e : ConfigError)
  | CreateEndpoint (reason : String)
  | Initialize (e : RaftError InitializeError)
  | Wait (e : WaitError)
  | Join (e : Error)

/-- What `tokio::spawn` is called with. -/
inductive BackgroundTask where
  | accept_loop
  | graceful_shutdown
  | watch_membership_changes
  | detect_failures
  | main_loop
  deriving DecidableEq

inductive SpawnOp where
  /-- A call that other code of a node makes as well -/
  | node (o : Op)
  /-- `create_endpoint`, where the configuration or the socket can be at fault -/
  | create_endpoint (addr : SocketAddr) (certs : List Bytes) (key : Bytes)
  | local_addr
  /-- `ulid::Ulid::generate()` -/
  | generate_id
  | raft_new (server_id : NodeId)
  | spawn_task (task : BackgroundTask)
  /-- `raft.initialize(..)` -/
  | initialize_raft (members : HashMap NodeId Node)
  /-- `raft.wait(..).state(..)` -/
  | wait (state : ServerState)
  | close_client (client : Client)

@[reducible] def SpawnOp.Resp : SpawnOp → Type
  | .node o => o.Resp
  | .create_endpoint .. => Except (ConfigError ⊕ String) Unit
  | .local_addr => Except String SocketAddr
  | .generate_id => NodeId
  | .raft_new _ => Except Fatal Unit
  | .spawn_task _ => Unit
  | .initialize_raft _ => Except (RaftError InitializeError) Unit
  | .wait _ => Except WaitError Unit
  | .close_client _ => Unit

abbrev SpawnProg := Prog SpawnOp SpawnOp.Resp

namespace SpawnProg

def await (o : SpawnOp) : SpawnProg o.Resp := Prog.perform o

def lift {α : Type} (p : NodeProg α) : SpawnProg α := p.interp fun o => await (.node o)

end SpawnProg

/-- What a running `Cluster` knows of itself. -/
structure ClusterRef where
  node_id : NodeId
  local_addr : SocketAddr
  public_addr : SocketAddr

namespace Cluster

open SpawnProg

def create_endpoint (addr : SocketAddr) (certs : List Bytes) (key : Bytes) :
    ExceptT SpawnClusterError SpawnProg Unit :=
  ExceptT.mk do
    match ← await (.create_endpoint addr certs key) with
    | .ok () => return .ok ()
    | .error (.inl e) => return .error (.Config e)
    | .error (.inr reason) => return .error (.CreateEndpoint reason)

/-- Code of a client, whose errors are those of the join. -/
def joining {α : Type} (p : NodeResult Error α) : ExceptT SpawnClusterError SpawnProg α :=
  ExceptT.mk (Except.mapError SpawnClusterError.Join <$> lift p.run)

def wait (state : ServerState) : ExceptT SpawnClusterError SpawnProg Unit :=
  ExceptT.mk (Except.mapError SpawnClusterError.Wait <$> await (.wait state))

/-- Joins the cluster of the seed. -/
def join (fuel : Nat) (server_id : NodeId) (server_node : Node) (seed : SocketAddr × String) :
    ExceptT SpawnClusterError SpawnProg Unit := do
  let client ← joining (Client.new server_id ⟨seed.1, seed.2⟩ none)
  let _ ← joining (client.add_learner fuel server_id server_node true)
  let _ ← joining (client.change_membership fuel (.AddVoterIds {server_id}) true)
  wait .Follower
  await (.close_client client)

/-- Initializes a cluster of one node. -/
def initialize_cluster (server_id : NodeId) (server_node : Node) : ExceptT SpawnClusterError SpawnProg Unit := do
  ExceptT.mk (Except.mapError SpawnClusterError.Initialize <$>
    await (.initialize_raft (Finmap.singleton server_id server_node)))
  wait .Leader

def spawn (fuel : Nat) (config : ClusterConfig) : ExceptT SpawnClusterError SpawnProg ClusterRef := do
  create_endpoint config.bind_addr config.certs config.key
  -- `Server::new`
  await (.spawn_task .accept_loop)
  let local_addr ← ExceptT.mk (Except.mapError SpawnClusterError.CreateEndpoint <$> await .local_addr)
  let server_id ← (await .generate_id : SpawnProg NodeId)
  ExceptT.mk (Except.mapError (fun f => SpawnClusterError.Initialize (.Fatal f)) <$>
    await (.raft_new server_id))
  await (.spawn_task .graceful_shutdown)
  await (.spawn_task .watch_membership_changes)
  await (.spawn_task .detect_failures)
  await (.spawn_task .main_loop)
  let public_addr := config.public_addr.getD local_addr
  let server_node : Node := ⟨public_addr, config.public_server_name⟩
  match config.seed with
  | some seed => join fuel server_id server_node seed
  | none => initialize_cluster server_id server_node
  return { node_id := server_id, local_addr := local_addr, public_addr := public_addr }

end Cluster

end Distruct

import Distruct.Connection.Server

/-! # Shutting Down

    `force_shutdown` and `on_graceful_shutdown` of `cluster.rs`, and the task of
    `Cluster::spawn` that waits for a graceful shutdown. `std::process::exit`
    ends everything there is, so code that may get there is code that can end
    in a `ProcessExit`.
-/

namespace Distruct

/-- The process has exited with this code. -/
structure ProcessExit where
  code : Nat
  deriving DecidableEq

def force_shutdown (i : NodeId) : NodeResult ProcessExit Unit := do
  if let .error _ ← ask (.shutdown i) then
    throw ⟨1⟩
  if let .error _ ← ask (.broadcast_shutdown i) then
    throw ⟨1⟩

/-- The first part of `on_graceful_shutdown`: the node has itself removed from
    the membership, unless it is alone. -/
def leave_cluster (fuel : Nat) (i : NodeId) : NodeResult Error Unit := do
  let metrics ← ask (.metrics i)
  if metrics.membership_config.membership.nodes.keys.card > 1 then
    let server_metrics ← ask (.server_metrics i)
    let nodes : Finset NodeId := {server_metrics.id}
    let server_metrics ← ask (.server_metrics i)
    if server_metrics.state.is_leader then
      let _ ← ExceptT.mk (Except.mapError (fun e => Error.Remote (.RaftWrite e)) <$>
        ask (.change_membership i (.RemoveVoters nodes) false))
      return ()
    else
      let metrics ← ask (.metrics i)
      match metrics.current_leader with
      | none => return ()
      | some leader_id =>
        let metrics ← ask (.metrics i)
        match metrics.membership_config.membership.get_node leader_id with
        | none => return ()
        | some leader_node =>
          let client ← Client.new i leader_node (some leader_id)
          let server_metrics ← ask (.server_metrics i)
          if server_metrics.state.is_learner then
            let _ ← client.change_membership fuel (.RemoveNodes nodes) false
            return ()
          else
            let _ ← client.change_membership fuel (.RemoveVoters nodes) false
            return ()

def on_graceful_shutdown (fuel : Nat) (i : NodeId) : NodeResult ProcessExit (Except Error Unit) := do
  match ← (leave_cluster fuel i).run with
  | .error e => return .error e
  | .ok () =>
    force_shutdown i
    return .ok ()

/-- The task that is spawned for the graceful shutdown, once it is asked to. -/
def shutdown_task (fuel : Nat) (i : NodeId) : NodeResult ProcessExit Unit := do
  if let .error _ ← on_graceful_shutdown fuel i then
    throw ⟨1⟩

end Distruct

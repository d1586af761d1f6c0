import Distruct.Connection.Server

/-! # Collections

    `collections/mod.rs` and the parts of `ClusterRef` that the collections
    use. Keys and values are of any types that serde and postcard can encode.
-/

namespace Distruct

open Postcard (Bytes)

/-- A type that postcard can encode. -/
class Serialize (α : Type) where
  to_allocvec : α → Except Postcard.Error Bytes

/-- A type that postcard can decode. -/
class Deserialize (α : Type) where
  from_bytes : Bytes → Except Postcard.Error α

instance : Serialize Bytes := ⟨fun bs => .ok (Postcard.Codec.bytes.encode bs)⟩

instance : Deserialize Bytes := ⟨Postcard.Codec.bytes.from_bytes⟩

instance : Serialize UInt8 := ⟨fun b => .ok (Postcard.Codec.u8.encode b)⟩

instance : Deserialize UInt8 := ⟨Postcard.Codec.u8.from_bytes⟩

/-- `postcard::to_allocvec(a)?` -/
def to_allocvec {α : Type} [Serialize α] (a : α) : NodeResult Error Bytes :=
  ExceptT.mk (pure ((Serialize.to_allocvec a).mapError Error.Serialization))

/-- `postcard::from_bytes(bs)?` -/
def from_bytes {α : Type} [Deserialize α] (bs : Bytes) : Except Error α :=
  (Deserialize.from_bytes bs).mapError Error.Serialization

/-! ### `ClusterRef` -/

namespace ClusterRef

/-- The leader that the node's metrics show, if its address is known. -/
def get_leader (i : NodeId) : NodeProg (Option (NodeId × Node)) := do
  let metrics ← ask (.metrics i)
  return do
    let leader_id ← metrics.current_leader
    let leader ← metrics.membership_config.membership.get_node leader_id
    return (leader_id, leader)

def is_leader (i : NodeId) : NodeProg Bool := do
  let current_leader ← ask (.current_leader i)
  return (current_leader.map fun id => id == i).getD false

end ClusterRef

/-- `client_to_leader` of `DMap` and `DMultiMap`. -/
def client_to_leader (i : NodeId) : NodeResult Error Client := do
  match ← ClusterRef.get_leader i with
  | none => throw .LeaderNotFound
  | some (leader_id, leader) => Client.new i leader (some leader_id)

/-! ### Where a read is served -/

/-- `ensure_consistency` of `collections/mod.rs`. -/
def ensure_local_consistency (i : NodeId) :
    ReadConsistency → NodeProg (Except (RaftError CheckIsLeaderError) Unit)
  | .Stale | .LeaderStale => return .ok ()
  | .LeaseRead | .ReadIndex => Except.map (fun _ => ()) <$> Raft.ensure_linearizable i

/-- Whether a read can be served from the local state. -/
def should_read_stale (i : NodeId) (consistency : ReadConsistency) : NodeResult Error Bool :=
  match consistency with
  | .Stale => return true
  | .LeaderStale | .LeaseRead | .ReadIndex => do
    if !(← ClusterRef.is_leader i) then
      -- we must not read from local state
      return false
    match ← ensure_local_consistency i consistency with
    | .ok () => return true
    | .error (.APIError (.ForwardToLeader _)) =>
      -- we thought we were the leader, but we aren't
      return false
    | .error err => throw (.RaftCheckIsLeader err)

end Distruct

import Distruct.Raft.Types

/-! # Errors

    `error.rs`: the errors that travel back from another node and the errors
    that a caller of the crate sees. Reasons reported by QUIC are texts.
-/

namespace Distruct

/-- Nodes failed to communicate. -/
inductive TransportError where
  | Connect (reason : String)
  | Connection (reason : String)
  | Write (reason : String)
  | Read (reason : String)
  deriving DecidableEq

/-- Nodes use different protocols. -/
inductive ProtocolError where
  | DeserializeResponse (e : Postcard.Error)
  | UnknownResponse
  deriving DecidableEq

/-- An error that happened on another node. -/
inductive RemoteError where
  | RaftWrite (e : RaftError ClientWriteError)
  | RaftCheckIsLeader (e : RaftError CheckIsLeaderError)
  | Raft (e : RaftError Empty)
  | NodeExists (id : NodeId) (addr : SocketAddr)
  | InvalidNode (target_id actual_id : NodeId)
  deriving DecidableEq

inductive Error where
  | Transport (e : TransportError)
  | Protocol (e : ProtocolError)
  | Remote (e : RemoteError)
  | LeaderNotFound
  | Serialization (e : Postcard.Error)
  | Raft (e : RaftError Empty)
  | RaftCheckIsLeader (e : RaftError CheckIsLeaderError)
  deriving DecidableEq

end Distruct

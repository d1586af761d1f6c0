import Distruct.Error
import Mathlib.Data.Finset.Sort

/-! # Requests and Responses

    `connection/message.rs`, with the read consistencies of
    `collections/mod.rs`, and the postcard encoding of requests. Messages are
    passed around by value; their encodings matter for the size limit of the
    server only.
-/

namespace Distruct

open Postcard (Bytes)

inductive ReadConsistency where
  | Stale
  | LeaderStale
  | LeaseRead
  | ReadIndex
  deriving DecidableEq

inductive RequestBody where
  | AddLearner (id : NodeId) (peer : Node) (blocking : Bool)
  | ChangeMembership (members : ChangeMembers) (retain : Bool)
  | Append (entries : AppendEntriesRequest)
  | Vote (rpc : VoteRequest)
  | ContainsKey (map : String) (key : Bytes) (consistency : ReadConsistency)
  | Insert (map : String) (key value : Bytes)
  | InsertMulti (multi_map : String) (key value : Bytes)
  | Get (map : String) (key : Bytes) (consistency : ReadConsistency)
  | GetMulti (multi_map : String) (key : Bytes) (consistency : ReadConsistency)
  | Remove (map : String) (key : Bytes)
  | RemoveMulti (multi_map : String) (key value : Bytes)
  | Len (map : String) (consistency : ReadConsistency)
  | Clear (map : String)
  deriving DecidableEq

structure Request where
  target_id : Option NodeId
  body : RequestBody
  deriving DecidableEq

inductive Response where
  | AddLearner (r : ClientWriteResponse)
  | ClientWrite (r : ClientWriteResponse)
  | Append (r : AppendEntriesResponse)
  | Vote (r : VoteResponse)
  | ContainsKey (found : Bool)
  | Get (value : Option Bytes)
  | GetMulti (values : Option (List Bytes))
  | Remove (value : Option Bytes)
  | RemoveMulti (removed : Bool)
  | Len (len : Option Nat)
  | Clear
  deriving DecidableEq

/-! ### Encoding of the openraft types -/

namespace Encode

open Postcard (varint option bool seq)
open Postcard.Codec (str bytes)

/-- The letters of Crockford's base 32. -/
def ulidAlphabet : List UInt8 := "0123456789ABCDEFGHJKMNPQRSTVWXYZ".toUTF8.data.toList

/-- The 26 letters of a ULID. -/
def ulidText (id : NodeId) : Bytes :=
  (List.range 26).map fun i => ulidAlphabet.getD (id / 32 ^ (25 - i) % 32) 0

/-- A node id is written as a string. -/
def nodeId (id : NodeId) : Bytes := bytes.encode (ulidText id)

/-- Serde writes the address and the port. It leaves out the flow information and
    the scope of an IPv6 address. -/
def socketAddr : SocketAddr → Bytes
  | .V4 ip port => varint 0 ++ ip.toList ++ varint port.toNat
  | .V6 ip port _ _ => varint 1 ++ ip.toList ++ varint port.toNat

def node (n : Node) : Bytes := socketAddr n.addr ++ str.encode n.server_name

def leaderId (l : LeaderId) : Bytes := varint l.term ++ nodeId l.node_id

def logId (l : LogId) : Bytes := leaderId l.leader_id ++ varint l.index

def vote (v : Vote) : Bytes := leaderId v.leader_id ++ bool v.committed

/-- A sorted set of ids. -/
def idSet (ids : Finset NodeId) : Bytes := seq nodeId ids.sort

/-- A map sorted by id. -/
def nodeMap (nodes : HashMap NodeId Node) : Bytes :=
  seq (fun id => nodeId id ++ ((nodes.lookup id).map node).getD []) nodes.keys.sort

def membership (m : Membership) : Bytes := seq idSet m.configs ++ nodeMap m.nodes

def raftRequest : RaftRequest → Bytes
  | .Insert map key value => varint 0 ++ str.encode map ++ bytes.encode key ++ bytes.encode value
  | .InsertMulti map key value =>
    varint 1 ++ str.encode map ++ bytes.encode key ++ bytes.encode value
  | .Clear map => varint 2 ++ str.encode map

def entryPayload : EntryPayload → Bytes
  | .Blank => varint 0
  | .Normal req => varint 1 ++ raftRequest req
  | .Membership m => varint 2 ++ membership m

def entry (e : Entry) : Bytes := logId e.log_id ++ entryPayload e.payload

def appendEntriesRequest (r : AppendEntriesRequest) : Bytes :=
  vote r.vote ++ option logId r.prev_log_id ++ seq entry r.entries ++ option logId r.leader_commit

def voteRequest (r : VoteRequest) : Bytes := vote r.vote ++ option logId r.last_log_id

def changeMembers : ChangeMembers → Bytes
  | .AddVoterIds ids => varint 0 ++ idSet ids
  | .AddVoters nodes => varint 1 ++ nodeMap nodes
  | .RemoveVoters ids => varint 2 ++ idSet ids
  | .ReplaceAllVoters ids => varint 3 ++ idSet ids
  | .AddNodes nodes => varint 4 ++ nodeMap nodes
  | .SetNodes nodes => varint 5 ++ nodeMap nodes
  | .RemoveNodes ids => varint 6 ++ idSet ids
  | .ReplaceAllNodes nodes => varint 7 ++ nodeMap nodes

/-! ### Encoding of requests -/

def readConsistency : ReadConsistency → Bytes
  | .Stale => varint 0
  | .LeaderStale => varint 1
  | .LeaseRead => varint 2
  | .ReadIndex => varint 3

def requestBody : RequestBody → Bytes
  | .AddLearner id peer blocking => varint 0 ++ nodeId id ++ node peer ++ bool blocking
  | .ChangeMembership members retain => varint 1 ++ changeMembers members ++ bool retain
  | .Append entries => varint 2 ++ appendEntriesRequest entries
  | .Vote rpc => varint 3 ++ voteRequest rpc
  | .ContainsKey map key c => varint 4 ++ str.encode map ++ bytes.encode key ++ readConsistency c
  | .Insert map key value => varint 5 ++ str.encode map ++ bytes.encode key ++ bytes.encode value
  | .InsertMulti map key value =>
    varint 6 ++ str.encode map ++ bytes.encode key ++ bytes.encode value
  | .Get map key c => varint 7 ++ str.encode map ++ bytes.encode key ++ readConsistency c
  | .GetMulti map key c => varint 8 ++ str.encode map ++ bytes.encode key ++ readConsistency c
  | .Remove map key => varint 9 ++ str.encode map ++ bytes.encode key
  | .RemoveMulti map key value =>
    varint 10 ++ str.encode map ++ bytes.encode key ++ bytes.encode value
  | .Len map c => varint 11 ++ str.encode map ++ readConsistency c
  | .Clear map => varint 12 ++ str.encode map

def request (r : Request) : Bytes := option nodeId r.target_id ++ requestBody r.body

end Encode

end Distruct

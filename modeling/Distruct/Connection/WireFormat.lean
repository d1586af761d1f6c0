import Distruct.Connection.Message
import Distruct.Framework.Format

/-! # The Wire Format

    The derived formats of the messages in `connection/message.rs` and of all
    types in them. Requests are written by `Encode`; here they are read back.

    How a ULID is read from its text is up to the `ulid` crate. All that the
    program depends on is that the text of every ULID is read as that ULID, and
    that a ULID has 128 bits.
-/

namespace Distruct

open Postcard (Bytes Format)

/-- The reader of the `ulid` crate, applied to the bytes of a string. -/
structure UlidReader where
  read : Bytes → Except Postcard.Error NodeId
  read_text : ∀ id < 2 ^ 128, read (Encode.ulidText id) = .ok id
  read_lt : ∀ bs id, read bs = .ok id → id < 2 ^ 128

namespace Wire

open Postcard.Format

variable (U : UlidReader)

/-! ### Nodes -/

/-- 26 letters of five bits each. -/
theorem length_ulidText (id : NodeId) : (Encode.ulidText id).length = 26 := by
  rw [Encode.ulidText, List.length_map, List.length_range]

/-- A ULID is written as a string. -/
def nodeId : Format NodeId :=
  bytes.refine Encode.ulidText U.read (· < 2 ^ 128)
    (fun id hid => ⟨⟨by rw [length_ulidText]; norm_num, fun _ _ => trivial⟩, U.read_text id hid⟩)
    (fun bs id _ h => U.read_lt bs id h)

/-- A port is an integer of 16 bits, which are written as a varint. -/
def port : Format UInt16 :=
  u16.refine UInt16.toNat (fun n => .ok n.toUInt16) (fun _ => True)
    (fun p _ => ⟨fits_u16.mpr p.toNat_lt, by simp⟩) (fun _ _ _ _ => trivial)

/-- The fields of an IPv6 address. Its flow information and its scope are not
    written, and read as zero: an address fits if both are. -/
def socketAddrV6 : Format (Vector UInt8 16 × UInt16 × UInt32 × UInt32) :=
  (pair (array u8 16) port).refine (fun x => (x.1, x.2.1)) (fun x => .ok (x.1, x.2, 0, 0))
    (fun x => (pair (array u8 16) port).fits (x.1, x.2.1) ∧ x.2.2 = (0, 0))
    (by
      intro x hx
      obtain ⟨ip, port, flowinfo, scope_id⟩ := x
      obtain ⟨hfit, hzero⟩ := hx
      cases hzero
      exact ⟨hfit, rfl⟩)
    (by
      intro a x ha h
      cases h
      exact ⟨ha, rfl⟩)

/-- The number of the variant, then its fields. -/
def socketAddr : Format SocketAddr :=
  variants (fun | .V4 .. => 0 | .V6 .. => 1)
    [variant (pair (array u8 4) port) (fun x => .V4 x.1 x.2)
        (fun | .V4 ip port => some (ip, port) | _ => none)
        (by rintro (_ | _) ⟨_, _⟩ <;> simp [eq_comm]),
      variant socketAddrV6 (fun x => .V6 x.1 x.2.1 x.2.2.1 x.2.2.2)
        (fun | .V6 ip port flowinfo scope_id => some (ip, port, flowinfo, scope_id) | _ => none)
        (by rintro (_ | _) ⟨_, _, _, _⟩ <;> simp [eq_comm])]
    ⟨numbered_variant fun _ => rfl, numbered_variant fun _ => rfl, trivial⟩ (by simp)

/-- The fields of a structure are written one after the other. -/
def node : Format Node :=
  (pair socketAddr str).record (fun n => (n.addr, n.server_name)) (fun x => ⟨x.1, x.2⟩)
    (fun _ => rfl) (fun _ => rfl)

/-! ### Log ids, votes and memberships -/

def leaderId : Format LeaderId :=
  (pair u64 (nodeId U)).record (fun l => (l.term, l.node_id)) (fun x => ⟨x.1, x.2⟩)
    (fun _ => rfl) (fun _ => rfl)

def logId : Format LogId :=
  (pair (leaderId U) u64).record (fun l => (l.leader_id, l.index)) (fun x => ⟨x.1, x.2⟩)
    (fun _ => rfl) (fun _ => rfl)

def vote : Format Vote :=
  (pair (leaderId U) bool).record (fun v => (v.leader_id, v.committed)) (fun x => ⟨x.1, x.2⟩)
    (fun _ => rfl) (fun _ => rfl)

/-- A `BTreeSet` is written in the order of its elements. -/
def idSet : Format (Finset NodeId) := set (nodeId U)

/-- A `BTreeMap` is written in the order of its keys. -/
def nodeMap : Format (HashMap NodeId Node) := map (nodeId U) node

def membership : Format Membership :=
  (pair (seq (idSet U)) (nodeMap U)).record (fun m => (m.configs, m.nodes)) (fun x => ⟨x.1, x.2⟩)
    (fun _ => rfl) (fun _ => rfl)

/-! ### Log entries -/

/-- What an entry of the log asks the state machine for. -/
def raftRequest : Format RaftRequest :=
  variants (fun | .Insert .. => 0 | .InsertMulti .. => 1 | .Clear .. => 2)
    [variant (pair str (pair bytes bytes)) (fun x => .Insert x.1 x.2.1 x.2.2)
        (fun | .Insert map key value => some (map, key, value) | _ => none)
        (by rintro (_ | _ | _) ⟨_, _, _⟩ <;> simp [eq_comm]),
      variant (pair str (pair bytes bytes)) (fun x => .InsertMulti x.1 x.2.1 x.2.2)
        (fun | .InsertMulti multi_map key value => some (multi_map, key, value) | _ => none)
        (by rintro (_ | _ | _) ⟨_, _, _⟩ <;> simp [eq_comm]),
      variant str .Clear (fun | .Clear map => some map | _ => none)
        (by rintro (_ | _ | _) _ <;> simp [eq_comm])]
    ⟨numbered_variant fun _ => rfl, numbered_variant fun _ => rfl, numbered_variant fun _ => rfl,
      trivial⟩ (by simp)

def entryPayload : Format EntryPayload :=
  variants (fun | .Blank => 0 | .Normal _ => 1 | .Membership _ => 2)
    [variant unit (fun _ => .Blank) (fun | .Blank => some () | _ => none)
        (by rintro (_ | _ | _) _ <;> simp),
      variant raftRequest .Normal (fun | .Normal req => some req | _ => none)
        (by rintro (_ | _ | _) _ <;> simp [eq_comm]),
      variant (membership U) .Membership (fun | .Membership mem => some mem | _ => none)
        (by rintro (_ | _ | _) _ <;> simp [eq_comm])]
    ⟨numbered_variant fun _ => rfl, numbered_variant fun _ => rfl, numbered_variant fun _ => rfl,
      trivial⟩ (by simp)

def entry : Format Entry :=
  (pair (logId U) (entryPayload U)).record (fun e => (e.log_id, e.payload)) (fun x => ⟨x.1, x.2⟩)
    (fun _ => rfl) (fun _ => rfl)

/-! ### RPCs -/

/-- The RPC in which a leader sends entries and its commit index. -/
def appendEntriesRequest : Format AppendEntriesRequest :=
  (pair (vote U) (pair (option (logId U)) (pair (seq (entry U)) (option (logId U))))).record
    (fun r => (r.vote, r.prev_log_id, r.entries, r.leader_commit))
    (fun x => ⟨x.1, x.2.1, x.2.2.1, x.2.2.2⟩) (fun _ => rfl) (fun _ => rfl)

def voteRequest : Format VoteRequest :=
  (pair (vote U) (option (logId U))).record (fun r => (r.vote, r.last_log_id)) (fun x => ⟨x.1, x.2⟩)
    (fun _ => rfl) (fun _ => rfl)

/-- The number of a variant of `ChangeMembers`. -/
def changeNumber : ChangeMembers → Nat
  | .AddVoterIds _ => 0
  | .AddVoters _ => 1
  | .RemoveVoters _ => 2
  | .ReplaceAllVoters _ => 3
  | .AddNodes _ => 4
  | .SetNodes _ => 5
  | .RemoveNodes _ => 6
  | .ReplaceAllNodes _ => 7

def changeMembers : Format ChangeMembers :=
  variants changeNumber
    [variant (idSet U) .AddVoterIds (fun | .AddVoterIds ids => some ids | _ => none)
        (by intro c _; cases c <;> simp [eq_comm]),
      variant (nodeMap U) .AddVoters (fun | .AddVoters nodes => some nodes | _ => none)
        (by intro c _; cases c <;> simp [eq_comm]),
      variant (idSet U) .RemoveVoters (fun | .RemoveVoters ids => some ids | _ => none)
        (by intro c _; cases c <;> simp [eq_comm]),
      variant (idSet U) .ReplaceAllVoters (fun | .ReplaceAllVoters ids => some ids | _ => none)
        (by intro c _; cases c <;> simp [eq_comm]),
      variant (nodeMap U) .AddNodes (fun | .AddNodes nodes => some nodes | _ => none)
        (by intro c _; cases c <;> simp [eq_comm]),
      variant (nodeMap U) .SetNodes (fun | .SetNodes nodes => some nodes | _ => none)
        (by intro c _; cases c <;> simp [eq_comm]),
      variant (idSet U) .RemoveNodes (fun | .RemoveNodes ids => some ids | _ => none)
        (by intro c _; cases c <;> simp [eq_comm]),
      variant (nodeMap U) .ReplaceAllNodes (fun | .ReplaceAllNodes nodes => some nodes | _ => none)
        (by intro c _; cases c <;> simp [eq_comm])]
    ⟨numbered_variant fun _ => rfl, numbered_variant fun _ => rfl, numbered_variant fun _ => rfl,
      numbered_variant fun _ => rfl, numbered_variant fun _ => rfl, numbered_variant fun _ => rfl,
      numbered_variant fun _ => rfl, numbered_variant fun _ => rfl, trivial⟩ (by simp)

/-! ### Requests -/

def readConsistency : Format ReadConsistency :=
  variants (fun | .Stale => 0 | .LeaderStale => 1 | .LeaseRead => 2 | .ReadIndex => 3)
    [variant unit (fun _ => .Stale) (fun | .Stale => some () | _ => none)
        (by intro c _; cases c <;> simp),
      variant unit (fun _ => .LeaderStale) (fun | .LeaderStale => some () | _ => none)
        (by intro c _; cases c <;> simp),
      variant unit (fun _ => .LeaseRead) (fun | .LeaseRead => some () | _ => none)
        (by intro c _; cases c <;> simp),
      variant unit (fun _ => .ReadIndex) (fun | .ReadIndex => some () | _ => none)
        (by intro c _; cases c <;> simp)]
    ⟨numbered_variant fun _ => rfl, numbered_variant fun _ => rfl, numbered_variant fun _ => rfl,
      numbered_variant fun _ => rfl, trivial⟩ (by simp)

/-- The number of a variant of `RequestBody`. -/
def bodyNumber : RequestBody → Nat
  | .AddLearner .. => 0
  | .ChangeMembership .. => 1
  | .Append _ => 2
  | .Vote _ => 3
  | .ContainsKey .. => 4
  | .Insert .. => 5
  | .InsertMulti .. => 6
  | .Get .. => 7
  | .GetMulti .. => 8
  | .Remove .. => 9
  | .RemoveMulti .. => 10
  | .Len .. => 11
  | .Clear _ => 12

/-- The thirteen kinds of requests, in the order of their declaration. -/
def requestBody : Format RequestBody :=
  variants bodyNumber
    [variant (pair (nodeId U) (pair node bool)) (fun x => .AddLearner x.1 x.2.1 x.2.2)
        (fun | .AddLearner id peer blocking => some (id, peer, blocking) | _ => none)
        (by rintro b ⟨_, _, _⟩; cases b <;> simp [eq_comm]),
      variant (pair (changeMembers U) bool) (fun x => .ChangeMembership x.1 x.2)
        (fun | .ChangeMembership members retain => some (members, retain) | _ => none)
        (by rintro b ⟨_, _⟩; cases b <;> simp [eq_comm]),
      variant (appendEntriesRequest U) .Append (fun | .Append entries => some entries | _ => none)
        (by rintro b _; cases b <;> simp [eq_comm]),
      variant (voteRequest U) .Vote (fun | .Vote rpc => some rpc | _ => none)
        (by rintro b _; cases b <;> simp [eq_comm]),
      variant (pair str (pair bytes readConsistency)) (fun x => .ContainsKey x.1 x.2.1 x.2.2)
        (fun | .ContainsKey map key consistency => some (map, key, consistency) | _ => none)
        (by rintro b ⟨_, _, _⟩; cases b <;> simp [eq_comm]),
      variant (pair str (pair bytes bytes)) (fun x => .Insert x.1 x.2.1 x.2.2)
        (fun | .Insert map key value => some (map, key, value) | _ => none)
        (by rintro b ⟨_, _, _⟩; cases b <;> simp [eq_comm]),
      variant (pair str (pair bytes bytes)) (fun x => .InsertMulti x.1 x.2.1 x.2.2)
        (fun | .InsertMulti multi_map key value => some (multi_map, key, value) | _ => none)
        (by rintro b ⟨_, _, _⟩; cases b <;> simp [eq_comm]),
      variant (pair str (pair bytes readConsistency)) (fun x => .Get x.1 x.2.1 x.2.2)
        (fun | .Get map key consistency => some (map, key, consistency) | _ => none)
        (by rintro b ⟨_, _, _⟩; cases b <;> simp [eq_comm]),
      variant (pair str (pair bytes readConsistency)) (fun x => .GetMulti x.1 x.2.1 x.2.2)
        (fun | .GetMulti multi_map key consistency => some (multi_map, key, consistency) | _ => none)
        (by rintro b ⟨_, _, _⟩; cases b <;> simp [eq_comm]),
      variant (pair str bytes) (fun x => .Remove x.1 x.2)
        (fun | .Remove map key => some (map, key) | _ => none)
        (by rintro b ⟨_, _⟩; cases b <;> simp [eq_comm]),
      variant (pair str (pair bytes bytes)) (fun x => .RemoveMulti x.1 x.2.1 x.2.2)
        (fun | .RemoveMulti multi_map key value => some (multi_map, key, value) | _ => none)
        (by rintro b ⟨_, _, _⟩; cases b <;> simp [eq_comm]),
      variant (pair str readConsistency) (fun x => .Len x.1 x.2)
        (fun | .Len map consistency => some (map, consistency) | _ => none)
        (by rintro b ⟨_, _⟩; cases b <;> simp [eq_comm]),
      variant str .Clear (fun | .Clear map => some map | _ => none)
        (by rintro b _; cases b <;> simp [eq_comm])]
    ⟨numbered_variant fun _ => rfl, numbered_variant fun _ => rfl, numbered_variant fun _ => rfl,
      numbered_variant fun _ => rfl, numbered_variant fun _ => rfl, numbered_variant fun _ => rfl,
      numbered_variant fun _ => rfl, numbered_variant fun _ => rfl, numbered_variant fun _ => rfl,
      numbered_variant fun _ => rfl, numbered_variant fun _ => rfl, numbered_variant fun _ => rfl,
      numbered_variant fun _ => rfl, trivial⟩ (by simp)

def request : Format Request :=
  (pair (option (nodeId U)) (requestBody U)).record (fun r => (r.target_id, r.body))
    (fun x => ⟨x.1, x.2⟩) (fun _ => rfl) (fun _ => rfl)

/-! ### Responses -/

def raftResponse : Format RaftResponse :=
  variants (fun | .Insert _ => 0 | .InsertMulti _ => 1 | .Clear => 2 | .Noop => 3)
    [variant (option bytes) .Insert (fun | .Insert value => some value | _ => none)
        (by rintro b _; cases b <;> simp [eq_comm]),
      variant bool .InsertMulti (fun | .InsertMulti inserted => some inserted | _ => none)
        (by rintro b _; cases b <;> simp [eq_comm]),
      variant unit (fun _ => .Clear) (fun | .Clear => some () | _ => none)
        (by rintro b _; cases b <;> simp),
      variant unit (fun _ => .Noop) (fun | .Noop => some () | _ => none)
        (by rintro b _; cases b <;> simp)]
    ⟨numbered_variant fun _ => rfl, numbered_variant fun _ => rfl, numbered_variant fun _ => rfl,
      numbered_variant fun _ => rfl, trivial⟩ (by simp)

/-- Where the entry stands in the log, and what applying it returned. -/
def clientWriteResponse : Format ClientWriteResponse :=
  (pair (logId U) (pair raftResponse (option (membership U)))).record
    (fun r => (r.log_id, r.data, r.membership)) (fun x => ⟨x.1, x.2.1, x.2.2⟩)
    (fun _ => rfl) (fun _ => rfl)

def appendEntriesResponse : Format AppendEntriesResponse :=
  variants (fun | .Success => 0 | .PartialSuccess _ => 1 | .Conflict => 2 | .HigherVote _ => 3)
    [variant unit (fun _ => .Success) (fun | .Success => some () | _ => none)
        (by rintro b _; cases b <;> simp),
      variant (option (logId U)) .PartialSuccess
        (fun | .PartialSuccess matching => some matching | _ => none)
        (by rintro b _; cases b <;> simp [eq_comm]),
      variant unit (fun _ => .Conflict) (fun | .Conflict => some () | _ => none)
        (by rintro b _; cases b <;> simp),
      variant (vote U) .HigherVote (fun | .HigherVote vote => some vote | _ => none)
        (by rintro b _; cases b <;> simp [eq_comm])]
    ⟨numbered_variant fun _ => rfl, numbered_variant fun _ => rfl, numbered_variant fun _ => rfl,
      numbered_variant fun _ => rfl, trivial⟩ (by simp)

def voteResponse : Format VoteResponse :=
  (pair (vote U) (pair bool (option (logId U)))).record
    (fun r => (r.vote, r.vote_granted, r.last_log_id)) (fun x => ⟨x.1, x.2.1, x.2.2⟩)
    (fun _ => rfl) (fun _ => rfl)

/-- The number of a variant of `Response`. -/
def responseNumber : Response → Nat
  | .AddLearner _ => 0
  | .ClientWrite _ => 1
  | .Append _ => 2
  | .Vote _ => 3
  | .ContainsKey _ => 4
  | .Get _ => 5
  | .GetMulti _ => 6
  | .Remove _ => 7
  | .RemoveMulti _ => 8
  | .Len _ => 9
  | .Clear => 10

def response : Format Response :=
  variants responseNumber
    [variant (clientWriteResponse U) .AddLearner (fun | .AddLearner r => some r | _ => none)
        (by rintro b _; cases b <;> simp [eq_comm]),
      variant (clientWriteResponse U) .ClientWrite (fun | .ClientWrite r => some r | _ => none)
        (by rintro b _; cases b <;> simp [eq_comm]),
      variant (appendEntriesResponse U) .Append (fun | .Append r => some r | _ => none)
        (by rintro b _; cases b <;> simp [eq_comm]),
      variant (voteResponse U) .Vote (fun | .Vote r => some r | _ => none)
        (by rintro b _; cases b <;> simp [eq_comm]),
      variant bool .ContainsKey (fun | .ContainsKey found => some found | _ => none)
        (by rintro b _; cases b <;> simp [eq_comm]),
      variant (option bytes) .Get (fun | .Get value => some value | _ => none)
        (by rintro b _; cases b <;> simp [eq_comm]),
      variant (option (seq bytes)) .GetMulti (fun | .GetMulti values => some values | _ => none)
        (by rintro b _; cases b <;> simp [eq_comm]),
      variant (option bytes) .Remove (fun | .Remove value => some value | _ => none)
        (by rintro b _; cases b <;> simp [eq_comm]),
      variant bool .RemoveMulti (fun | .RemoveMulti removed => some removed | _ => none)
        (by rintro b _; cases b <;> simp [eq_comm]),
      variant (option u64) .Len (fun | .Len len => some len | _ => none)
        (by rintro b _; cases b <;> simp [eq_comm]),
      variant unit (fun _ => .Clear) (fun | .Clear => some () | _ => none)
        (by rintro b _; cases b <;> simp)]
    ⟨numbered_variant fun _ => rfl, numbered_variant fun _ => rfl, numbered_variant fun _ => rfl,
      numbered_variant fun _ => rfl, numbered_variant fun _ => rfl, numbered_variant fun _ => rfl,
      numbered_variant fun _ => rfl, numbered_variant fun _ => rfl, numbered_variant fun _ => rfl,
      numbered_variant fun _ => rfl, numbered_variant fun _ => rfl, trivial⟩ (by simp)

/-- A reply. The errors are made of types of openraft whose format is not
    needed here. -/
def reply (E : Format RemoteError) : Format (Except RemoteError Response) :=
  variants (fun | .ok _ => 0 | .error _ => 1)
    [variant (response U) .ok (fun | .ok resp => some resp | .error _ => none)
        (by rintro (_ | _) _ <;> simp [eq_comm]),
      variant E .error (fun | .error e => some e | .ok _ => none)
        (by rintro (_ | _) _ <;> simp [eq_comm])]
    ⟨numbered_variant fun _ => rfl, numbered_variant fun _ => rfl, trivial⟩ (by simp)

/-! ### What is written

    The formats write what `Encode` writes. -/

/-- A list whose elements are written as `enc` writes them. -/
theorem encode_seq {α : Type} {f : Format α} {enc : α → Bytes} (h : ∀ a, f.encode a = enc a)
    (as : List α) : (seq f).encode as = Postcard.seq enc as := by
  show Postcard.varint as.length ++ as.flatMap f.encode = _
  rw [Postcard.seq, funext h]

theorem encode_option {α : Type} {f : Format α} {enc : α → Bytes} (h : ∀ a, f.encode a = enc a)
    (x : Option α) : (option f).encode x = Postcard.option enc x := by
  show Postcard.option f.encode x = _
  rw [funext h]

theorem encode_socketAddr (addr : SocketAddr) : socketAddr.encode addr = Encode.socketAddr addr := by
  have harray : ∀ {n : Nat} (ip : Vector UInt8 n), (array u8 n).encode ip = ip.toList := by
    intro n ip
    exact List.flatMap_singleton' ip.toList
  cases addr with
  | V4 ip port =>
    show Postcard.varint 0 ++ ((array u8 4).encode ip ++ Postcard.varint port.toNat) = _
    rw [harray, ← List.append_assoc]
    rfl
  | V6 ip port flowinfo scope_id =>
    show Postcard.varint 1 ++ ((array u8 16).encode ip ++ Postcard.varint port.toNat) = _
    rw [harray, ← List.append_assoc]
    rfl

theorem encode_node (n : Node) : node.encode n = Encode.node n := by
  show socketAddr.encode n.addr ++ str.encode n.server_name = _
  rw [encode_socketAddr]
  rfl

theorem encode_logId (id : LogId) : (logId U).encode id = Encode.logId id := rfl

theorem encode_vote (v : Vote) : (vote U).encode v = Encode.vote v := rfl

theorem encode_idSet (ids : Finset NodeId) : (idSet U).encode ids = Encode.idSet ids := rfl

/-- The two walk through the map in the same order, one over the entries, the other
    one over the keys. -/
theorem encode_nodeMap (nodes : HashMap NodeId Node) :
    (nodeMap U).encode nodes = Encode.nodeMap nodes := by
  have hlen : (entries nodes).length = nodes.keys.sort.length := by
    rw [← map_fst_entries, List.length_map]
  have hflat : (entries nodes).flatMap (pair (nodeId U) node).encode
      = nodes.keys.sort.flatMap fun id =>
        Encode.nodeId id ++ ((nodes.lookup id).map Encode.node).getD [] := by
    rw [← map_fst_entries, List.flatMap_map]
    -- each entry is written next to its key
    refine List.flatMap_congr ?_
    intro kv hkv
    rw [mem_entries.mp hkv]
    show Encode.nodeId kv.1 ++ node.encode kv.2 = _
    rw [encode_node]
    rfl
  show Postcard.varint (entries nodes).length ++ _ = _
  rw [hlen, hflat]
  rfl

theorem encode_membership (m : Membership) : (membership U).encode m = Encode.membership m := by
  show (seq (idSet U)).encode m.configs ++ (nodeMap U).encode m.nodes = _
  rw [encode_seq (encode_idSet U), encode_nodeMap]
  rfl

theorem encode_raftRequest (req : RaftRequest) :
    raftRequest.encode req = Encode.raftRequest req := by
  cases req with
  | Insert map key value => exact (List.append_assoc _ _ _).symm.trans (List.append_assoc _ _ _).symm
  | InsertMulti multi_map key value =>
    exact (List.append_assoc _ _ _).symm.trans (List.append_assoc _ _ _).symm
  | Clear map => rfl

theorem encode_entryPayload (p : EntryPayload) :
    (entryPayload U).encode p = Encode.entryPayload p := by
  cases p with
  | Blank => exact List.append_nil _
  | Normal req => exact congrArg (Postcard.varint 1 ++ ·) (encode_raftRequest req)
  | Membership m => exact congrArg (Postcard.varint 2 ++ ·) (encode_membership U m)

theorem encode_entry (e : Entry) : (entry U).encode e = Encode.entry e := by
  show (logId U).encode e.log_id ++ (entryPayload U).encode e.payload = _
  rw [encode_logId, encode_entryPayload]
  rfl

theorem encode_appendEntriesRequest (r : AppendEntriesRequest) :
    (appendEntriesRequest U).encode r = Encode.appendEntriesRequest r := by
  show (vote U).encode r.vote ++ ((option (logId U)).encode r.prev_log_id ++
    ((seq (entry U)).encode r.entries ++ (option (logId U)).encode r.leader_commit)) = _
  rw [encode_vote, encode_option (encode_logId U), encode_option (encode_logId U),
    encode_seq (encode_entry U), ← List.append_assoc, ← List.append_assoc]
  rfl

theorem encode_voteRequest (r : VoteRequest) : (voteRequest U).encode r = Encode.voteRequest r := by
  show (vote U).encode r.vote ++ (option (logId U)).encode r.last_log_id = _
  rw [encode_vote, encode_option (encode_logId U)]
  rfl

theorem encode_changeMembers (c : ChangeMembers) :
    (changeMembers U).encode c = Encode.changeMembers c := by
  have hmap : ∀ i nodes, Postcard.varint i ++ (nodeMap U).encode nodes
      = Postcard.varint i ++ Encode.nodeMap nodes := by
    intro i nodes
    rw [encode_nodeMap]
  cases c with
  | AddVoterIds ids => rfl
  | AddVoters nodes => exact hmap 1 nodes
  | RemoveVoters ids => rfl
  | ReplaceAllVoters ids => rfl
  | AddNodes nodes => exact hmap 4 nodes
  | SetNodes nodes => exact hmap 5 nodes
  | RemoveNodes ids => rfl
  | ReplaceAllNodes nodes => exact hmap 7 nodes

theorem encode_readConsistency (c : ReadConsistency) :
    readConsistency.encode c = Encode.readConsistency c := by
  cases c <;> exact List.append_nil _

/-- Kind by kind: after the number come the same fields, bracketed in another way. -/
theorem encode_requestBody (b : RequestBody) :
    (requestBody U).encode b = Encode.requestBody b := by
  have three : ∀ a b c d : Bytes, a ++ (b ++ (c ++ d)) = a ++ b ++ c ++ d := by
    intro a b c d
    rw [← List.append_assoc, ← List.append_assoc]
  cases b with
  | AddLearner id peer blocking =>
    show Postcard.varint 0 ++ (Encode.nodeId id ++ (node.encode peer ++ Postcard.bool blocking)) = _
    rw [encode_node, three]
    rfl
  | ChangeMembership members retain =>
    show Postcard.varint 1 ++ ((changeMembers U).encode members ++ Postcard.bool retain) = _
    rw [encode_changeMembers, ← List.append_assoc]
    rfl
  | Append entries => exact congrArg (Postcard.varint 2 ++ ·) (encode_appendEntriesRequest U entries)
  | Vote rpc => exact congrArg (Postcard.varint 3 ++ ·) (encode_voteRequest U rpc)
  | ContainsKey map key c => exact (three _ _ _ _).trans (congrArg _ (encode_readConsistency c))
  | Insert map key value => exact three _ _ _ _
  | InsertMulti multi_map key value => exact three _ _ _ _
  | Get map key c => exact (three _ _ _ _).trans (congrArg _ (encode_readConsistency c))
  | GetMulti multi_map key c => exact (three _ _ _ _).trans (congrArg _ (encode_readConsistency c))
  | Remove map key => exact (List.append_assoc _ _ _).symm
  | RemoveMulti multi_map key value => exact three _ _ _ _
  | Len map c =>
    exact (List.append_assoc _ _ _).symm.trans (congrArg _ (encode_readConsistency c))
  | Clear map => rfl

theorem encode_request (r : Request) : (request U).encode r = Encode.request r := by
  show (option (nodeId U)).encode r.target_id ++ (requestBody U).encode r.body = _
  rw [encode_requestBody]
  rfl

/-! ### What is read back -/

/-- The reader stops where the request ends. -/
theorem request_from_bytes {r : Request} (hr : (request U).fits r) (more : Bytes) :
    (request U).from_bytes (Encode.request r ++ more) = .ok r := by
  rw [← encode_request U]
  exact from_bytes_encode _ hr more

/-- **Round trip**: a request that is sent is the one that the server reads,
    whatever comes after it. No request is written like the beginning of another
    one. Whatever bytes the server reads as a request, its integers, lengths and
    ids are within their limits, so that it could be sent on.

    A request fits if its integers, lengths and ids are within their limits, and
    no IPv6 address in it has flow information or a scope id, which would be lost. -/
theorem requests_read_back {r : Request} (hr : (request U).fits r) (more : Bytes) :
    (request U).from_bytes (Encode.request r ++ more) = .ok r ∧
    (∀ r', (request U).fits r' → Encode.request r <+: Encode.request r' → r = r') ∧
    ∀ bs r', (request U).from_bytes bs = .ok r' →
      (request U).fits r' ∧ (request U).from_bytes (Encode.request r') = .ok r' := by
  refine ⟨request_from_bytes U hr more, ?_, ?_⟩
  · intro r' hr' hprefix
    rw [← encode_request U, ← encode_request U] at hprefix
    exact encode_prefix _ hr hr' hprefix
  · intro bs r' h
    have hfits := fits_of_from_bytes _ h
    have hback := request_from_bytes U hfits []
    rw [List.append_nil] at hback
    exact ⟨hfits, hback⟩

/-! ### A reader -/

/-- The lowest `n` base-32 digits of `id`, the highest one first. -/
def digits (n id : Nat) : List Nat := (List.range n).map fun i => id / 32 ^ (n - 1 - i) % 32

theorem digits_succ (n id : Nat) : digits (n + 1) id = digits n (id / 32) ++ [id % 32] := by
  have hold : ∀ i ∈ List.range n,
      id / 32 ^ (n + 1 - 1 - i) % 32 = id / 32 / 32 ^ (n - 1 - i) % 32 := by
    intro i hi
    have hlt := List.mem_range.mp hi
    rw [Nat.div_div_eq_div_mul, ← Nat.pow_succ']
    congr 3
    omega
  rw [digits, List.range_succ, List.map_append, List.map_congr_left hold]
  simp [digits]

theorem foldl_digits (n id : Nat) :
    (digits n id).foldl (fun v d => v * 32 + d) 0 = id % 32 ^ n := by
  induction n generalizing id with
  | zero => simp [digits, Nat.mod_one]
  | succ n ih =>
    have hmod : id % (32 * 32 ^ n) = id % 32 + 32 * (id / 32 % 32 ^ n) := Nat.mod_mul
    rw [digits_succ, List.foldl_append, ih, Nat.pow_succ', hmod]
    simp only [List.foldl_cons, List.foldl_nil]
    omega

/-- The number that a letter stands for. -/
def letter (b : UInt8) : Except Postcard.Error Nat :=
  match Encode.ulidAlphabet.idxOf? b with
  | some d => .ok d
  | none => .error .SerdeDeCustom

theorem letter_alphabet : ∀ d < 32, letter (Encode.ulidAlphabet.getD d 0) = .ok d := by
  decide +kernel

theorem mapM_letter {ds : List Nat} (hds : ∀ d ∈ ds, d < 32) :
    (ds.map fun d => Encode.ulidAlphabet.getD d 0).mapM letter = .ok ds := by
  induction ds with
  | nil => rfl
  | cons d ds ih =>
    have hd := letter_alphabet d (hds d List.mem_cons_self)
    have htail := ih fun d' hd' => hds d' (List.mem_cons_of_mem d hd')
    rw [List.map_cons, List.mapM_cons, hd, htail]
    rfl

/-- Reads the letters of base 32, and no number of more than 128 bits. -/
def crockford : UlidReader where
  read := fun bs =>
    match bs.mapM letter with
    | .error e => .error e
    | .ok ds =>
      let id := ds.foldl (fun v d => v * 32 + d) 0
      if id < 2 ^ 128 then .ok id else .error .SerdeDeCustom
  read_text := by
    intro id hid
    have htext : Encode.ulidText id
        = (digits 26 id).map fun d => Encode.ulidAlphabet.getD d 0 := by
      rw [Encode.ulidText, digits, List.map_map]
      rfl
    have hdigit : ∀ d ∈ digits 26 id, d < 32 := by
      intro d hd
      obtain ⟨i, _, rfl⟩ := List.mem_map.mp hd
      exact Nat.mod_lt _ (by omega)
    have hvalue : id % 32 ^ 26 = id := Nat.mod_eq_of_lt (hid.trans (by norm_num))
    simp only [htext, mapM_letter hdigit, foldl_digits, hvalue, hid, if_true]
  read_lt := by
    intro bs id h
    split at h
    · cases h
    · dsimp only at h
      split at h
      · next hid =>
        cases h
        exact hid
      · cases h

/-- The first request of a node that joins. -/
theorem requests_read_back_join :
    (request crockford).from_bytes
        (Encode.request ⟨none, .AddLearner 1 ⟨.V4 #v[127, 0, 0, 1] 4000, "localhost"⟩ true⟩)
      = .ok ⟨none, .AddLearner 1 ⟨.V4 #v[127, 0, 0, 1] 4000, "localhost"⟩ true⟩ := by
  have hfits : (request crockford).fits
      ⟨none, .AddLearner 1 ⟨.V4 #v[127, 0, 0, 1] 4000, "localhost"⟩ true⟩ := by
    refine ⟨nofun, _, rfl, (1, ⟨.V4 #v[127, 0, 0, 1] 4000, "localhost"⟩, true), rfl, ?_, ⟨?_, ?_⟩, trivial⟩
    · show 1 < 2 ^ 128
      norm_num
    · exact ⟨_, rfl, (#v[127, 0, 0, 1], 4000), rfl, fun _ _ => trivial, trivial⟩
    · show "localhost".utf8ByteSize < 2 ^ 64
      decide
  have hback := (requests_read_back crockford hfits []).1
  rw [List.append_nil] at hback
  exact hback

end Wire

end Distruct

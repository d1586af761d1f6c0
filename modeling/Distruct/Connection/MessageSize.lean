import Distruct.Connection.Server

/-! # The Size of Messages

    The server reads requests of at most `max_message_size` bytes. A write
    passes this limit twice: as the client sends it, and again inside the
    AppendEntries request that replicates it, where it is wrapped in a log
    entry, put next to other entries, and given a header. The sizes below are
    in terms of the lengths of what the messages contain, so that the two
    checks can be compared: what decides is the room that a request leaves under
    the limit when the leader accepts it.
-/

namespace Distruct

open Postcard (Bytes varintLen length_bytes length_str length_seq)

/-! ### Sizes -/

namespace Size

/-- A ULID: a length byte and 26 letters. -/
def nodeId : Nat := 27

def text (s : String) : Nat := varintLen s.utf8ByteSize + s.utf8ByteSize

def blob (b : Bytes) : Nat := varintLen b.length + b.length

def logId (l : LogId) : Nat := varintLen l.leader_id.term + nodeId + varintLen l.index

def optionLogId (l : Option LogId) : Nat := 1 + (l.map logId).getD 0

def vote (v : Vote) : Nat := varintLen v.leader_id.term + nodeId + 1

def socketAddr : SocketAddr → Nat
  | .V4 _ port => 1 + 4 + varintLen port.toNat
  | .V6 _ port _ _ => 1 + 16 + varintLen port.toNat

def node (n : Node) : Nat := socketAddr n.addr + text n.server_name

def idSet (ids : Finset NodeId) : Nat := varintLen ids.card + ids.card * nodeId

def nodeMap (nodes : HashMap NodeId Node) : Nat :=
  varintLen nodes.keys.card +
    (nodes.keys.sort.map fun id => nodeId + ((nodes.lookup id).map node).getD 0).sum

def membership (m : Membership) : Nat :=
  varintLen m.configs.length + (m.configs.map idSet).sum + nodeMap m.nodes

/-- A write without its tag. -/
def write : RaftRequest → Nat
  | .Insert map key value => text map + blob key + blob value
  | .InsertMulti multi_map key value => text multi_map + blob key + blob value
  | .Clear map => text map

def entryPayload : EntryPayload → Nat
  | .Blank => 1
  | .Normal req => 2 + write req
  | .Membership m => 1 + membership m

def entry (e : Entry) : Nat := logId e.log_id + entryPayload e.payload

/-- The id of the node that a request is meant for. -/
def target : Option NodeId → Nat
  | none => 1
  | some _ => 1 + nodeId

/-- What its log id adds to a write. In the log entry, the id of the leader takes
    the place of the id of the node that the request was meant for. -/
def overhead (target_id : Option NodeId) (l : LogId) : Nat :=
  match target_id with
  | none => logId l
  | some _ => varintLen l.leader_id.term + varintLen l.index

/-- What an AppendEntries request has besides its `n` entries. -/
def header (v : Vote) (prev_log_id leader_commit : Option LogId) (n : Nat) : Nat :=
  1 + nodeId + 1 + vote v + optionLogId prev_log_id + (if n < 128 then 1 else 2) +
    optionLogId leader_commit

end Size

/-! ### Lengths of encodings -/

section lengths
variable {n : Nat}

theorem length_varint : (Postcard.varint n).length = varintLen n := rfl

theorem length_nodeId (id : NodeId) : (Encode.nodeId id).length = Size.nodeId := by
  have htext : (Encode.ulidText id).length = 26 := by simp [Encode.ulidText]
  rw [Encode.nodeId, length_bytes, htext, Postcard.varintLen_lt (by omega)]
  rfl

theorem length_logId (l : LogId) : (Encode.logId l).length = Size.logId l := by
  simp [Encode.logId, Encode.leaderId, length_varint, length_nodeId, Size.logId, Nat.add_assoc]

theorem length_optionLogId (l : Option LogId) :
    (Postcard.option Encode.logId l).length = Size.optionLogId l := by
  cases l with
  | none => rfl
  | some l => simp [Postcard.option, length_logId, Size.optionLogId, Nat.add_comm]

theorem length_vote (v : Vote) : (Encode.vote v).length = Size.vote v := by
  simp [Encode.vote, Encode.leaderId, Postcard.bool, length_varint, length_nodeId, Size.vote,
    Nat.add_assoc]

theorem length_node (m : Node) : (Encode.node m).length = Size.node m := by
  obtain ⟨addr, name⟩ := m
  cases addr with
  | V4 ip port =>
    simp [Encode.node, Encode.socketAddr, length_varint, length_str, Size.node, Size.socketAddr,
      Size.text, Postcard.varintLen_lt]
    omega
  | V6 ip port flowinfo scope_id =>
    simp [Encode.node, Encode.socketAddr, length_varint, length_str, Size.node, Size.socketAddr,
      Size.text, Postcard.varintLen_lt]
    omega

theorem length_idSet (ids : Finset NodeId) : (Encode.idSet ids).length = Size.idSet ids := by
  simp [Encode.idSet, length_seq, length_nodeId, Size.idSet]

theorem length_nodeMap (nodes : HashMap NodeId Node) :
    (Encode.nodeMap nodes).length = Size.nodeMap nodes := by
  -- the address of a node follows its id
  have hentry : ∀ id, (Encode.nodeId id ++ ((nodes.lookup id).map Encode.node).getD []).length
      = Size.nodeId + ((nodes.lookup id).map Size.node).getD 0 := by
    intro id
    rw [List.length_append, length_nodeId]
    cases nodes.lookup id with
    | none => rfl
    | some m => simp [length_node]
  simp only [Encode.nodeMap, length_seq, hentry, Size.nodeMap, Finset.length_sort]

theorem length_membership (m : Membership) : (Encode.membership m).length = Size.membership m := by
  simp only [Encode.membership, List.length_append, length_seq, length_idSet, length_nodeMap,
    Size.membership]

theorem length_raftRequest (req : RaftRequest) :
    (Encode.raftRequest req).length = 1 + Size.write req := by
  cases req with
  | Insert map key value =>
    simp [Encode.raftRequest, length_varint, length_str, length_bytes, Size.write, Size.text,
      Size.blob, Postcard.varintLen_lt, Nat.add_assoc]
  | InsertMulti multi_map key value =>
    simp [Encode.raftRequest, length_varint, length_str, length_bytes, Size.write, Size.text,
      Size.blob, Postcard.varintLen_lt, Nat.add_assoc]
  | Clear map =>
    simp [Encode.raftRequest, length_varint, length_str, Size.write, Size.text,
      Postcard.varintLen_lt]

theorem length_entry (e : Entry) : (Encode.entry e).length = Size.entry e := by
  obtain ⟨log_id, payload⟩ := e
  cases payload with
  | Blank =>
    simp [Encode.entry, Encode.entryPayload, length_logId, length_varint, Postcard.varintLen_lt,
      Size.entry, Size.entryPayload]
  | Normal req =>
    simp [Encode.entry, Encode.entryPayload, length_logId, length_varint, Postcard.varintLen_lt,
      length_raftRequest, Size.entry, Size.entryPayload]
    omega
  | Membership m =>
    simp [Encode.entry, Encode.entryPayload, length_logId, length_varint, Postcard.varintLen_lt,
      length_membership, Size.entry, Size.entryPayload]

end lengths

/-! ### The two checks -/

/-- The request by which a client asks for a write. -/
def RaftRequest.body : RaftRequest → RequestBody
  | .Insert map key value => .Insert map key value
  | .InsertMulti multi_map key value => .InsertMulti multi_map key value
  | .Clear map => .Clear map

/-- That request is logged as the write. -/
theorem handle_body_body (i : NodeId) (req : RaftRequest) :
    handle_body i req.body = (do
      let r ← Raft.client_write i req
      return (r.map Response.ClientWrite).mapError RemoteError.RaftWrite) := by
  cases req <;> rfl

theorem length_request (target_id : Option NodeId) (body : RequestBody) :
    (Encode.request ⟨target_id, body⟩).length
      = Size.target target_id + (Encode.requestBody body).length := by
  cases target_id with
  | none => simp [Encode.request, Postcard.option, Size.target]; omega
  | some target => simp [Encode.request, Postcard.option, length_nodeId, Size.target]; omega

/-- A write as a client sends it to the leader. -/
theorem length_write (target_id : Option NodeId) (req : RaftRequest) :
    (Encode.request ⟨target_id, req.body⟩).length = Size.target target_id + 1 + Size.write req := by
  have hbody : (Encode.requestBody req.body).length = 1 + Size.write req := by
    cases req with
    | Insert map key value =>
      simp [RaftRequest.body, Encode.requestBody, length_varint, length_str, length_bytes,
        Size.write, Size.text, Size.blob, Postcard.varintLen_lt, Nat.add_assoc]
    | InsertMulti multi_map key value =>
      simp [RaftRequest.body, Encode.requestBody, length_varint, length_str, length_bytes,
        Size.write, Size.text, Size.blob, Postcard.varintLen_lt, Nat.add_assoc]
    | Clear map =>
      simp [RaftRequest.body, Encode.requestBody, length_varint, length_str,
        Size.write, Size.text, Postcard.varintLen_lt]
  rw [length_request, hbody]
  omega

theorem write_accepted_iff (target_id : Option NodeId) (req : RaftRequest) :
    accepts ⟨target_id, req.body⟩ = true ↔
      Size.target target_id + 1 + Size.write req ≤ max_message_size := by
  rw [accepts, decide_eq_true_iff, length_write]

/-- Short keys and values can be written. -/
theorem short_write_accepted {target : NodeId} {map : String} {key value : Bytes}
    (hmap : map.utf8ByteSize < 128) (hkey : key.length < 128) (hvalue : value.length < 128) :
    accepts ⟨some target, .Insert map key value⟩ = true ∧
    accepts ⟨some target, .InsertMulti map key value⟩ = true := by
  have hsize : Size.target (some target) + 1 + (Size.text map + Size.blob key + Size.blob value)
      ≤ max_message_size := by
    simp only [Size.target, Size.text, Size.blob, Size.nodeId, max_message_size,
      Postcard.varintLen_lt hmap, Postcard.varintLen_lt hkey, Postcard.varintLen_lt hvalue]
    omega
  exact ⟨(write_accepted_iff (some target) (.Insert map key value)).mpr hsize,
    (write_accepted_iff (some target) (.InsertMulti map key value)).mpr hsize⟩

/-- A request is accepted if a longer one is. -/
theorem accepts_of_length_le {target : NodeId} {body body' : RequestBody}
    (hlen : (Encode.requestBody body').length ≤ (Encode.requestBody body).length)
    (h : accepts ⟨some target, body⟩ = true) : accepts ⟨some target, body'⟩ = true := by
  rw [accepts, decide_eq_true_iff, length_request] at h ⊢
  omega

theorem length_readConsistency (c : ReadConsistency) : (Encode.readConsistency c).length = 1 := by
  cases c <;> simp [Encode.readConsistency, length_varint, Postcard.varintLen_lt]

/-- Where an entry could be inserted, it can be looked up and removed. -/
theorem lookup_accepted {target : NodeId} {map : String} {key value : Bytes}
    (h : accepts ⟨some target, .Insert map key value⟩ = true) (c : ReadConsistency) :
    accepts ⟨some target, .Get map key c⟩ = true ∧
    accepts ⟨some target, .ContainsKey map key c⟩ = true ∧
    accepts ⟨some target, .Remove map key⟩ = true := by
  have hvalue := Postcard.one_le_varintLen value.length
  refine ⟨accepts_of_length_le ?_ h, accepts_of_length_le ?_ h, accepts_of_length_le ?_ h⟩
  all_goals
    simp only [Encode.requestBody, List.length_append, length_varint, length_str, length_bytes,
      length_readConsistency, Postcard.varintLen_lt (show 4 < 128 by omega),
      Postcard.varintLen_lt (show 5 < 128 by omega), Postcard.varintLen_lt (show 7 < 128 by omega),
      Postcard.varintLen_lt (show 9 < 128 by omega)]
    omega

theorem lookup_multi_accepted {target : NodeId} {multi_map : String} {key value : Bytes}
    (h : accepts ⟨some target, .InsertMulti multi_map key value⟩ = true) (c : ReadConsistency) :
    accepts ⟨some target, .GetMulti multi_map key c⟩ = true ∧
    accepts ⟨some target, .RemoveMulti multi_map key value⟩ = true := by
  have hvalue := Postcard.one_le_varintLen value.length
  refine ⟨accepts_of_length_le ?_ h, accepts_of_length_le ?_ h⟩
  all_goals
    simp only [Encode.requestBody, List.length_append, length_varint, length_str, length_bytes,
      length_readConsistency, Postcard.varintLen_lt (show 6 < 128 by omega),
      Postcard.varintLen_lt (show 8 < 128 by omega), Postcard.varintLen_lt (show 10 < 128 by omega)]
    omega

/-- An AppendEntries request as a follower gets it. -/
theorem append_accepted_iff (target : NodeId) (rpc : AppendEntriesRequest)
    (hshort : rpc.entries.length ≤ 300) :
    accepts ⟨some target, .Append rpc⟩ = true ↔
      Size.header rpc.vote rpc.prev_log_id rpc.leader_commit rpc.entries.length +
        (rpc.entries.map Size.entry).sum ≤ max_message_size := by
  have hentries : (rpc.entries.map fun e => (Encode.entry e).length).sum
      = (rpc.entries.map Size.entry).sum := by
    simp only [length_entry]
  have hcount : varintLen rpc.entries.length = if rpc.entries.length < 128 then 1 else 2 := by
    split
    · next h => exact Postcard.varintLen_lt h
    · -- no more than 300 entries: their number takes two bytes
      rw [Postcard.varintLen_ge (by omega), Postcard.varintLen_lt (by omega)]
  rw [accepts, decide_eq_true_iff, length_request]
  simp only [Encode.requestBody, Encode.appendEntriesRequest, List.length_append, length_varint,
    length_vote, length_optionLogId, length_seq, hentries, hcount, Size.header, Size.target,
    Postcard.varintLen_lt (show 2 < 128 by omega)]
  omega

/-- A write whose request the leader has accepted. -/
structure AcceptedWrite where
  target_id : Option NodeId
  req : RaftRequest
  accepted : accepts ⟨target_id, req.body⟩ = true

namespace AcceptedWrite

/-- The length of the request. -/
def length (w : AcceptedWrite) : Nat := (Encode.request ⟨w.target_id, w.req.body⟩).length

/-- What the request leaves of the limit. -/
def room (w : AcceptedWrite) : Nat := max_message_size - w.length

theorem length_add_room (w : AcceptedWrite) : w.length + w.room = max_message_size := by
  have hle : w.length ≤ max_message_size := of_decide_eq_true w.accepted
  exact Nat.add_sub_of_le hle

/-- The log entry of a write has the length of its request and the overhead. -/
theorem size_entry (w : AcceptedWrite) (log_id : LogId) :
    Size.entry ⟨log_id, .Normal w.req⟩ = w.length + Size.overhead w.target_id log_id := by
  obtain ⟨target_id, req, _⟩ := w
  simp only [length, length_write, Size.entry, Size.entryPayload]
  cases target_id with
  | none => simp only [Size.target, Size.overhead]; omega
  | some target => simp only [Size.target, Size.overhead, Size.logId]; omega

end AcceptedWrite

/-- What the leader has in its log: accepted writes, and entries of its own. -/
inductive LogItem where
  | write (log_id : LogId) (w : AcceptedWrite)
  | blank (log_id : LogId)
  | membership (log_id : LogId) (m : Membership)

namespace LogItem

def entry : LogItem → Entry
  | .write log_id w => ⟨log_id, .Normal w.req⟩
  | .blank log_id => ⟨log_id, .Blank⟩
  | .membership log_id m => ⟨log_id, .Membership m⟩

def size : LogItem → Nat
  | .write log_id w => w.length + Size.overhead w.target_id log_id
  | .blank log_id => Size.logId log_id + 1
  | .membership log_id m => Size.logId log_id + 1 + Size.membership m

theorem size_eq (item : LogItem) : item.size = Size.entry item.entry := by
  cases item with
  | write log_id w => exact (w.size_entry log_id).symm
  | blank log_id => rfl
  | membership log_id m => simp only [size, entry, Size.entry, Size.entryPayload, Nat.add_assoc]

theorem sum_size (items : List LogItem) :
    ((items.map entry).map Size.entry).sum = (items.map size).sum := by
  rw [List.map_map]
  exact congrArg List.sum (List.map_congr_left fun item _ => (item.size_eq).symm)

end LogItem

/-- **Which writes can be replicated**: an accepted write is sent to a follower
    together with the items before and after it in the log, at most 300 by default.
    The follower accepts the request exactly when the write, as the leader accepted
    it, has left room for the header, the overhead of its log id, and the others. -/
theorem batch_accepted_iff (w : AcceptedWrite) (log_id : LogId) (before after : List LogItem)
    (hshort : before.length + 1 + after.length ≤ 300) (target : NodeId) (vote : Vote)
    (prev_log_id leader_commit : Option LogId) :
    accepts ⟨some target, .Append ⟨vote, prev_log_id,
        before.map LogItem.entry ++ ⟨log_id, .Normal w.req⟩ :: after.map LogItem.entry,
        leader_commit⟩⟩ = true ↔
      Size.header vote prev_log_id leader_commit (before.length + 1 + after.length) +
        Size.overhead w.target_id log_id + (before.map LogItem.size).sum +
        (after.map LogItem.size).sum ≤ w.room := by
  have hlen : (before.map LogItem.entry ++
      ⟨log_id, .Normal w.req⟩ :: after.map LogItem.entry).length = before.length + 1 + after.length := by
    rw [List.length_append, List.length_cons, List.length_map, List.length_map]
    omega
  have hroom := w.length_add_room
  rw [append_accepted_iff target _ (hlen ▸ hshort), hlen]
  simp only [List.map_append, List.map_cons, List.sum_append, List.sum_cons, LogItem.sum_size,
    w.size_entry]
  omega

/-- The write of a short insertion. -/
def short_write (key value : Bytes) (hkey : key.length < 128) (hvalue : value.length < 128) :
    AcceptedWrite where
  target_id := some 1
  req := .Insert "m" key value
  accepted := (short_write_accepted (by decide) hkey hvalue).1

/-- The blank entry of a new leader and two insertions are sent together. -/
theorem batch_accepted_three_entries :
    accepts ⟨some 2, .Append ⟨⟨⟨1, 1⟩, true⟩, none,
      [⟨⟨⟨1, 1⟩, 0⟩, .Blank⟩, ⟨⟨⟨1, 1⟩, 1⟩, .Normal (.Insert "m" [1] [2])⟩,
        ⟨⟨⟨1, 1⟩, 2⟩, .Normal (.Insert "m" [3] [4])⟩], none⟩⟩ = true := by
  have hlength : ∀ key value hkey hvalue, key.length = 1 → value.length = 1 →
      (short_write key value hkey hvalue).length = 35 := by
    intro key value hkey hvalue hk hv
    rw [AcceptedWrite.length, short_write, length_write]
    simp only [Size.target, Size.nodeId, Size.write, Size.text, Size.blob, hk, hv,
      show "m".utf8ByteSize = 1 from rfl, Postcard.varintLen_lt (show 1 < 128 by omega)]
  have hfirst := hlength [1] [2] (by decide) (by decide) rfl rfl
  have hsecond := hlength [3] [4] (by decide) (by decide) rfl rfl
  have htarget : ∀ key value hkey hvalue, (short_write key value hkey hvalue).target_id = some 1 :=
    fun _ _ _ _ => rfl
  have hroom := (short_write [1] [2] (by decide) (by decide)).length_add_room
  refine (batch_accepted_iff (short_write [1] [2] (by decide) (by decide)) ⟨⟨1, 1⟩, 1⟩
    [.blank ⟨⟨1, 1⟩, 0⟩] [.write ⟨⟨1, 1⟩, 2⟩ (short_write [3] [4] (by decide) (by decide))]
    (by decide) 2 ⟨⟨1, 1⟩, true⟩ none none).mpr ?_
  simp only [Size.header, Size.nodeId, Size.vote, Size.optionLogId, Size.overhead, Size.logId,
    List.map_singleton, List.sum_singleton, List.length_singleton, LogItem.size, htarget, hsecond,
    Option.map_none, Option.getD_none, Postcard.varintLen_lt (show 0 < 128 by omega),
    Postcard.varintLen_lt (show 1 < 128 by omega), Postcard.varintLen_lt (show 2 < 128 by omega),
    if_pos (show 1 + 1 + 1 < 128 by omega)]
  rw [hfirst, max_message_size] at hroom
  omega

/-- A value of the greatest length that fits into an insertion. -/
def largest_value : Bytes := List.replicate 65501 0

theorem size_largest : Size.write (.Insert "m" [] largest_value) = 65507 := by
  have hm : Size.text "m" = 2 := by
    rw [Size.text, show "m".utf8ByteSize = 1 from rfl, Postcard.varintLen_lt (by omega)]
  have hk : Size.blob [] = 1 := by
    rw [Size.blob, List.length_nil, Postcard.varintLen_lt (by omega)]
  have hv : Size.blob largest_value = 65504 := by
    rw [Size.blob, largest_value, List.length_replicate, Postcard.varintLen_ge (by omega),
      Postcard.varintLen_ge (by omega), Postcard.varintLen_lt (by omega)]
  rw [Size.write, hm, hk, hv]

/-- The leader accepts the insertion and no follower accepts its log entry, not
    even as the only one. -/
theorem largest_write_not_replicable :
    accepts ⟨some 1, .Insert "m" [] largest_value⟩ = true ∧
      ∀ target vote prev_log_id leader_commit log_id,
        accepts ⟨some target, .Append ⟨vote, prev_log_id,
          [⟨log_id, .Normal (.Insert "m" [] largest_value)⟩], leader_commit⟩⟩ = false := by
  refine ⟨?_, ?_⟩
  · have hbody : RequestBody.Insert "m" [] largest_value
        = (RaftRequest.Insert "m" [] largest_value).body := rfl
    rw [hbody, write_accepted_iff, size_largest]
    decide
  · intro target vote prev_log_id leader_commit log_id
    have hone : ([⟨log_id, .Normal (.Insert "m" [] largest_value)⟩] : List Entry).length ≤ 300 := by
      rw [List.length_singleton]
      omega
    rw [← Bool.not_eq_true, append_accepted_iff target _ hone]
    -- the insertion alone leaves no room for a header
    simp only [List.map_singleton, List.sum_singleton, Size.entry, Size.entryPayload, size_largest,
      Size.header, Size.logId, Size.nodeId, max_message_size]
    omega

end Distruct

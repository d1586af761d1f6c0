import Distruct.Framework.Replay
import Distruct.Raft.Types

/-! # The State Machine

    `raft/state.rs`. The two read-write locks of `StateMachine` guard the
    fields `state_machine` and `current_snapshot`; every function below is the
    effect of one critical section of the code on both.

    The bytes of a snapshot depend on the order in which the hash maps and
    hash sets of the data happen to be enumerated when it is built. A `Layout`
    is the data written out in some such order, and `HashOrder` picks one.
-/

namespace Distruct

open Postcard

/-! ### Data -/

structure StateMachineData where
  maps : HashMap String (HashMap Bytes Bytes)
  multi_maps : HashMap String (HashMap Bytes (HashSet Bytes))
  deriving DecidableEq

instance : Inhabited StateMachineData := ⟨⟨∅, ∅⟩⟩

structure StateMachineInner where
  last_applied_log : Option LogId
  last_membership : StoredMembership
  data : StateMachineData
  deriving DecidableEq

instance : Inhabited StateMachineInner := ⟨⟨none, default, default⟩⟩

structure SnapshotMeta where
  last_log_id : Option LogId
  last_membership : StoredMembership
  snapshot_id : String
  deriving DecidableEq

/-- A snapshot; the source has one type for a stored and one for an announced
    snapshot, with the same two fields. -/
structure StoredSnapshot where
  snapshot_meta : SnapshotMeta
  data : Bytes
  deriving DecidableEq

structure StateMachine where
  state_machine : StateMachineInner
  /-- The number of snapshots built so far. The source counts in 64 bits: it is
      taken that no node builds `2 ^ 64` snapshots. -/
  snapshot_idx : Nat
  current_snapshot : Option StoredSnapshot
  deriving DecidableEq

instance : Inhabited StateMachine := ⟨⟨default, 0, none⟩⟩

/-! ### Snapshot bytes -/

/-- The contents of `StateMachineData` in an enumeration order. -/
abbrev Layout :=
  List (String × List (Bytes × Bytes)) × List (String × List (Bytes × List Bytes))

namespace Layout

/-- What a layout is read back as. -/
def toData (l : Layout) : StateMachineData where
  maps := HashMap.collect (l.1.map fun m => (m.1, HashMap.collect m.2))
  multi_maps := HashMap.collect
    (l.2.map fun m => (m.1, HashMap.collect (m.2.map fun kv => (kv.1, kv.2.toFinset))))

/-- The layout mentions every name, key and value of a set once. -/
def Exact (l : Layout) : Prop :=
  (l.1.map Prod.fst).Nodup ∧ (∀ m ∈ l.1, (m.2.map Prod.fst).Nodup) ∧
  (l.2.map Prod.fst).Nodup ∧ (∀ m ∈ l.2, (m.2.map Prod.fst).Nodup) ∧
  ∀ m ∈ l.2, ∀ kv ∈ m.2, kv.2.Nodup

/-- The wire format of `StateMachineData`. -/
def codec : Codec Layout :=
  Codec.pair (Codec.seq (Codec.pair Codec.str (Codec.seq (Codec.pair Codec.bytes Codec.bytes))))
    (Codec.seq (Codec.pair Codec.str (Codec.seq (Codec.pair Codec.bytes (Codec.seq Codec.bytes)))))

end Layout

/-- The enumeration orders of the hash tables at hand when a snapshot is built. -/
structure HashOrder where
  iter : StateMachineData → Layout
  exact : ∀ d, (iter d).Exact
  lists : ∀ d, (iter d).toData = d

/-- `postcard::to_allocvec` on the data. -/
def StateMachineData.to_allocvec (ord : HashOrder) (d : StateMachineData) :
    Except Postcard.Error Bytes :=
  .ok (Layout.codec.encode (ord.iter d))

/-- `postcard::from_bytes` into the data. -/
def StateMachineData.from_bytes (bs : Bytes) : Except Postcard.Error StateMachineData :=
  (Layout.codec.from_bytes bs).map Layout.toData

/-- Decoding inverts encoding, whatever the enumeration order. -/
theorem StateMachineData.from_bytes_encode (ord : HashOrder) (d : StateMachineData) :
    StateMachineData.from_bytes (Layout.codec.encode (ord.iter d)) = .ok d := by
  rw [StateMachineData.from_bytes, Codec.from_bytes_encode]
  exact congrArg Except.ok (ord.lists d)

/-! ### Lookups and direct removals -/

namespace StateMachineData

def contains_key (d : StateMachineData) (map : String) (key : Bytes) : Bool :=
  ((d.maps.lookup map).map fun m => (m.lookup key).isSome).getD false

def get_with_lock (d : StateMachineData) (map : String) (key : Bytes) : Option Bytes :=
  (d.maps.lookup map).bind fun m => m.lookup key

def get_with_lock_multi (d : StateMachineData) (multi_map : String) (key : Bytes) :
    Option (HashSet Bytes) :=
  (d.multi_maps.lookup multi_map).bind fun m => m.lookup key

def remove (d : StateMachineData) (map : String) (key : Bytes) :
    Option Bytes × StateMachineData :=
  match d.maps.lookup map with
  | none => (none, d)
  | some m => (m.lookup key, { d with maps := d.maps.insert map (m.erase key) })

def remove_multi_value (d : StateMachineData) (multi_map : String) (key value : Bytes) :
    Option Bool × StateMachineData :=
  match d.multi_maps.lookup multi_map with
  | none => (none, d)
  | some mm =>
    match mm.lookup key with
    | none => (none, d)
    | some m =>
      (some (decide (value ∈ m)),
        { d with multi_maps := d.multi_maps.insert multi_map (mm.insert key (m.erase value)) })

def map_len (d : StateMachineData) (map : String) : Option Nat :=
  (d.maps.lookup map).map fun m => m.keys.card

end StateMachineData

/-! ### Applying log entries -/

/-- The effect of a logged request on the data. -/
def apply_request (d : StateMachineData) : RaftRequest → StateMachineData × RaftResponse
  | .Insert map key value =>
    let m := d.maps.or_default map ∅
    let old := m.lookup key
    ({ d with maps := d.maps.insert map (m.insert key value) }, .Insert old)
  | .InsertMulti multi_map key value =>
    let m := d.multi_maps.or_default multi_map ∅
    let s := m.or_default key ∅
    ({ d with multi_maps := d.multi_maps.insert multi_map (m.insert key (insert value s)) },
      .InsertMulti (decide (value ∉ s)))
  | .Clear map => ({ d with maps := d.maps.insert map ∅ }, .Clear)

/-- One round of the loop in `apply`. -/
def apply_entry (sm : StateMachineInner) (entry : Entry) : StateMachineInner × RaftResponse :=
  let sm := { sm with last_applied_log := some entry.log_id }
  match entry.payload with
  | .Blank => (sm, .Noop)
  | .Normal req =>
    let r := apply_request sm.data req
    ({ sm with data := r.1 }, r.2)
  | .Membership mem => ({ sm with last_membership := ⟨some entry.log_id, mem⟩ }, .Noop)

theorem last_applied_log_apply_entry (sm : StateMachineInner) (e : Entry) :
    (apply_entry sm e).1.last_applied_log = some e.log_id := by
  obtain ⟨log_id, payload⟩ := e
  cases payload <;> rfl

namespace StateMachine

def apply (sm : StateMachine) (entries : List Entry) : List RaftResponse × StateMachine :=
  let r := Replay.feed apply_entry sm.state_machine entries
  (r.2, { sm with state_machine := r.1 })

/-! ### Snapshots -/

def install_snapshot (sm : StateMachine) (snapshot_meta : SnapshotMeta) (snapshot : Bytes) :
    Except StorageError Unit × StateMachine :=
  let new_snapshot : StoredSnapshot := ⟨snapshot_meta, snapshot⟩
  match StateMachineData.from_bytes new_snapshot.data with
  | .error _ => (.error ⟨"read_snapshot"⟩, sm)
  | .ok data =>
    let updated_state_machine : StateMachineInner :=
      { last_applied_log := snapshot_meta.last_log_id
        last_membership := snapshot_meta.last_membership
        data := data }
    (.ok (), { sm with
      state_machine := updated_state_machine
      current_snapshot := some new_snapshot })

def get_current_snapshot (sm : StateMachine) : Option StoredSnapshot := sm.current_snapshot

/-- The identifier of a snapshot: the last applied log id and a counter. How a
    leader id is displayed is up to openraft. -/
def snapshot_id (display : LeaderId → String) (last_applied_log : Option LogId)
    (snapshot_idx : Nat) : String :=
  match last_applied_log with
  | some last =>
    display last.leader_id ++ "-" ++ toString last.index ++ "-" ++ toString snapshot_idx
  | none => "--" ++ toString snapshot_idx

def build_snapshot (ord : HashOrder) (sm : StateMachine) :
    Except StorageError StoredSnapshot × StateMachine :=
  match sm.state_machine.data.to_allocvec ord with
  | .error _ => (.error ⟨"read_state_machine"⟩, sm)
  | .ok data =>
    let last_applied_log := sm.state_machine.last_applied_log
    let snapshot_idx := sm.snapshot_idx + 1
    let snapshot : StoredSnapshot :=
      { snapshot_meta :=
          { last_log_id := last_applied_log
            last_membership := sm.state_machine.last_membership
            snapshot_id := snapshot_id LeaderId.display last_applied_log snapshot_idx }
        data := data }
    (.ok snapshot, { sm with
      snapshot_idx := snapshot_idx
      current_snapshot := some snapshot })

end StateMachine

end Distruct

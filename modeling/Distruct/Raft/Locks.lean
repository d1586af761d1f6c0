import Distruct.Framework.RwLock
import Distruct.Framework.Workers
import Distruct.Raft.Snapshot
import Mathlib.Data.Prod.Lex
import Mathlib.Order.WithBot

/-! # The State Machine under Its Locks

    `raft/state.rs` once more, now with the two locks of `StateMachine`: each
    operation is a program that asks for a lock, waits for it, reads or writes
    what it guards and gives it back. Any number of tasks run such operations,
    and between two steps of one task the others may make steps of their own.

    The functions of `Raft/State.lean` are what these programs compute when
    nobody interferes.
-/

namespace Distruct

open LTS (Site)

/-- What the two locks of `StateMachine` guard. -/
inductive Guarded where
  | state_machine
  | current_snapshot
  deriving DecidableEq

/-- A step of an operation. The steps after the first three go through a guard. -/
inductive LockOp where
  | request (l : Guarded) (a : Access)
  | acquire (l : Guarded) (a : Access)
  | release (l : Guarded)
  | read_state_machine
  | apply_entry (entry : Entry)
  | replace_state_machine (updated_state_machine : StateMachineInner)
  | remove (map : String) (key : Postcard.Bytes)
  | remove_multi_value (multi_map : String) (key value : Postcard.Bytes)
  | fetch_add_snapshot_idx
  | read_current_snapshot
  | write_current_snapshot (snapshot : StoredSnapshot)

def LockOp.Resp : LockOp → Type
  | .read_state_machine => StateMachineInner
  | .apply_entry _ => RaftResponse
  | .remove .. => Option Postcard.Bytes
  | .remove_multi_value .. => Option Bool
  | .fetch_add_snapshot_idx => Nat
  | .read_current_snapshot => Option StoredSnapshot
  | _ => Unit

abbrev LockProg := Prog LockOp LockOp.Resp

/-! ### The operations -/

namespace LockProg

def step (o : LockOp) : LockProg o.Resp := Prog.perform o

/-- `read().await` and `write().await`. -/
def lock (l : Guarded) (a : Access) : LockProg Unit := do
  step (.request l a)
  step (.acquire l a)

def remove (map : String) (key : Postcard.Bytes) : LockProg (Option Postcard.Bytes) := do
  lock .state_machine .write
  let r ← step (.remove map key)
  step (.release .state_machine)
  return r

def remove_multi_value (multi_map : String) (key value : Postcard.Bytes) : LockProg (Option Bool) := do
  lock .state_machine .write
  let r ← step (.remove_multi_value multi_map key value)
  step (.release .state_machine)
  return r

/-- The loop over the entries in `apply`. -/
def apply_loop : List Entry → LockProg (List RaftResponse)
  | [] => return []
  | entry :: entries => do
    let r ← step (.apply_entry entry)
    let res ← apply_loop entries
    return r :: res

def apply (entries : List Entry) : LockProg (List RaftResponse) := do
  lock .state_machine .write
  let res ← apply_loop entries
  step (.release .state_machine)
  return res

def install_snapshot (snapshot_meta : SnapshotMeta) (snapshot : Postcard.Bytes) :
    LockProg (Except StorageError Unit) :=
  match StateMachineData.from_bytes snapshot with
  | .error _ => return .error ⟨"read_snapshot"⟩
  | .ok data => do
    lock .state_machine .write
    step (.replace_state_machine
      ⟨snapshot_meta.last_log_id, snapshot_meta.last_membership, data⟩)
    -- the second lock is taken before the first one is given back
    lock .current_snapshot .write
    step (.release .state_machine)
    step (.write_current_snapshot ⟨snapshot_meta, snapshot⟩)
    step (.release .current_snapshot)
    return .ok ()

def get_current_snapshot : LockProg (Option StoredSnapshot) := do
  lock .current_snapshot .read
  let r ← step .read_current_snapshot
  step (.release .current_snapshot)
  return r

/-- The snapshot that `build_snapshot` makes of `state_machine`. -/
def built (state_machine : StateMachineInner) (data : Postcard.Bytes) (snapshot_idx : Nat) :
    StoredSnapshot where
  snapshot_meta :=
    { last_log_id := state_machine.last_applied_log
      last_membership := state_machine.last_membership
      snapshot_id :=
        StateMachine.snapshot_id LeaderId.display state_machine.last_applied_log snapshot_idx }
  data := data

def build_snapshot (ord : HashOrder) : LockProg (Except StorageError StoredSnapshot) := do
  lock .state_machine .read
  let state_machine ← step .read_state_machine
  match state_machine.data.to_allocvec ord with
  | .error _ => do
    step (.release .state_machine)
    return .error ⟨"read_state_machine"⟩
  | .ok data => do
    lock .current_snapshot .write
    step (.release .state_machine)
    let old_idx : Nat ← step .fetch_add_snapshot_idx
    let snapshot := built state_machine data (old_idx + 1)
    step (.write_current_snapshot snapshot)
    step (.release .current_snapshot)
    return .ok snapshot

end LockProg

/-! ### Without interference -/

/-- The steps of an operation that has the state machine for itself. -/
def alone : (o : LockOp) → StateMachine → Option (o.Resp × StateMachine)
  | .request .., sm => some ((), sm)
  | .acquire .., sm => some ((), sm)
  | .release _, sm => some ((), sm)
  | .read_state_machine, sm => some (sm.state_machine, sm)
  | .apply_entry entry, sm =>
      let r := Distruct.apply_entry sm.state_machine entry
      some (r.2, { sm with state_machine := r.1 })
  | .replace_state_machine inner, sm => some ((), { sm with state_machine := inner })
  | .remove map key, sm =>
      let r := sm.state_machine.data.remove map key
      some (r.1, { sm with state_machine := { sm.state_machine with data := r.2 } })
  | .remove_multi_value mm key value, sm =>
      let r := sm.state_machine.data.remove_multi_value mm key value
      some (r.1, { sm with state_machine := { sm.state_machine with data := r.2 } })
  | .fetch_add_snapshot_idx, sm =>
      some (sm.snapshot_idx, { sm with snapshot_idx := sm.snapshot_idx + 1 })
  | .read_current_snapshot, sm => some (sm.current_snapshot, sm)
  | .write_current_snapshot snap, sm => some ((), { sm with current_snapshot := some snap })

theorem run_apply_loop (entries : List Entry) (sm : StateMachine) :
    (LockProg.apply_loop entries).run alone sm = some (sm.apply entries) := by
  induction entries generalizing sm with
  | nil => rfl
  | cons entry entries ih =>
    rw [LockProg.apply_loop, Prog.run_bind]
    show ((LockProg.apply_loop entries >>= _).run alone _) = _
    rw [Prog.run_bind, ih]
    simp only [StateMachine.apply, Replay.feed_cons]
    rfl

theorem run_apply (entries : List Entry) (sm : StateMachine) :
    (LockProg.apply entries).run alone sm = some (sm.apply entries) := by
  show ((LockProg.apply_loop entries >>= _).run alone sm) = _
  rw [Prog.run_bind, run_apply_loop]
  rfl

theorem run_install_snapshot (snapshot_meta : SnapshotMeta) (snapshot : Postcard.Bytes)
    (sm : StateMachine) :
    (LockProg.install_snapshot snapshot_meta snapshot).run alone sm
      = some (sm.install_snapshot snapshot_meta snapshot) := by
  cases h : StateMachineData.from_bytes snapshot with
  | error e =>
    simp only [LockProg.install_snapshot, StateMachine.install_snapshot, h]
    rfl
  | ok data =>
    simp only [LockProg.install_snapshot, StateMachine.install_snapshot, h]
    rfl

theorem run_build_snapshot (ord : HashOrder) (sm : StateMachine) :
    (LockProg.build_snapshot ord).run alone sm = some (sm.build_snapshot ord) := rfl

theorem run_get_current_snapshot (sm : StateMachine) :
    LockProg.get_current_snapshot.run alone sm = some (sm.get_current_snapshot, sm) := rfl

/-! ### Jobs -/

/-- The operations of `StateMachine` that change it or its snapshot, and the one
    that reads the snapshot. -/
inductive StateMachineJob where
  | apply (entries : List Entry)
  | install_snapshot (snapshot_meta : SnapshotMeta) (snapshot : Postcard.Bytes)
  | build_snapshot (ord : HashOrder)
  | remove (map : String) (key : Postcard.Bytes)
  | remove_multi_value (multi_map : String) (key value : Postcard.Bytes)
  | get_current_snapshot

inductive StateMachineReply where
  | apply (res : List RaftResponse)
  | install_snapshot (res : Except StorageError Unit)
  | build_snapshot (res : Except StorageError StoredSnapshot)
  | remove (res : Option Postcard.Bytes)
  | remove_multi_value (res : Option Bool)
  | get_current_snapshot (res : Option StoredSnapshot)

def StateMachineJob.prog : StateMachineJob → LockProg StateMachineReply
  | .apply entries => .apply <$> LockProg.apply entries
  | .install_snapshot m snapshot => .install_snapshot <$> LockProg.install_snapshot m snapshot
  | .build_snapshot ord => .build_snapshot <$> LockProg.build_snapshot ord
  | .remove map key => .remove <$> LockProg.remove map key
  | .remove_multi_value mm key value =>
      .remove_multi_value <$> LockProg.remove_multi_value mm key value
  | .get_current_snapshot => .get_current_snapshot <$> LockProg.get_current_snapshot

/-! ### All interleavings -/

/-- A state machine with its locks, and the states it has gone through. -/
structure LockedStateMachine (ι : Type) where
  sm : StateMachine
  lock : Guarded → RwLock ι
  history : List StateMachineInner

namespace LockedStateMachine

variable {ι : Type}

def stance (s : LockedStateMachine ι) (l : Guarded) (i : ι) : Stance := (s.lock l).stance i

def init (s : LockedStateMachine ι) : Prop :=
  s.sm = default ∧ (∀ l, s.lock l = .unused) ∧ s.history = [default]

/-- Writes the state machine. -/
def put (s : LockedStateMachine ι) (inner : StateMachineInner) : LockedStateMachine ι :=
  { s with sm := { s.sm with state_machine := inner }, history := inner :: s.history }

def put_data (s : LockedStateMachine ι) (data : StateMachineData) : LockedStateMachine ι :=
  s.put { s.sm.state_machine with data := data }

/-- Uses one of the locks. -/
def on (s : LockedStateMachine ι) (l : Guarded) (lk : RwLock ι) : LockedStateMachine ι :=
  { s with lock := Function.update s.lock l lk }

variable [DecidableEq ι]

def call (i : ι) (s : LockedStateMachine ι) : (o : LockOp) → o.Resp → LockedStateMachine ι → Prop
  | .request l a, _, s' => s' = s.on l ((s.lock l).request i a)
  | .acquire l a, _, s' => (s.lock l).Grants i a ∧ s' = s.on l ((s.lock l).acquire i a)
  | .release l, _, s' => s' = s.on l ((s.lock l).release i)
  | .read_state_machine, r, s' => r = s.sm.state_machine ∧ s' = s
  | .apply_entry entry, r, s' =>
      r = (Distruct.apply_entry s.sm.state_machine entry).2 ∧
        s' = s.put (Distruct.apply_entry s.sm.state_machine entry).1
  | .replace_state_machine inner, _, s' => s' = s.put inner
  | .remove map key, r, s' =>
      r = (s.sm.state_machine.data.remove map key).1 ∧
        s' = s.put_data (s.sm.state_machine.data.remove map key).2
  | .remove_multi_value mm key value, r, s' =>
      r = (s.sm.state_machine.data.remove_multi_value mm key value).1 ∧
        s' = s.put_data (s.sm.state_machine.data.remove_multi_value mm key value).2
  | .fetch_add_snapshot_idx, r, s' =>
      r = s.sm.snapshot_idx ∧ s' = { s with sm := { s.sm with snapshot_idx := s.sm.snapshot_idx + 1 } }
  | .read_current_snapshot, r, s' => r = s.sm.current_snapshot ∧ s' = s
  | .write_current_snapshot snap, _, s' =>
      s' = { s with sm := { s.sm with current_snapshot := some snap } }

end LockedStateMachine

/-- The order of log ids: by leader, then by index, and nothing is older than no
    log id at all. -/
def log_order : Option LogId → WithBot (Nat ×ₗ Nat ×ₗ Nat)
  | none => ⊥
  | some id => WithBot.some (toLex (id.leader_id.term, toLex (id.leader_id.node_id, id.index)))

/-- The last applied log id, as it is ordered. -/
def LockedStateMachine.applied {ι : Type} (s : LockedStateMachine ι) :
    WithBot (Nat ×ₗ Nat ×ₗ Nat) :=
  log_order s.sm.state_machine.last_applied_log

/-- What openraft promises: entries are applied in the order of the log, and the
    state machine is only replaced by one that is not older. -/
def LockedStateMachine.InOrder {ι : Type} (_ : ι) (s : LockedStateMachine ι) : LockOp → Prop
  | .apply_entry entry => s.applied ≤ log_order (some entry.log_id)
  | .replace_state_machine inner => s.applied ≤ log_order inner.last_applied_log
  | _ => True

/-- The tasks of a node, named by `ι`, on one state machine. -/
def locked_state_machine (ι : Type) [DecidableEq ι] :
    Site ι (LockedStateMachine ι) Empty LockOp StateMachineJob LockOp.Resp where
  init := LockedStateMachine.init
  env := fun _ e _ => e.elim
  start := fun _ s _ s' => s' = s
  call := LockedStateMachine.call

end Distruct

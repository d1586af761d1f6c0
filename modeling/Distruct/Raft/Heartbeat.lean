import Distruct.Framework.BTreeMap
import Distruct.Raft.Types

/-! # The Heartbeat Monitor

    `raft/heartbeat.rs`: when a node last had contact with each of the others.
    The table is written by the RPCs that the node itself sends and by whoever
    asks for a node that has no entry yet.
-/

namespace Distruct

/-- A point in time, in nanoseconds. -/
abbrev Instant := Nat

/-- A number of seconds, in nanoseconds. -/
def from_secs (secs : Nat) : Nat := secs * 1000000000

/-- The table `last_seen`. -/
abbrev HeartbeatMonitor := HashMap NodeId Instant

namespace HeartbeatMonitor

def on_heartbeat (monitor : HeartbeatMonitor) (now : Instant) (id : NodeId) : HeartbeatMonitor :=
  monitor.insert id now

/-- A node that was never seen counts as seen now, from now on. -/
def last_seen (monitor : HeartbeatMonitor) (now : Instant) (id : NodeId) :
    Instant × HeartbeatMonitor :=
  match monitor.lookup id with
  | some t => (t, monitor)
  | none => (now, monitor.insert id now)

def retain (monitor : HeartbeatMonitor) (predicate : NodeId → Bool) : HeartbeatMonitor :=
  BTreeMap.remove_all monitor (BTreeMap.range monitor fun id => predicate id = false)

variable {monitor : HeartbeatMonitor} {now : Instant} {id : NodeId}

theorem last_seen_fst : (monitor.last_seen now id).1 = (monitor.lookup id).getD now := by
  unfold last_seen
  cases monitor.lookup id <;> rfl

theorem lookup_last_seen (other : NodeId) :
    (monitor.last_seen now id).2.lookup other =
      if other = id then some ((monitor.lookup id).getD now) else monitor.lookup other := by
  unfold last_seen
  cases h : monitor.lookup id with
  | some t =>
    dsimp only
    by_cases heq : other = id
    · rw [if_pos heq, heq, h, Option.getD_some]
    · rw [if_neg heq]
  | none => rw [HashMap.lookup_insert_ite, Option.getD_none]

theorem lookup_retain (predicate : NodeId → Bool) :
    (monitor.retain predicate).lookup id = if predicate id then monitor.lookup id else none := by
  unfold retain
  rw [BTreeMap.lookup_remove_range]
  cases predicate id <;> simp

end HeartbeatMonitor

end Distruct

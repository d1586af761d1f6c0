import Distruct.Collections.Basic

/-! # Distributed Maps and Multi-Maps

    `collections/dmap.rs` and `collections/dmultimap.rs`. A lookup takes the
    key in any form `Q` that can be encoded. The methods without an explicit
    read consistency use `ReadIndex`.
-/

namespace Distruct

open Postcard (Bytes)

/-- A handle on the map `name`, held by the node `cluster`. The entries are in the
    state machines of the nodes. -/
structure DMap (K V : Type) where
  name : String
  cluster : NodeId
  deriving DecidableEq

namespace DMap

variable {K V Q : Type} [Serialize K] [Serialize V] [Deserialize V] [Serialize Q]

/-- `.map(|value| postcard::from_bytes(&value)).transpose()?` -/
def decode_value (value : Option Bytes) : Except Error (Option V) :=
  match value with
  | none => .ok none
  | some bs => (from_bytes bs).map some

/-- Looks at the state machine of the node itself. -/
def contains_key_stale (m : DMap K V) (key : Q) : NodeResult Error Bool := do
  let key ← to_allocvec key
  let found ← ask (.contains_key m.cluster m.name key)
  return found

/-- A read that need not be current is made here, any other one by the leader. -/
def contains_key_with (fuel : Nat) (m : DMap K V) (key : Q) (consistency : ReadConsistency) :
    NodeResult Error Bool := do
  if ← should_read_stale m.cluster consistency then
    m.contains_key_stale key
  else
    let client ← client_to_leader m.cluster
    let key ← to_allocvec key
    client.contains_key fuel m.name key consistency

def contains_key (fuel : Nat) (m : DMap K V) (key : Q) : NodeResult Error Bool :=
  m.contains_key_with fuel key .ReadIndex

/-- Writes go to the leader, whatever the node is. The value that was there before
    is decoded here. -/
def insert (fuel : Nat) (m : DMap K V) (key : K) (value : V) : NodeResult Error (Option V) := do
  let client ← client_to_leader m.cluster
  let key ← to_allocvec key
  let value ← to_allocvec value
  let old ← client.insert fuel m.name key value
  -- the entry is stored by now, even if this fails
  ExceptT.mk (pure (decode_value old))

/-- The value in the state machine of the node itself. -/
def get_stale (m : DMap K V) (key : Q) : NodeResult Error (Option V) := do
  let key ← to_allocvec key
  let value ← ask (.get_with_lock m.cluster m.name key)
  ExceptT.mk (pure (decode_value value))

def get_with (fuel : Nat) (m : DMap K V) (key : Q) (consistency : ReadConsistency) :
    NodeResult Error (Option V) := do
  if ← should_read_stale m.cluster consistency then
    m.get_stale key
  else
    let client ← client_to_leader m.cluster
    let key ← to_allocvec key
    let value ← client.get fuel m.name key consistency
    ExceptT.mk (pure (decode_value value))

def get (fuel : Nat) (m : DMap K V) (key : Q) : NodeResult Error (Option V) :=
  m.get_with fuel key .ReadIndex

/-- Removes the entry of the key, and returns its value. -/
def remove (fuel : Nat) (m : DMap K V) (key : Q) : NodeResult Error (Option V) := do
  let client ← client_to_leader m.cluster
  let key ← to_allocvec key
  let value ← client.remove fuel m.name key
  -- the entry is gone by now, even if this fails
  ExceptT.mk (pure (decode_value value))

/-- The number of entries; a map that was never written to has none. -/
def len_stale (m : DMap K V) : NodeProg Nat := do
  let len ← ask (.map_len m.cluster m.name)
  return len.getD 0

def len_with (fuel : Nat) (m : DMap K V) (consistency : ReadConsistency) :
    NodeResult Error Nat := do
  if ← should_read_stale m.cluster consistency then
    m.len_stale
  else
    let client ← client_to_leader m.cluster
    let result ← client.len fuel m.name consistency
    return result.getD 0

def len (fuel : Nat) (m : DMap K V) : NodeResult Error Nat := m.len_with fuel .ReadIndex

/-- Whether there are no entries, as `len_stale` counts them. -/
def is_empty_stale (m : DMap K V) : NodeProg Bool := do
  return (← m.len_stale) == 0

def is_empty_with (fuel : Nat) (m : DMap K V) (consistency : ReadConsistency) :
    NodeResult Error Bool := do
  return (← m.len_with fuel consistency) == 0

def is_empty (fuel : Nat) (m : DMap K V) : NodeResult Error Bool := do
  return (← m.len fuel) == 0

/-- Removes all entries. -/
def clear (fuel : Nat) (m : DMap K V) : NodeResult Error Unit := do
  let client ← client_to_leader m.cluster
  client.clear fuel m.name

end DMap

/-- A handle on the multi-map `name`, held by the node `cluster`. A key has a set
    of values. -/
structure DMultiMap (K V : Type) where
  name : String
  cluster : NodeId
  deriving DecidableEq

namespace DMultiMap

variable {K V Q U : Type} [Serialize K] [Serialize V] [Deserialize V] [Serialize Q] [Serialize U]

/-- Decodes all values of a set; an absent set has none. -/
def decode_values (values : Option (List Bytes)) : Except Error (List V) :=
  match values with
  | none => .ok []
  | some set => set.mapM from_bytes

/-- Adds a value to those of the key. Returns whether it was not there before. -/
def insert (fuel : Nat) (m : DMultiMap K V) (key : K) (value : V) : NodeResult Error Bool := do
  let client ← client_to_leader m.cluster
  let key ← to_allocvec key
  let value ← to_allocvec value
  client.insert_multi fuel m.name key value

/-- All values of the key in the state machine of the node itself. -/
def get_stale (m : DMultiMap K V) (key : Q) : NodeResult Error (List V) := do
  let key ← to_allocvec key
  let values ← ask (.get_with_lock_multi m.cluster m.name key)
  ExceptT.mk (pure (decode_values values))

def get_with (fuel : Nat) (m : DMultiMap K V) (key : Q) (consistency : ReadConsistency) :
    NodeResult Error (List V) := do
  if ← should_read_stale m.cluster consistency then
    m.get_stale key
  else
    let client ← client_to_leader m.cluster
    let key ← to_allocvec key
    let values ← client.get_multi fuel m.name key consistency
    ExceptT.mk (pure (decode_values values))

def get (fuel : Nat) (m : DMultiMap K V) (key : Q) : NodeResult Error (List V) :=
  m.get_with fuel key .ReadIndex

/-- Removes one value of the key. Returns whether it was there. -/
def remove (fuel : Nat) (m : DMultiMap K V) (key : Q) (value : U) : NodeResult Error Bool := do
  let client ← client_to_leader m.cluster
  let key ← to_allocvec key
  let value ← to_allocvec value
  client.remove_multi fuel m.name key value

end DMultiMap

end Distruct

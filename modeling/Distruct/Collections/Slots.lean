import Distruct.Collections.Ledger
import Distruct.Collections.Reference
import Distruct.Framework.Lossy

/-! # Replicas with Losses

    A removal is not written to the log: it changes the data of one node only.
    So once something was removed, replicas disagree. What remains true with any
    removals, on any nodes, at any time: a node never holds what the log does
    not say. It may have lost what was removed from it, or what was missing from
    a snapshot that it has installed, and nothing else.

    The data is looked at slot by slot: an entry of a map is a slot, and so is
    each value that a key of a multi-map may have.
-/

namespace Distruct

open Postcard (Bytes)
open StateMachineData (SetsMap SetsSet)
open Lossy (Copy)

/-! ### Slots -/

inductive Slot where
  | entry (map : String) (key : Bytes)
  | value (multi_map : String) (key value : Bytes)
  deriving DecidableEq

/-- What the data holds in a slot. -/
def StateMachineData.slot (d : StateMachineData) : Slot → Option Bytes
  | .entry map key => (d.map map).lookup key
  | .value multi_map key value =>
      if value ∈ (d.multi_map multi_map).or_default key ∅ then some value else none

/-- The slots that a request overwrites. -/
def RaftRequest.assigns : RaftRequest → Slot → Option (Option Bytes)
  | .Insert map key value, .entry map' key' =>
      if map' = map ∧ key' = key then some (some value) else none
  | .InsertMulti multi_map key value, .value multi_map' key' value' =>
      if multi_map' = multi_map ∧ key' = key ∧ value' = value then some (some value) else none
  | .Clear map, .entry map' _ => if map' = map then some none else none
  | _, _ => none

namespace StateMachineData

variable {d d' : StateMachineData} {name : String} {key : Bytes}

theorem slot_of_setsMap {m : HashMap Bytes Bytes} (h : SetsMap name m d d') (s : Slot) :
    d'.slot s = match s with
      | .entry map key => if map = name then m.lookup key else d.slot (.entry map key)
      | .value .. => d.slot s := by
  cases s with
  | entry map key =>
    simp only [slot, h.map]
    split <;> rfl
  | value multi_map key value =>
    have hsame : d'.multi_map multi_map = d.multi_map multi_map := by
      rw [StateMachineData.multi_map, StateMachineData.multi_map, h.multi_maps]
    simp only [slot, hsame]

theorem slot_of_setsSet {set : HashSet Bytes} (h : SetsSet name key set d d') (s : Slot) :
    d'.slot s = match s with
      | .entry .. => d.slot s
      | .value multi_map k value =>
          if multi_map = name ∧ k = key then if value ∈ set then some value else none
          else d.slot s := by
  cases s with
  | entry map k => simp only [slot, StateMachineData.map, h.maps]
  | value multi_map k value =>
    by_cases hname : multi_map = name
    · subst hname
      simp only [slot, h.set, true_and]
      by_cases hk : k = key
      · simp only [hk, if_true]
      · simp only [hk, if_false]
    · simp only [slot, h.others _ hname, hname, false_and, if_false]

/-- A request does to the data what it does to its slots. -/
theorem slot_apply_request (d : StateMachineData) (req : RaftRequest) :
    (apply_request d req).1.slot = Lossy.assign req.assigns d.slot := by
  funext s
  cases req with
  | Insert map key value =>
    have hset : SetsMap map ((d.map map).insert key value) d
        (apply_request d (.Insert map key value)).1 := d.setsMap_insert map _
    rw [slot_of_setsMap hset]
    cases s with
    | entry map' key' =>
      simp only [Lossy.assign, RaftRequest.assigns, HashMap.lookup_insert_ite]
      by_cases hmap : map' = map
      · subst hmap
        by_cases hkey : key' = key
        · simp [hkey]
        · simp [hkey, slot]
      · simp [hmap]
    | value multi_map key' value' => rfl
  | InsertMulti multi_map key value =>
    have hset : SetsSet multi_map key (insert value ((d.multi_map multi_map).or_default key ∅)) d
        (apply_request d (.InsertMulti multi_map key value)).1 := d.setsSet_insert multi_map key _
    rw [slot_of_setsSet hset]
    cases s with
    | entry map key' => rfl
    | value multi_map' key' value' =>
      simp only [Lossy.assign, RaftRequest.assigns, Finset.mem_insert]
      by_cases hkey : multi_map' = multi_map ∧ key' = key
      · obtain ⟨rfl, rfl⟩ := hkey
        by_cases hval : value' = value
        · simp [hval]
        · simp [hval, slot]
      · have hnot : ¬ (multi_map' = multi_map ∧ key' = key ∧ value' = value) :=
          fun h => hkey ⟨h.1, h.2.1⟩
        simp [hkey, hnot]
  | Clear map =>
    have hset : SetsMap map ∅ d (apply_request d (.Clear map)).1 := d.setsMap_insert map ∅
    rw [slot_of_setsMap hset]
    cases s with
    | entry map' key' =>
      simp only [Lossy.assign, RaftRequest.assigns, Finmap.lookup_empty]
      by_cases hmap : map' = map
      · simp [hmap]
      · simp [hmap]
    | value multi_map key' value' => rfl

/-- A removal empties one slot. -/
theorem slot_remove (d : StateMachineData) (map : String) (key : Bytes) (s : Slot) :
    (d.remove map key).2.slot s = if s = .entry map key then none else d.slot s := by
  rw [slot_of_setsMap (d.setsMap_remove map key)]
  cases s with
  | entry map' key' =>
    simp only [HashMap.lookup_erase_ite, Slot.entry.injEq]
    by_cases hmap : map' = map
    · subst hmap
      by_cases hkey : key' = key
      · simp [hkey]
      · simp [hkey, slot]
    · simp [hmap]
  | value multi_map key' value' => simp

theorem slot_remove_multi_value (d : StateMachineData) (multi_map : String) (key value : Bytes)
    (s : Slot) :
    (d.remove_multi_value multi_map key value).2.slot s
      = if s = .value multi_map key value then none else d.slot s := by
  rw [slot_of_setsSet (d.setsSet_remove_multi_value multi_map key value)]
  cases s with
  | entry map' key' => simp
  | value multi_map' key' value' =>
    simp only [Slot.value.injEq, Finset.mem_erase]
    by_cases hkey : multi_map' = multi_map ∧ key' = key
    · obtain ⟨rfl, rfl⟩ := hkey
      by_cases hval : value' = value
      · simp [hval]
      · simp [hval, slot]
    · have hnot : ¬ (multi_map' = multi_map ∧ key' = key ∧ value' = value) :=
        fun h => hkey ⟨h.1, h.2.1⟩
      simp [hkey, hnot]

end StateMachineData

/-! ### A state machine with losses -/

variable {kept : Slot → Prop}

/-- `sm` is `sm'`, except that it may have lost slots outside `kept`. -/
structure Lags (kept : Slot → Prop) (sm sm' : StateMachineInner) : Prop where
  last_applied_log : sm.last_applied_log = sm'.last_applied_log
  last_membership : sm.last_membership = sm'.last_membership
  data : Copy kept sm.data.slot sm'.data.slot

theorem Lags.refl (sm : StateMachineInner) : Lags kept sm sm := ⟨rfl, rfl, .refl _⟩

theorem Lags.applied {sm sm' : StateMachineInner} (h : Lags kept sm sm') :
    sm.applied = sm'.applied := by
  rw [StateMachineInner.applied, StateMachineInner.applied, h.last_applied_log]

theorem Lags.apply_entry {sm sm' : StateMachineInner} (h : Lags kept sm sm') (e : Entry) :
    Lags kept (apply_entry sm e).1 (apply_entry sm' e).1 := by
  obtain ⟨log_id, payload⟩ := e
  cases payload with
  | Blank => exact ⟨rfl, h.last_membership, h.data⟩
  | Membership mem => exact ⟨rfl, rfl, h.data⟩
  | Normal req =>
    refine ⟨rfl, h.last_membership, ?_⟩
    show Copy kept (apply_request sm.data req).1.slot (apply_request sm'.data req).1.slot
    rw [StateMachineData.slot_apply_request, StateMachineData.slot_apply_request]
    exact h.data.assign req.assigns

/-! ### The cluster -/

namespace World

variable {w w' : World}

/-- A removal that does not find what must not be lost; every other call. -/
def spares (kept : Slot → Prop) (w : World) : Op → Prop
  | .remove i map key => kept (.entry map key) → (w.data i).slot (.entry map key) = none
  | .remove_multi_value i multi_map key value =>
      kept (.value multi_map key value) → (w.data i).slot (.value multi_map key value) = none
  | _ => True

/-- Every node has replayed what it has applied, with losses, and so has what every
    snapshot records. -/
structure Lossy (kept : Slot → Prop) (w : World) : Prop where
  indexed : Indexed w.log
  replica : ∀ i, w.applied i ≤ w.log.length ∧
    Lags kept (w.node i).sm.state_machine (replay w.log (w.applied i))
  snapshot : ∀ snap ∈ w.snapshots, ∃ n ≤ w.log.length, ∃ sm,
    StateMachine.Captures snap sm ∧ Lags kept sm (replay w.log n)

theorem Lossy.of_init (h : w.init) : w.Lossy kept := by
  obtain ⟨hlog, hsm, _, hsnap, _, _⟩ := h
  refine ⟨?_, ?_, ?_⟩
  · simp [Indexed, hlog]
  · intro i
    simp only [applied, hsm, hlog]
    exact ⟨Nat.le_refl _, .refl _⟩
  · simp [hsnap]

/-- A node that lags behind some replay has applied just that. -/
theorem lossy_replica_of_lags (hlog : Indexed w.log) {i : NodeId} {n : Nat} (hn : n ≤ w.log.length)
    (h : Lags kept (w.node i).sm.state_machine (replay w.log n)) :
    w.applied i = n ∧ w.applied i ≤ w.log.length ∧
      Lags kept (w.node i).sm.state_machine (replay w.log (w.applied i)) := by
  have happ : w.applied i = n := by
    rw [applied, h.applied, applied_replay hlog hn]
  rw [happ]
  exact ⟨rfl, hn, h⟩

theorem Lossy.set_replica (h : w.Lossy kept) {i : NodeId} {sm : StateMachine} {n : Nat}
    (hn : n ≤ w.log.length) (hsm : Lags kept sm.state_machine (replay w.log n)) :
    (w.set_sm i sm).Lossy kept ∧ (w.set_sm i sm).applied i = n := by
  have hself : Lags kept ((w.set_sm i sm).node i).sm.state_machine (replay w.log n) := by
    rw [set_sm_sm, if_pos rfl]
    exact hsm
  refine ⟨⟨h.indexed, ?_, h.snapshot⟩, (lossy_replica_of_lags (w := w.set_sm i sm) h.indexed hn hself).1⟩
  intro j
  by_cases hj : j = i
  · subst hj
    exact (lossy_replica_of_lags (w := w.set_sm j sm) h.indexed hn hself).2
  · refine (lossy_replica_of_lags (w := w.set_sm i sm) h.indexed (h.replica j).1 ?_).2
    rw [set_sm_sm, if_neg hj]
    exact (h.replica j).2

theorem Lossy.commit (h : w.Lossy kept) {e : Entry} (he : e.log_id.index = w.log.length) :
    ({ w with log := w.log ++ [e] } : World).Lossy kept where
  indexed := by
    intro k e' hk
    rcases Ledger.getElem?_concat_cases hk with hk | ⟨rfl, rfl⟩
    · exact h.indexed k e' hk
    · exact he
  replica := by
    intro i
    obtain ⟨hle, hi⟩ := h.replica i
    refine ⟨?_, ?_⟩
    · rw [List.length_append]
      exact Nat.le_add_right_of_le hle
    · show Lags kept _ (replay (w.log ++ [e]) (w.applied i))
      rw [replay, Replay.upTo_append _ hle]
      exact hi
  snapshot := by
    intro snap hsnap
    obtain ⟨n, hn, sm, hcap, hsm⟩ := h.snapshot snap hsnap
    refine ⟨n, ?_, sm, hcap, ?_⟩
    · rw [List.length_append]
      exact Nat.le_add_right_of_le hn
    · rw [replay, Replay.upTo_append _ hn]
      exact hsm

theorem Lossy.batch_le (h : w.Lossy kept) (i : NodeId) (n : Nat) :
    w.applied i + ((w.backlog i).take n).length ≤ w.log.length := by
  have := (h.replica i).1
  simp only [backlog, List.length_take, List.length_drop]
  omega

/-- A node that applies a batch has the same losses as before. -/
theorem Lossy.apply_batch (h : w.Lossy kept) (i : NodeId) (n : Nat) :
    Lags kept ((w.node i).sm.apply ((w.backlog i).take n)).2.state_machine
      (replay w.log (w.applied i + ((w.backlog i).take n).length)) := by
  have hlags := Replay.feed_related apply_entry (R := Lags kept) (fun _ _ e h => h.apply_entry e)
    (h.replica i).2 ((w.backlog i).take n)
  have hfeed : (Replay.feed apply_entry (replay w.log (w.applied i)) ((w.backlog i).take n)).1
      = replay w.log (w.applied i + ((w.backlog i).take n).length) :=
    Replay.feed_upTo _ (List.take_prefix n _)
  rw [hfeed] at hlags
  exact hlags

/-- What Raft does keeps the losses within bounds, and as long as no node goes back to
    an older snapshot, it only goes forward. -/
theorem Lossy.move (h : w.Lossy kept) {m : RaftMove} (hok : w.forward m) (hm : w.move m w') :
    w'.Lossy kept ∧ Advances w w' := by
  cases m with
  | commit e =>
    obtain ⟨he, _, rfl⟩ := hm
    exact ⟨h.commit he, List.prefix_append _ _, fun _ => Nat.le_refl _⟩
  | apply i n =>
    cases hm
    obtain ⟨hset, happ⟩ := h.set_replica (h.batch_le i n) (h.apply_batch i n)
    refine ⟨⟨hset.indexed, hset.replica, hset.snapshot⟩, List.prefix_refl _, fun j => ?_⟩
    by_cases hj : j = i
    · subst hj
      show w.applied j ≤ (w.set_sm j _).applied j
      rw [happ]
      exact Nat.le_add_right _ _
    · show w.applied j ≤ (w.set_sm i _).applied j
      rw [World.applied, World.applied, set_sm_sm, if_neg hj]
  | build_snapshot i ord =>
    obtain ⟨snap, sm, hbuild, rfl⟩ := hm
    obtain ⟨snap', sm', hspec, hcap, hkeep⟩ := StateMachine.build_snapshot_spec ord (w.node i).sm
    rw [hbuild] at hspec
    cases hspec
    obtain ⟨hle, hi⟩ := h.replica i
    have hsm : Lags kept sm.state_machine (replay w.log (w.applied i)) := by
      rw [hkeep]
      exact hi
    obtain ⟨hset, happ⟩ := h.set_replica (i := i) hle hsm
    refine ⟨⟨hset.indexed, hset.replica, ?_⟩, List.prefix_refl _, fun j => ?_⟩
    · intro s hs
      rcases List.mem_cons.mp hs with rfl | hs
      · exact ⟨w.applied i, hle, _, hcap, hi⟩
      · exact h.snapshot s hs
    · by_cases hj : j = i
      · subst hj
        exact Nat.le_of_eq happ.symm
      · show w.applied j ≤ (w.set_sm i sm).applied j
        rw [World.applied, World.applied, set_sm_sm, if_neg hj]
  | install_snapshot i snap =>
    obtain ⟨hmem, rfl⟩ := hm
    -- the node takes over the losses of the snapshot
    obtain ⟨n, hn, inner, hcap, hinner⟩ := h.snapshot snap hmem
    obtain ⟨installed, hinstall, hstate⟩ := StateMachine.install_snapshot_spec hcap (w.node i).sm
    rw [hinstall]
    have hsm : Lags kept installed.state_machine (replay w.log n) := by
      rw [hstate]
      exact hinner
    obtain ⟨hset, happ⟩ := h.set_replica (i := i) hn hsm
    refine ⟨hset, .set_sm ?_⟩
    rw [hstate, StateMachineInner.applied, ← hcap.last_log_id]
    exact hok
  | observe i m =>
    cases hm
    refine ⟨⟨h.indexed, fun j => ?_, h.snapshot⟩, List.prefix_refl _, fun j => ?_⟩
    · simp only [applied, set_metrics_sm]
      exact h.replica j
    · rw [World.applied, World.applied, set_metrics_sm]

/-- A node that loses a slot. -/
theorem Lossy.lose (h : w.Lossy kept) {i : NodeId} {d : StateMachineData} {lost : Slot}
    (hslot : ∀ s, d.slot s = if s = lost then none else (w.data i).slot s)
    (hkept : kept lost → (w.data i).slot lost = none) :
    (w.set_node i ((w.node i).withData d)).Lossy kept ∧
      Advances w (w.set_node i ((w.node i).withData d)) := by
  obtain ⟨hle, hi⟩ := h.replica i
  have hlags : Lags kept ((w.node i).withData d).sm.state_machine (replay w.log (w.applied i)) := by
    have hgone : d.slot lost = none := (hslot lost).trans (if_pos rfl)
    refine ⟨hi.last_applied_log, hi.last_membership, hi.data.erase hgone ?_ hkept⟩
    exact fun s hs => (hslot s).trans (if_neg hs)
  obtain ⟨hset, happ⟩ := h.set_replica (i := i) hle hlags
  exact ⟨hset, .set_sm (Nat.le_refl _)⟩

/-- No call does more than lose what it may. -/
theorem Lossy.call (h : w.Lossy kept) {o : Op} {r : o.Resp} (hok : w.spares kept o)
    (hc : w.call o r w') : w'.Lossy kept ∧ Advances w w' := by
  rcases call_cases hc with hf | ⟨i, map, key, rfl, rfl⟩ | ⟨i, multi_map, key, value, rfl, rfl⟩
  · refine ⟨⟨?_, ?_, ?_⟩, ?_, ?_⟩
    · rw [hf.log]
      exact h.indexed
    · simp only [applied, hf.log, hf.node]
      exact h.replica
    · rw [hf.log, hf.snapshots]
      exact h.snapshot
    · rw [hf.log]
    · intro i
      rw [World.applied, World.applied, hf.node]
  · exact h.lose (StateMachineData.slot_remove _ map key) hok
  · exact h.lose (StateMachineData.slot_remove_multi_value _ multi_map key value) hok

end World

end Distruct

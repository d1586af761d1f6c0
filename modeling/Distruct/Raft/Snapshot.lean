import Distruct.Raft.State

/-! # Snapshots and Replay

    A snapshot stands for the log entries it was built from: a node that
    installs it, whatever state it was in before, and then applies the entries
    that follow ends up where a node that applied the whole log is.
-/

namespace Distruct

/-- Some enumeration order of the hash tables exists. -/
noncomputable def HashOrder.arbitrary : HashOrder where
  iter := fun d =>
    (d.maps.toPairs.map fun m => (m.1, m.2.toPairs.map fun kv => (kv.1, kv.2)),
      d.multi_maps.toPairs.map fun m => (m.1, m.2.toPairs.map fun kv => (kv.1, kv.2.toList)))
  exact := by
    intro d
    refine ⟨?_, ?_, ?_, ?_, ?_⟩
    · simpa [Function.comp_def] using d.maps.nodup_toPairs
    · intro m hm
      obtain ⟨⟨n, m'⟩, _, rfl⟩ := List.mem_map.mp hm
      simpa [Function.comp_def] using m'.nodup_toPairs
    · simpa [Function.comp_def] using d.multi_maps.nodup_toPairs
    · intro m hm
      obtain ⟨⟨n, m'⟩, _, rfl⟩ := List.mem_map.mp hm
      simpa [Function.comp_def] using m'.nodup_toPairs
    · intro m hm kv hkv
      obtain ⟨⟨n, m'⟩, _, rfl⟩ := List.mem_map.mp hm
      obtain ⟨⟨k, vs⟩, _, rfl⟩ := List.mem_map.mp hkv
      exact Finset.nodup_toList vs
  lists := by
    intro d
    -- first the entries under one name, then the names
    have hmaps : ∀ m : HashMap Postcard.Bytes Postcard.Bytes,
        HashMap.collect (m.toPairs.map fun kv => (kv.1, kv.2)) = m := by
      intro m
      have := HashMap.collect_map_toPairs (m := m) (g := id) (f := id) fun _ => rfl
      simpa using this
    have hmulti : ∀ m : HashMap Postcard.Bytes (HashSet Postcard.Bytes),
        HashMap.collect ((m.toPairs.map fun kv => (kv.1, kv.2.toList)).map
          fun kv => (kv.1, kv.2.toFinset)) = m := by
      intro m
      exact HashMap.collect_map_toPairs (g := fun s : HashSet Postcard.Bytes => s.toList)
        (f := fun l => l.toFinset) Finset.toList_toFinset
    have h₁ := HashMap.collect_map_toPairs (m := d.maps)
      (g := fun m => m.toPairs.map fun kv => (kv.1, kv.2)) (f := HashMap.collect) hmaps
    have h₂ := HashMap.collect_map_toPairs (m := d.multi_maps)
      (g := fun m => m.toPairs.map fun kv => (kv.1, kv.2.toList))
      (f := fun l => HashMap.collect (l.map fun kv => (kv.1, kv.2.toFinset))) hmulti
    simp only [Layout.toData, h₁, h₂]

namespace StateMachine

/-! ### Batches -/

/-- Consecutive calls of `apply`, with the responses of all of them. -/
def apply_batches (sm : StateMachine) (batches : List (List Entry)) :
    List RaftResponse × StateMachine :=
  batches.foldl (fun acc b => (acc.1 ++ (acc.2.apply b).1, (acc.2.apply b).2)) ([], sm)

theorem apply_append (sm : StateMachine) (es fs : List Entry) :
    sm.apply (es ++ fs)
      = ((sm.apply es).1 ++ ((sm.apply es).2.apply fs).1, ((sm.apply es).2.apply fs).2) := by
  simp only [apply, Replay.feed_append]

/-- Where the calls cut the entries does not matter. -/
theorem apply_batches_eq (sm : StateMachine) (batches : List (List Entry)) :
    sm.apply_batches batches = sm.apply batches.flatten := by
  -- the responses collected by earlier calls stay in front
  suffices h : ∀ out, batches.foldl
      (fun acc b => (acc.1 ++ (acc.2.apply b).1, (acc.2.apply b).2)) (out, sm)
      = (out ++ (sm.apply batches.flatten).1, (sm.apply batches.flatten).2) by
    exact h []
  intro out
  induction batches generalizing sm out with
  | nil => simp [apply]
  | cons b bs ih =>
    rw [List.foldl_cons, ih, List.flatten_cons, apply_append]
    simp

/-! ### Building and installing -/

/-- The snapshot records the replicated state `inner`. -/
structure Captures (snap : StoredSnapshot) (inner : StateMachineInner) : Prop where
  last_log_id : snap.snapshot_meta.last_log_id = inner.last_applied_log
  last_membership : snap.snapshot_meta.last_membership = inner.last_membership
  data : StateMachineData.from_bytes snap.data = .ok inner.data

/-- Building a snapshot succeeds, records the state and leaves it alone. -/
theorem build_snapshot_spec (ord : HashOrder) (sm : StateMachine) :
    ∃ snap built, sm.build_snapshot ord = (.ok snap, built) ∧
      Captures snap sm.state_machine ∧ built.state_machine = sm.state_machine :=
  ⟨_, _, rfl, ⟨rfl, rfl, StateMachineData.from_bytes_encode ord _⟩, rfl⟩

/-- Installing a snapshot takes over the state it records, whatever the state
    before. -/
theorem install_snapshot_spec {snap : StoredSnapshot} {inner : StateMachineInner}
    (h : Captures snap inner) (sm : StateMachine) :
    ∃ installed, sm.install_snapshot snap.snapshot_meta snap.data = (.ok (), installed) ∧
      installed.state_machine = inner := by
  simp only [install_snapshot, h.data]
  refine ⟨_, rfl, ?_⟩
  simp only [h.last_log_id, h.last_membership]

/-- What `apply` does depends on the replicated state only. -/
theorem apply_congr {sm sm' : StateMachine} (h : sm.state_machine = sm'.state_machine)
    (es : List Entry) :
    (sm.apply es).1 = (sm'.apply es).1 ∧
      (sm.apply es).2.state_machine = (sm'.apply es).2.state_machine := by
  simp only [apply, h, and_self]

/-- **Snapshot plus suffix equals full replay.** A fresh state machine applies
    a prefix in any batches and builds a snapshot. Installing it on any state
    machine and applying the suffix in any batches gives the replicated state
    of a fresh state machine that applied the whole list entry by entry, and
    the responses to the suffix are the same, one per entry. -/
theorem snapshot_then_suffix (ord : HashOrder) (pre suf : List (List Entry)) (sm : StateMachine) :
    let entries := pre.flatten ++ suf.flatten
    let full := (default : StateMachine).apply_batches (entries.map fun e => [e])
    ∃ snap built installed,
      ((default : StateMachine).apply_batches pre).2.build_snapshot ord = (.ok snap, built) ∧
      sm.install_snapshot snap.snapshot_meta snap.data = (.ok (), installed) ∧
      (installed.apply_batches suf).2.state_machine = full.2.state_machine ∧
      (installed.apply_batches suf).1 = full.1.drop pre.flatten.length ∧
      (installed.apply_batches suf).1.length = suf.flatten.length := by
  intro entries full
  -- applying entry by entry is applying the list at once
  have hfull : full = (default : StateMachine).apply entries := by
    have hone : (entries.map fun e => [e]).flatten = entries := by
      rw [← List.flatMap_def, List.flatMap_singleton']
    simp only [full, apply_batches_eq, hone]
  have hpre := apply_batches_eq default pre
  obtain ⟨snap, built, hbuild, hcap, _⟩ :=
    build_snapshot_spec ord ((default : StateMachine).apply_batches pre).2
  obtain ⟨installed, hinstall, hstate⟩ := install_snapshot_spec hcap sm
  refine ⟨snap, built, installed, hbuild, hinstall, ?_⟩
  rw [hpre] at hstate
  -- the installed state is the one after the prefix, and nothing else matters to `apply`
  obtain ⟨hresp, hsm⟩ := apply_congr hstate suf.flatten
  rw [apply_batches_eq installed suf, hfull, apply_append default pre.flatten suf.flatten, hresp, hsm]
  -- the responses to the prefix come first, one per entry
  have hlen : ((default : StateMachine).apply pre.flatten).1.length = pre.flatten.length :=
    Replay.length_feed _ _ _
  refine ⟨rfl, ?_, Replay.length_feed _ _ _⟩
  simp only [← hlen, List.drop_left]

end StateMachine

end Distruct

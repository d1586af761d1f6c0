import Distruct.Cluster.World

/-! # Replica Agreement

    The state machine of every node is the replay of a prefix of the committed
    log, and so is what every snapshot records. All moves of Raft keep it so,
    and so does every call that a request leads to, with one exception: a
    direct removal of something that is there.
-/

namespace Distruct

/-- The replicated state after the first `n` entries of the log. -/
def replay (log : List Entry) (n : Nat) : StateMachineInner :=
  Replay.upTo apply_entry default log n

/-- Every entry of the log carries its position. -/
def Indexed (log : List Entry) : Prop :=
  ∀ (k : Nat) (e : Entry), log[k]? = some e → e.log_id.index = k

/-! ### Applied entries -/

/-- In a log whose entries carry their positions, `last_applied_log` tells how
    many entries were applied. -/
theorem applied_replay {log : List Entry} (hlog : Indexed log) {n : Nat} (hn : n ≤ log.length) :
    (replay log n).applied = n := by
  cases n with
  | zero => rfl
  | succ k =>
    -- the last applied entry is the one at position `k`
    obtain ⟨e, he⟩ : ∃ e, log[k]? = some e := ⟨_, List.getElem?_eq_getElem (by omega)⟩
    have hstep : replay log (k + 1) = (apply_entry (replay log k) e).1 := by
      rw [replay, Replay.upTo, List.take_add_one, he, Option.toList_some, Replay.feed_append,
        Replay.feed_cons]
      rfl
    rw [StateMachineInner.applied, hstep, last_applied_log_apply_entry]
    simp [hlog k e he]

/-! ### The invariant -/

namespace World

structure Inv (w : World) : Prop where
  indexed : Indexed w.log
  /-- Every node has replayed what it has applied. -/
  replica : ∀ i, w.applied i ≤ w.log.length ∧
    (w.node i).sm.state_machine = replay w.log (w.applied i)
  /-- Every snapshot records a replay. -/
  snapshot : ∀ snap ∈ w.snapshots, ∃ n ≤ w.log.length,
    StateMachine.Captures snap (replay w.log n)
  /-- Acknowledged writes are committed. -/
  acked_lt : ∀ k ∈ w.acked, k < w.log.length

variable {w w' : World}

theorem Inv.data_eq (h : w.Inv) (i : NodeId) : w.data i = (replay w.log (w.applied i)).data :=
  congrArg StateMachineInner.data (h.replica i).2

/-- A node whose state is some replay has replayed what it has applied. -/
theorem replica_of_eq (hlog : Indexed w.log) {i : NodeId} {n : Nat}
    (hn : n ≤ w.log.length) (h : (w.node i).sm.state_machine = replay w.log n) :
    w.applied i ≤ w.log.length ∧ (w.node i).sm.state_machine = replay w.log (w.applied i) := by
  have happ : w.applied i = n := by rw [applied, h, applied_replay hlog hn]
  rw [happ]
  exact ⟨hn, h⟩

theorem set_sm_sm (w : World) (i j : NodeId) (sm : StateMachine) :
    ((w.set_sm i sm).node j).sm = if j = i then sm else (w.node j).sm := by
  by_cases h : j = i
  · subst h
    simp [set_sm, set_node]
  · simp [set_sm, set_node, h]

/-- What a node sees of the cluster is no part of its state machine. -/
theorem set_metrics_sm (w : World) (i j : NodeId) (m : RaftMetrics) :
    ((w.set_node i { w.node i with metrics := m }).node j).sm = (w.node j).sm := by
  by_cases h : j = i
  · subst h
    simp [set_node]
  · simp [set_node, h]

/-- A node whose state machine becomes some replay joins the others. -/
theorem Inv.set_replica (h : w.Inv) {i : NodeId} {sm : StateMachine} {n : Nat}
    (hn : n ≤ w.log.length) (hsm : sm.state_machine = replay w.log n) :
    (w.set_sm i sm).Inv where
  indexed := h.indexed
  replica := by
    intro j
    by_cases hj : j = i
    · refine replica_of_eq (w := w.set_sm i sm) h.indexed hn ?_
      rw [set_sm_sm, if_pos hj]
      exact hsm
    · refine replica_of_eq (w := w.set_sm i sm) h.indexed (h.replica j).1 ?_
      rw [set_sm_sm, if_neg hj]
      exact (h.replica j).2
  snapshot := h.snapshot
  acked_lt := h.acked_lt

/-- The log grows at its end. -/
theorem Inv.commit (h : w.Inv) {e : Entry} (he : e.log_id.index = w.log.length) :
    ({ w with log := w.log ++ [e] } : World).Inv where
  indexed := by
    intro k e' hk
    -- an old entry keeps its position, and the new one comes last
    rw [List.getElem?_append] at hk
    split at hk
    · exact h.indexed k e' hk
    · rw [List.getElem?_singleton] at hk
      split at hk
      · cases hk
        omega
      · cases hk
  replica := by
    intro i
    obtain ⟨hle, hi⟩ := h.replica i
    refine ⟨?_, ?_⟩
    · rw [List.length_append]
      exact Nat.le_add_right_of_le hle
    · exact hi.trans (Replay.upTo_append _ hle).symm
  snapshot := by
    intro snap hsnap
    obtain ⟨n, hn, hcap⟩ := h.snapshot snap hsnap
    refine ⟨n, ?_, ?_⟩
    · rw [List.length_append]
      exact Nat.le_add_right_of_le hn
    · rw [replay, Replay.upTo_append _ hn]
      exact hcap
  acked_lt := by
    intro k hk
    rw [List.length_append]
    exact Nat.lt_add_right _ (h.acked_lt k hk)

theorem Inv.batch_le (h : w.Inv) (i : NodeId) (n : Nat) :
    w.applied i + ((w.backlog i).take n).length ≤ w.log.length := by
  have := (h.replica i).1
  simp only [backlog, List.length_take, List.length_drop]
  omega

/-- What a node that applies a batch ends up with. -/
theorem Inv.apply_batch (h : w.Inv) (i : NodeId) (n : Nat) :
    ((w.node i).sm.apply ((w.backlog i).take n)).2.state_machine
      = replay w.log (w.applied i + ((w.backlog i).take n).length) := by
  simp only [StateMachine.apply, (h.replica i).2, replay]
  exact Replay.feed_upTo _ (List.take_prefix n _)

/-- Every move of Raft keeps the invariant. -/
theorem Inv.move (h : w.Inv) {m : RaftMove} (hm : w.move m w') : w'.Inv := by
  match m with
  | .commit e =>
    obtain ⟨he, _, rfl⟩ := hm
    exact h.commit he
  | .apply i n =>
    cases hm
    have hset := h.set_replica (i := i) (h.batch_le i n) (h.apply_batch i n)
    exact ⟨hset.indexed, hset.replica, hset.snapshot, hset.acked_lt⟩
  | .build_snapshot i ord =>
    obtain ⟨snap, sm, hbuild, rfl⟩ := hm
    obtain ⟨snap', sm', hspec, hcap, hkeep⟩ := StateMachine.build_snapshot_spec ord (w.node i).sm
    -- the snapshot that was built is the one of the specification
    rw [hbuild] at hspec
    cases hspec
    obtain ⟨hle, hi⟩ := h.replica i
    have hset := h.set_replica (i := i) hle (hkeep.trans hi)
    refine ⟨hset.indexed, hset.replica, ?_, hset.acked_lt⟩
    intro s hs
    rcases List.mem_cons.mp hs with rfl | hs
    · exact ⟨w.applied i, hle, hi ▸ hcap⟩
    · exact h.snapshot s hs
  | .install_snapshot i snap =>
    obtain ⟨hmem, rfl⟩ := hm
    -- whatever the node held before, it now holds the replay that the snapshot records
    obtain ⟨n, hn, hcap⟩ := h.snapshot snap hmem
    obtain ⟨installed, hinstall, hstate⟩ := StateMachine.install_snapshot_spec hcap (w.node i).sm
    rw [hinstall]
    exact h.set_replica hn hstate
  | .observe i m =>
    cases hm
    refine ⟨h.indexed, ?_, h.snapshot, h.acked_lt⟩
    intro j
    simp only [applied, set_metrics_sm]
    exact h.replica j

/-! ### Calls -/

/-- A removal that finds nothing to remove; every other call. -/
def misses (w : World) : Op → Prop
  | .remove i map key => (w.data i).contains_key map key = false
  | .remove_multi_value i multi_map key value =>
      ∀ s, (w.data i).get_with_lock_multi multi_map key = some s → value ∉ s
  | _ => True

end World

theorem StateMachineData.remove_of_missing {d : StateMachineData} {map : String}
    {key : Postcard.Bytes} (h : d.contains_key map key = false) : (d.remove map key).2 = d := by
  unfold StateMachineData.remove
  split
  · rfl
  · next m hm =>
    simp only [StateMachineData.contains_key, hm, Option.map_some, Option.getD_some,
      Option.isSome_eq_false_iff, Option.isNone_iff_eq_none] at h
    simp only [HashMap.erase_of_lookup_eq_none h, HashMap.insert_of_lookup_eq hm]

theorem StateMachineData.remove_multi_value_of_missing {d : StateMachineData} {multi_map : String}
    {key value : Postcard.Bytes} (h : ∀ s, d.get_with_lock_multi multi_map key = some s → value ∉ s) :
    (d.remove_multi_value multi_map key value).2 = d := by
  unfold StateMachineData.remove_multi_value
  split
  · rfl
  · next mm hmm =>
    split
    · rfl
    · next s hs =>
      have hnot : value ∉ s := h s (by simp [StateMachineData.get_with_lock_multi, hmm, hs])
      simp only [Finset.erase_eq_of_notMem hnot, HashMap.insert_of_lookup_eq hs,
        HashMap.insert_of_lookup_eq hmm]

namespace World

variable {w w' : World}

/-- What a call leaves alone, and the one thing it may add. -/
structure Frame (w w' : World) : Prop where
  log : w'.log = w.log
  node : w'.node = w.node
  snapshots : w'.snapshots = w.snapshots
  acked : ∀ k ∈ w'.acked, k ∈ w.acked ∨ ∃ e ∈ w.log, e.log_id.index = k

theorem Frame.refl (w : World) : Frame w w := ⟨rfl, rfl, rfl, fun _ h => .inl h⟩

theorem set_node_withData_self (w : World) (i : NodeId) :
    w.set_node i ((w.node i).withData (w.data i)) = w := by
  simp only [set_node, NodeState.withData, data, NodeState.data, Function.update_eq_self]

/-- What a call can do to the cluster: nothing to the replicas, or a direct removal. -/
theorem call_cases {o : Op} {r : o.Resp} (hc : w.call o r w') :
    Frame w w' ∨
    (∃ i map key, o = .remove i map key ∧
      w' = w.set_node i ((w.node i).withData ((w.data i).remove map key).2)) ∨
    ∃ i multi_map key value, o = .remove_multi_value i multi_map key value ∧
      w' = w.set_node i ((w.node i).withData ((w.data i).remove_multi_value multi_map key value).2) := by
  cases o with
  | submit_write i req =>
    cases hc
    exact .inl ⟨rfl, rfl, rfl, fun _ h => .inl h⟩
  | await_write i req =>
    cases r with
    | error err =>
      cases hc
      exact .inl (.refl w)
    | ok resp =>
      obtain ⟨e, he, _, _, _, rfl⟩ := hc
      -- the acknowledged write is an entry of the log
      refine .inl ⟨rfl, rfl, rfl, ?_⟩
      intro k hk
      rcases List.mem_cons.mp hk with rfl | hk
      · exact .inr ⟨e, he, rfl⟩
      · exact .inl hk
  | await_read i ticket =>
    cases r with
    | error err =>
      cases hc
      exact .inl (.refl w)
    | ok l =>
      obtain ⟨_, rfl⟩ := hc
      exact .inl (.refl _)
  | remove i map key => exact .inr (.inl ⟨i, map, key, rfl, hc.2⟩)
  | remove_multi_value i multi_map key value =>
    exact .inr (.inr ⟨i, multi_map, key, value, rfl, hc.2⟩)
  | exchange i conn msg => cases hc
  | panic reason => cases r
  | out_of_fuel => cases r
  | add_learner | change_membership | append_entries | vote | connect | force_remove | on_heartbeat
  | elapsed | shutdown | broadcast_shutdown | transmit =>
    cases hc
    exact .inl (.refl w)
  | _ =>
    obtain ⟨_, rfl⟩ := hc
    exact .inl (.refl _)

/-- The calls that a request leads to leave the replicas alone. -/
theorem frame_of_call {o : Op} {r : o.Resp} (hok : w.misses o) (hc : w.call o r w') :
    Frame w w' := by
  -- a removal that finds nothing writes back what was there
  rcases call_cases hc with hf | ⟨i, map, key, rfl, rfl⟩ | ⟨i, multi_map, key, value, rfl, rfl⟩
  · exact hf
  · rw [StateMachineData.remove_of_missing hok, set_node_withData_self]
    exact .refl w
  · rw [StateMachineData.remove_multi_value_of_missing hok, set_node_withData_self]
    exact .refl w

/-- Calls that leave the replicas alone keep the invariant. -/
theorem Inv.frame (h : w.Inv) (hf : Frame w w') : w'.Inv where
  indexed := by
    rw [hf.log]
    exact h.indexed
  replica := by
    simp only [applied, hf.log, hf.node]
    exact h.replica
  snapshot := by
    rw [hf.log, hf.snapshots]
    exact h.snapshot
  acked_lt := by
    intro k hk
    rw [hf.log]
    rcases hf.acked k hk with hk | ⟨e, he, rfl⟩
    · exact h.acked_lt k hk
    · -- an acknowledged entry carries its position, which is inside the log
      obtain ⟨n, hn⟩ := List.mem_iff_getElem?.mp he
      rw [h.indexed n e hn]
      exact (List.getElem?_eq_some_iff.mp hn).1

theorem Inv.of_init (h : w.init) : w.Inv := by
  obtain ⟨hlog, hsm, _, hsnap, _, hack⟩ := h
  refine ⟨?_, ?_, ?_, ?_⟩
  · simp [Indexed, hlog]
  · intro i
    simp only [applied, hsm, hlog]
    exact ⟨Nat.le_refl _, rfl⟩
  · simp [hsnap]
  · simp [hack]

/-- Runs in which no removal finds anything, with the invariant of the replicas. -/
def replicas : LTS.Rely (world.restrict (fun _ _ => True) World.misses) where
  inv := World.Inv
  rel := fun _ _ => True
  can := fun _ _ => True
  refl := fun _ => trivial
  trans := fun _ _ => trivial
  init_inv := Inv.of_init
  env_ok := fun h hm => ⟨h.move hm.2, trivial⟩

theorem replicas_kept : replicas.Kept where
  can := fun _ _ => trivial
  kept := fun h hc => ⟨h.frame (frame_of_call hc.1 hc.2), trivial⟩

end World

/-! ### Runs of a cluster -/

/-- A job of the cluster is a message together with the node that handles it. -/
def serve (job : NodeId × Request) : NodeProg (Except RemoteError Response) :=
  handle_message job.1 job.2

/-- **Replica agreement**: in every run in which no removal finds anything to
    remove, whatever else is requested, in whatever order Raft moves and
    whatever the nodes believe about the leader, every node holds the replay of
    what it has applied. Two nodes with the same `last_applied_log` hold the
    same data. -/
theorem replicas_agree
    {c : LTS.Pool World Op Op.Resp (NodeId × Request) (Except RemoteError Response)}
    (hc : (LTS.tasks (world.restrict (fun _ _ => True) World.misses) serve).Reachable c) :
    (∀ i, c.shared.data i = (replay c.shared.log (c.shared.applied i)).data) ∧
    ∀ i j, (c.shared.node i).sm.state_machine.last_applied_log
        = (c.shared.node j).sm.state_machine.last_applied_log →
      c.shared.data i = c.shared.data j := by
  have hinv : c.shared.Inv := (World.replicas.tasks_sound (fun _ _ _ _ => True)
    (fun j s _ => LTS.Rely.wp_of_forall World.replicas_kept (fun _ _ => trivial) (serve j) s) hc).inv
  refine ⟨hinv.data_eq, ?_⟩
  intro i j hij
  have happlied : c.shared.applied i = c.shared.applied j := by
    rw [World.applied, World.applied, StateMachineInner.applied, StateMachineInner.applied, hij]
  rw [hinv.data_eq i, hinv.data_eq j, happlied]

/-! ### A removal -/

/-- Nodes that have just been started. -/
def World.fresh : World where
  log := []
  node := fun i => ⟨default, ⟨i, .Follower, none, default⟩⟩
  answers := fun _ => []
  snapshots := []
  proposed := []
  acked := []

def insert_entry : Entry := ⟨⟨⟨1, 0⟩, 0⟩, .Normal (.Insert "m" [1] [2])⟩

theorem insert_reaches_both :
    ∃ c, (LTS.tasks (world.restrict (fun _ _ => True) World.misses) serve).Reachable c ∧
      c.shared.log = [insert_entry] ∧
      (c.shared.node 0).sm = ((default : StateMachine).apply [insert_entry]).2 ∧
      (c.shared.node 1).sm = ((default : StateMachine).apply [insert_entry]).2 := by
  refine ⟨_, .step (.env (.apply 1 1)) (.step (.env (.apply 0 1)) (.step (.env (.commit insert_entry))
    (.step (.call 0 (.submit_write 0 (.Insert "m" [1] [2])))
    (.step (.spawn (0, ⟨none, .Insert "m" [1] [2]⟩)) (.init (s := ⟨World.fresh, 0, []⟩) ?_) rfl)
    ⟨_, _, (), _, rfl, rfl, ⟨trivial, rfl⟩, rfl⟩) ⟨_, ⟨trivial, rfl, ?_, rfl⟩, rfl⟩)
    ⟨_, ⟨trivial, rfl⟩, rfl⟩) ⟨_, ⟨trivial, rfl⟩, rfl⟩, rfl, ?_, ?_⟩
  · exact ⟨⟨rfl, fun _ => rfl, rfl, rfl, rfl, rfl⟩, rfl, rfl⟩
  · intro req h
    cases h
    exact List.mem_singleton.mpr rfl
  · rfl
  · rfl

/-- After an insertion has reached them, two nodes hold the same data. -/
theorem replicas_agree_after_insert :
    ∃ c, (LTS.tasks (world.restrict (fun _ _ => True) World.misses) serve).Reachable c ∧
      c.shared.applied 0 = 1 ∧ c.shared.data 0 = c.shared.data 1 := by
  obtain ⟨c, hc, _, h₀, h₁⟩ := insert_reaches_both
  refine ⟨c, hc, ?_, (replicas_agree hc).2 0 1 (by rw [h₀, h₁])⟩
  rw [World.applied, h₀]
  rfl

/-- Node 0 is then asked to remove the entry: it has applied what node 1 has
    applied, and holds other data. -/
theorem removal_diverges :
    ∃ c, (LTS.tasks world serve).Reachable c ∧
      (c.shared.node 0).sm.state_machine.last_applied_log
        = (c.shared.node 1).sm.state_machine.last_applied_log ∧
      c.shared.data 0 ≠ c.shared.data 1 := by
  obtain ⟨c, hc, _, h₀, h₁⟩ := insert_reaches_both
  refine ⟨_, .step (.call c.tasks.length (.remove 0 "m" [1]))
    (.step (.spawn (0, ⟨none, .Remove "m" [1]⟩)) (LTS.tasks_of_restrict hc) rfl)
    ⟨_, _, _, _, List.getElem?_concat_length, rfl, ⟨rfl, rfl⟩, rfl⟩, ?_, ?_⟩
  · simp [World.set_node, NodeState.withData, h₀, h₁]
  · simp only [World.data, World.set_node, NodeState.data, NodeState.withData, h₀, h₁,
      Function.update_self, ne_eq, Function.update_of_ne Nat.one_ne_zero]
    decide

end Distruct

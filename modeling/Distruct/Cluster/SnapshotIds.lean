import Distruct.Cluster.Replicas

/-! # Snapshot Identifiers

    `build_snapshot` names a snapshot after the last applied log id and a counter
    of its own node. On one node the counter tells any two snapshots apart. Two
    nodes that have applied the same entries may well use the same identifier,
    and then the snapshots hold the same data, but not the same bytes: these
    follow the order in which each node enumerates its hash maps.
-/

namespace Distruct

/-! ### Reading an identifier -/

namespace StateMachine

theorem dash_notMem_toString (n : Nat) : '-' ∉ (toString n).toList := by
  intro h
  rw [Nat.toString_eq_repr, Nat.toList_repr] at h
  have hdigit := Nat.isDigit_of_mem_toDigits (by decide) (by decide) h
  revert hdigit
  decide

theorem toString_toList_inj {m n : Nat} (h : (toString m).toList = (toString n).toList) : m = n := by
  simp only [Nat.toString_eq_repr, Nat.toList_repr] at h
  have hread := congrArg (fun digits => Nat.ofDigitChars 10 digits 0) h
  simpa only [Nat.ofDigitChars_ten_toDigits] using hread

theorem toString_toList_ne_nil (n : Nat) : (toString n).toList ≠ [] := by
  rw [Nat.toString_eq_repr, Nat.toList_repr]
  exact Nat.toDigits_ne_nil

theorem first_field_inj {c : Char} {x y a b : List Char} (hx : c ∉ x) (hy : c ∉ y)
    (h : x ++ c :: a = y ++ c :: b) : x = y ∧ a = b := by
  induction x generalizing y with
  | nil =>
    cases y with
    | nil => exact ⟨rfl, (List.cons.inj h).2⟩
    | cons d y =>
      obtain ⟨rfl, _⟩ := List.cons.inj h
      exact absurd List.mem_cons_self hy
  | cons d x ih =>
    cases y with
    | nil =>
      obtain ⟨rfl, _⟩ := List.cons.inj h
      exact absurd List.mem_cons_self hx
    | cons e y =>
      obtain ⟨rfl, htail⟩ := List.cons.inj h
      obtain ⟨rfl, hrest⟩ := ih (fun hc => hx (List.mem_cons_of_mem _ hc))
        (fun hc => hy (List.mem_cons_of_mem _ hc)) htail
      exact ⟨rfl, hrest⟩

/-- What comes after the last separator, and what comes before it. -/
theorem last_field_inj {c : Char} {x y a b : List Char} (hx : c ∉ x) (hy : c ∉ y)
    (h : a ++ c :: x = b ++ c :: y) : a = b ∧ x = y := by
  have hrev : x.reverse ++ c :: a.reverse = y.reverse ++ c :: b.reverse := by
    simpa using congrArg List.reverse h
  obtain ⟨hxy, hab⟩ := first_field_inj (by simpa using hx) (by simpa using hy) hrev
  exact ⟨List.reverse_injective hab, List.reverse_injective hxy⟩

/-- The two parts of an identifier before the counter. -/
def id_fields (display : LeaderId → String) : Option LogId → List Char × List Char
  | some last => ((display last.leader_id).toList, (toString last.index).toList)
  | none => ([], [])

variable {display : LeaderId → String}

theorem toList_snapshot_id (last : Option LogId) (idx : Nat) :
    (snapshot_id display last idx).toList
      = ((id_fields display last).1 ++ '-' :: (id_fields display last).2) ++
        '-' :: (toString idx).toList := by
  cases last with
  | none => simp [snapshot_id, id_fields]
  | some last => simp [snapshot_id, id_fields]

theorem dash_notMem_index (last : Option LogId) : '-' ∉ (id_fields display last).2 := by
  cases last with
  | none => exact List.not_mem_nil
  | some last => exact dash_notMem_toString last.index

/-- If leader ids are displayed differently, an identifier tells the log id and the
    counter. -/
theorem snapshot_id_inj (hdisplay : Function.Injective display) {last last' : Option LogId}
    {idx idx' : Nat} (h : snapshot_id display last idx = snapshot_id display last' idx') :
    last = last' ∧ idx = idx' := by
  have hlist := congrArg String.toList h
  rw [toList_snapshot_id, toList_snapshot_id] at hlist
  -- the display may have any characters, so the identifier is taken apart from its end
  obtain ⟨hfields, hidx⟩ :=
    last_field_inj (dash_notMem_toString idx) (dash_notMem_toString idx') hlist
  obtain ⟨hleader, hindex⟩ :=
    last_field_inj (dash_notMem_index last) (dash_notMem_index last') hfields
  refine ⟨?_, toString_toList_inj hidx⟩
  cases last with
  | none =>
    cases last' with
    | none => rfl
    | some l' => exact absurd hindex.symm (toString_toList_ne_nil l'.index)
  | some l =>
    cases last' with
    | none => exact absurd hindex (toString_toList_ne_nil l.index)
    | some l' =>
      obtain ⟨leader, index⟩ := l
      obtain ⟨leader', index'⟩ := l'
      cases hdisplay (String.toList_injective hleader)
      cases toString_toList_inj hindex
      rfl

/-- Openraft displays no two leader ids in the same way. -/
theorem display_injective : Function.Injective LeaderId.display := by
  intro l l' h
  have hlist : ('T' :: (toString l.term).toList) ++ '-' :: 'N' :: (toString l.node_id).toList
      = ('T' :: (toString l'.term).toList) ++ '-' :: 'N' :: (toString l'.node_id).toList := by
    simpa [LeaderId.display] using congrArg String.toList h
  have hnode : ∀ n : Nat, '-' ∉ 'N' :: (toString n).toList := by
    intro n hmem
    rcases List.mem_cons.mp hmem with hd | hmem
    · exact absurd hd (by decide)
    · exact dash_notMem_toString n hmem
  obtain ⟨hterm, hid⟩ := last_field_inj (hnode l.node_id) (hnode l'.node_id) hlist
  obtain ⟨term, node_id⟩ := l
  obtain ⟨term', node_id'⟩ := l'
  cases toString_toList_inj (List.cons.inj hterm).2
  cases toString_toList_inj (List.cons.inj hid).2
  rfl

end StateMachine

/-! ### The snapshots of a run -/

/-- A snapshot and the node that built it. -/
structure Built where
  node : NodeId
  snapshot : StoredSnapshot

namespace Built

def id (b : Built) : String := b.snapshot.snapshot_meta.snapshot_id

def last_log_id (b : Built) : Option LogId := b.snapshot.snapshot_meta.last_log_id

end Built

namespace World

variable {w w' : World}

/-- What a move of Raft builds. -/
def built (w : World) : RaftMove → List Built
  | .build_snapshot i ord =>
    match ((w.node i).sm.build_snapshot ord).1 with
    | .ok snap => [⟨i, snap⟩]
    | .error _ => []
  | _ => []

end World

/-- The cluster, with all snapshots that were ever built. -/
def recorded : LTS.Shared (World × List Built) RaftMove Op Op.Resp := world.noting World.built

/-- The cluster with its snapshots and all requests under way. -/
abbrev RecordedPool :=
  LTS.Pool (World × List Built) Op Op.Resp (NodeId × Request) (Except RemoteError Response)

/-! ### The counter -/

namespace World

variable {w w' : World}

/-- The counter of node `i`. -/
def snapshot_idx (w : World) (i : NodeId) : Nat := (w.node i).sm.snapshot_idx

theorem snapshot_idx_set_sm (w : World) (i j : NodeId) (sm : StateMachine) :
    (w.set_sm i sm).snapshot_idx j = if j = i then sm.snapshot_idx else w.snapshot_idx j := by
  rw [snapshot_idx, set_sm_sm, apply_ite StateMachine.snapshot_idx]
  rfl

/-- The counter of a node never goes back. -/
theorem snapshot_idx_move {m : RaftMove} (hm : w.move m w') (j : NodeId) :
    w.snapshot_idx j ≤ w'.snapshot_idx j := by
  have hset : ∀ i sm, (w.node i).sm.snapshot_idx ≤ sm.snapshot_idx →
      w.snapshot_idx j ≤ (w.set_sm i sm).snapshot_idx j := by
    intro i sm hle
    rw [snapshot_idx_set_sm]
    split
    · next hj =>
      rw [hj]
      exact hle
    · exact Nat.le_refl _
  match m with
  | .commit e =>
    obtain ⟨_, _, rfl⟩ := hm
    exact Nat.le_refl _
  | .apply i n =>
    cases hm
    exact hset i _ (Nat.le_refl _)
  | .build_snapshot i ord =>
    obtain ⟨snap, sm, hbuild, rfl⟩ := hm
    cases hbuild
    exact hset i _ (Nat.le_succ _)
  | .install_snapshot i snap =>
    obtain ⟨_, rfl⟩ := hm
    refine hset i _ (Nat.le_of_eq ?_)
    simp only [StateMachine.install_snapshot]
    split <;> rfl
  | .observe i m =>
    cases hm
    rw [snapshot_idx, snapshot_idx, set_metrics_sm]

theorem snapshot_idx_withData (w : World) (i j : NodeId) (d : StateMachineData) :
    (w.set_node i ((w.node i).withData d)).snapshot_idx j = w.snapshot_idx j := by
  by_cases hj : j = i
  · rw [hj]
    simp [snapshot_idx, set_node, NodeState.withData]
  · simp [snapshot_idx, set_node, hj]

/-- No call touches a counter. -/
theorem snapshot_idx_call {o : Op} {r : o.Resp} (hc : w.call o r w') (j : NodeId) :
    w'.snapshot_idx j = w.snapshot_idx j := by
  rcases call_cases hc with hf | ⟨i, map, key, _, rfl⟩ | ⟨i, multi_map, key, value, _, rfl⟩
  · rw [snapshot_idx, snapshot_idx, hf.node]
  · exact snapshot_idx_withData w i j _
  · exact snapshot_idx_withData w i j _

end World

/-! ### The invariant -/

namespace Recorded

variable {s s' : World × List Built}

/-- Every identifier has the number of its build, and a node uses no number twice. -/
structure Inv (s : World × List Built) : Prop where
  numbered : ∀ b ∈ s.2, ∃ idx ≤ s.1.snapshot_idx b.node,
    b.id = StateMachine.snapshot_id LeaderId.display b.last_log_id idx
  distinct : s.2.Pairwise fun b b' => b.node = b'.node → b.id ≠ b'.id

/-- Moves that build nothing. -/
theorem Inv.keep (h : Inv s) (hle : ∀ i, s.1.snapshot_idx i ≤ s'.1.snapshot_idx i) (hsame : s'.2 = s.2) :
    Inv s' where
  numbered := by
    rw [hsame]
    intro b hb
    obtain ⟨idx, hidx, hid⟩ := h.numbered b hb
    exact ⟨idx, hidx.trans (hle b.node), hid⟩
  distinct := by
    rw [hsame]
    exact h.distinct

/-- Building a snapshot with the next number. -/
theorem Inv.build (h : Inv s) {b : Built} (hle : ∀ i, s.1.snapshot_idx i ≤ s'.1.snapshot_idx i)
    (hnext : s.1.snapshot_idx b.node + 1 ≤ s'.1.snapshot_idx b.node)
    (hid : b.id =
      StateMachine.snapshot_id LeaderId.display b.last_log_id (s.1.snapshot_idx b.node + 1))
    (hs : s'.2 = b :: s.2) : Inv s' where
  numbered := by
    rw [hs]
    intro b' hb'
    rcases List.mem_cons.mp hb' with rfl | hb'
    · exact ⟨_, hnext, hid⟩
    · obtain ⟨idx, hidx, hid'⟩ := h.numbered b' hb'
      exact ⟨idx, hidx.trans (hle b'.node), hid'⟩
  distinct := by
    rw [hs]
    refine List.pairwise_cons.mpr ⟨?_, h.distinct⟩
    intro b' hb' hnode heq
    -- the number of an older build is at most what the counter was
    obtain ⟨idx, hidx, hid'⟩ := h.numbered b' hb'
    rw [hid, hid'] at heq
    have hnum := (StateMachine.snapshot_id_inj StateMachine.display_injective heq).2
    rw [← hnode] at hidx
    omega

theorem Inv.move (h : Inv s) {m : RaftMove} (hm : recorded.env s m s') : Inv s' := by
  obtain ⟨hmove, hnotes⟩ := hm
  have hle := World.snapshot_idx_move hmove
  match m with
  | .build_snapshot i ord =>
    obtain ⟨snap, sm, hbuild, hw'⟩ := hmove
    cases hbuild
    refine h.build (b := ⟨i, _⟩) hle ?_ rfl hnotes
    rw [hw']
    show _ ≤ ((s.1.set_sm i _).node i).sm.snapshot_idx
    rw [World.set_sm_sm, if_pos rfl]
    exact Nat.le_refl _
  | .commit e => exact h.keep hle hnotes
  | .apply i n => exact h.keep hle hnotes
  | .install_snapshot i snap => exact h.keep hle hnotes
  | .observe i m => exact h.keep hle hnotes

theorem inv_of_run {c : RecordedPool} (hc : (LTS.tasks recorded serve).Reachable c) : Inv c.shared := by
  refine LTS.tasks_shared Inv ?_ (fun s m s' h hm => h.move hm) ?_ hc
  · intro s hinit
    refine ⟨?_, ?_⟩
    · simp [hinit.2]
    · simp [hinit.2]
  · intro s o r s' h hcall
    exact h.keep (fun i => (World.snapshot_idx_call hcall.1 i).ge) hcall.2

/-- Where no removal finds anything, every build records a replay. -/
structure Replayed (s : World × List Built) : Prop where
  world : s.1.Inv
  kept : ∀ b ∈ s.2, b.snapshot ∈ s.1.snapshots

theorem replayed_of_run {c : RecordedPool}
    (hc : (LTS.tasks (recorded.restrict (fun _ _ => True) fun s => s.1.misses) serve).Reachable c) :
    Replayed c.shared := by
  refine LTS.tasks_shared Replayed ?_ ?_ ?_ hc
  · intro s hinit
    refine ⟨World.Inv.of_init hinit.1, ?_⟩
    simp [hinit.2]
  · rintro s m s' h ⟨-, hmove, hnotes⟩
    refine ⟨h.world.move hmove, ?_⟩
    rw [hnotes]
    match m with
    | .build_snapshot i ord =>
      obtain ⟨snap, sm, hbuild, hw'⟩ := hmove
      cases hbuild
      intro b hb
      rw [hw']
      rcases List.mem_cons.mp hb with rfl | hb
      · exact List.mem_cons_self
      · exact List.mem_cons_of_mem _ (h.kept b hb)
    | .commit e =>
      obtain ⟨_, _, hw'⟩ := hmove
      rw [hw']
      exact h.kept
    | .apply i n =>
      rw [hmove]
      exact h.kept
    | .install_snapshot i snap =>
      rw [hmove.2]
      exact h.kept
    | .observe i m =>
      rw [hmove]
      exact h.kept
  · rintro s o r s' h ⟨hok, hcall, hnotes⟩
    have hframe := World.frame_of_call hok hcall
    refine ⟨h.world.frame hframe, ?_⟩
    rw [hnotes, hframe.snapshots]
    exact h.kept

/-- Snapshots of the same log id hold the same data. -/
theorem Replayed.data_eq (h : Replayed s) {b b' : Built} (hb : b ∈ s.2) (hb' : b' ∈ s.2)
    (hlast : b.last_log_id = b'.last_log_id) :
    ∃ data, StateMachineData.from_bytes b.snapshot.data = .ok data ∧
      StateMachineData.from_bytes b'.snapshot.data = .ok data := by
  obtain ⟨n, hn, hcap⟩ := h.world.snapshot _ (h.kept b hb)
  obtain ⟨n', hn', hcap'⟩ := h.world.snapshot _ (h.kept b' hb')
  -- the log id tells how much of the log was replayed
  have heq : n = n' := by
    unfold Built.last_log_id at hlast
    rw [← applied_replay h.world.indexed hn, ← applied_replay h.world.indexed hn',
      StateMachineInner.applied, StateMachineInner.applied, ← hcap.last_log_id, ← hcap'.last_log_id, hlast]
  exact ⟨_, hcap.data, heq ▸ hcap'.data⟩

end Recorded

/-! ### What an identifier tells -/

/-- **Identifiers of snapshots.** In every run, two builds of one node never have
    the same identifier, so that there it stands for one sequence of bytes. On
    different nodes the same identifier stands for the same last log id, and
    where no removal finds anything for the same data. -/
theorem same_id_same_data {c : RecordedPool} (hc : (LTS.tasks recorded serve).Reachable c) :
    (∀ (k k' : Nat) (b b' : Built), c.shared.2[k]? = some b → c.shared.2[k']? = some b' →
      b.node = b'.node → b.id = b'.id → k = k' ∧ b.snapshot.data = b'.snapshot.data) ∧
    ∀ b ∈ c.shared.2, ∀ b' ∈ c.shared.2, b.id = b'.id → b.last_log_id = b'.last_log_id ∧
      ((LTS.tasks (recorded.restrict (fun _ _ => True) fun s => s.1.misses) serve).Reachable c →
        ∃ data, StateMachineData.from_bytes b.snapshot.data = .ok data ∧
          StateMachineData.from_bytes b'.snapshot.data = .ok data) := by
  have hinv := Recorded.inv_of_run hc
  have hpair := List.pairwise_iff_getElem.mp hinv.distinct
  refine ⟨?_, ?_⟩
  · intro k k' b b' hk hk' hnode hid
    obtain ⟨hlt, rfl⟩ := List.getElem?_eq_some_iff.mp hk
    obtain ⟨hlt', rfl⟩ := List.getElem?_eq_some_iff.mp hk'
    have hkk : k = k' := by
      rcases Nat.lt_trichotomy k k' with hlt'' | heq | hlt''
      · exact absurd hid (hpair k k' hlt hlt' hlt'' hnode)
      · exact heq
      · exact absurd hid.symm (hpair k' k hlt' hlt hlt'' hnode.symm)
    subst hkk
    exact ⟨rfl, rfl⟩
  · intro b hb b' hb' hid
    obtain ⟨idx, _, hb₁⟩ := hinv.numbered b hb
    obtain ⟨idx', _, hb₂⟩ := hinv.numbered b' hb'
    rw [hb₁, hb₂] at hid
    have hlast := (StateMachine.snapshot_id_inj StateMachine.display_injective hid).1
    exact ⟨hlast, fun hrun => (Recorded.replayed_of_run hrun).data_eq hb hb' hlast⟩

/-! ### Two nodes, one identifier -/

/-- The order that enumerates some data in a given way. -/
noncomputable def HashOrder.preferring (layout : Layout) (h : layout.Exact) : HashOrder where
  iter := fun d => if d = layout.toData then layout else HashOrder.arbitrary.iter d
  exact := by
    intro d
    split
    · exact h
    · exact HashOrder.arbitrary.exact d
  lists := by
    intro d
    split
    · next hd => exact hd.symm
    · exact HashOrder.arbitrary.lists d

theorem HashOrder.preferring_iter {layout : Layout} (h : layout.Exact) {d : StateMachineData}
    (hd : d = layout.toData) : (HashOrder.preferring layout h).iter d = layout :=
  if_pos hd

def later_entry : Entry := ⟨⟨⟨1, 0⟩, 1⟩, .Normal (.Insert "m" [3] [4])⟩

/-- Nodes 0 and 1 have applied two insertions. -/
def both_inserted : StateMachine := ((default : StateMachine).apply [insert_entry, later_entry]).2

section runs
variable {c : RecordedPool}

/-- A run in which no removal finds anything. -/
abbrev Calm (c : RecordedPool) : Prop :=
  (LTS.tasks (recorded.restrict (fun _ _ => True) fun s => s.1.misses) serve).Reachable c

theorem run_move (hc : Calm c) (m : RaftMove) {w' : World} (hm : c.shared.1.move m w') :
    ∃ c', Calm c' ∧ c'.shared = (w', c.shared.1.built m ++ c.shared.2) :=
  ⟨_, .step (.env m) hc ⟨(w', c.shared.1.built m ++ c.shared.2), ⟨trivial, hm, rfl⟩, rfl⟩, rfl⟩

/-- Node 0 hands an insertion to Raft. -/
theorem run_propose (hc : Calm c) (map : String) (key value : Postcard.Bytes) :
    ∃ c', Calm c' ∧ c'.shared =
      ({ c.shared.1 with proposed := .Insert map key value :: c.shared.1.proposed }, c.shared.2) :=
  ⟨_, .step (.call c.tasks.length (.submit_write 0 (.Insert map key value)))
    (.step (.spawn (0, ⟨none, .Insert map key value⟩)) hc rfl)
    ⟨_, _, (), ({ c.shared.1 with proposed := .Insert map key value :: c.shared.1.proposed }, c.shared.2),
      List.getElem?_concat_length, rfl, ⟨trivial, rfl, rfl⟩, rfl⟩, rfl⟩

/-- Two nodes apply two insertions and build a snapshot each. -/
theorem built_on_both (ord ord' : HashOrder) :
    ∃ c snap snap', Calm c ∧ (both_inserted.build_snapshot ord).1 = .ok snap ∧
      (both_inserted.build_snapshot ord').1 = .ok snap' ∧ c.shared.2 = [⟨1, snap'⟩, ⟨0, snap⟩] := by
  have h₀ : Calm ⟨(World.fresh, []), 0, []⟩ :=
    .init ⟨⟨⟨rfl, fun _ => rfl, rfl, rfl, rfl, rfl⟩, rfl⟩, rfl, rfl⟩
  obtain ⟨c₁, h₁, hs₁⟩ := run_propose h₀ "m" [1] [2]
  obtain ⟨c₂, h₂, hs₂⟩ := run_propose h₁ "m" [3] [4]
  rw [hs₁] at hs₂
  obtain ⟨c₃, h₃, hs₃⟩ := run_move h₂ (.commit insert_entry) (by
    rw [hs₂]
    exact ⟨rfl, fun req hreq => by cases hreq; exact List.mem_cons_of_mem _ List.mem_cons_self, rfl⟩)
  rw [hs₂] at hs₃
  obtain ⟨c₄, h₄, hs₄⟩ := run_move h₃ (.commit later_entry) (by
    rw [hs₃]
    exact ⟨rfl, fun req hreq => by cases hreq; exact List.mem_cons_self, rfl⟩)
  rw [hs₃] at hs₄
  obtain ⟨c₅, h₅, hs₅⟩ := run_move h₄ (.apply 0 2) rfl
  obtain ⟨c₆, h₆, hs₆⟩ := run_move h₅ (.apply 1 2) rfl
  rw [hs₄] at hs₅
  rw [hs₅] at hs₆
  obtain ⟨c₇, h₇, hs₇⟩ := run_move h₆ (.build_snapshot 0 ord) ⟨_, _, rfl, rfl⟩
  obtain ⟨c₈, h₈, hs₈⟩ := run_move h₇ (.build_snapshot 1 ord') ⟨_, _, rfl, rfl⟩
  rw [hs₆] at hs₇
  rw [hs₇] at hs₈
  exact ⟨c₈, _, _, h₈, rfl, rfl, by rw [hs₈]; rfl⟩

end runs

/-- Two enumerations of what both nodes hold. -/
def ascending : Layout := ([("m", [([1], [2]), ([3], [4])])], [])

def descending : Layout := ([("m", [([3], [4]), ([1], [2])])], [])

theorem exact_ascending : ascending.Exact := by simp [Layout.Exact, ascending]

theorem exact_descending : descending.Exact := by simp [Layout.Exact, descending]

theorem toData_descending : descending.toData = ascending.toData := by
  have hswap : HashMap.collect [([3], [4]), ([1], [2])]
      = (HashMap.collect [([1], [2]), ([3], [4])] : HashMap Postcard.Bytes Postcard.Bytes) :=
    Finmap.insert_insert_of_ne _ (by decide)
  simp only [Layout.toData, descending, ascending, List.map_cons, List.map_nil, hswap]

/-- The bytes tell the enumeration. -/
theorem encode_ascending_ne : Layout.codec.encode ascending ≠ Layout.codec.encode descending := by
  intro h
  have hread := congrArg Layout.codec.from_bytes h
  rw [Postcard.Codec.from_bytes_encode, Postcard.Codec.from_bytes_encode] at hread
  have hlayout : ascending = descending := Except.ok.inj hread
  simp [ascending, descending] at hlayout

/-- Both nodes use one identifier for what holds the same data. -/
theorem same_id_same_data_two_nodes :
    ∃ c, (LTS.tasks recorded serve).Reachable c ∧
      ∃ b ∈ c.shared.2, ∃ b' ∈ c.shared.2, b.node ≠ b'.node ∧ b.id = b'.id ∧
        ∃ data, StateMachineData.from_bytes b.snapshot.data = .ok data ∧
          StateMachineData.from_bytes b'.snapshot.data = .ok data := by
  obtain ⟨c, snap, snap', hc, hsnap, hsnap', hs⟩ := built_on_both .arbitrary .arbitrary
  have hb : (⟨0, snap⟩ : Built) ∈ c.shared.2 := by simp [hs]
  have hb' : (⟨1, snap'⟩ : Built) ∈ c.shared.2 := by simp [hs]
  have hid : (⟨0, snap⟩ : Built).id = (⟨1, snap'⟩ : Built).id := by
    cases hsnap
    cases hsnap'
    rfl
  exact ⟨c, LTS.tasks_of_restrict hc, _, hb, _, hb', Nat.zero_ne_one, hid,
    ((same_id_same_data (LTS.tasks_of_restrict hc)).2 _ hb _ hb' hid).2 hc⟩

/-- **One identifier, other bytes**: the nodes hold the same data and enumerate it
    the other way around. -/
theorem same_id_other_bytes :
    ∃ c, (LTS.tasks recorded serve).Reachable c ∧
      ∃ b ∈ c.shared.2, ∃ b' ∈ c.shared.2, b.id = b'.id ∧ b.snapshot.data ≠ b'.snapshot.data := by
  obtain ⟨c, snap, snap', hc, hsnap, hsnap', hs⟩ :=
    built_on_both (.preferring ascending exact_ascending) (.preferring descending exact_descending)
  have hdata : both_inserted.state_machine.data = ascending.toData := rfl
  refine ⟨c, LTS.tasks_of_restrict hc, ⟨0, snap⟩, by simp [hs], ⟨1, snap'⟩, by simp [hs], ?_, ?_⟩
  · cases hsnap
    cases hsnap'
    rfl
  · cases hsnap
    cases hsnap'
    simp only [HashOrder.preferring_iter exact_ascending hdata,
      HashOrder.preferring_iter exact_descending (hdata.trans toData_descending.symm)]
    exact encode_ascending_ne

end Distruct

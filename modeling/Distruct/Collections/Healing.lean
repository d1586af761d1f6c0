import Distruct.Collections.Removals

/-! # Overwriting Heals

    A removal leaves a node with less than the log says, and so may a snapshot. The
    loss lasts no longer than until the slot is written again: once a node has applied
    an entry that overwrites the slot, it holds there what the log says,
    whatever was removed before.
-/

namespace Distruct

open Postcard (Bytes)

/-! ### Slots and entries -/

/-- The entry says what is in the slot, whatever was there. -/
def Entry.Overwrites (e : Entry) (slot : Slot) : Prop :=
  ∃ req, e.payload = .Normal req ∧ req.assigns slot ≠ none

section entries
variable {sm sm' : StateMachineInner} {slot : Slot}

/-- What an entry leaves in a slot depends on nothing but the slot. -/
theorem slot_apply_entry {e : Entry} (h : sm.data.slot slot = sm'.data.slot slot ∨ e.Overwrites slot) :
    (apply_entry sm e).1.data.slot slot = (apply_entry sm' e).1.data.slot slot := by
  obtain ⟨log_id, payload⟩ := e
  cases payload with
  | Blank | Membership mem =>
    rcases h with h | ⟨req, hreq, _⟩
    · exact h
    · cases hreq
  | Normal req =>
    show (apply_request sm.data req).1.slot slot = (apply_request sm'.data req).1.slot slot
    rw [StateMachineData.slot_apply_request, StateMachineData.slot_apply_request]
    unfold Lossy.assign
    rcases h with h | ⟨req', hreq, hsome⟩
    · rw [h]
    · cases hreq
      obtain ⟨v, hv⟩ := Option.ne_none_iff_exists'.mp hsome
      rw [hv]
      rfl

theorem slot_feed {entries : List Entry}
    (h : sm.data.slot slot = sm'.data.slot slot ∨ ∃ e ∈ entries, e.Overwrites slot) :
    (Replay.feed apply_entry sm entries).1.data.slot slot
      = (Replay.feed apply_entry sm' entries).1.data.slot slot := by
  induction entries generalizing sm sm' with
  | nil =>
    rcases h with h | ⟨e, he, _⟩
    · exact h
    · cases he
  | cons e rest ih =>
    rw [Replay.feed_cons, Replay.feed_cons]
    rcases h with h | ⟨e', he', hover⟩
    · exact ih (.inl (slot_apply_entry (.inl h)))
    · rcases List.mem_cons.mp he' with rfl | he'
      · exact ih (.inl (slot_apply_entry (.inr hover)))
      · exact ih (.inr ⟨e', he', hover⟩)

end entries

/-! ### Nodes -/

/-- A call that does not remove from the slot at node `i`. -/
def Op.Leaves (i : NodeId) (slot : Slot) : Op → Prop
  | .remove j map key => j = i → slot ≠ .entry map key
  | .remove_multi_value j multi_map key value => j = i → slot ≠ .value multi_map key value
  | _ => True

namespace World

variable {w w' : World} {i : NodeId} {slot : Slot} {n : Nat} {kept : Slot → Prop}

/-- Node `i` holds in the slot what the log says. -/
def Exact (i : NodeId) (slot : Slot) (w : World) : Prop :=
  (w.data i).slot slot = (replay w.log (w.applied i)).data.slot slot

/-- Node `i` has applied an entry that overwrites the slot, behind the first `n`. -/
def Overwritten (i : NodeId) (slot : Slot) (n : Nat) (w : World) : Prop :=
  ∃ (k : Nat) (e : Entry), n ≤ k ∧ k < w.applied i ∧ w.log[k]? = some e ∧ e.Overwrites slot

/-- The node holds what the log says in the slot, once that was overwritten. -/
def Healed (i : NodeId) (slot : Slot) (n : Nat) (w : World) : Prop :=
  w.Overwritten i slot n → w.Exact i slot

/-- If the node stays where it is and the slot is not touched, nothing changes. -/
theorem healed_of_slot (hle : w.applied i ≤ w.log.length) (happ : w'.applied i = w.applied i)
    (hslot : (w'.data i).slot slot = (w.data i).slot slot) (hlog : w.log <+: w'.log)
    (h : w.Healed i slot n) : w'.Healed i slot n := by
  obtain ⟨more, hmore⟩ := hlog
  intro hover
  obtain ⟨k, e, hnk, hk, he, hslot'⟩ := hover
  rw [happ] at hk
  rw [← hmore, List.getElem?_append_left (by omega)] at he
  have hexact := h ⟨k, e, hnk, hk, he, hslot'⟩
  unfold Exact at hexact ⊢
  rw [hslot, happ, ← hmore, replay, Replay.upTo_append _ hle]
  exact hexact

theorem healed_of_same (hle : w.applied i ≤ w.log.length)
    (hsm : (w'.node i).sm.state_machine = (w.node i).sm.state_machine) (hlog : w.log <+: w'.log)
    (h : w.Healed i slot n) : w'.Healed i slot n := by
  refine healed_of_slot hle ?_ ?_ hlog h
  · rw [applied, applied, hsm]
  · show (w'.node i).sm.state_machine.data.slot slot = (w.node i).sm.state_machine.data.slot slot
    rw [hsm]

/-- A node gets other data, which may be the node itself. -/
theorem healed_of_withData (hle : w.applied i ≤ w.log.length) {j : NodeId} {d : StateMachineData}
    (hd : j = i → d.slot slot = (w.data i).slot slot)
    (h : w.Healed i slot n) :
    (w.set_sm j ((w.node j).withData d).sm).Healed i slot n := by
  by_cases hj : i = j
  · subst hj
    refine healed_of_slot hle ?_ ?_ (List.prefix_refl _) h
    · rw [applied, set_sm_sm, if_pos rfl]
      rfl
    · show ((w.set_sm i _).node i).sm.state_machine.data.slot slot = _
      rw [set_sm_sm, if_pos rfl]
      exact hd rfl
  · refine healed_of_same hle ?_ (List.prefix_refl _) h
    rw [set_sm_sm, if_neg hj]

/-- A node that applies a batch. -/
theorem healed_of_apply (hl : w.Lossy kept) {b : Nat} (hm : w.move (.apply i b) w')
    (h : w.Healed i slot n) : w'.Healed i slot n := by
  cases hm
  have hpre : (w.backlog i).take b <+: w.log.drop (w.applied i) := List.take_prefix b _
  obtain ⟨_, happ⟩ := hl.set_replica (hl.batch_le i b) (hl.apply_batch i b)
  intro hover
  obtain ⟨k, e, hnk, hk, he, hslot⟩ := hover
  have hk' : k < w.applied i + ((w.backlog i).take b).length := by
    have hk₁ : k < (w.set_sm i ((w.node i).sm.apply ((w.backlog i).take b)).2).applied i := hk
    rw [happ] at hk₁
    exact hk₁
  have he' : w.log[k]? = some e := he
  -- the slot was right before, or the entry is one of the batch
  have hcase : (w.node i).sm.state_machine.data.slot slot
      = (replay w.log (w.applied i)).data.slot slot ∨
      ∃ e ∈ (w.backlog i).take b, e.Overwrites slot := by
    by_cases hold : k < w.applied i
    · exact .inl (h ⟨k, e, hnk, hold, he', hslot⟩)
    · refine .inr ⟨e, ?_, hslot⟩
      obtain ⟨rest, hrest⟩ := hpre
      have hlt : k - w.applied i < ((w.backlog i).take b).length := by omega
      have hmem : ((w.backlog i).take b)[k - w.applied i]? = some e := by
        rw [← he', ← Nat.add_sub_cancel' (Nat.le_of_not_lt hold), ← List.getElem?_drop, ← hrest,
          List.getElem?_append_left hlt, Nat.add_sub_cancel_left]
      exact List.mem_of_getElem? hmem
  have hfeed := slot_feed hcase
  rw [replay, Replay.feed_upTo apply_entry hpre] at hfeed
  show ((w.set_sm i _).data i).slot slot
    = (replay w.log ((w.set_sm i _).applied i)).data.slot slot
  rw [happ]
  show ((w.set_sm i _).node i).sm.state_machine.data.slot slot = _
  rw [set_sm_sm, if_pos rfl]
  exact hfeed

/-- A move of Raft that is not a snapshot for the node. -/
theorem healed_of_move (hl : w.Lossy kept) {m : RaftMove} (hnot : ∀ snap, m ≠ .install_snapshot i snap)
    (hm : w.move m w') (h : w.Healed i slot n) :
    w'.Healed i slot n := by
  obtain ⟨hle, _⟩ := hl.replica i
  cases m with
  | commit e =>
    obtain ⟨_, _, rfl⟩ := hm
    exact healed_of_same hle rfl (List.prefix_append _ _) h
  | apply j b =>
    by_cases hj : i = j
    · subst hj
      exact healed_of_apply hl hm h
    · cases hm
      refine healed_of_same hle ?_ (List.prefix_refl _) h
      show ((w.set_sm j _).node i).sm.state_machine = _
      rw [set_sm_sm, if_neg hj]
  | build_snapshot j ord =>
    obtain ⟨snap, sm, hbuild, rfl⟩ := hm
    obtain ⟨snap', sm', hspec, _, hkeep⟩ := StateMachine.build_snapshot_spec ord (w.node j).sm
    rw [hbuild] at hspec
    cases hspec
    refine healed_of_same hle ?_ (List.prefix_refl _) h
    show ((w.set_sm j sm).node i).sm.state_machine = _
    rw [set_sm_sm]
    split
    · next hj => rw [hkeep, hj]
    · rfl
  | install_snapshot j snap =>
    have hj : i ≠ j := fun hj => hnot snap (hj ▸ rfl)
    obtain ⟨_, rfl⟩ := hm
    refine healed_of_same hle ?_ (List.prefix_refl _) h
    rw [set_sm_sm, if_neg hj]
  | observe j m =>
    cases hm
    refine healed_of_same hle ?_ (List.prefix_refl _) h
    rw [set_metrics_sm]

/-- A call that leaves the slot alone. -/
theorem healed_of_call (hl : w.Lossy kept) {o : Op} {r : o.Resp} (hleaves : o.Leaves i slot)
    (hc : w.call o r w') (h : w.Healed i slot n) :
    w'.Healed i slot n := by
  obtain ⟨hle, _⟩ := hl.replica i
  rcases call_cases hc with hf | ⟨j, map, key, rfl, rfl⟩ | ⟨j, multi_map, key, value, rfl, rfl⟩
  · refine healed_of_same hle ?_ ?_ h
    · rw [hf.node]
    · rw [hf.log]
  · refine healed_of_withData hle (fun hj => ?_) h
    subst hj
    rw [StateMachineData.slot_remove, if_neg (hleaves rfl)]
  · refine healed_of_withData hle (fun hj => ?_) h
    subst hj
    rw [StateMachineData.slot_remove_multi_value, if_neg (hleaves rfl)]

end World

/-! ### Runs -/

/-- From now on, node `i` installs no snapshot and nothing is removed from the slot there. -/
def healing_ledger (i : NodeId) (slot : Slot) (ι Job : Type) [DecidableEq ι] :
    LTS.Site ι (Ledger ι Job) (RaftMove × Option Nat) Op Job Op.Resp :=
  (losing_ledger (fun _ => False) ι Job).restrict (fun _ m => ∀ snap, m.1 ≠ .install_snapshot i snap)
    fun _ _ o => o.Leaves i slot

section runs
variable {ι : Type} [DecidableEq ι] {T : Type} {Ty : T → Type} [∀ t, Serialize (Ty t)]
  [∀ t, Deserialize (Ty t)]
  {crew₀ crew : LTS.Crew ι (Ledger ι (Activity Ty)) Op Op.Resp (Activity.Result Ty)} {i : NodeId}
  {slot : Slot}

def healing_runs (i : NodeId) (slot : Slot) (ι : Type) [DecidableEq ι] {T : Type} (Ty : T → Type)
    [∀ t, Serialize (Ty t)] [∀ t, Deserialize (Ty t)] :
    LTS.System (LTS.Crew ι (Ledger ι (Activity Ty)) Op Op.Resp (Activity.Result Ty))
      (LTS.Move ι (RaftMove × Option Nat) Op (Activity Ty)) :=
  LTS.crew (healing_ledger i slot ι (Activity Ty)) fun _ j => j.run

/-- A step that spares the slot keeps it right. -/
theorem healed_of_step (hc : (losing_runs (fun _ => False) ι Ty).Reachable crew₀)
    {m : LTS.Move ι (RaftMove × Option Nat) Op (Activity Ty)} {n : Nat}
    (hstep : (healing_runs i slot ι Ty).step crew₀ m crew)
    (h : crew₀.shared.world.Healed i slot n) : crew.shared.world.Healed i slot n := by
  have hl := (losing_runs_inv hc).inv.world
  cases m with
  | env e =>
    obtain ⟨s', ⟨hnot, _, hm⟩, rfl⟩ := hstep
    exact World.healed_of_move hl hnot (Ledger.env_cases hm).1 h
  | start c j =>
    obtain ⟨s', _, ⟨_, rfl⟩, rfl⟩ := hstep
    exact h
  | call c o =>
    obtain ⟨k, r, s', _, ⟨hleaves, _, hcall⟩, rfl⟩ := hstep
    exact World.healed_of_call hl hleaves (Ledger.call_cases hcall).1 h

/-- **Overwriting heals**: whatever was lost before, as soon as a node has applied an entry that
    overwrites a slot, it holds there what the log says, until something is removed from the
    slot there or the node takes over a snapshot. -/
theorem overwritten_slots_heal (hc : (losing_runs (fun _ => False) ι Ty).Reachable crew₀)
    (hsteps : (healing_runs i slot ι Ty).Steps crew₀ crew)
    (hover : crew.shared.world.Overwritten i slot (crew₀.shared.world.applied i)) :
    crew.shared.world.Exact i slot := by
  have hrun : (losing_runs (fun _ => False) ι Ty).Reachable crew ∧
      crew.shared.world.Healed i slot (crew₀.shared.world.applied i) := by
    clear hover
    induction hsteps with
    | refl =>
      refine ⟨hc, fun hover => ?_⟩
      -- nothing has been applied since
      obtain ⟨k, e, hnk, hk, _⟩ := hover
      omega
    | @tail crew₁ crew₂ _ hstep ih =>
      obtain ⟨hc₁, h₁⟩ := ih
      obtain ⟨m, hm⟩ := hstep
      exact ⟨.step m hc₁ (LTS.step_of_restrict hm), healed_of_step hc₁ hm h₁⟩
  exact hrun.2 hover

end runs

/-- The same insertion once more, behind the first one. -/
def insert_again : Entry := ⟨⟨⟨1, 0⟩, 1⟩, .Normal (.Insert "m" [1] [2])⟩

/-- The leader has inserted an entry and removed it, and inserts it again. -/
theorem overwritten_slots_heal_entry :
    ∃ crew₀ crew, (losing_runs (fun _ => False) Nat fun _ : Unit => Bytes).Reachable crew₀ ∧
      (healing_runs 0 (.entry "m" [1]) Nat fun _ : Unit => Bytes).Steps crew₀ crew ∧
      ¬ crew₀.shared.world.Exact 0 (.entry "m" [1]) ∧ crew.shared.world.Exact 0 (.entry "m" [1]) := by
  obtain ⟨crew₀, hc₀, _, _, hcalls, hworker, hsub, horigins, hlog, hnode⟩ :=
    @entry_removed (fun _ => False) (fun h => h)
  have hprop : ∀ req, insert_again.payload = .Normal req →
      req ∈ RaftRequest.Insert "m" [1] [2] :: crew₀.shared.world.proposed := by
    intro req h
    cases h
    exact List.mem_cons_self
  obtain ⟨crew, hsteps, happ, hlog'⟩ : ∃ crew,
      (healing_runs 0 (.entry "m" [1]) Nat fun _ : Unit => Bytes).Steps crew₀ crew ∧
      crew.shared.world.applied 0 = 2 ∧ crew.shared.world.log = [insert_entry, insert_again] := by
    refine ⟨_, .tail (.tail (.tail (.tail .refl
      ⟨.start 2 (.call (.serve 0 ⟨none, .Insert "m" [1] [2]⟩)), _, .inl hworker, ⟨hcalls, rfl⟩, rfl⟩)
      ⟨.call 2 (.submit_write 0 (.Insert "m" [1] [2])), _, (), _, rfl, ⟨trivial, trivial, _, rfl, rfl⟩, rfl⟩)
      ⟨.env (.commit insert_again, some 1), _, ⟨nofun, trivial, _, ⟨?_, hprop, rfl⟩, ⟨1, 2, rfl, ?_, ?_⟩, rfl⟩, rfl⟩)
      ⟨.env (.apply 0 1, none), _, ⟨nofun, trivial, _, rfl, rfl⟩, rfl⟩, ?_, ?_⟩
    · show 1 = crew₀.shared.world.log.length
      rw [hlog]
      rfl
    · show (crew₀.shared.submissions ++ [(2, RaftRequest.Insert "m" [1] [2])])[1]? = _
      rw [hsub]
      rfl
    · show some 1 ∉ crew₀.shared.origins
      rw [horigins]
      decide
    · simp only [World.applied, World.set_sm, World.set_node, Function.update_self, World.backlog, hlog,
        hnode]
      decide
    · show crew₀.shared.world.log ++ [insert_again] = _
      rw [hlog]
      rfl
  have hbefore : crew₀.shared.world.applied 0 = 1 := by
    rw [World.applied, hnode]
    decide
  have hover : crew.shared.world.Overwritten 0 (.entry "m" [1]) (crew₀.shared.world.applied 0) := by
    refine ⟨1, insert_again, ?_, ?_, ?_, _, rfl, ?_⟩
    · omega
    · omega
    · rw [hlog']
      rfl
    · decide
  refine ⟨crew₀, crew, hc₀, hsteps, ?_, overwritten_slots_heal hc₀ hsteps hover⟩
  unfold World.Exact
  rw [hbefore, hlog, World.data, hnode]
  decide

end Distruct

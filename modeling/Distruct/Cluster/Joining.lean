import Distruct.Cluster.Addresses

/-! # Joining with an Address

    The address check of `handle_message` and the addition of the learner are two
    steps. On metrics that show all members they are as good as one: only the
    node's own main loop adds members to its log, and that handles one message at
    a time. On a node that is elected between the two steps, the check may have
    been made on metrics that did not show the last member yet.
-/

namespace Distruct

open LTS (Crew)
open LTS.Discipline

namespace Views

variable {s s' : Views} {w : MemberTask} {i : NodeId}

/-! ### The calls of the tasks -/

section uses

theorem uses_lift {α : Type} {p : NodeProg α} (hp : p.Uses Prog.AnyAnswer fun o => Tame w (.node o)) :
    (DetectorProg.lift p).Uses Prog.AnyAnswer (Tame w) := by
  apply Prog.uses_interp
  exact Prog.uses_mono (fun _ _ _ => trivial) (fun o ho => ⟨ho, fun _ _ => trivial⟩) hp

theorem uses_consistent_read {α : Type} {c : ReadConsistency} {read : NodeProg α}
    {respond : α → Response} (hread : read.Uses Prog.AnyAnswer fun o => Tame w (.node o)) :
    (consistent_read i c read respond).Uses Prog.AnyAnswer fun o => Tame w (.node o) := by
  have hcheck : (ensure_consistency i c).run.Uses Prog.AnyAnswer fun o => Tame w (.node o) := by
    cases c with
    | Stale => trivial
    | LeaderStale => trivial
    | LeaseRead => exact Prog.uses_run_bind ⟨by cases w <;> trivial, fun _ _ =>
        ⟨by cases w <;> trivial, fun _ _ => trivial⟩⟩ fun _ _ => trivial
    | ReadIndex => exact Prog.uses_run_bind ⟨by cases w <;> trivial, fun _ _ =>
        ⟨by cases w <;> trivial, fun _ _ => trivial⟩⟩ fun _ _ => trivial
  refine Prog.uses_run_bind hcheck ?_
  intro _ _
  refine Prog.uses_run_bind (Prog.uses_map hread) ?_
  intro _ _
  trivial

/-- A message that does not ask to join. -/
theorem uses_handle_body {body : RequestBody} (hask : body.asked)
    (hnot : ∀ id peer blocking, body ≠ .AddLearner id peer blocking) :
    (handle_body i body).Uses Prog.AnyAnswer fun o => Tame (.main_loop i) (.node o) := by
  cases body with
  | AddLearner id peer blocking => exact absurd rfl (hnot id peer blocking)
  | ChangeMembership members retain => exact ⟨hask, fun _ _ => trivial⟩
  | Append entries => exact ⟨trivial, fun _ _ => trivial⟩
  | Vote rpc => exact ⟨trivial, fun _ _ => trivial⟩
  | ContainsKey map key c => exact uses_consistent_read ⟨trivial, fun _ _ => trivial⟩
  | Get map key c => exact uses_consistent_read ⟨trivial, fun _ _ => trivial⟩
  | GetMulti mm key c => exact uses_consistent_read ⟨trivial, fun _ _ => trivial⟩
  | Len map c => exact uses_consistent_read ⟨trivial, fun _ _ => trivial⟩
  | Insert map key value => exact ⟨trivial, fun _ _ => ⟨trivial, fun _ _ => trivial⟩⟩
  | InsertMulti mm key value => exact ⟨trivial, fun _ _ => ⟨trivial, fun _ _ => trivial⟩⟩
  | Clear map => exact ⟨trivial, fun _ _ => ⟨trivial, fun _ _ => trivial⟩⟩
  | Remove map key => exact ⟨trivial, fun _ _ => trivial⟩
  | RemoveMulti mm key value => exact ⟨trivial, fun _ _ => trivial⟩

/-- A call that only looks at the metrics. -/
theorem uses_look {o : Op} (ho : Tame w (.node o)) :
    (ask o).Uses Prog.AnyAnswer fun o => Tame w (.node o) :=
  ⟨ho, fun _ _ => trivial⟩

end uses

/-! ### The check and the addition -/

/-- The search of `handle_message` for a member with the address. -/
theorem vacant_iff_find {m : Membership} {addr : SocketAddr} :
    m.Vacant addr ↔ (m.nodes.keys.sort.findSome? fun other => (m.nodes.lookup other).bind fun n =>
      if n.addr = addr then some (other, n.addr) else none) = none := by
  rw [List.findSome?_eq_none_iff]
  constructor
  · intro hv id _
    cases hn : m.nodes.lookup id with
    | none => rfl
    | some n =>
      rw [Option.bind_some, if_neg (hv id n hn)]
  · intro hfind id n hn haddr
    have hmem : id ∈ m.nodes.keys.sort := by
      rw [Finset.mem_sort]
      exact Finmap.mem_keys.mpr (Finmap.mem_of_lookup_eq_some hn)
    have hid := hfind id hmem
    rw [hn, Option.bind_some, if_pos haddr] at hid
    cases hid

theorem wp_add_learner (hi : s.Inv) (id : NodeId) (peer : Node) (blocking : Bool) :
    membership_kept.wp (.main_loop i) (fun _ _ => True)
      (DetectorProg.lift (handle_body i (.AddLearner id peer blocking))) s := by
  unfold handle_body
  refine DetectorProg.wp_lift_bind hi ?_
  intro s₁ hinv₁ _
  refine ⟨trivial, ?_⟩
  rintro metrics s₂ ⟨hcur, hshown, rfl⟩
  refine ⟨hinv₁, fun w _ => Rely.refl w s₂, ?_⟩
  intro s₃ _ hr₃
  dsimp only
  split
  · exact fun _ _ _ => trivial
  · next hfind =>
    have hvac : (s₂.effective i).Vacant peer.addr := by
      have hv := vacant_iff_find.mpr hfind
      rw [hshown] at hv
      -- the metrics show all members, so an address that is not shown is vacant
      exact hv.within hcur
    intro s₄ hinv₄ hr₄
    refine ⟨trivial, ?_⟩
    rintro r s₅ ⟨-, hc⟩
    -- members may have gone in the meantime, but none has come
    have hvac₄ : (s₄.effective i).Vacant peer.addr := hvac.within (Membership.Within.trans hr₄ hr₃)
    obtain ⟨hinv₅, hrel⟩ := add_learner_vacant hinv₄ hvac₄ hc
    exact ⟨hinv₅, hrel, fun _ _ _ => trivial⟩

theorem wp_handle_message (msg : Request) (hask : msg.body.asked) (hi : s.Inv) :
    membership_kept.wp (.main_loop i) (fun _ _ => True) (DetectorProg.lift (handle_message i msg)) s := by
  have hbody : ∀ s, s.Inv → membership_kept.wp (.main_loop i) (fun _ _ => True)
      (DetectorProg.lift (handle_body i msg.body)) s := by
    intro s hi
    by_cases hjoin : ∃ id peer blocking, msg.body = .AddLearner id peer blocking
    · obtain ⟨id, peer, blocking, hb⟩ := hjoin
      rw [hb]
      exact wp_add_learner hi id peer blocking
    · refine wp_tame (uses_lift (uses_handle_body hask ?_))
      intro id peer blocking hb
      exact hjoin ⟨id, peer, blocking, hb⟩
  unfold handle_message
  split
  · exact hbody s hi
  · refine DetectorProg.wp_lift_bind hi ?_
    refine wp_mono ?_ (wp_tame (uses_lift (uses_look trivial)))
    intro metrics s' hi' _
    split
    · exact fun _ _ _ => trivial
    · exact hbody s' hi'

/-! ### All runs -/

abbrev Members := Crew MemberTask Views DetectorOp DetectorOp.Resp Unit

/-- Node 0 on its own. -/
def single : Membership := ⟨[{0}], Finmap.singleton 0 .localhost⟩

section runs
variable {fuel : Nat} {c : Members}

/-- The cluster without any condition. -/
abbrev Run (fuel : Nat) (c : Members) : Prop := (LTS.crew members (member_tasks fuel)).Reachable c

/-- All tasks wait for something to do. -/
def Quiet (c : Members) : Prop := ∀ w, LTS.Free (c.worker w)

theorem Quiet.returned {v : Views} (hw : ∀ w', w' ≠ w → LTS.Free (c.worker w')) :
    Quiet ⟨v, Function.update c.worker w (some (.pure ()))⟩ := by
  intro w'
  by_cases hne : w' = w
  · rw [hne]
    exact .inr ⟨(), Function.update_self _ _ _⟩
  · simp only [Function.update_of_ne hne]
    exact hw w' hne

/-- Nodes 0 and 1 are voters. -/
def pair : Membership := (single.with_learner 1 (.on_port 35002)).change true (.AddVoterIds {1})

end runs

end Views

end Distruct

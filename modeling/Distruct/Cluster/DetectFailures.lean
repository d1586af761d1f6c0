import Distruct.Cluster.Shutdown
import Distruct.Framework.Workers
import Distruct.Raft.Heartbeat

/-! # The Failure Detector

    `detect_failures` of `cluster.rs`. As long as it is the leader, a node looks
    once a second which members it has not reached for a while, removes them if
    the others are enough for a quorum, and shuts itself down when they have not
    been enough for too long.
-/

namespace Distruct

def HEARTBEAT_DEADLINE : Nat := from_secs 10

def QUORUM_DEADLINE : Nat := from_secs 20

/-! ### Who is unreachable -/

/-- What the loop over the members finds. -/
structure Detection where
  n_voters : Nat
  voters_to_remove : Finset NodeId
  learners_to_remove : Finset NodeId
  deriving DecidableEq

/-- One round of the loop over the members, on node `own_id`. -/
def check_member (now : Instant) (own_id : NodeId) (acc : Detection × HeartbeatMonitor)
    (member : NodeId × Bool) : Detection × HeartbeatMonitor :=
  let node_id := member.1
  let is_voter := member.2
  let found := if is_voter then { acc.1 with n_voters := acc.1.n_voters + 1 } else acc.1
  -- don't monitor ourselves
  if node_id = own_id then (found, acc.2)
  else
    let seen := acc.2.last_seen now node_id
    if now - seen.1 > HEARTBEAT_DEADLINE then
      if is_voter then
        ({ found with voters_to_remove := insert node_id found.voters_to_remove }, seen.2)
      else
        ({ found with learners_to_remove := insert node_id found.learners_to_remove }, seen.2)
    else (found, seen.2)

/-- The members in the order of the loop, and whether they are voters. -/
def Membership.members (m : Membership) : List (NodeId × Bool) :=
  m.voter_ids.sort.map (·, true) ++ m.learner_ids.sort.map (·, false)

/-- The loop over the members. -/
def check_members (now : Instant) (own_id : NodeId) (m : Membership) (monitor : HeartbeatMonitor) :
    Detection × HeartbeatMonitor :=
  m.members.foldl (check_member now own_id) (⟨0, ∅, ∅⟩, monitor)

namespace Detection

def available_voters (found : Detection) : Nat := found.n_voters - found.voters_to_remove.card

def required_voters_for_quorum (found : Detection) : Nat := found.n_voters / 2 + 1

def quorum_possible (found : Detection) : Bool :=
  decide (found.available_voters ≥ found.required_voters_for_quorum)

end Detection

/-! ### What the loop over the members finds -/

/-- A member was last seen too long ago. -/
def HeartbeatMonitor.overdue (monitor : HeartbeatMonitor) (now : Instant) (id : NodeId) : Bool :=
  decide (now - (monitor.lookup id).getD now > HEARTBEAT_DEADLINE)

/-- What the loop has done after some members: it has counted the voters among
    them, marked the overdue ones, and noted the ones that were never seen. -/
structure Checked (now : Instant) (own_id : NodeId) (members : List (NodeId × Bool))
    (acc r : Detection × HeartbeatMonitor) : Prop where
  n_voters : r.1.n_voters = acc.1.n_voters + members.countP (·.2)
  voters : ∀ id, id ∈ r.1.voters_to_remove ↔ id ∈ acc.1.voters_to_remove ∨
    (id, true) ∈ members ∧ id ≠ own_id ∧ acc.2.overdue now id = true
  learners : ∀ id, id ∈ r.1.learners_to_remove ↔ id ∈ acc.1.learners_to_remove ∨
    (id, false) ∈ members ∧ id ≠ own_id ∧ acc.2.overdue now id = true
  seen : ∀ id, r.2.lookup id =
    if id ∈ members.map Prod.fst ∧ id ≠ own_id then some ((acc.2.lookup id).getD now)
    else acc.2.lookup id

section spec
variable {now : Instant} {own_id : NodeId} {acc acc' r : Detection × HeartbeatMonitor}

theorem checked_member (member : NodeId × Bool) :
    Checked now own_id [member] acc (check_member now own_id acc member) := by
  obtain ⟨node_id, is_voter⟩ := member
  have hover : now - (acc.2.last_seen now node_id).1 > HEARTBEAT_DEADLINE ↔
      acc.2.overdue now node_id = true := by
    simp [HeartbeatMonitor.overdue, HeartbeatMonitor.last_seen_fst]
  unfold check_member
  by_cases hself : node_id = own_id
  · cases is_voter <;> constructor <;> simp_all
  by_cases ho : acc.2.overdue now node_id = true
  · have hlate := hover.mpr ho
    cases is_voter <;> constructor <;>
      simp [hself, hlate, HeartbeatMonitor.lookup_last_seen] <;> grind
  · have hlate : ¬ now - (acc.2.last_seen now node_id).1 > HEARTBEAT_DEADLINE := fun h => ho (hover.mp h)
    cases is_voter <;> constructor <;>
      simp [hself, hlate, HeartbeatMonitor.lookup_last_seen] <;> grind

theorem Checked.cons {member : NodeId × Bool} {members : List (NodeId × Bool)}
    (hnew : member.1 ∉ members.map Prod.fst) (h : Checked now own_id [member] acc acc')
    (h' : Checked now own_id members acc' r) : Checked now own_id (member :: members) acc r := by
  -- the first round has not touched the entries of the members after it
  have hkept : ∀ id, id ∈ members.map Prod.fst → acc'.2.lookup id = acc.2.lookup id := by
    intro id hid
    have hne : id ≠ member.1 := fun heq => hnew (heq ▸ hid)
    rw [h.seen, if_neg (by simp [hne])]
  have hover : ∀ id b, (id, b) ∈ members → acc'.2.overdue now id = acc.2.overdue now id := by
    intro id b hid
    rw [HeartbeatMonitor.overdue, HeartbeatMonitor.overdue,
      hkept id (List.mem_map.mpr ⟨(id, b), hid, rfl⟩)]
  refine ⟨?_, ?_, ?_, ?_⟩
  · rw [h'.n_voters, h.n_voters, Nat.add_assoc, ← List.countP_append, List.singleton_append]
  · intro id
    rw [h'.voters, h.voters, List.mem_singleton, List.mem_cons]
    by_cases hid : (id, true) ∈ members
    · rw [hover id true hid]
      tauto
    · tauto
  · intro id
    rw [h'.learners, h.learners, List.mem_singleton, List.mem_cons]
    by_cases hid : (id, false) ∈ members
    · rw [hover id false hid]
      tauto
    · tauto
  · intro id
    rw [h'.seen]
    simp only [List.map_cons, List.mem_cons]
    by_cases hid : id ∈ members.map Prod.fst
    · simp [hid, hkept id hid]
    · have hfirst := h.seen id
      simp only [List.map_cons, List.map_nil, List.mem_singleton] at hfirst
      simp [hid, hfirst]

theorem checked_foldl {members : List (NodeId × Bool)} (hnd : (members.map Prod.fst).Nodup) :
    Checked now own_id members acc (members.foldl (check_member now own_id) acc) := by
  induction members generalizing acc with
  | nil => constructor <;> simp
  | cons member members ih =>
    rw [List.map_cons, List.nodup_cons] at hnd
    exact (checked_member member).cons hnd.1 (ih hnd.2)

/-- Every member occurs once. -/
theorem Membership.nodup_members (m : Membership) : (m.members.map Prod.fst).Nodup := by
  have hfst : m.members.map Prod.fst = m.voter_ids.sort ++ m.learner_ids.sort := by
    simp [Membership.members, Function.comp_def]
  rw [hfst, List.nodup_append]
  refine ⟨Finset.sort_nodup _ _, Finset.sort_nodup _ _, ?_⟩
  intro a ha b hb hab
  rw [Finset.mem_sort] at ha hb
  -- a learner is no voter
  exact (Finset.mem_sdiff.mp hb).2 (hab ▸ ha)

theorem Membership.mem_members {m : Membership} {id : NodeId} {b : Bool} :
    (id, b) ∈ m.members ↔ id ∈ (if b then m.voter_ids else m.learner_ids) := by
  cases b <;> simp [Membership.members]

variable {m : Membership} {monitor : HeartbeatMonitor}

theorem check_members_n_voters : (check_members now own_id m monitor).1.n_voters = m.voter_ids.card := by
  rw [check_members, (checked_foldl m.nodup_members).n_voters]
  simp [Membership.members, List.countP_map, Function.comp_def]

/-- The loop marks the overdue voters, except for the node itself. -/
theorem check_members_voters : (check_members now own_id m monitor).1.voters_to_remove =
    m.voter_ids.filter fun id => id ≠ own_id ∧ monitor.overdue now id = true := by
  ext id
  rw [check_members, (checked_foldl m.nodup_members).voters, Membership.mem_members, Finset.mem_filter]
  simp

theorem check_members_learners : (check_members now own_id m monitor).1.learners_to_remove =
    m.learner_ids.filter fun id => id ≠ own_id ∧ monitor.overdue now id = true := by
  ext id
  rw [check_members, (checked_foldl m.nodup_members).learners, Membership.mem_members,
    Finset.mem_filter]
  simp

/-- A member without an entry gets one; every other entry stays. -/
theorem lookup_check_members (id : NodeId) : (check_members now own_id m monitor).2.lookup id =
    if id ∈ m.members.map Prod.fst ∧ id ≠ own_id then some ((monitor.lookup id).getD now)
    else monitor.lookup id := by
  rw [check_members, (checked_foldl m.nodup_members).seen]

end spec

/-! ### The task -/

/-- What the task of the failure detector calls, besides the calls of the other
    code. -/
inductive DetectorOp where
  | node (o : Op)
  /-- `metrics_rx.changed().await.is_ok()` -/
  | changed (i : NodeId)
  /-- `interval.tick().await` -/
  | tick (i : NodeId)
  /-- `Instant::now()` -/
  | now (i : NodeId)
  /-- The block under `metrics_rx.borrow()`: `check_members` in the membership
      that the metrics show, unless they show another state than `Leader`. The
      metrics do not change while they are borrowed. -/
  | borrow_metrics (i : NodeId)

@[reducible] def DetectorOp.Resp : DetectorOp → Type
  | .node o => o.Resp
  | .changed _ => Bool
  | .tick _ => Unit
  | .now _ => Instant
  | .borrow_metrics _ => Option Detection

abbrev DetectorProg := Prog DetectorOp DetectorOp.Resp

namespace DetectorProg

/-- Makes a call. -/
def await (o : DetectorOp) : DetectorProg o.Resp := Prog.perform o

/-- Makes a call that other code makes as well. -/
def await_node (o : Op) : DetectorProg o.Resp := await (.node o)

/-- Code of the node, in the task of the failure detector. -/
def lift {α : Type} (p : NodeProg α) : DetectorProg α := p.interp await_node

section rules
variable {ι σ Env Job : Type} {site : LTS.Site ι σ Env DetectorOp Job DetectorOp.Resp}
  {D : LTS.Discipline site} {i : ι} {ε α β : Type} {s : σ}

/-- Sequencing, inside code of the node. -/
theorem wp_lift_bind {Q : β → σ → Prop} {p : NodeProg α} {f : α → NodeProg β} (hi : D.inv s)
    (h : D.wp i (fun a s' => D.wp i Q (lift (f a)) s') (lift p) s) :
    D.wp i Q (lift (p >>= f)) s := by
  rw [lift, Prog.interp_bind]
  exact LTS.Discipline.wp_bind hi h

theorem wp_lift_run_bind {Q : Except ε β → σ → Prop} {x : NodeResult ε α} {f : α → NodeResult ε β}
    (hi : D.inv s)
    (h : D.wp i (fun r s' => (∀ a, r = .ok a → D.wp i Q (lift (f a).run) s') ∧
      ∀ e, r = .error e → D.wp i Q (.pure (.error e)) s') (lift x.run) s) :
    D.wp i Q (lift (x >>= f).run) s := by
  rw [ExceptT.run_bind]
  refine wp_lift_bind hi (LTS.Discipline.wp_mono ?_ h)
  intro r s' _ hr
  cases r with
  | ok a => exact hr.1 a rfl
  | error e => exact hr.2 e rfl

/-- The same, when the first part cannot fail. -/
theorem wp_lift_run_lift {Q : Except ε β → σ → Prop} {p : NodeProg α} {f : α → NodeResult ε β}
    (hi : D.inv s) (h : D.wp i (fun a s' => D.wp i Q (lift (f a).run) s') (lift p) s) :
    D.wp i Q (lift ((liftM p : NodeResult ε α) >>= f).run) s := by
  have hrun : lift (liftM p : NodeResult ε α).run = Except.ok <$> lift p := by
    show lift (Except.ok <$> p) = _
    rw [← bind_pure_comp, ← bind_pure_comp, lift, Prog.interp_bind]
    rfl
  refine wp_lift_run_bind hi ?_
  rw [hrun]
  refine LTS.Discipline.wp_map (LTS.Discipline.wp_mono ?_ h)
  intro a s' _ ha
  refine ⟨?_, fun e he => by cases he⟩
  intro a' ha'
  cases ha'
  exact ha

end rules

end DetectorProg

open DetectorProg (await_node) in
/-- Proposes a removal, unless there is nobody to remove. An error is only logged. -/
def try_remove (i : NodeId) (ids : Finset NodeId) (members : ChangeMembers) : DetectorProg Unit :=
  if ids ≠ ∅ then do
    let _ ← await_node (.change_membership i members false)
    return ()
  else return ()

/-- The removals of an iteration that found a quorum possible. -/
def remove_unreachable (i : NodeId) (found : Detection) : DetectorProg Unit := do
  try_remove i found.voters_to_remove (.RemoveVoters found.voters_to_remove)
  try_remove i found.learners_to_remove (.RemoveNodes found.learners_to_remove)

open DetectorProg (await) in
/-- The new value of `last_quorum_reached`. The time is taken before the removals. -/
def quorum_reached (i : NodeId) (found : Detection) (last_quorum_reached : Instant) :
    DetectorProg Instant := do
  if found.quorum_possible then
    let now ← (await (.now i) : DetectorProg Instant)
    remove_unreachable i found
    return now
  else
    return last_quorum_reached

open DetectorProg (lift await await_node) in
/-- The loop of `detect_failures` on node `i`; `fuel` bounds the iterations that
    are followed. -/
def detect_failures_loop (i : NodeId) : Nat → Instant → ExceptT ProcessExit DetectorProg Unit
  | 0, _ => do
    let never ← (await_node .out_of_fuel : DetectorProg Empty)
    nomatch never
  | fuel + 1, last_quorum_reached => do
    if ← (await (.changed i) : DetectorProg Bool) then
      await (.tick i)
      match ← (await (.borrow_metrics i) : DetectorProg (Option Detection)) with
      -- only the leader should be able to remove nodes
      | none => detect_failures_loop i fuel last_quorum_reached
      | some found =>
        let last_quorum_reached ← quorum_reached i found last_quorum_reached
        let now ← (await (.now i) : DetectorProg Instant)
        if now - last_quorum_reached > QUORUM_DEADLINE then
          ExceptT.mk (lift (force_shutdown i).run)
        else
          detect_failures_loop i fuel last_quorum_reached

def detect_failures (fuel : Nat) (i : NodeId) : ExceptT ProcessExit DetectorProg Unit := do
  let last_quorum_reached ← (DetectorProg.await (.now i) : DetectorProg Instant)
  detect_failures_loop i fuel last_quorum_reached

end Distruct

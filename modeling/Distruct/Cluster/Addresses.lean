import Distruct.Cluster.DetectFailures
import Distruct.Raft.Membership

/-! # Addresses of Members

    A node that wants to join is refused if a member has its address. The check
    is made by `handle_message` on the metrics of the node that got the request,
    and the addition is a call into Raft after that.

    Here the nodes handle messages, detect failures and shut down side by side.
    Every node has the membership of its own log, which is the effective one for
    it, and shows it in its metrics some time later. Messages arrive in any order
    at any node: a redirected request is one that arrives at another node.
-/

namespace Distruct

open LTS (Site Crew Discipline)
open LTS.Discipline

/-! ### Memberships with distinct addresses -/

namespace Membership

def DistinctAddresses (m : Membership) : Prop :=
  ∀ id id' n n', m.nodes.lookup id = some n → m.nodes.lookup id' = some n' → n.addr = n'.addr → id = id'

/-- No member has the address. -/
def Vacant (m : Membership) (addr : SocketAddr) : Prop :=
  ∀ id n, m.nodes.lookup id = some n → n.addr ≠ addr

/-- All members of `m` are members of `m'`, with the same address. -/
def Within (m m' : Membership) : Prop :=
  ∀ id n, m.nodes.lookup id = some n → m'.nodes.lookup id = some n

variable {m m' m'' : Membership}

theorem Within.refl (m : Membership) : m.Within m := fun _ _ h => h

theorem Within.trans (h : m.Within m') (h' : m'.Within m'') : m.Within m'' :=
  fun id n hn => h' id n (h id n hn)

theorem DistinctAddresses.within (h : m'.DistinctAddresses) (hw : m.Within m') :
    m.DistinctAddresses :=
  fun id id' n n' hn hn' => h id id' n n' (hw id n hn) (hw id' n' hn')

theorem Vacant.within {addr : SocketAddr} (h : m'.Vacant addr) (hw : m.Within m') : m.Vacant addr :=
  fun id n hn => h id n (hw id n hn)

/-- The membership with another learner. -/
def with_learner (m : Membership) (id : NodeId) (node : Node) : Membership :=
  m.change true (.AddNodes (Finmap.singleton id node))

/-- A member that is there already keeps its address. -/
theorem lookup_with_learner (m : Membership) (id j : NodeId) (node : Node) :
    (m.with_learner id node).nodes.lookup j
      = (m.nodes.lookup j).or (if j = id then some node else none) := by
  simp only [with_learner, change]
  cases hj : m.nodes.lookup j with
  | none =>
    have hnot : j ∉ m.nodes := Finmap.lookup_eq_none.mp hj
    rw [Finmap.lookup_union_right hnot, Option.none_or]
    by_cases hid : j = id
    · rw [if_pos hid, hid]
      exact Finmap.lookup_singleton_eq
    · rw [if_neg hid, Finmap.lookup_eq_none, Finmap.mem_singleton]
      exact hid
  | some n =>
    rw [Finmap.lookup_union_left (Finmap.mem_of_lookup_eq_some hj), hj, Option.some_or]

/-- Adding a learner with a new address. -/
theorem DistinctAddresses.with_learner (h : m.DistinctAddresses) {id : NodeId} {node : Node}
    (hv : m.Vacant node.addr) : (m.with_learner id node).DistinctAddresses := by
  -- every member was one before or is the new one
  have hcases : ∀ j n, (m.with_learner id node).nodes.lookup j = some n →
      m.nodes.lookup j = some n ∨ (j = id ∧ n = node) := by
    intro j n hn
    rw [lookup_with_learner] at hn
    cases hj : m.nodes.lookup j with
    | none =>
      rw [hj, Option.none_or] at hn
      split at hn
      · next hid =>
        cases hn
        exact .inr ⟨hid, rfl⟩
      · cases hn
    | some n' =>
      rw [hj, Option.some_or] at hn
      exact .inl hn
  intro j j' n n' hn hn' haddr
  rcases hcases j n hn with hold | ⟨rfl, rfl⟩
  · rcases hcases j' n' hn' with hold' | ⟨rfl, rfl⟩
    · exact h j j' n n' hold hold' haddr
    · exact absurd haddr (hv j n hold)
  · rcases hcases j' n' hn' with hold' | ⟨rfl, -⟩
    · exact absurd haddr.symm (hv j' n' hold')
    · rfl

end Membership

/-- The changes of the membership that the crate itself asks for. -/
def ChangeMembers.asked : ChangeMembers → Prop
  | .AddVoterIds _ => True
  | .RemoveVoters _ => True
  | .RemoveNodes _ => True
  | _ => False

/-- None of them adds a member. -/
theorem Membership.within_change {m : Membership} {members : ChangeMembers} (h : members.asked)
    (retain : Bool) : (m.change retain members).Within m := by
  have hwithout : ∀ (nodes : HashMap NodeId Node) (ids : Finset NodeId) (id : NodeId) (n : Node),
      (Membership.without nodes ids).lookup id = some n → nodes.lookup id = some n := by
    intro nodes ids id n hn
    rw [Membership.without, BTreeMap.lookup_remove_all] at hn
    split at hn
    · cases hn
    · exact hn
  have hvoters : ∀ voters, (m.with_voters retain voters).Within m := by
    intro voters id n hn
    cases retain with
    | true => exact hn
    | false => exact hwithout _ _ id n hn
  cases members with
  | AddVoterIds ids => exact hvoters _
  | RemoveVoters ids => exact hvoters _
  | RemoveNodes ids => exact fun id n hn => hwithout _ _ id n hn
  | _ => exact h.elim

/-! ### The nodes -/

/-- The tasks of node `i` that can change the membership. -/
inductive MemberTask where
  | main_loop (i : NodeId)
  | detector (i : NodeId)
  | shutdown (i : NodeId)
  deriving DecidableEq

def MemberTask.node : MemberTask → NodeId
  | .main_loop i | .detector i | .shutdown i => i

inductive MemberJob where
  | message (msg : Request)
  | detect_failures
  | shutdown

structure Views where
  /-- The membership of a node's own log. -/
  effective : NodeId → Membership
  /-- The membership in a node's metrics. -/
  shown : NodeId → Membership
  leads : NodeId → Bool
  /-- All memberships that were ever proposed by a leader. -/
  logged : List Membership

inductive ViewsMove where
  /-- A node becomes the leader. Its metrics may be behind its log all the same. -/
  | elect (i : NodeId)
  | step_down (i : NodeId)
  /-- The metrics of a node catch up with its log. -/
  | flush (i : NodeId)

namespace Views

def init (s : Views) : Prop :=
  ∃ id node, s.effective = Function.update (fun _ => default) id ⟨[{id}], Finmap.singleton id node⟩ ∧
    s.shown = s.effective ∧ (∀ i, s.leads i = false) ∧ s.logged = [s.effective id]

def show_effective (s : Views) (i : NodeId) : Views :=
  { s with shown := Function.update s.shown i (s.effective i) }

def set_leads (s : Views) (i : NodeId) (leads : Bool) : Views :=
  { s with leads := Function.update s.leads i leads }

def move (s : Views) : ViewsMove → Views → Prop
  | .elect i, s' => s' = s.set_leads i true
  | .step_down i, s' => s' = s.set_leads i false
  | .flush i, s' => s' = s.show_effective i

/-- Puts a membership into the log of a leader. -/
def log (s : Views) (i : NodeId) (m : Membership) : Views :=
  { s with effective := Function.update s.effective i m, logged := m :: s.logged }

/-- `raft.add_learner(..)`: only a leader changes the membership. Its metrics show
    the change when the call returns, unless the leadership is lost on the way. -/
def add_learner (s : Views) (i id : NodeId) (node : Node)
    (r : Except (RaftError ClientWriteError) ClientWriteResponse) (s' : Views) : Prop :=
  ((∃ e, r = .error e) ∧ s' = s) ∨
  (s.leads i = true ∧
    (s' = (s.log i ((s.effective i).with_learner id node)).show_effective i ∨
      ((∃ e, r = .error e) ∧
        s' = (s.log i ((s.effective i).with_learner id node)).set_leads i false)))

/-- What becomes of the membership: the change, or the joint configuration on the
    way to it, which keeps all members. -/
def Changed (m : Membership) (members : ChangeMembers) (retain : Bool) (m' : Membership) : Prop :=
  m' = m.change retain members ∨ m'.nodes = m.nodes

/-- `raft.change_membership(..)` -/
def change_membership (s : Views) (i : NodeId) (members : ChangeMembers) (retain : Bool)
    (r : Except (RaftError ClientWriteError) ClientWriteResponse) (s' : Views) : Prop :=
  ((∃ e, r = .error e) ∧ s' = s) ∨
  (s.leads i = true ∧ ∃ m, Changed (s.effective i) members retain m ∧
    (s' = (s.log i m).show_effective i ∨ ((∃ e, r = .error e) ∧ s' = s.log i m)))

/-- `raft.append_entries(..)`: the log may now end with another membership that
    some leader has proposed, and the metrics do not show it yet. -/
def append_entries (s s' : Views) (i : NodeId) : Prop :=
  s' = s ∨ ∃ m ∈ s.logged,
    s' = ({ s with effective := Function.update s.effective i m } : Views).set_leads i false

def call (w : MemberTask) (s : Views) : (o : DetectorOp) → o.Resp → Views → Prop
  | .node (.metrics _), r, s' => r.membership_config.membership = s.shown w.node ∧ s' = s
  | .node (.add_learner _ id node _), r, s' => s.add_learner w.node id node r s'
  | .node (.change_membership _ members retain), r, s' =>
      s.change_membership w.node members retain r s'
  | .node (.append_entries ..), _, s' => s.append_entries s' w.node
  | _, _, s' => s' = s

/-- The condition under which the check of an address is worth something: the
    metrics show every member that the node's log has. -/
def Current : MemberTask → Views → DetectorOp → Prop
  | .main_loop i, s, .node (.metrics _) => (s.effective i).Within (s.shown i)
  | _, _, _ => True

end Views

/-- The requests of the crate. -/
def RequestBody.asked : RequestBody → Prop
  | .ChangeMembership members _ => members.asked
  | _ => True

/-- What the tasks run. -/
def MemberTask.runs : MemberTask → MemberJob → Prop
  | .main_loop _, .message msg => msg.body.asked
  | .detector _, .detect_failures => True
  | .shutdown _, .shutdown => True
  | _, _ => False

def member_tasks (fuel : Nat) : MemberTask → MemberJob → DetectorProg Unit
  | .main_loop i, .message msg => (fun _ => ()) <$> DetectorProg.lift (handle_message i msg)
  | .detector i, .detect_failures => (fun _ => ()) <$> (detect_failures fuel i).run
  | .shutdown i, .shutdown => (fun _ => ()) <$> DetectorProg.lift (shutdown_task fuel i).run
  | _, _ => return ()

/-- Any number of nodes, each with its three tasks. -/
def members : Site MemberTask Views ViewsMove DetectorOp MemberJob DetectorOp.Resp where
  init := Views.init
  env := Views.move
  start := fun w s job s' => w.runs job ∧ s' = s
  call := Views.call

/-! ### What every call keeps -/

namespace Views

variable {s s' : Views} {w : MemberTask} {i : NodeId}

structure Inv (s : Views) : Prop where
  distinct : ∀ i, (s.effective i).DistinctAddresses
  logged : ∀ m ∈ s.logged, m.DistinctAddresses

/-- While a main loop waits, its node's membership only loses members. -/
def Rely : MemberTask → Views → Views → Prop
  | .main_loop i, s, s' => (s'.effective i).Within (s.effective i)
  | _, _, _ => True

theorem Rely.refl (w : MemberTask) (s : Views) : Rely w s s := by
  cases w with
  | main_loop i => exact Membership.Within.refl _
  | detector i => trivial
  | shutdown i => trivial

theorem Rely.trans {a b c : Views} (h : Rely w a b) (h' : Rely w b c) : Rely w a c := by
  cases w with
  | main_loop i => exact Membership.Within.trans h' h
  | detector i => trivial
  | shutdown i => trivial

/-- Only the log of node `i` may have changed. -/
def OnlyOn (i : NodeId) (s s' : Views) : Prop :=
  ∀ j, j ≠ i → s'.effective j = s.effective j

theorem onlyOn_log (i : NodeId) (s : Views) (m : Membership) : OnlyOn i s (s.log i m) :=
  fun _ hj => Function.update_of_ne hj _ _

/-- What is to be shown of a change on one node. -/
theorem Inv.of_onlyOn (h : s.Inv) (hon : OnlyOn i s s') (hi : (s'.effective i).DistinctAddresses)
    (hlog : ∀ m ∈ s'.logged, m ∈ s.logged ∨ m = s'.effective i) : s'.Inv where
  distinct := by
    intro j
    by_cases hj : j = i
    · rw [hj]
      exact hi
    · rw [hon j hj]
      exact h.distinct j
  logged := by
    intro m hm
    rcases hlog m hm with hm | rfl
    · exact h.logged m hm
    · exact hi

/-- A change on one node does not concern the main loops of the others. -/
theorem rely_of_onlyOn (hon : OnlyOn i s s') (hw : w ≠ .main_loop i) : Rely w s s' := by
  cases w with
  | main_loop j =>
    have hj : j ≠ i := fun h => hw (by rw [h])
    show (s'.effective j).Within (s.effective j)
    rw [hon j hj]
    exact Membership.Within.refl _
  | detector j => trivial
  | shutdown j => trivial

/-- Nor does it concern anybody if the node only loses members. -/
theorem rely_of_within (hon : OnlyOn i s s') (hsub : (s'.effective i).Within (s.effective i)) :
    Rely w s s' := by
  by_cases hw : w = .main_loop i
  · rw [hw]
    exact hsub
  · exact rely_of_onlyOn hon hw

/-- The memberships in the logs stay as they are. -/
theorem Inv.move (h : s.Inv) (heff : s'.effective = s.effective) (hlog : s'.logged = s.logged) :
    s'.Inv ∧ ∀ w, Rely w s s' := by
  refine ⟨⟨?_, ?_⟩, ?_⟩
  · rw [heff]
    exact h.distinct
  · rw [hlog]
    exact h.logged
  · intro w
    cases w with
    | main_loop j =>
      show (s'.effective j).Within (s.effective j)
      rw [heff]
      exact Membership.Within.refl _
    | detector j => trivial
    | shutdown j => trivial

/-- The calls other than the addition of a learner. -/
def Tame : MemberTask → DetectorOp → Prop
  | _, .node (.add_learner ..) => False
  | _, .node (.change_membership _ members _) => members.asked
  | .main_loop _, .node (.append_entries ..) => True
  | _, .node (.append_entries ..) => False
  | _, _ => True

theorem within_changed {m m' : Membership} {members : ChangeMembers} {retain : Bool}
    (h : members.asked) (hc : Changed m members retain m') : m'.Within m := by
  rcases hc with rfl | hnodes
  · exact Membership.within_change h retain
  · intro id n hn
    rw [hnodes] at hn
    exact hn

theorem change_membership_tame (h : s.Inv) {members : ChangeMembers} {retain : Bool}
    {r : Except (RaftError ClientWriteError) ClientWriteResponse} (hm : members.asked)
    (hc : s.change_membership i members retain r s') : s'.Inv ∧ ∀ w, Rely w s s' := by
  rcases hc with ⟨-, rfl⟩ | ⟨hlead, m, hch, hs⟩
  · exact ⟨h, fun w => Rely.refl w s'⟩
  · have heff : (s.log i m).effective i = m := Function.update_self _ _ _
    have hsub : ((s.log i m).effective i).Within (s.effective i) := by
      rw [heff]
      exact within_changed hm hch
    have hlog : ∀ m' ∈ (s.log i m).logged, m' ∈ s.logged ∨ m' = (s.log i m).effective i := by
      intro m' hm'
      rw [heff]
      rcases List.mem_cons.mp hm' with rfl | hm'
      · exact .inr rfl
      · exact .inl hm'
    have hinv : (s.log i m).Inv :=
      h.of_onlyOn (onlyOn_log i s m) ((h.distinct i).within hsub) hlog
    have hrel : ∀ w, Rely w s (s.log i m) := fun w => rely_of_within (onlyOn_log i s m) hsub
    rcases hs with rfl | ⟨-, rfl⟩
    · -- the metrics show the change
      obtain ⟨hinv', hrel'⟩ : ((s.log i m).show_effective i).Inv ∧
          ∀ w, Rely w (s.log i m) ((s.log i m).show_effective i) := hinv.move rfl rfl
      exact ⟨hinv', fun w => (hrel w).trans (hrel' w)⟩
    · exact ⟨hinv, hrel⟩

theorem append_entries_tame (h : s.Inv) (hc : s.append_entries s' i) :
    s'.Inv ∧ ∀ w, w ≠ .main_loop i → Rely w s s' := by
  rcases hc with rfl | ⟨m, hm, rfl⟩
  · exact ⟨h, fun w _ => Rely.refl w s'⟩
  · have hon : OnlyOn i s
        (({ s with effective := Function.update s.effective i m } : Views).set_leads i false) :=
      fun j hj => Function.update_of_ne hj _ _
    refine ⟨h.of_onlyOn hon ?_ (fun m' hm' => .inl hm'), fun w hw => rely_of_onlyOn hon hw⟩
    simpa [set_leads] using h.logged m hm

theorem call_tame (h : s.Inv) {o : DetectorOp} {r : o.Resp} (ho : Tame w o) (hc : call w s o r s') :
    s'.Inv ∧ ∀ w', w' ≠ w → Rely w' s s' := by
  have hsame : s' = s → s'.Inv ∧ ∀ w', w' ≠ w → Rely w' s s' := by
    rintro rfl
    exact ⟨h, fun w' _ => Rely.refl w' s'⟩
  cases o with
  | node o =>
    cases o with
    | metrics i => exact hsame hc.2
    | add_learner i id node blocking => exact ho.elim
    | change_membership i members retain =>
      obtain ⟨hinv, hrel⟩ := change_membership_tame h ho hc
      exact ⟨hinv, fun w' _ => hrel w'⟩
    | append_entries i rpc =>
      cases w with
      | main_loop j => exact append_entries_tame h hc
      | detector j => exact ho.elim
      | shutdown j => exact ho.elim
    | _ => exact hsame hc
  | _ => exact hsame hc

/-- Adding a learner whose address is vacant. -/
theorem add_learner_vacant (h : s.Inv) {id : NodeId} {node : Node}
    {r : Except (RaftError ClientWriteError) ClientWriteResponse}
    (hv : (s.effective i).Vacant node.addr) (hc : s.add_learner i id node r s') :
    s'.Inv ∧ ∀ w, w ≠ .main_loop i → Rely w s s' := by
  have hdist : ((s.log i ((s.effective i).with_learner id node)).effective i).DistinctAddresses := by
    simpa [log] using (h.distinct i).with_learner hv
  have hlog : ∀ m ∈ (s.log i ((s.effective i).with_learner id node)).logged,
      m ∈ s.logged ∨ m = (s.log i ((s.effective i).with_learner id node)).effective i := by
    intro m hm
    rcases List.mem_cons.mp hm with rfl | hm
    · exact .inr (by simp [log])
    · exact .inl hm
  have hon := onlyOn_log i s ((s.effective i).with_learner id node)
  have hinv := h.of_onlyOn hon hdist hlog
  have hafter : ∀ s'', s''.effective = (s.log i ((s.effective i).with_learner id node)).effective →
      s''.logged = (s.log i ((s.effective i).with_learner id node)).logged →
      s''.Inv ∧ ∀ w, w ≠ .main_loop i → Rely w s s'' := by
    intro s'' heff hlogged
    obtain ⟨hinv', hrel⟩ := hinv.move heff hlogged
    exact ⟨hinv', fun w hw => (rely_of_onlyOn hon hw).trans (hrel w)⟩
  rcases hc with ⟨-, rfl⟩ | ⟨-, rfl | ⟨-, rfl⟩⟩
  · exact ⟨h, fun w _ => Rely.refl w s'⟩
  · exact hafter _ rfl rfl
  · exact hafter _ rfl rfl

/-! ### The discipline -/

def current_members : Site MemberTask Views ViewsMove DetectorOp MemberJob DetectorOp.Resp :=
  members.restrict (fun _ _ => True) Current

def membership_kept : Discipline current_members where
  inv := Inv
  rel := Rely
  can := fun _ _ _ => True
  idle := fun _ _ => True
  refl := Rely.refl
  trans := Rely.trans
  idle_stable := fun _ _ => trivial
  init_ok := by
    rintro s ⟨id, node, heff, -, -, hlog⟩
    have hone : (⟨[{id}], Finmap.singleton id node⟩ : Membership).DistinctAddresses := by
      intro j j' n n' hn hn' _
      have hj := Finmap.mem_of_lookup_eq_some hn
      have hj' := Finmap.mem_of_lookup_eq_some hn'
      rw [Finmap.mem_singleton] at hj hj'
      rw [hj, hj']
    have hdist : ∀ i, (s.effective i).DistinctAddresses := by
      intro i
      by_cases hi : i = id
      · rw [heff, hi, Function.update_self]
        exact hone
      · rw [heff, Function.update_of_ne hi]
        intro j j' n n' hn
        cases hn
    refine ⟨⟨hdist, ?_⟩, fun _ => trivial⟩
    intro m hm
    rw [hlog, List.mem_singleton] at hm
    rw [hm]
    exact hdist id
  env_ok := by
    rintro s m s' hinv ⟨-, hm⟩
    cases m with
    | elect i =>
      cases hm
      exact hinv.move rfl rfl
    | step_down i =>
      cases hm
      exact hinv.move rfl rfl
    | flush i =>
      cases hm
      exact hinv.move rfl rfl

/-- Programs that add no learner. -/
theorem wp_tame {α : Type} {p : DetectorProg α} (hp : p.Uses Prog.AnyAnswer (Tame w)) :
    membership_kept.wp w (fun _ _ => True) p s := by
  refine wp_of_uses (P := Tame w) (fun _ _ _ _ => trivial) (fun _ _ _ _ _ => trivial) ?_ hp trivial
  rintro s o r s' hinv ho - ⟨-, hc⟩
  obtain ⟨hinv', hrel⟩ := call_tame hinv ho hc
  exact ⟨hinv', hrel, trivial⟩

end Views

end Distruct

import Distruct.Cluster.Shutdown
import Distruct.Connection.MessageSize
import Distruct.Framework.Tasks
import Distruct.Raft.Membership

/-! # Leaving a Cluster

    Any number of nodes shut down gracefully, in any interleaving, while the
    leader may change and what a node sees of the membership, of the leader and
    of its own role may be out of date. The network is up: a node can be reached
    at its address unless it has stopped.

    A change of the membership is evaluated by the leader of the moment, in the
    membership of the moment. The leader takes up one change at a time: until it
    is committed, it rejects every other one. Every other node answers with whom
    it takes for the leader, if it knows of one.
-/

namespace Distruct

open LTS (Rely)

/-- A change of the membership that is not committed yet. -/
structure Pending where
  members : ChangeMembers
  /-- The leader of the moment has taken it up, and not an earlier one. -/
  own : Bool

structure Roster where
  membership : Membership
  in_progress : Option Pending
  leader : NodeId
  address : NodeId → Node
  /-- What the nodes see. -/
  view : NodeId → RaftMetrics
  /-- The nodes that have seen other nodes in the membership, and so leave it. -/
  leaving : Finset NodeId
  /-- The nodes that have shut down. -/
  stopped : Finset NodeId
  /-- The changes that the leader has rejected. -/
  rejected : List ChangeMembers

inductive RosterMove where
  | elect (i : NodeId)
  /-- Node `i` sees other metrics. -/
  | observe (i : NodeId) (m : RaftMetrics)
  /-- The leader takes up a change that a node proposes to it. -/
  | take_up (members : ChangeMembers)
  /-- A change that an earlier leader has taken up is committed. -/
  | commit

namespace Roster

def voters (s : Roster) : Finset NodeId := s.membership.voter_ids

/-- However old, the metrics of node `i` show its id, the nodes' addresses, and
    a role that suits the membership in them. -/
structure Sees (s : Roster) (i : NodeId) (m : RaftMetrics) : Prop where
  id : m.id = i
  address : ∀ j n, m.membership_config.membership.get_node j = some n → n = s.address j
  role : m.state = .Learner → i ∉ m.membership_config.membership.voter_ids

/-- Any voters and learners, more than one node in total, any of the voters as
    the leader. -/
structure Init (s : Roster) : Prop where
  uniform : ∃ voters, s.membership.configs = [voters]
  valid : s.membership.Valid
  several : 1 < s.membership.nodes.keys.card
  in_progress : s.in_progress = none
  leader : s.leader ∈ s.voters
  address : Function.Injective s.address
  view : ∀ i, s.Sees i (s.view i)
  leaving : s.leaving = ∅
  stopped : s.stopped = ∅
  rejected : s.rejected = []

/-- A change has been committed. -/
def committed (s : Roster) (retain : Bool) (members : ChangeMembers) : Roster :=
  { s with membership := s.membership.change retain members, in_progress := none }

def reject (s : Roster) (members : ChangeMembers) : Roster :=
  { s with rejected := members :: s.rejected }

/-- The changes that nodes propose when they shut down. -/
def Proposed (s : Roster) (members : ChangeMembers) : Prop :=
  ∃ i ∈ s.leaving, members = .RemoveVoters {i} ∨ members = .RemoveNodes {i}

def move (s : Roster) : RosterMove → Roster → Prop
  | .elect i, s' => i ∈ s.voters ∧
      -- the new leader has the change in its log, or it is lost
      (s' = { s with leader := i, in_progress := s.in_progress.map ({ · with own := false }) } ∨
        s' = { s with leader := i, in_progress := none })
  | .observe i m, s' => s.Sees i m ∧ s' = { s with view := Function.update s.view i m }
  | .take_up members, s' => s.Proposed members ∧ s.in_progress = none ∧
      (s.membership.change false members).Valid ∧
      s' = { s with in_progress := some ⟨members, true⟩ }
  | .commit, s' => ∃ members, s.in_progress = some ⟨members, false⟩ ∧ s' = s.committed false members

/-- How the leader answers. Either it carries out a change, at once or after it
    has taken it up, or it rejects it. -/
def evaluate (s : Roster) (members : ChangeMembers) (retain : Bool)
    (r : Except (RaftError ClientWriteError) ClientWriteResponse) (s' : Roster) : Prop :=
  match s.in_progress with
  | none =>
    if (s.membership.change retain members).Valid then
      (∃ resp, r = .ok resp) ∧ s' = s.committed retain members
    else
      (∃ e, r = .error (.APIError (.ChangeMembershipError e))) ∧ s' = s.reject members
  | some p =>
    (p = ⟨members, true⟩ ∧ (∃ resp, r = .ok resp) ∧ s' = s.committed retain members) ∨
    (p ≠ ⟨members, true⟩ ∧
      (∃ a b, r = .error (.APIError (.ChangeMembershipError (.InProgress a b)))) ∧
      s' = s.reject members)

/-- Whom node `i` takes for the leader, if it knows of one. -/
def known_leader (s : Roster) (i : NodeId) : ForwardToLeader where
  leader_id := (s.view i).current_leader
  leader_node := (s.view i).current_leader.bind (s.view i).membership_config.membership.get_node

/-- Node `i` sees more than one node in the membership. -/
def SeesOthers (s : Roster) (i : NodeId) : Prop :=
  (s.view i).membership_config.membership.nodes.keys.card > 1

instance (s : Roster) (i : NodeId) : Decidable (s.SeesOthers i) :=
  inferInstanceAs (Decidable (_ > _))

/-- Node `i` looks at the membership that it knows. -/
def look (s : Roster) (i : NodeId) : Roster :=
  { s with leaving := if s.SeesOthers i then insert i s.leaving else s.leaving }

/-- The calls that are made while nodes shut down. -/
def call (s : Roster) : (o : Op) → o.Resp → Roster → Prop
  | .server_metrics i, r, s' => r = ⟨(s.view i).id, (s.view i).state⟩ ∧ s' = s
  | .metrics i, r, s' => r = s.view i ∧ s' = s.look i
  | .change_membership i members retain, r, s' =>
      if i = s.leader then s.evaluate members retain r s'
      else r = .error (.APIError (.ForwardToLeader (s.known_leader i))) ∧ s' = s
  | .connect _ node, r, s' =>
      (∃ j, s.address j = node ∧
        if j ∈ s.stopped then ∃ e, r = .error e else r = .ok ⟨j⟩) ∧ s' = s
  | .transmit _ conn, r, s' =>
      (if conn.peer ∈ s.stopped then ∃ e, r = .error e else r = .ok ()) ∧ s' = s
  | .shutdown i, r, s' => r = .ok () ∧ s' = { s with stopped := insert i s.stopped }
  | .broadcast_shutdown _, r, s' => r = .ok () ∧ s' = s
  | _, _, _ => False

/-- The condition under which a call made during a shutdown goes well:

    - a node that sees other nodes, and so leaves, is not the last voter to do
      so;
    - a voter that looks at its role has heard that it is a voter;
    - a leader that is asked for a change has no other one in progress;
    - any other node that is asked for a change knows the leader and its
      address, and it is not asked by itself for its own removal as a voter;
    - the node that is talked to has not stopped. -/
def Smooth (s : Roster) : Op → Prop
  | .metrics i => s.SeesOthers i → (s.voters \ insert i s.leaving).Nonempty
  | .server_metrics i =>
      i ∈ s.voters → i ∈ (s.view i).membership_config.membership.voter_ids
  | .change_membership i members _ =>
      (i = s.leader → ∀ p, s.in_progress = some p → p = ⟨members, true⟩) ∧
      (i ≠ s.leader → members ≠ .RemoveVoters {i} ∧
        ∃ leader node, s.known_leader i = ⟨some leader, some node⟩)
  | .connect _ node => ∀ j, s.address j = node → j ∉ s.stopped
  | .transmit _ conn => conn.peer ∉ s.stopped
  | _ => True

end Roster

def roster : LTS.Shared Roster RosterMove Op Op.Resp where
  init := Roster.Init
  env := Roster.move
  call := Roster.call

namespace Roster

variable {s s' : Roster}

/-! ### A node's own removal -/

/-- The changes by which node `i` leaves: as a voter, or as a learner that is
    no voter. -/
def Leaves (i : NodeId) (s : Roster) : ChangeMembers → Prop
  | .RemoveVoters ids => ids = {i} ∧ i ∈ s.leaving
  | .RemoveNodes ids => ids = {i} ∧ i ∉ s.voters
  | _ => False

/-- Addresses stay, nobody becomes a voter, and nobody gives up leaving. -/
structure Shrinks (s s' : Roster) : Prop where
  address : s'.address = s.address
  voters : s'.voters ⊆ s.voters
  leaving : s.leaving ⊆ s'.leaving

theorem Shrinks.refl (s : Roster) : Shrinks s s :=
  ⟨rfl, Finset.Subset.refl _, Finset.Subset.refl _⟩

theorem Shrinks.trans {a b c : Roster} (h : Shrinks a b) (h' : Shrinks b c) : Shrinks a c :=
  ⟨h'.address.trans h.address, h'.voters.trans h.voters, h.leaving.trans h'.leaving⟩

theorem Leaves.mono {i : NodeId} {members : ChangeMembers} (h : Shrinks s s')
    (hl : Leaves i s members) : Leaves i s' members := by
  cases members with
  | RemoveVoters ids => exact ⟨hl.1, h.leaving hl.2⟩
  | RemoveNodes ids => exact ⟨hl.1, fun hv => hl.2 (h.voters hv)⟩
  | _ => cases hl

/-! ### The invariant -/

structure Inv (s : Roster) : Prop where
  uniform : ∃ voters, s.membership.configs = [voters]
  valid : s.membership.Valid
  address : Function.Injective s.address
  view : ∀ i, s.Sees i (s.view i)
  /-- There is a voter that does not leave. -/
  remaining : (s.voters \ s.leaving).Nonempty
  pending : ∀ p, s.in_progress = some p → ∃ i, Leaves i s p.members
  rejected : s.rejected = []

theorem Sees.of_address {i : NodeId} {m : RaftMetrics} (h : s.Sees i m)
    (ha : s'.address = s.address) : s'.Sees i m where
  id := h.id
  address := by
    rw [ha]
    exact h.address
  role := h.role

theorem Inv.init (h : s.Init) : s.Inv where
  uniform := h.uniform
  valid := h.valid
  address := h.address
  view := h.view
  remaining := by
    rw [h.leaving, Finset.sdiff_empty]
    exact ⟨s.leader, h.leader⟩
  pending := by
    intro p hp
    rw [h.in_progress] at hp
    cases hp
  rejected := h.rejected

/-- Such a change leads to a membership that openraft accepts: a voter that
    leaves is not the last one. -/
theorem Leaves.valid {i : NodeId} {members : ChangeMembers} (hi : s.Inv) (hl : Leaves i s members) :
    (s.membership.change false members).Valid := by
  cases members with
  | RemoveVoters ids =>
    obtain ⟨rfl, hleaving⟩ := hl
    obtain ⟨voters, hv⟩ := hi.uniform
    have hvoters : s.voters = voters := by simp [Roster.voters, Membership.voter_ids, hv]
    refine Membership.valid_remove_voters hi.valid hv (Finset.nonempty_iff_ne_empty.mp ?_)
    rw [← hvoters]
    exact hi.remaining.mono
      (Finset.sdiff_subset_sdiff (Finset.Subset.refl _) (Finset.singleton_subset_iff.mpr hleaving))
  | RemoveNodes ids =>
    obtain ⟨rfl, hnot⟩ := hl
    refine Membership.valid_remove_nodes hi.valid ?_
    intro id hid
    rw [Finset.mem_singleton.mp hid]
    exact hnot
  | _ => cases hl

/-- The voters that it leaves. -/
theorem Leaves.voters {i : NodeId} {members : ChangeMembers} (hi : s.Inv) (hl : Leaves i s members) :
    (∃ voters, (s.membership.change false members).configs = [voters]) ∧
      (s.membership.change false members).voter_ids ⊆ s.voters ∧
      s.voters \ s.leaving ⊆ (s.membership.change false members).voter_ids := by
  cases members with
  | RemoveVoters ids =>
    obtain ⟨rfl, hleaving⟩ := hl
    obtain ⟨voters, hv⟩ := hi.uniform
    have hvoters : s.voters = voters := by simp [Roster.voters, Membership.voter_ids, hv]
    have hafter : (s.membership.change false (.RemoveVoters {i})).voter_ids = s.voters \ {i} := by
      simp [hvoters, Membership.change, Membership.with_voters, Membership.voter_ids,
        Membership.last_config, hv]
    rw [hafter]
    exact ⟨⟨_, rfl⟩, Finset.sdiff_subset,
      Finset.sdiff_subset_sdiff (Finset.Subset.refl _) (Finset.singleton_subset_iff.mpr hleaving)⟩
  | RemoveNodes ids => exact ⟨hi.uniform, Finset.Subset.refl _, Finset.sdiff_subset⟩
  | _ => cases hl

/-- A change that nodes propose and that openraft accepts is a node's own removal. -/
theorem Proposed.leaves {members : ChangeMembers} (h : s.Proposed members)
    (hv : (s.membership.change false members).Valid) : ∃ i, Leaves i s members := by
  obtain ⟨i, hi, rfl | rfl⟩ := h
  · exact ⟨i, rfl, hi⟩
  · refine ⟨i, rfl, ?_⟩
    intro hvoter
    -- a voter would have lost its entry in the address book
    have hentry : i ∈ Membership.without s.membership.nodes {i} := hv.addressed i hvoter
    exact (Membership.mem_without.mp hentry).2 (Finset.mem_singleton_self i)

/-- Carrying out a change. -/
theorem Inv.committed {i : NodeId} {members : ChangeMembers} (h : s.Inv)
    (hl : Leaves i s members) : (s.committed false members).Inv ∧ Shrinks s (s.committed false members) := by
  obtain ⟨huni, hsub, hremain⟩ := hl.voters h
  refine ⟨⟨huni, hl.valid h, h.address, fun j => (h.view j).of_address rfl, ?_, nofun, h.rejected⟩,
    rfl, hsub, Finset.Subset.refl _⟩
  obtain ⟨v, hv⟩ := h.remaining
  exact ⟨v, Finset.mem_sdiff.mpr ⟨hremain hv, (Finset.mem_sdiff.mp hv).2⟩⟩

/-- A step that leaves the membership and the addresses as they are. -/
theorem Inv.frame (h : s.Inv) (hm : s'.membership = s.membership) (ha : s'.address = s.address)
    (hl : s.leaving ⊆ s'.leaving) (hrest : (s.voters \ s'.leaving).Nonempty)
    (hview : ∀ i, s.Sees i (s'.view i))
    (hp : ∀ p, s'.in_progress = some p → ∃ i, Leaves i s p.members)
    (hr : s'.rejected = s.rejected) : s'.Inv ∧ Shrinks s s' := by
  have hvoters : s'.voters = s.voters := congrArg Membership.voter_ids hm
  have hshrinks : Shrinks s s' := ⟨ha, by rw [hvoters], hl⟩
  refine ⟨⟨?_, ?_, ?_, fun i => (hview i).of_address ha, ?_, ?_, ?_⟩, hshrinks⟩
  · rw [hm]
    exact h.uniform
  · rw [hm]
    exact h.valid
  · rw [ha]
    exact h.address
  · rw [hvoters]
    exact hrest
  · intro p hs
    obtain ⟨i, hleaves⟩ := hp p hs
    exact ⟨i, hleaves.mono hshrinks⟩
  · rw [hr]
    exact h.rejected

/-- A look at the membership, by a node that is not the last voter to leave. -/
theorem Inv.look {i : NodeId} (h : s.Inv) (hok : s.Smooth (.metrics i)) :
    (s.look i).Inv ∧ Shrinks s (s.look i) ∧ ((s.look i).SeesOthers i → i ∈ (s.look i).leaving) := by
  by_cases hothers : s.SeesOthers i
  · have hleaving : (s.look i).leaving = insert i s.leaving := if_pos hothers
    obtain ⟨hinv, hshrinks⟩ := h.frame (show (s.look i).membership = s.membership from rfl) rfl
      (by rw [hleaving]; exact Finset.subset_insert _ _)
      (by rw [hleaving]; exact hok hothers) h.view h.pending rfl
    refine ⟨hinv, hshrinks, fun _ => ?_⟩
    rw [hleaving]
    exact Finset.mem_insert_self _ _
  · have hsame : s.look i = s := by simp [Roster.look, hothers]
    rw [hsame]
    exact ⟨h, .refl _, fun hs => absurd hs hothers⟩

theorem Inv.move (h : s.Inv) {m : RosterMove} (hm : s.move m s') : s'.Inv ∧ Shrinks s s' := by
  match m with
  | .elect i =>
    obtain ⟨_, rfl | rfl⟩ := hm
    · refine h.frame rfl rfl (Finset.Subset.refl _) h.remaining h.view ?_ rfl
      -- the same change, now that of an earlier leader
      intro p hp
      obtain ⟨q, hq, rfl⟩ := Option.map_eq_some_iff.mp hp
      exact h.pending q hq
    · exact h.frame rfl rfl (Finset.Subset.refl _) h.remaining h.view nofun rfl
  | .observe i m =>
    obtain ⟨hsees, rfl⟩ := hm
    refine h.frame rfl rfl (Finset.Subset.refl _) h.remaining ?_ h.pending rfl
    intro j
    -- only the view of node `i` is new, and it still shows the addresses
    by_cases hj : j = i
    · subst hj
      simp only [Function.update_self]
      exact hsees
    · simp only [Function.update_of_ne hj]
      exact h.view j
  | .take_up members =>
    obtain ⟨hproposed, _, hvalid, rfl⟩ := hm
    refine h.frame rfl rfl (Finset.Subset.refl _) h.remaining h.view ?_ rfl
    intro p hp
    cases hp
    exact hproposed.leaves hvalid
  | .commit =>
    obtain ⟨members, hp, rfl⟩ := hm
    obtain ⟨i, hl⟩ := h.pending _ hp
    exact h.committed hl

/-- Some answer to the call is possible, or it is the end of a loop that is
    followed no further. -/
def Answered (s : Roster) (o : Op) : Prop :=
  o = .out_of_fuel ∨ ∃ r s', s.call o r s'

def leaving_cluster : Rely (roster.restrict (fun _ _ => True) Roster.Smooth) where
  inv := Inv
  rel := Shrinks
  can := Answered
  refl := Shrinks.refl
  trans := Shrinks.trans
  init_inv := Inv.init
  env_ok := fun h hm => h.move hm.2

/-! ### Answers to a proposal -/

section path
variable {i j : NodeId} {members : ChangeMembers}

/-- The change was carried out, or the reply names the leader. -/
def Replied (reply : Except RemoteError Response) (s : Roster) : Prop :=
  (∃ resp, reply = .ok (.ClientWrite resp)) ∨
    ∃ leader, reply =
      .error (.RaftWrite (.APIError (.ForwardToLeader ⟨some leader, some (s.address leader)⟩)))

theorem Replied.mono {reply : Except RemoteError Response} (h : Shrinks s s')
    (hr : Replied reply s) : Replied reply s' := by
  rcases hr with hr | ⟨leader, hr⟩
  · exact .inl hr
  · exact .inr ⟨leader, by rw [hr, h.address]⟩

/-- Connecting to a node's address leads to that node. -/
theorem wp_connect {Q : Except TransportError Connection → Roster → Prop}
    (h : ∀ s', s'.Inv → Shrinks s s' → Q (.ok ⟨j⟩) s') :
    leaving_cluster.wp Q (ask (.connect i (s.address j))) s := by
  refine Rely.wp_call (fun s' _ hr => ?_) ?_
  · have haddr : s'.address j = s.address j := by rw [hr.address]
    by_cases hstop : j ∈ s'.stopped
    · exact .inr ⟨.error (.Connect ""), s', ⟨j, haddr, by simp [hstop]⟩, rfl⟩
    · exact .inr ⟨.ok ⟨j⟩, s', ⟨j, haddr, by simp [hstop]⟩, rfl⟩
  intro s₁ hi₁ hr₁ r s₂ hcall
  obtain ⟨hok, ⟨k, hk, hc⟩, rfl⟩ := hcall
  -- no two nodes share an address
  have hkj : k = j := hi₁.address (hk.trans (by rw [hr₁.address]))
  rw [if_neg (hok k hk), hkj] at hc
  subst hc
  exact ⟨hi₁, .refl _, Rely.wp_pure fun s₃ hi₃ hr₃ => h s₃ hi₃ (hr₁.trans hr₃)⟩

theorem wp_force_shutdown :
    leaving_cluster.wp (fun r _ => r = .ok ()) (linked (force_shutdown i)) s := by
  refine Rely.wp_call (fun s' _ _ => .inr ⟨_, _, rfl, rfl⟩) ?_
  intro s₁ hi₁ _ r s₂ hcall
  obtain ⟨_, rfl, rfl⟩ := hcall
  have hstop : ({ s₁ with stopped := insert i s₁.stopped } : Roster).Inv ∧
      Shrinks s₁ { s₁ with stopped := insert i s₁.stopped } :=
    hi₁.frame rfl rfl (Finset.Subset.refl _) hi₁.remaining hi₁.view hi₁.pending rfl
  refine ⟨hstop.1, hstop.2, Rely.wp_call (fun s' _ _ => .inr ⟨_, s', rfl, rfl⟩) ?_⟩
  intro s₃ hi₃ _ r s₄ hcall
  obtain ⟨_, rfl, rfl⟩ := hcall
  exact ⟨hi₃, .refl _, Rely.wp_pure fun _ _ _ => rfl⟩

end path

end Roster

/-! ### Runs -/

end Distruct

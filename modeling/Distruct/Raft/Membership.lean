import Distruct.Framework.BTreeMap
import Distruct.Raft.Types

/-! # Changes of the Membership

    What openraft makes of a proposed change, once both steps of a joint change
    are through, and which results it accepts: there must be a voter, and every
    voter must have an entry in the address book.
-/

namespace Distruct

namespace Membership

/-- The voters of the last configuration, on which a change is based. -/
def last_config (m : Membership) : Finset NodeId := m.configs.getLast?.getD ∅

/-- The address book without some nodes. -/
def without (nodes : HashMap NodeId Node) (ids : Finset NodeId) : HashMap NodeId Node :=
  BTreeMap.remove_all nodes ids.sort

/-- New voters. A voter that is none anymore is forgotten unless it is retained
    as a learner. -/
def with_voters (m : Membership) (retain : Bool) (voters : Finset NodeId) : Membership where
  configs := [voters]
  nodes := if retain then m.nodes else without m.nodes (m.voter_ids \ voters)

/-- The membership that a change leads to. -/
def change (m : Membership) (retain : Bool) : ChangeMembers → Membership
  | .AddVoterIds ids => m.with_voters retain (m.last_config ∪ ids)
  | .AddVoters nodes =>
    { m with nodes := m.nodes ∪ nodes }.with_voters retain (m.last_config ∪ nodes.keys)
  -- a removed voter leaves the address book as well, unless it is retained
  | .RemoveVoters ids => m.with_voters retain (m.last_config \ ids)
  | .ReplaceAllVoters ids => m.with_voters retain ids
  | .AddNodes nodes => { m with nodes := m.nodes ∪ nodes }
  | .SetNodes nodes => { m with nodes := nodes ∪ m.nodes }
  | .RemoveNodes ids => { m with nodes := without m.nodes ids }
  | .ReplaceAllNodes nodes => { m with nodes := nodes }

/-- What openraft demands of a membership. -/
structure Valid (m : Membership) : Prop where
  voters : ∀ c ∈ m.configs, c ≠ ∅
  addressed : ∀ v ∈ m.voter_ids, v ∈ m.nodes

instance (m : Membership) : Decidable m.Valid :=
  decidable_of_iff ((∀ c ∈ m.configs, c ≠ ∅) ∧ ∀ v ∈ m.voter_ids, v ∈ m.nodes)
    ⟨fun h => ⟨h.1, h.2⟩, fun h => ⟨h.1, h.2⟩⟩

variable {m : Membership} {ids : Finset NodeId}

theorem mem_without {nodes : HashMap NodeId Node} {id : NodeId} :
    id ∈ without nodes ids ↔ id ∈ nodes ∧ id ∉ ids := by
  rw [Finmap.mem_iff, Finmap.mem_iff]
  simp only [without, BTreeMap.lookup_remove_all, Finset.mem_sort]
  by_cases h : id ∈ ids <;> simp [h]

theorem voter_ids_singleton (voters : Finset NodeId) (nodes : HashMap NodeId Node) :
    voter_ids ⟨[voters], nodes⟩ = voters := by
  simp [voter_ids]

/-- Removing voters from a single configuration. -/
theorem valid_remove_voters {voters : Finset NodeId} (hm : m.Valid) (hc : m.configs = [voters])
    (hne : voters \ ids ≠ ∅) : (m.change false (.RemoveVoters ids)).Valid := by
  have hlast : m.last_config = voters := by simp [last_config, hc]
  have hids : m.voter_ids = voters := by simp [voter_ids, hc]
  simp only [change, with_voters, hlast, hids, Bool.false_eq_true, if_false]
  refine ⟨by simpa using hne, ?_⟩
  intro v hv
  rw [voter_ids_singleton] at hv
  rw [mem_without]
  have hvoter := (Finset.mem_sdiff.mp hv).1
  refine ⟨hm.addressed v (by rw [hids]; exact hvoter), ?_⟩
  -- a remaining voter is not among the forgotten ones
  intro hnot
  exact (Finset.mem_sdiff.mp hnot).2 hv

/-- Removing nodes that are no voters. -/
theorem valid_remove_nodes (hm : m.Valid) (hdis : ∀ id ∈ ids, id ∉ m.voter_ids) :
    (m.change false (.RemoveNodes ids)).Valid where
  voters := hm.voters
  addressed := by
    intro v hv
    show v ∈ without m.nodes ids
    rw [mem_without]
    exact ⟨hm.addressed v hv, fun h => hdis v h hv⟩

end Membership

end Distruct

import Distruct.Cluster.DetectFailures

/-! # Quorums of the Failure Detector

    The failure detector counts the voters of all configurations as one set. In
    a membership with a single configuration that is the quorum of Raft. While a
    show of the membership is under way there are two configurations, each
    with a majority of its own, and the count may be satisfied without one.
-/

namespace Distruct

/-- The nodes contain a strict majority of every voter configuration. -/
def Membership.Quorum (m : Membership) (nodes : Finset NodeId) : Prop :=
  ∀ c ∈ m.configs, c.card < 2 * (c ∩ nodes).card

/-- What an iteration is relied upon for: when it says that a quorum is
    possible, the voters that it has not marked are one; the node itself is not
    marked, and no more voters are marked than there are. -/
structure QuorumSound (m : Membership) (own_id : NodeId) (monitor : HeartbeatMonitor)
    (now : Instant) : Prop where
  quorum : (check_members now own_id m monitor).1.quorum_possible = true →
    m.Quorum (m.voter_ids \ (check_members now own_id m monitor).1.voters_to_remove)
  own_voter : own_id ∉ (check_members now own_id m monitor).1.voters_to_remove
  own_learner : own_id ∉ (check_members now own_id m monitor).1.learners_to_remove
  no_underflow : (check_members now own_id m monitor).1.voters_to_remove.card ≤
    (check_members now own_id m monitor).1.n_voters

/-- Every configuration has all the voters, or an odd number of them that is
    all but one. -/
def Membership.OneMajority (m : Membership) : Prop :=
  ∀ c ∈ m.configs, c = m.voter_ids ∨ (c.card + 1 = m.voter_ids.card ∧ c.card % 2 = 1)

instance (m : Membership) : Decidable m.OneMajority := by
  unfold Membership.OneMajority
  infer_instance

section count
variable {m : Membership} {own_id : NodeId} {monitor : HeartbeatMonitor} {now : Instant}

theorem Membership.subset_voter_ids {c : Finset NodeId} (hc : c ∈ m.configs) : c ⊆ m.voter_ids := by
  unfold Membership.voter_ids
  generalize m.configs = configs at hc
  induction configs with
  | nil => cases hc
  | cons d configs ih =>
    rw [List.foldr_cons]
    rcases List.mem_cons.mp hc with rfl | hc
    · exact Finset.subset_union_left
    · exact (ih hc).trans Finset.subset_union_right

theorem check_members_subset :
    (check_members now own_id m monitor).1.voters_to_remove ⊆ m.voter_ids := by
  rw [check_members_voters]
  exact Finset.filter_subset _ _

/-- The count, in terms of the number of marked voters. -/
theorem quorum_possible_iff {marked : Finset NodeId}
    (hm : (check_members now own_id m monitor).1.voters_to_remove = marked) :
    (check_members now own_id m monitor).1.quorum_possible = true ↔
      m.voter_ids.card / 2 + 1 ≤ m.voter_ids.card - marked.card := by
  simp [Detection.quorum_possible, Detection.available_voters, Detection.required_voters_for_quorum,
    check_members_n_voters, hm]

/-- The count is about the right majority if every configuration is the set of
    all voters, or an odd number of them that is all but one. -/
theorem quorum_of_oneMajority {marked : Finset NodeId} (hone : m.OneMajority)
    (hsub : marked ⊆ m.voter_ids)
    (hcount : m.voter_ids.card / 2 + 1 ≤ m.voter_ids.card - marked.card) :
    m.Quorum (m.voter_ids \ marked) := by
  intro c hc
  have hcv : c ⊆ m.voter_ids := Membership.subset_voter_ids hc
  have hrest : c ∩ (m.voter_ids \ marked) = c \ marked := by
    ext id
    simp only [Finset.mem_inter, Finset.mem_sdiff]
    constructor
    · intro h
      exact ⟨h.1, h.2.2⟩
    · intro h
      exact ⟨h.1, hcv h.1, h.2⟩
  have hle : marked.card ≤ m.voter_ids.card := Finset.card_le_card hsub
  -- marked voters outside the configuration only help
  have hcard : c.card - marked.card ≤ (c \ marked).card := Finset.le_card_sdiff marked c
  rw [hrest]
  rcases hone c hc with heq | ⟨hcount', hodd⟩
  · rw [heq] at hcard ⊢
    omega
  · omega

/-- A table in which exactly the given nodes have not been seen for too long. -/
def HeartbeatMonitor.silent (ids : Finset NodeId) : HeartbeatMonitor :=
  HashMap.collect (ids.sort.map (·, 0))

theorem HeartbeatMonitor.overdue_silent (ids : Finset NodeId) (id : NodeId) :
    (silent ids).overdue (HEARTBEAT_DEADLINE + 1) id = decide (id ∈ ids) := by
  have hnd : ((ids.sort.map fun id => (id, 0)).map Prod.fst).Nodup := by
    simp [Function.comp_def]
  unfold overdue silent HashMap.collect
  by_cases hid : id ∈ ids
  · have hmem : (id, 0) ∈ ids.sort.map fun id => (id, 0) :=
      List.mem_map.mpr ⟨id, (Finset.mem_sort _).mpr hid, rfl⟩
    rw [HashMap.lookup_foldl_insert_of_mem hnd hmem]
    simp [hid]
  · have hnot : id ∉ (ids.sort.map fun id => (id, 0)).map Prod.fst := by
      simpa [Function.comp_def] using hid
    rw [HashMap.lookup_foldl_insert_of_notMem hnot]
    simp [hid]

/-- Nodes that are silent are marked, if they are voters other than the node itself. -/
theorem check_members_silent {ids : Finset NodeId} (hids : ids ⊆ m.voter_ids) (hown : own_id ∉ ids) :
    (check_members (HEARTBEAT_DEADLINE + 1) own_id m (.silent ids)).1.voters_to_remove = ids := by
  rw [check_members_voters]
  ext id
  simp only [Finset.mem_filter, HeartbeatMonitor.overdue_silent, decide_eq_true_eq]
  constructor
  · intro h
    exact h.2.2
  · intro h
    exact ⟨hids h, fun heq => hown (heq ▸ h), h⟩

end count

/-- **The quorum check is sound for a membership, whatever has been heard of its
    members and whichever of them counts, exactly if every configuration
    consists of all voters, or of all but one and an odd number of them.** -/
theorem quorumSound_iff (m : Membership) :
    (∀ own_id monitor now, QuorumSound m own_id monitor now) ↔ m.OneMajority := by
  constructor
  · intro h c hc
    have hcv : c ⊆ m.voter_ids := Membership.subset_voter_ids hc
    have hle : c.card ≤ m.voter_ids.card := Finset.card_le_card hcv
    by_contra hnot
    push Not at hnot
    obtain ⟨hne, hodd⟩ := hnot
    have hlt : c.card < m.voter_ids.card := Finset.card_lt_card (hcv.ssubset_of_ne hne)
    -- silence half of the configuration, rounded up
    obtain ⟨ids, hids, hcard⟩ := Finset.exists_subset_card_eq (s := c) (n := (c.card + 1) / 2) (by omega)
    have hfew : ids.card < m.voter_ids.card := by omega
    obtain ⟨own_id, hown⟩ := Finset.exists_mem_notMem_of_card_lt_card hfew
    have hmarked := check_members_silent (m := m) (hids.trans hcv) hown.2
    have hsound := h own_id (.silent ids) (HEARTBEAT_DEADLINE + 1)
    have hpossible := (quorum_possible_iff hmarked).mpr (by omega)
    have hquorum := hsound.quorum hpossible c hc
    rw [hmarked] at hquorum
    have hrest : c ∩ (m.voter_ids \ ids) ⊆ c \ ids := by
      intro id hid
      simp only [Finset.mem_inter, Finset.mem_sdiff] at hid ⊢
      exact ⟨hid.1, hid.2.2⟩
    have hrest_card := Finset.card_le_card hrest
    rw [Finset.card_sdiff_of_subset hids] at hrest_card
    omega
  · intro hone own_id monitor now
    refine ⟨?_, ?_, ?_, ?_⟩
    · intro hpossible
      exact quorum_of_oneMajority hone check_members_subset ((quorum_possible_iff rfl).mp hpossible)
    · rw [check_members_voters]
      simp
    · rw [check_members_learners]
      simp
    · rw [check_members_n_voters]
      exact Finset.card_le_card check_members_subset

/-- Node 3 is becoming a voter in a cluster of two. -/
def joining_third : Membership := ⟨[{1, 2}, {1, 2, 3}], HashMap.collect
  [(1, .on_port 35001), (2, .on_port 35002), (3, .on_port 35003)]⟩

/-- Node 2 has not been reached for more than ten seconds. Nodes 1 and 3 are
    counted as two of three voters, and node 1 alone is no majority of the old
    configuration. -/
theorem quorum_possible_without_majority :
    (check_members (from_secs 11) 1 joining_third
        (HashMap.collect [(2, from_secs 0), (3, from_secs 11)])).1.quorum_possible = true ∧
      ¬ QuorumSound joining_third 1 (HashMap.collect [(2, from_secs 0), (3, from_secs 11)])
        (from_secs 11) := by
  have hmarked : (check_members (from_secs 11) 1 joining_third
      (HashMap.collect [(2, from_secs 0), (3, from_secs 11)])).1.voters_to_remove = {2} := by
    rw [check_members_voters]
    decide
  have hpossible := (quorum_possible_iff hmarked).mpr (by decide)
  refine ⟨hpossible, ?_⟩
  intro hsound
  have hquorum := hsound.quorum hpossible {1, 2} (by simp [joining_third])
  rw [hmarked] at hquorum
  exact absurd hquorum (by decide)

end Distruct

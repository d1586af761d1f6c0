import Distruct.Cluster.FailureDetector

/-! # The Two Deadlines

    A leader removes a member that it has not reached for `HEARTBEAT_DEADLINE`,
    and shuts down when it has not seen a quorum for `QUORUM_DEADLINE`. Both are
    measured from time stamps that outlive the leadership: the entries of the
    heartbeat monitor stay when the node steps down, and `last_quorum_reached`
    stands still while it is not the leader.

    A removal comes too early exactly when an iteration meets an entry that was
    there when the leadership was gained and that nothing has renewed since. A
    shutdown comes too early when such entries keep a new leader from noting a
    quorum in time, or when the leadership is lost in the middle of an iteration
    that takes too long.
-/

namespace Distruct

open LTS (Crew Discipline)

/-! ### Removing members -/

/-- When `id` is marked for removal at `t`, the node has been the leader for more
    than the deadline and has not reached `id` since. -/
def RemovalDue (before : List Event) (t : Instant) (id : NodeId) : Prop :=
  ∃ b, b + HEARTBEAT_DEADLINE < t ∧ LeaderFrom b (Event.reaches id) before

def removal_due : Event → List Event → Prop
  | .checked t _ found, before =>
      ∀ id ∈ found.voters_to_remove ∪ found.learners_to_remove, RemovalDue before t id
  | _, _ => True

/-- The condition on an iteration: another member whose entry was there when the
    leadership was gained has been reached since, or its entry was dropped since,
    or the entry is not older than the deadline. A leadership that is older than
    the deadline itself needs no condition. -/
def inheritance_settled (own_id : NodeId) : Event → List Event → Prop
  | .checked t membership _, before =>
      ∀ id ∈ membership.voter_ids ∪ membership.learner_ids, id ≠ own_id →
        ∀ u, inherited before id = some u → u + HEARTBEAT_DEADLINE < t →
          led_since before + HEARTBEAT_DEADLINE < t
  | _, _ => True

theorem removal_due_of_outside {e : Event} {before : List Event} (he : e.outside = true) :
    removal_due e before := by
  cases e with
  | checked t membership found => cases he
  | _ => trivial

theorem inheritance_settled_of_outside {own_id : NodeId} {e : Event} {before : List Event}
    (he : e.outside = true) : inheritance_settled own_id e before := by
  cases e with
  | checked t membership found => cases he
  | _ => trivial

namespace Monitored

variable {own_id : NodeId} {s s' : Monitored}

/-- The members that an iteration marks: all others with an old entry. -/
theorem marked_iff {id : NodeId} :
    id ∈ (check_members s.now own_id s.membership s.heartbeat_monitor).1.voters_to_remove ∪
        (check_members s.now own_id s.membership s.heartbeat_monitor).1.learners_to_remove ↔
      id ∈ s.membership.voter_ids ∪ s.membership.learner_ids ∧ id ≠ own_id ∧
        ∃ u, s.heartbeat_monitor.lookup id = some u ∧ u + HEARTBEAT_DEADLINE < s.now := by
  have hover : s.heartbeat_monitor.overdue s.now id = true ↔
      ∃ u, s.heartbeat_monitor.lookup id = some u ∧ u + HEARTBEAT_DEADLINE < s.now := by
    simp only [HeartbeatMonitor.overdue, decide_eq_true_eq]
    cases hu : s.heartbeat_monitor.lookup id with
    | none => simp
    | some u =>
      simp only [Option.getD_some, Option.some.injEq, exists_eq_left']
      exact Nat.lt_sub_iff_add_lt'
  rw [check_members_voters, check_members_learners, ← Finset.filter_union, Finset.mem_filter, hover]

/-- A removal is due if its entry was made under the leadership, or if the
    leadership is old enough. -/
theorem Inv.removal_due_of (h : s.Inv) (hl : s.state = .Leader) {id : NodeId} {u : Instant}
    (hu : s.heartbeat_monitor.lookup id = some u) (hold : u + HEARTBEAT_DEADLINE < s.now)
    (hlong : led_since s.history ≤ u ∨ led_since s.history + HEARTBEAT_DEADLINE < s.now) :
    RemovalDue s.history s.now id := by
  have hled : led_since s.history + HEARTBEAT_DEADLINE < s.now := by
    rcases hlong with hsince | hlong
    · exact Nat.lt_of_le_of_lt (Nat.add_le_add_right hsince _) hold
    · exact hlong
  -- the period begins with the leadership or with the entry, whichever is later
  refine ⟨max (led_since s.history) u, ?_, ?_⟩
  · rw [← Nat.add_max_add_right]
    exact Nat.max_lt.mpr ⟨hled, hold⟩
  · refine ((h.leader hl).mono (Nat.le_max_left _ _)).avoid ?_
    intro e he hr
    exact Nat.le_trans (h.seen id u hu e he hr) (Nat.le_max_right _ _)

/-- What one iteration marks is due if and only if the condition holds of it. -/
theorem Inv.removal_due_iff (h : s.Inv) (hl : s.state = .Leader) :
    removal_due (.checked s.now s.membership
        (check_members s.now own_id s.membership s.heartbeat_monitor).1) s.history ↔
      inheritance_settled own_id (.checked s.now s.membership
        (check_members s.now own_id s.membership s.heartbeat_monitor).1) s.history := by
  constructor
  · intro hdue id hmem hne u hu hold
    -- what is inherited is still in the monitor, so the member is marked
    have hmarked := marked_iff.mpr ⟨hmem, hne, u, h.inherited hl id u hu, hold⟩
    obtain ⟨b, hb, hfrom⟩ := hdue id hmarked
    exact Nat.lt_of_le_of_lt (Nat.add_le_add_right (hfrom.led_since_le h.ordered) _) hb
  · intro hsettled id hid
    obtain ⟨hmem, hne, u, hu, hold⟩ := marked_iff.mp hid
    refine h.removal_due_of hl hu hold ?_
    rcases h.entry hl id u hu with hsince | hinherited
    · exact .inl hsince
    · exact .inr (hsettled id hmem hne u hinherited hold)

end Monitored

open Monitored in
/-- **No premature removal**: in every run, all removals are due if and only if no
    iteration in the first `HEARTBEAT_DEADLINE` of a leadership meets an older entry
    from before it. -/
theorem removals_due_iff (fuel : Nat) (own_id : NodeId)
    (c : Crew Unit Monitored DetectorOp DetectorOp.Resp (Except ProcessExit Unit))
    (hc : (LTS.crew (monitored own_id) (detector fuel own_id)).Reachable c) :
    Throughout removal_due c.shared.history ↔
      Throughout (inheritance_settled own_id) c.shared.history := by
  refine (Discipline.crew_shared (fun s => s.Inv ∧ (Throughout removal_due s.history ↔
    Throughout (inheritance_settled own_id) s.history)) ?_ ?_ ?_ ?_ hc).2
  · intro s hinit
    refine ⟨.init hinit, ?_⟩
    rw [hinit.2.2]
    exact Iff.rfl
  · intro s m s' h hm
    refine ⟨h.1.move hm, ?_⟩
    obtain ⟨_, hsame | ⟨e, he, hnew⟩⟩ := move_history hm
    · rw [hsame]
      exact h.2
    · rw [hnew]
      exact and_congr (iff_of_true (removal_due_of_outside he) (inheritance_settled_of_outside he)) h.2
  · intro _ s _ s' h hs
    refine ⟨h.1.start hs, ?_⟩
    obtain ⟨_, rfl⟩ := hs
    exact and_congr Iff.rfl h.2
  · intro _ s o r s' h hcall
    refine ⟨h.1.call hcall, ?_⟩
    rcases call_cases hcall with rfl | ⟨hl, _, rfl⟩ | ⟨_, rfl⟩
    · exact h.2
    · exact and_congr (h.1.removal_due_iff hl) h.2
    · exact and_congr Iff.rfl h.2

/-- Three voters and the learner 4. -/
def with_learner : Membership := ⟨[{1, 2, 3}], HashMap.collect
  [(1, .on_port 35001), (2, .on_port 35002), (3, .on_port 35003), (4, .on_port 35004)]⟩

/-- Node 1 as the leader, before anything has happened. -/
def fresh_leader : Monitored where
  now := 0
  state := .Leader
  membership := with_learner
  heartbeat_monitor := ∅
  started := false
  history := [.became 0 .Leader ∅]

/-- A node reaches the learner and steps down. Twelve seconds later the vote of node
    2 makes it the leader again. Its first iteration marks the learner. -/
theorem learner_removed_after_reelection : ∃ c, (LTS.crew (monitored 1) (detector 1 1)).Reachable c ∧
    ¬ Throughout removal_due c.shared.history := by
  have h₀ : (LTS.crew (monitored 1) (detector 1 1)).Reachable ⟨fresh_leader, fun _ => none⟩ :=
    .init ⟨⟨rfl, rfl, rfl⟩, fun _ => rfl⟩
  have h₁ := Crew.start h₀ () () (.inl rfl) ⟨rfl, rfl⟩
  have h₂ := Crew.call h₁ () _ rfl ⟨rfl, rfl⟩
  have h₃ := Crew.env h₂ (.on_heartbeat 4) rfl
  have h₄ := Crew.env h₃ (.become .Follower) rfl
  have h₅ := Crew.env h₄ (.advance (from_secs 12)) ⟨by decide, rfl⟩
  have h₆ := Crew.env h₅ (.on_heartbeat 2) rfl
  have h₇ := Crew.env h₆ (.become .Leader) rfl
  have h₈ := Crew.call h₇ () true rfl rfl
  have h₉ := Crew.call h₈ () () rfl rfl
  have h₁₀ := Crew.call h₉ () _ rfl ⟨rfl, rfl⟩
  refine ⟨_, h₁₀, ?_⟩
  rintro ⟨hdue, -⟩
  have hmarked : 4 ∈ (check_members (from_secs 12) 1 with_learner
      (HashMap.collect [(4, 0), (2, from_secs 12)])).1.learners_to_remove := by
    rw [check_members_learners]
    decide
  obtain ⟨b, hb, hfrom⟩ := hdue 4 (Finset.mem_union_right _ hmarked)
  cases hfrom with
  | begin ht _ =>
    change from_secs 12 ≤ b at ht
    exact absurd (Nat.lt_of_le_of_lt ht (Nat.lt_of_le_of_lt (Nat.le_add_right _ _) hb)) (Nat.lt_irrefl _)
  | later _ _ hfollower => exact absurd hfollower.state (by decide)

open Monitored in
/-- Node 1 leads and goes on leading. After eleven seconds without contact it
    marks the learner. -/
theorem removal_due_long_leader : ∃ c, (LTS.crew (monitored 1) (detector 1 1)).Reachable c ∧
    (∃ t membership found before, c.shared.history = .checked t membership found :: before ∧
      4 ∈ found.learners_to_remove) ∧
    Throughout removal_due c.shared.history := by
  have h₀ : (LTS.crew (monitored 1) (detector 1 1)).Reachable ⟨fresh_leader, fun _ => none⟩ :=
    .init ⟨⟨rfl, rfl, rfl⟩, fun _ => rfl⟩
  have h₁ := Crew.start h₀ () () (.inl rfl) ⟨rfl, rfl⟩
  have h₂ := Crew.call h₁ () _ rfl ⟨rfl, rfl⟩
  have h₃ := Crew.env h₂ (.on_heartbeat 4) rfl
  have h₄ := Crew.env h₃ (.advance (from_secs 11)) ⟨by decide, rfl⟩
  have h₅ := Crew.call h₄ () true rfl rfl
  have h₆ := Crew.call h₅ () () rfl rfl
  have h₇ := Crew.call h₆ () _ rfl ⟨rfl, rfl⟩
  refine ⟨_, h₇, ⟨_, _, _, _, rfl, ?_⟩, ?_⟩
  · show 4 ∈ (check_members (from_secs 11) 1 with_learner (HashMap.collect [(4, 0)])).1.learners_to_remove
    rw [check_members_learners]
    decide
  · refine (removals_due_iff 1 1 _ h₇).mpr ⟨?_, trivial, trivial, trivial, trivial⟩
    -- the leadership is eleven seconds old, and older than the deadline
    intro _ _ _ _ _ _
    decide

/-! ### Shutting down -/

/-- When the node shuts itself down at `t`, it has been the leader for the length
    of the deadline, and no iteration has found a quorum possible since. -/
def ShutdownDue (before : List Event) (t : Instant) : Prop :=
  ∃ b, b + QUORUM_DEADLINE ≤ t ∧ LeaderFrom b Event.finds_quorum before

def shutdown_due : Event → List Event → Prop
  | .force_shutdown t, before => ShutdownDue before t
  | _, _ => True

theorem shutdown_due_of_outside {e : Event} {before : List Event} (he : e.outside = true) :
    shutdown_due e before := by
  cases e with
  | force_shutdown t => cases he
  | _ => trivial

/-- An event that `last_quorum_reached` goes back to. -/
def Event.notes_quorum : Event → Bool
  | .started _ => true
  | e => e.finds_quorum

theorem notes_quorum_of_outside {e : Event} (he : e.outside = true) : e.notes_quorum = false := by
  cases e with
  | started t => cases he
  | checked t membership found => cases he
  | _ => rfl

/-- When an iteration last found a quorum possible, or else the detector was
    started. -/
def last_quorum : List Event → Instant
  | [] => 0
  | e :: before => if e.notes_quorum then e.time else last_quorum before

/-- The node has stepped down since the detector last went over the members. -/
def interrupted : List Event → Bool
  | [] => false
  | .started _ :: _ => false
  | .checked .. :: _ => false
  | e :: before => e.steps_down || interrupted before

theorem last_quorum_of_outside {e : Event} {before : List Event} (he : e.outside = true) :
    last_quorum (e :: before) = last_quorum before := by
  rw [last_quorum, notes_quorum_of_outside he]
  rfl

theorem last_quorum_checked (t : Instant) (m : Membership) (found : Detection)
    (before : List Event) : last_quorum (.checked t m found :: before)
      = if found.quorum_possible then t else last_quorum before := rfl

theorem interrupted_of_outside {e : Event} {before : List Event} (he : e.outside = true) :
    interrupted (e :: before) = (e.steps_down || interrupted before) := by
  cases e with
  | started t => cases he
  | checked t membership found => cases he
  | _ => rfl

namespace Monitored

/-- Node `id` has been reached within the deadline, or has no entry yet. -/
def InContact (own_id : NodeId) (s : Monitored) (id : NodeId) : Prop :=
  id = own_id ∨ s.heartbeat_monitor.lookup id = none ∨
    ∃ t, .on_heartbeat t id ∈ s.history ∧ s.now ≤ t + HEARTBEAT_DEADLINE

/-- A majority of the voters is in contact. -/
def QuorumInContact (own_id : NodeId) (s : Monitored) : Prop :=
  ∃ ids ⊆ s.membership.voter_ids, (∀ id ∈ ids, s.InContact own_id id) ∧
    s.membership.voter_ids.card / 2 + 1 ≤ ids.card

/-- The condition on an iteration. In the first `QUORUM_DEADLINE` of a leadership
    under which no quorum was found possible yet, a majority is in contact. -/
def StartsWithQuorum (own_id : NodeId) (s : Monitored) : Prop :=
  last_quorum s.history < led_since s.history → s.now < led_since s.history + QUORUM_DEADLINE →
    s.QuorumInContact own_id

/-- The condition on the rest of an iteration. If the leadership is lost, the
    deadline is not over yet. -/
def EndsInTime (s : Monitored) : Prop :=
  interrupted s.history = true → s.now ≤ last_quorum s.history + QUORUM_DEADLINE

/-- The condition on the calls of the detector. -/
def Steady (own_id : NodeId) (_ : Unit) (s : Monitored) : DetectorOp → Prop
  | .borrow_metrics _ => s.state = .Leader → s.StartsWithQuorum own_id
  | .now _ => s.EndsInTime
  | .node (.change_membership ..) => s.EndsInTime
  | .node (.shutdown _) => s.EndsInTime
  | _ => True

variable {own_id : NodeId} {s s' : Monitored} {last : Instant}

/-! What the first condition gives: the members in contact are not overdue. -/

theorem Inv.not_overdue (h : s.Inv) {id : NodeId} (hid : s.InContact own_id id) (hne : id ≠ own_id) :
    s.heartbeat_monitor.overdue s.now id = false := by
  have hrecent : ∀ u, s.now ≤ u + HEARTBEAT_DEADLINE → ¬ s.now - u > HEARTBEAT_DEADLINE := by
    intro u hu hlate
    exact absurd (Nat.lt_sub_iff_add_lt'.mp hlate) (Nat.not_lt.mpr hu)
  refine decide_eq_false ?_
  rcases hid with hown | hnone | ⟨t, ht, hrpc⟩
  · exact absurd hown hne
  · rw [hnone, Option.getD_none]
    exact hrecent s.now (Nat.le_add_right _ _)
  · cases hu : s.heartbeat_monitor.lookup id with
    | none =>
      rw [Option.getD_none]
      exact hrecent s.now (Nat.le_add_right _ _)
    | some u =>
      -- the entry is not older than the RPC
      have hle : t ≤ u := h.seen id u hu _ ht (beq_self_eq_true id)
      rw [Option.getD_some]
      exact hrecent u (Nat.le_trans hrpc (Nat.add_le_add_right hle _))

theorem Inv.quorum_possible (h : s.Inv) (hquorum : s.QuorumInContact own_id) :
    (check_members s.now own_id s.membership s.heartbeat_monitor).1.quorum_possible = true := by
  obtain ⟨ids, hsub, hcontact, hcard⟩ := hquorum
  have hdisjoint : Disjoint ids
      (check_members s.now own_id s.membership s.heartbeat_monitor).1.voters_to_remove := by
    rw [Finset.disjoint_left]
    intro id hid hremove
    rw [check_members_voters, Finset.mem_filter] at hremove
    rw [h.not_overdue (hcontact id hid) hremove.2.1] at hremove
    cases hremove.2.2
  have hremove : (check_members s.now own_id s.membership s.heartbeat_monitor).1.voters_to_remove
      ⊆ s.membership.voter_ids := by
    rw [check_members_voters]
    exact Finset.filter_subset _ _
  have hunion := Finset.card_le_card (Finset.union_subset hsub hremove)
  rw [Finset.card_union_of_disjoint hdisjoint] at hunion
  unfold Detection.quorum_possible Detection.available_voters Detection.required_voters_for_quorum
  rw [check_members_n_voters, decide_eq_true_eq]
  omega

/-- As long as the node has not stepped down since the last look at the members, it
    is the leader, and either it was one already when a quorum was last found
    possible, or it has been one for the length of the deadline. -/
def Settled (s : Monitored) : Prop :=
  interrupted s.history = false → s.state = .Leader ∧
    (led_since s.history ≤ last_quorum s.history ∨ led_since s.history + QUORUM_DEADLINE ≤ s.now)

/-- The look at the members settles it. -/
theorem Inv.settled_check (h : s.Inv) (hl : s.state = .Leader) (hstarts : s.StartsWithQuorum own_id) :
    Settled { s with
      heartbeat_monitor := (check_members s.now own_id s.membership s.heartbeat_monitor).2
      history := .checked s.now s.membership
        (check_members s.now own_id s.membership s.heartbeat_monitor).1 :: s.history } := by
  intro _
  refine ⟨hl, ?_⟩
  show led_since s.history ≤ last_quorum (.checked ..  :: s.history) ∨
    led_since s.history + QUORUM_DEADLINE ≤ s.now
  rw [last_quorum_checked]
  split
  · exact .inl h.led_since_le_now
  · next hquorum =>
    by_cases hled : led_since s.history ≤ last_quorum s.history
    · exact .inl hled
    by_cases hlong : led_since s.history + QUORUM_DEADLINE ≤ s.now
    · exact .inr hlong
    -- otherwise the condition says that a majority is in contact
    exact absurd (h.quorum_possible (hstarts (Nat.not_le.mp hled) (Nat.not_le.mp hlong))) hquorum

/-- It stays settled, whatever happens outside of the detector. -/
theorem Settled.move (hs : s.Settled) (hinv : s.Inv) {m : MonitorMove} (hm : s.move m s') :
    s'.Settled := by
  have hkeep : ∀ e : Event, e.outside = true → e.steps_down = false → s'.history = e :: s.history →
      s.now = s'.now → s'.state = state_after (e :: s.history) → s'.Settled := by
    intro e he hstep hhist hnow hstate hint
    rw [hhist, interrupted_of_outside he, hstep, Bool.false_or] at hint
    obtain ⟨hl, hsince⟩ := hs hint
    have hleader : state_after s.history = .Leader := hinv.state.trans hl
    refine ⟨hstate.trans (state_after_cons hstep hleader), ?_⟩
    rw [hhist, led_since_cons hleader, last_quorum_of_outside he, ← hnow]
    exact hsince
  cases m with
  | advance t =>
    obtain ⟨hle, rfl⟩ := hm
    intro hint
    obtain ⟨hl, hsince⟩ := hs hint
    exact ⟨hl, hsince.imp_right fun hlong => Nat.le_trans hlong hle⟩
  | on_heartbeat id =>
    cases hm
    exact hkeep (.on_heartbeat s.now id) rfl rfl rfl rfl hinv.state.symm
  | retain ids =>
    cases hm
    exact hkeep (.retained s.now ids) rfl rfl rfl rfl hinv.state.symm
  | become state =>
    cases hm
    cases hstep : (Event.became s.now state s.heartbeat_monitor).steps_down with
    | false => exact hkeep (.became s.now state s.heartbeat_monitor) rfl hstep rfl rfl rfl
    | true =>
      intro hint
      rw [interrupted_of_outside rfl, hstep] at hint
      cases hint
  | observe membership =>
    cases hm
    exact hs

/-- What the detector relies on: time passes, only the detector itself notes that a
    quorum is possible, and what is settled stays so. -/
structure Later (s s' : Monitored) : Prop where
  now : s.now ≤ s'.now
  notes : ∀ e ∈ s'.history, e.notes_quorum = true → e ∈ s.history
  settled : s.Settled → s'.Settled

theorem Later.refl (s : Monitored) : Later s s := ⟨Nat.le_refl _, fun _ he _ => he, id⟩

theorem Later.trans {a b c : Monitored} (h : Later a b) (h' : Later b c) : Later a c where
  now := Nat.le_trans h.now h'.now
  notes := fun e he hn => h.notes e (h'.notes e he hn) hn
  settled := fun hs => h'.settled (h.settled hs)

/-- `last` is not before the last time a quorum was found possible. -/
def Noted (last : Instant) (s : Monitored) : Prop :=
  ∀ e ∈ s.history, e.notes_quorum = true → e.time ≤ last

theorem Noted.later (h : Noted last s) (hl : Later s s') : Noted last s' :=
  fun e he hn => h e (hl.notes e he hn) hn

theorem Inv.noted_now (h : s.Inv) : Noted s.now s := fun e he _ => h.past e he

theorem Noted.last_quorum_le (h : Noted last s) : last_quorum s.history ≤ last := by
  unfold Noted at h
  generalize s.history = history at h
  induction history with
  | nil => exact Nat.zero_le _
  | cons e before ih =>
    unfold last_quorum
    split
    · next hn => exact h e List.mem_cons_self hn
    · exact ih fun e' he' => h e' (List.mem_cons_of_mem _ he')

theorem Inv.shutdown_due (h : s.Inv) (hn : Noted last s) (hlate : last + QUORUM_DEADLINE < s.now)
    (hsettled : s.Settled) (hends : s.EndsInTime) : ShutdownDue s.history s.now := by
  -- the deadline is over, so the leadership was not lost in the middle of the iteration
  have hsteady : interrupted s.history = false := by
    cases hint : interrupted s.history with
    | false => rfl
    | true =>
      have hearly : s.now ≤ last + QUORUM_DEADLINE :=
        Nat.le_trans (hends hint) (Nat.add_le_add_right hn.last_quorum_le _)
      exact absurd hlate (Nat.not_lt.mpr hearly)
  obtain ⟨hl, hsince⟩ := hsettled hsteady
  -- whatever is not after `last` is before the period of the deadline
  have hbefore : ∀ t, t ≤ last → t ≤ s.now - QUORUM_DEADLINE := fun t ht =>
    Nat.le_sub_of_add_le (Nat.le_trans (Nat.add_le_add_right ht _) (Nat.le_of_lt hlate))
  have hlong : QUORUM_DEADLINE ≤ s.now := Nat.le_trans (Nat.le_add_left _ _) (Nat.le_of_lt hlate)
  have hled : led_since s.history ≤ s.now - QUORUM_DEADLINE := by
    rcases hsince with hsince | hsince
    · exact hbefore _ (Nat.le_trans hsince hn.last_quorum_le)
    · exact Nat.le_sub_of_add_le hsince
  refine ⟨s.now - QUORUM_DEADLINE, Nat.le_of_eq (Nat.sub_add_cancel hlong), ?_⟩
  refine ((h.leader hl).mono hled).avoid ?_
  intro e he hq
  refine hbefore _ (hn e he ?_)
  cases e with
  | checked t membership found => exact hq
  | _ => cases hq

end Monitored

open Monitored in
/-- The detector in a run that meets the conditions. -/
def quorum_watch (own_id : NodeId) :
    Discipline ((monitored own_id).restrict (fun _ _ => True) (Steady own_id)) where
  inv := fun s => s.Inv ∧ Throughout shutdown_due s.history
  rel := fun _ => Later
  can := fun _ _ _ => True
  idle := fun _ _ => True
  refl := fun _ => Later.refl
  trans := Later.trans
  idle_stable := fun _ _ => trivial
  init_ok := by
    intro s hinit
    refine ⟨⟨.init hinit, ?_⟩, fun _ => trivial⟩
    rw [hinit.2.2]
    exact ⟨trivial, trivial⟩
  env_ok := by
    intro s m s' h hm
    obtain ⟨_, hm⟩ := hm
    have hinv := h.1.move hm
    have hsettled : s.Settled → s'.Settled := fun hs => hs.move h.1 hm
    obtain ⟨hle, hsame | ⟨e, he, hnew⟩⟩ := move_history hm
    · refine ⟨⟨hinv, ?_⟩, fun _ => ⟨hle, ?_, hsettled⟩⟩
      · rw [hsame]
        exact h.2
      · rw [hsame]
        exact fun _ he _ => he
    · refine ⟨⟨hinv, ?_⟩, fun _ => ⟨hle, ?_, hsettled⟩⟩
      · rw [hnew]
        exact ⟨shutdown_due_of_outside he, h.2⟩
      · -- what happens outside of the detector is no note of a quorum
        intro e' he' hn
        rw [hnew] at he'
        rcases List.mem_cons.mp he' with rfl | he'
        · rw [notes_quorum_of_outside he] at hn
          cases hn
        · exact he'

section watch
open Monitored

variable {own_id i : NodeId} {s : Monitored} {last : Instant}

/-- A call that changes nothing. -/
theorem wp_silent {α : Type} {Q : α → Monitored → Prop} {o : DetectorOp}
    {k : o.Resp → DetectorProg α}
    (hsilent : ∀ (s : Monitored) (r : o.Resp) (s' : Monitored), s.call own_id o r s' → s' = s)
    (h : ∀ s', (quorum_watch own_id).inv s' → Later s s' →
      ∀ r, s'.call own_id o r s' → (quorum_watch own_id).wp () Q (k r) s') :
    (quorum_watch own_id).wp () Q (.call o k) s := by
  refine Discipline.wp_silent (fun _ _ _ => trivial) (fun s r s' hc => hsilent s r s' hc.2) ?_
  intro s' hi hr r hc
  exact h s' hi hr r hc.2

/-- A removal takes time, and that is all. -/
theorem wp_try_remove {Q : Unit → Monitored → Prop} {ids : Finset NodeId} {members : ChangeMembers}
    (h : ∀ s', (quorum_watch own_id).inv s' → Later s s' → Q () s') :
    (quorum_watch own_id).wp () Q (try_remove i ids members) s := by
  unfold try_remove
  split
  · refine wp_silent (fun s r s' hc => hc) ?_
    intro s' _ hr _ _ s'' hi hr'
    exact h s'' hi (hr.trans hr')
  · exact h

theorem wp_remove_unreachable {Q : Unit → Monitored → Prop} {found : Detection}
    (hi : (quorum_watch own_id).inv s)
    (h : ∀ s', (quorum_watch own_id).inv s' → Later s s' → Q () s') :
    (quorum_watch own_id).wp () Q (remove_unreachable i found) s := by
  refine Discipline.wp_bind hi (wp_try_remove ?_)
  intro s₁ _ hr₁
  refine wp_try_remove ?_
  intro s₂ hi₂ hr₂
  exact h s₂ hi₂ (hr₁.trans hr₂)

/-- What is returned as `last_quorum_reached` after an iteration is not before
    the last time a quorum was found possible. -/
theorem wp_quorum_reached {found : Detection} (hsettled : s.Settled)
    (hlast : found.quorum_possible = false → Noted last s) :
    (quorum_watch own_id).wp () (fun last s' => Noted last s' ∧ s'.Settled)
      (quorum_reached i found last) s := by
  unfold quorum_reached
  split
  · refine wp_silent (fun s r s' hc => hc.2) ?_
    intro s' hi' hr' now hnow
    have hnow : now = s'.now := hnow.1
    show (quorum_watch own_id).wp () _ (remove_unreachable i found >>= fun _ => .pure now) s'
    refine Discipline.wp_bind hi' (wp_remove_unreachable hi' ?_)
    intro s₁ _ hr₁ s₂ _ hr₂
    rw [hnow]
    exact ⟨hi'.1.noted_now.later (hr₁.trans hr₂), (hr'.trans (hr₁.trans hr₂)).settled hsettled⟩
  · next hnot =>
    intro s' _ hr
    exact ⟨(hlast (by simpa using hnot)).later hr, hr.settled hsettled⟩

/-- Stopping, after the deadline. -/
theorem wp_force_shutdown (hn : Noted last s) (hlate : last + QUORUM_DEADLINE < s.now)
    (hsettled : s.Settled) :
    (quorum_watch own_id).wp () (fun _ _ => True) (DetectorProg.lift (force_shutdown i).run) s := by
  intro s' hi hr
  refine ⟨trivial, ?_⟩
  intro r s'' hc
  have hends : s'.EndsInTime := hc.1
  have hcall : s'.call own_id (.node (.shutdown i)) r s'' := hc.2
  have hinv := hi.1.call hcall
  have heq : s'' = { s' with history := .force_shutdown s'.now :: s'.history } := hcall
  subst heq
  have hdue : ShutdownDue s'.history s'.now :=
    hi.1.shutdown_due (hn.later hr) (Nat.lt_of_lt_of_le hlate hr.now) (hr.settled hsettled) hends
  refine ⟨⟨hinv, hdue, hi.2⟩, fun j hj => absurd rfl hj, ?_⟩
  cases r with
  | error e =>
    intro _ _ _
    trivial
  | ok _ =>
    refine wp_silent (fun s r s' hc => hc) ?_
    intro _ _ _ r _
    cases r with
    | error e =>
      intro _ _ _
      trivial
    | ok _ =>
      intro _ _ _
      trivial

theorem wp_loop (fuel : Nat) (hi : (quorum_watch own_id).inv s) (hn : Noted last s) :
    (quorum_watch own_id).wp () (fun _ _ => True) (detect_failures_loop i fuel last).run s := by
  induction fuel generalizing last s with
  | zero =>
    intro s' _ _
    exact ⟨trivial, fun r => nomatch r⟩
  | succ fuel ih =>
    rw [detect_failures_loop]
    refine Discipline.wp_run_lift_bind hi (wp_silent (fun s r s' hc => hc) ?_)
    intro s₁ _ hr₁ changed _ s₂ hi₂ hr₂
    cases changed with
    | false =>
      intro _ _ _
      trivial
    | true =>
      rw [if_pos rfl]
      refine Discipline.wp_run_lift_bind hi₂ (wp_silent (fun s r s' hc => hc) ?_)
      intro s₃ _ hr₃ _ _ s₄ hi₄ hr₄
      have hn₄ : Noted last s₄ := hn.later (((hr₁.trans hr₂).trans hr₃).trans hr₄)
      refine Discipline.wp_run_lift_bind hi₄ ?_
      intro s₅ hi₅ hr₅
      refine ⟨trivial, ?_⟩
      intro found s₆ hc
      have hstarts : s₅.state = .Leader → s₅.StartsWithQuorum own_id := hc.1
      have hcall : s₅.call own_id (.borrow_metrics i) found s₆ := hc.2
      have hinv₆ : s₆.Inv := hi₅.1.call hcall
      have hcheck : s₅.check own_id found s₆ := hcall
      unfold check at hcheck
      split at hcheck
      · next hl =>
        have hsettled₆ := hi₅.1.settled_check hl (hstarts hl)
        obtain ⟨rfl, rfl⟩ := hcheck
        refine ⟨⟨hinv₆, trivial, hi₅.2⟩, fun j hj => absurd rfl hj, ?_⟩
        intro s₇ hi₇ hr₇
        refine Discipline.wp_run_lift_bind hi₇
          (Discipline.wp_mono ?_ (wp_quorum_reached (hr₇.settled hsettled₆) ?_))
        · intro last' s₈ hi₈ hq₈
          obtain ⟨hn₈, hsettled₈⟩ := hq₈
          refine Discipline.wp_run_lift_bind hi₈ (wp_silent (fun s r s' hc => hc.2) ?_)
          intro s₉ _ hr₉ now hnow s₁₀ hi₁₀ hr₁₀
          have hn₁₀ : Noted last' s₁₀ := hn₈.later (hr₉.trans hr₁₀)
          split
          · next hlate =>
            refine wp_force_shutdown hn₁₀ ?_ ((hr₉.trans hr₁₀).settled hsettled₈)
            rw [show now = s₉.now from hnow.1] at hlate
            exact Nat.lt_of_lt_of_le (Nat.add_lt_of_lt_sub' hlate) hr₁₀.now
          · exact ih hi₁₀ hn₁₀
        · -- an iteration without a quorum leaves no note
          intro hnot
          refine Noted.later ?_ hr₇
          intro e he hnote
          rcases List.mem_cons.mp he with rfl | he
          · exact absurd hnote (by simpa [Event.notes_quorum, Event.finds_quorum] using hnot)
          · exact hn₄.later hr₅ e he hnote
      · obtain ⟨rfl, rfl⟩ := hcheck
        refine ⟨hi₅, fun j hj => absurd rfl hj, ?_⟩
        intro s₇ hi₇ hr₇
        exact ih hi₇ (hn₄.later (hr₅.trans hr₇))

end watch

open Monitored in
/-- **No premature shutdown**, in every run in which a majority of the voters is in
    contact when a new leader goes over the members, until it has found a quorum
    possible or has led for the length of the deadline, and in which an iteration
    during which the leadership is lost ends before the deadline is over. -/
theorem no_premature_shutdown (fuel : Nat) (own_id : NodeId)
    (c : Crew Unit Monitored DetectorOp DetectorOp.Resp (Except ProcessExit Unit))
    (hc : (LTS.crew ((monitored own_id).restrict (fun _ _ => True) (Steady own_id))
      (detector fuel own_id)).Reachable c) :
    Throughout shutdown_due c.shared.history := by
  refine (Discipline.crew_sound (quorum_watch own_id) (fun _ _ _ => True) ?_ ?_ hc).inv.2
  · intro _ _ _ _ _
    trivial
  · intro _ _ s s' hi _ hs
    have hinv := hi.1.start hs
    obtain ⟨_, rfl⟩ := hs
    have hi' : (quorum_watch own_id).inv
        { s with started := true, history := .started s.now :: s.history } := ⟨hinv, trivial, hi.2⟩
    refine ⟨hi', fun j hj => absurd rfl hj, ?_⟩
    refine Discipline.wp_run_lift_bind hi' (wp_silent (fun s r s' hc => hc.2) ?_)
    intro s₁ hi₁ _ now hnow s₂ hi₂ hr₂
    rw [show now = s₁.now from hnow.1]
    exact wp_loop fuel hi₂ (hi₁.1.noted_now.later hr₂)

/-- What a look at the members finds, field by field. -/
theorem check_members_eq {t : Instant} {own_id : NodeId} {m : Membership}
    {monitor : HeartbeatMonitor} {found : Detection} (hn : m.voter_ids.card = found.n_voters)
    (hv : (m.voter_ids.filter fun id => id ≠ own_id ∧ monitor.overdue t id = true)
      = found.voters_to_remove)
    (hl : (m.learner_ids.filter fun id => id ≠ own_id ∧ monitor.overdue t id = true)
      = found.learners_to_remove) : (check_members t own_id m monitor).1 = found := by
  rw [← check_members_voters] at hv
  rw [← check_members_learners] at hl
  rw [← check_members_n_voters] at hn
  generalize (check_members t own_id m monitor).1 = found' at hn hv hl ⊢
  obtain ⟨n, v, l⟩ := found
  obtain ⟨n', v', l'⟩ := found'
  simp only at hn hv hl
  rw [hn, hv, hl]

/-- The learner has not been reached for eleven seconds, the other voters have. -/
theorem check_silent_learner : (check_members (from_secs 11) 1 with_learner
    (HashMap.collect [(4, 0), (2, from_secs 11), (3, from_secs 11)])).1 = ⟨3, ∅, {4}⟩ :=
  check_members_eq (by decide) (by decide) (by decide)

/-- An iteration at `t` finds a quorum possible and proposes to remove the learner.
    The node is cut off, and Raft answers only at `u`, when the node has heard of a
    new leader. -/
theorem shutdown_when_blocked {t u : Instant}
    (hfound : (check_members t 1 with_learner (HashMap.collect [(4, 0), (2, t), (3, t)])).1
      = ⟨3, ∅, {4}⟩) (hle : t ≤ u) (hlate : u - t > QUORUM_DEADLINE) :
    ∃ c, (LTS.crew (monitored 1) (detector 1 1)).Reachable c ∧
      ¬ Throughout shutdown_due c.shared.history := by
  have h₀ : (LTS.crew (monitored 1) (detector 1 1)).Reachable ⟨fresh_leader, fun _ => none⟩ :=
    .init ⟨⟨rfl, rfl, rfl⟩, fun _ => rfl⟩
  have h₁ := Crew.start h₀ () () (.inl rfl) ⟨rfl, rfl⟩
  have h₂ := Crew.call h₁ () _ rfl ⟨rfl, rfl⟩
  have h₃ := Crew.env h₂ (.on_heartbeat 4) rfl
  have h₄ := Crew.env h₃ (.advance t) ⟨Nat.zero_le t, rfl⟩
  have h₅ := Crew.env h₄ (.on_heartbeat 2) rfl
  have h₆ := Crew.env h₅ (.on_heartbeat 3) rfl
  have h₇ := Crew.call h₆ () true rfl rfl
  have h₈ := Crew.call h₇ () () rfl rfl
  have h₉ := Crew.call h₈ () (some ⟨3, ∅, {4}⟩) rfl ⟨congrArg some hfound.symm, rfl⟩
  have h₁₀ := Crew.call h₉ () _ rfl ⟨rfl, rfl⟩
  have h₁₁ := Crew.env h₁₀ (.advance u) ⟨hle, rfl⟩
  have h₁₂ := Crew.env h₁₁ (.become .Follower) rfl
  have h₁₃ := Crew.call h₁₂ ()
    (Except.error (.APIError (.ForwardToLeader ⟨none, none⟩)) :
      Except (RaftError ClientWriteError) ClientWriteResponse) rfl rfl
  have h₁₄ := Crew.call h₁₃ () _ rfl ⟨rfl, rfl⟩
  have h₁₅ := Crew.call h₁₄ () (Except.ok () : Except String Unit)
    ((congrArg some (if_pos hlate)).trans rfl) rfl
  refine ⟨_, h₁₅, ?_⟩
  rintro ⟨⟨b, _, hfrom⟩, -⟩
  exact absurd (show ServerState.Follower = .Leader from hfrom.state) (by decide)

/-- After 21 seconds the iteration ends in a shutdown, though the node does not lead. -/
theorem shutdown_after_lost_leadership :
    ∃ c, (LTS.crew (monitored 1) (detector 1 1)).Reachable c ∧
      ¬ Throughout shutdown_due c.shared.history :=
  shutdown_when_blocked (t := from_secs 11) (u := from_secs 32) check_silent_learner
    (by decide) (by decide)

/-- Node 1 with two other voters. -/
def leader_of_three : Monitored :=
  { fresh_leader with membership := ⟨[{1, 2, 3}], HashMap.collect
      [(1, .on_port 35001), (2, .on_port 35002), (3, .on_port 35003)]⟩ }

/-- The other two voters have not been reached for 25 seconds. -/
theorem check_lonely : (check_members (from_secs 25) 1 leader_of_three.membership
    (HashMap.collect [(2, 0), (3, 0)])).1 = ⟨3, {2, 3}, ∅⟩ :=
  check_members_eq (by decide) (by decide) (by decide)

open Monitored in
/-- A leader that stays the leader shuts down when it is due. -/
theorem shutdown_due_long_leader : ∃ c,
    (LTS.crew ((monitored 1).restrict (fun _ _ => True) (Steady 1)) (detector 1 1)).Reachable c ∧
      (∃ t before, c.shared.history = .force_shutdown t :: before) ∧
      Throughout shutdown_due c.shared.history := by
  have h₀ : (LTS.crew ((monitored 1).restrict (fun _ _ => True) (Steady 1))
      (detector 1 1)).Reachable ⟨leader_of_three, fun _ => none⟩ :=
    .init ⟨⟨rfl, rfl, rfl⟩, fun _ => rfl⟩
  have h₁ := Crew.start h₀ () () (.inl rfl) ⟨rfl, rfl⟩
  have h₂ := Crew.call h₁ () _ rfl ⟨nofun, rfl, rfl⟩
  have h₃ := Crew.env h₂ (.on_heartbeat 2) ⟨trivial, rfl⟩
  have h₄ := Crew.env h₃ (.on_heartbeat 3) ⟨trivial, rfl⟩
  have h₅ := Crew.env h₄ (.advance (from_secs 25)) ⟨trivial, by decide, rfl⟩
  have h₆ := Crew.call h₅ () true rfl ⟨trivial, rfl⟩
  have h₇ := Crew.call h₆ () () rfl ⟨trivial, rfl⟩
  -- the node was the leader already when the detector was started
  have hstarts : ∀ s : Monitored, led_since s.history = 0 → StartsWithQuorum 1 s := by
    intro s hled hlast _
    rw [hled] at hlast
    exact absurd hlast (Nat.not_lt_zero _)
  have h₈ := Crew.call h₇ () (some ⟨3, {2, 3}, ∅⟩) rfl
    ⟨fun _ => hstarts _ rfl, congrArg some check_lonely.symm, rfl⟩
  have h₉ := Crew.call h₈ () _ rfl ⟨nofun, rfl, rfl⟩
  have h₁₀ := Crew.call h₉ () (Except.ok () : Except String Unit) rfl ⟨nofun, rfl⟩
  exact ⟨_, h₁₀, ⟨_, _, rfl⟩, no_premature_shutdown 1 1 _ h₁₀⟩

end Distruct

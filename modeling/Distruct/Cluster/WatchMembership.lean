import Distruct.Framework.Workers
import Distruct.Raft.Heartbeat
import Distruct.Raft.Membership

/-! # Watching the Membership

    `watch_membership_changes` of `cluster.rs`: the task that logs every change of
    the membership and cleans up the heartbeat monitor after it.

    The task reads the metrics several times in a round, and they may change in
    between. It waits on a channel that remembers no more than that there was a
    newer value than the one it has seen. That is enough: whenever it waits and
    nothing newer is there, it has handled the membership that is in effect.
-/

namespace Distruct

open LTS (Site Crew Discipline)

/-! ### The message -/

/-- How ids and addresses are displayed. -/
structure Display where
  id : NodeId → String
  addr : SocketAddr → String

section message
variable (d : Display) (m : Membership)

/-- The lines of some members, with a comma after all but the last one. Without a node for
    an id there are none. -/
def member_lines (mark : NodeId → Bool) : List NodeId → Option String
  | [] => some ""
  | id :: rest => do
    let n ← m.get_node id
    let lines ← member_lines mark rest
    return "\n    " ++ d.id id ++ " " ++ d.addr n.addr ++ (if mark id then " [LEADER]" else "") ++
      (if rest.isEmpty then "" else ",") ++ lines

def member_list (mark : NodeId → Bool) (ids : List NodeId) : Option String :=
  if ids.isEmpty then some "]\n" else (member_lines d m mark ids).map (· ++ "\n]")

/-- The message about a membership, or nothing if an `unwrap` fails. -/
def membership_message (leader_id : Option NodeId) : Option String := do
  let voters ← member_list d m (fun id => some id = leader_id) (BTreeMap.ascending m.voter_ids)
  let learners ← member_list d m (fun _ => false) (BTreeMap.ascending m.learner_ids)
  return "Membership changed:\nvoters=[" ++ voters ++ ", learners=[" ++ learners

/-- The nodes that stay in the heartbeat monitor. -/
def all_nodes : Finset NodeId := m.voter_ids ∪ m.learner_ids

variable {d m}

theorem member_lines_isSome (mark : NodeId → Bool) {ids : List NodeId}
    (h : ∀ id ∈ ids, id ∈ m.nodes) : ∃ lines, member_lines d m mark ids = some lines := by
  induction ids with
  | nil => exact ⟨"", rfl⟩
  | cons id rest ih =>
    obtain ⟨n, hn⟩ := Finmap.mem_iff.mp (h id List.mem_cons_self)
    obtain ⟨lines, hlines⟩ := ih fun id' hid' => h id' (List.mem_cons_of_mem _ hid')
    have hnode : m.get_node id = some n := hn
    unfold member_lines
    rw [hnode, hlines]
    exact ⟨_, rfl⟩

theorem member_list_isSome (mark : NodeId → Bool) (ids : List NodeId)
    (h : ∀ id ∈ ids, id ∈ m.nodes) : ∃ list, member_list d m mark ids = some list := by
  unfold member_list
  split
  · exact ⟨_, rfl⟩
  · obtain ⟨lines, hlines⟩ := member_lines_isSome (d := d) mark h
    rw [hlines]
    exact ⟨_, rfl⟩

/-- If every voter has an entry in the address book, no `unwrap` fails. -/
theorem membership_message_isSome (h : m.Valid) (leader_id : Option NodeId) :
    ∃ msg, membership_message d m leader_id = some msg := by
  obtain ⟨voters, hvoters⟩ := member_list_isSome (d := d) (fun id => some id = leader_id)
    (BTreeMap.ascending m.voter_ids) fun id hid => h.addressed id (by simpa using hid)
  obtain ⟨learners, hlearners⟩ := member_list_isSome (d := d) (fun _ => false)
    (BTreeMap.ascending m.learner_ids) fun id hid => by
      have hmem : id ∈ m.learner_ids := by simpa using hid
      exact Finmap.mem_keys.mp (Finset.mem_sdiff.mp hmem).1
  unfold membership_message
  rw [hvoters, hlearners]
  exact ⟨_, rfl⟩

end message

/-! ### The task -/

/-- What the task asks for and does. -/
inductive WatchOp where
  /-- `metrics_rx.changed().await.is_ok()` -/
  | changed
  /-- `metrics_rx.borrow().membership_config` -/
  | membership_config
  /-- `metrics_rx.borrow().current_leader` -/
  | current_leader
  | info (msg : String)
  /-- `heartbeat_monitor.retain(..)` -/
  | retain (all_nodes : Finset NodeId)
  | unwrap_none
  | out_of_fuel

@[reducible] def WatchOp.Resp : WatchOp → Type
  | .changed => Bool
  | .membership_config => StoredMembership
  | .current_leader => Option NodeId
  | .info _ => Unit
  | .retain _ => Unit
  | .unwrap_none => Empty
  | .out_of_fuel => Empty

abbrev WatchProg := Prog WatchOp WatchOp.Resp

namespace WatchProg

def await (o : WatchOp) : WatchProg o.Resp := Prog.perform o

end WatchProg

open WatchProg (await)

/-- Logs a message, unless it is the last one again. The result is the new `last_msg`. -/
def log_message (msg last_msg : String) : WatchProg String :=
  if msg ≠ last_msg then do
    await (.info msg)
    return msg
  else return last_msg

/-- The loop of `watch_membership_changes`; `fuel` bounds the iterations that are followed. -/
def watch_membership_changes_loop (d : Display) : Nat → StoredMembership → String → WatchProg Unit
  | 0, _, _ => do
    let never ← (await .out_of_fuel : WatchProg Empty)
    nomatch never
  | fuel + 1, last_membership, last_msg => do
    if ← (await .changed : WatchProg Bool) then
      let current ← (await .membership_config : WatchProg StoredMembership)
      if current = last_membership then
        watch_membership_changes_loop d fuel last_membership last_msg
      else
        let leader_id ← (await .current_leader : WatchProg (Option NodeId))
        match membership_message d current.membership leader_id with
        | none => do
          let never ← (await .unwrap_none : WatchProg Empty)
          nomatch never
        | some msg =>
          let last_msg ← log_message msg last_msg
          await (.retain (all_nodes current.membership))
          watch_membership_changes_loop d fuel current last_msg
    else return ()

def watch_membership_changes (d : Display) (fuel : Nat) : WatchProg Unit := do
  let last_membership ← (await .membership_config : WatchProg StoredMembership)
  watch_membership_changes_loop d fuel last_membership ""

/-! ### The node -/

structure Watched where
  membership_config : StoredMembership
  current_leader : Option NodeId
  /-- The number of the value that the metrics show. -/
  version : Nat
  /-- The number of the value that the task was last told of. -/
  seen : Nat
  /-- Whether Raft is running. -/
  running : Bool
  heartbeat_monitor : HeartbeatMonitor
  /-- The nodes that have got an entry since the monitor was last cleaned up. -/
  entered : Finset NodeId
  /-- The messages that were logged, the latest one first. -/
  infos : List String
  /-- Whether the task has been started. -/
  started : Bool

inductive WatchMove where
  | observe (membership_config : StoredMembership) (current_leader : Option NodeId)
  /-- `perform_raft_action` had a response from node `id`. -/
  | on_heartbeat (now : Instant) (id : NodeId)
  /-- `detect_failures` asks for node `id`. -/
  | last_seen (now : Instant) (id : NodeId)
  | shutdown

namespace Watched

def init (s : Watched) : Prop :=
  s.membership_config.membership.Valid ∧ s.seen ≤ s.version ∧ s.heartbeat_monitor = ∅ ∧
    s.infos = [] ∧ s.started = false

/-- While Raft runs, the metrics may show any membership that Raft accepts. -/
def move (s : Watched) : WatchMove → Watched → Prop
  | .observe membership_config current_leader, s' =>
      s.running = true ∧ membership_config.membership.Valid ∧
        s' = { s with
          membership_config := membership_config
          current_leader := current_leader
          version := s.version + 1 }
  | .on_heartbeat now id, s' =>
      s' = { s with
        heartbeat_monitor := s.heartbeat_monitor.on_heartbeat now id
        entered := insert id s.entered }
  | .last_seen now id, s' =>
      s' = { s with
        heartbeat_monitor := (s.heartbeat_monitor.last_seen now id).2
        entered := insert id s.entered }
  | .shutdown, s' => s' = { s with running := false }

/-- The task is started once. -/
def start (s s' : Watched) : Prop := s.started = false ∧ s' = { s with started := true }

def call (s : Watched) : (o : WatchOp) → o.Resp → Watched → Prop
  -- a newer value comes first, and then that there will be none
  | .changed, true, s' => s.seen < s.version ∧ s' = { s with seen := s.version }
  | .changed, false, s' => s.seen = s.version ∧ s.running = false ∧ s' = s
  | .membership_config, r, s' => r = s.membership_config ∧ s' = s
  | .current_leader, r, s' => r = s.current_leader ∧ s' = s
  | .info msg, _, s' => s' = { s with infos := msg :: s.infos }
  | .retain ids, _, s' =>
      s' = { s with
        heartbeat_monitor := s.heartbeat_monitor.retain (decide <| · ∈ ids)
        entered := ∅ }

end Watched

def watched : Site Unit Watched WatchMove WatchOp Unit WatchOp.Resp where
  init := Watched.init
  env := Watched.move
  start := fun _ s _ s' => s.start s'
  call := fun _ s o r s' => s.call o r s'

/-! ### What the task relies on -/

namespace Watched

variable {s s' : Watched}

structure Inv (s : Watched) : Prop where
  valid : s.membership_config.membership.Valid
  seen_le : s.seen ≤ s.version
  infos : s.infos.IsChain (· ≠ ·)

/-- What may happen between two calls of the task. -/
structure Onward (s s' : Watched) : Prop where
  started : s'.started = s.started
  seen : s'.seen = s.seen
  version : s.version ≤ s'.version
  unchanged : s'.version = s.version → s'.membership_config = s.membership_config
  infos : s'.infos = s.infos
  entered : s.entered ⊆ s'.entered
  monitor : ∀ id ∈ s'.heartbeat_monitor, id ∈ s'.entered ∨ id ∈ s.heartbeat_monitor
  stopped : s.running = false → s'.running = false

theorem Onward.refl (s : Watched) : Onward s s where
  started := rfl
  seen := rfl
  version := Nat.le_refl _
  unchanged := fun _ => rfl
  infos := rfl
  entered := Finset.Subset.refl _
  monitor := fun _ h => .inr h
  stopped := fun h => h

theorem Onward.trans {s₁ s₂ s₃ : Watched} (h : Onward s₁ s₂) (h' : Onward s₂ s₃) : Onward s₁ s₃ where
  started := h'.started.trans h.started
  seen := h'.seen.trans h.seen
  version := h.version.trans h'.version
  unchanged := by
    intro heq
    have hle := h.version
    have hle' := h'.version
    have heq' : s₃.version = s₂.version := by omega
    rw [h'.unchanged heq']
    exact h.unchanged (by omega)
  infos := h'.infos.trans h.infos
  entered := h.entered.trans h'.entered
  monitor := by
    intro id hid
    rcases h'.monitor id hid with hid | hid
    · exact .inl hid
    · rcases h.monitor id hid with hid | hid
      · exact .inl (h'.entered hid)
      · exact .inr hid
  stopped := fun hs => h'.stopped (h.stopped hs)

/-- An entry for one more node. -/
theorem Onward.enter {monitor : HeartbeatMonitor} {id : NodeId}
    (h : ∀ id' ∈ monitor, id' = id ∨ id' ∈ s.heartbeat_monitor) :
    Onward s { s with heartbeat_monitor := monitor, entered := insert id s.entered } where
  started := rfl
  seen := rfl
  version := Nat.le_refl _
  unchanged := fun _ => rfl
  infos := rfl
  entered := Finset.subset_insert _ _
  monitor := by
    intro id' hid'
    rcases h id' hid' with rfl | hold
    · exact .inl (Finset.mem_insert_self _ _)
    · exact .inr hold
  stopped := fun h => h

theorem Onward.move (hi : s.Inv) {m : WatchMove} (hm : s.move m s') : s'.Inv ∧ Onward s s' := by
  cases m with
  | observe membership_config current_leader =>
    obtain ⟨hrun, hvalid, rfl⟩ := hm
    refine ⟨⟨hvalid, Nat.le_succ_of_le hi.seen_le, hi.infos⟩,
      ⟨rfl, rfl, Nat.le_succ _, fun h => ?_, rfl, Finset.Subset.refl _, fun _ h => .inr h, fun h => h⟩⟩
    exact absurd h (Nat.succ_ne_self _)
  | on_heartbeat now id =>
    cases hm
    refine ⟨⟨hi.valid, hi.seen_le, hi.infos⟩, .enter fun id' hid' => ?_⟩
    show id' = id ∨ _
    exact Finmap.mem_insert.mp hid'
  | last_seen now id =>
    cases hm
    refine ⟨⟨hi.valid, hi.seen_le, hi.infos⟩, .enter fun id' hid' => ?_⟩
    obtain ⟨t, ht⟩ := Finmap.mem_iff.mp hid'
    rw [HeartbeatMonitor.lookup_last_seen] at ht
    split at ht
    · next heq => exact .inl heq
    · exact .inr (Finmap.mem_of_lookup_eq_some ht)
  | shutdown =>
    cases hm
    exact ⟨⟨hi.valid, hi.seen_le, hi.infos⟩,
      ⟨rfl, rfl, Nat.le_refl _, fun _ => rfl, rfl, Finset.Subset.refl _, fun _ h => .inr h, fun _ => rfl⟩⟩

/-- The nodes in the monitor are members of what the metrics show, or have got their entry
    since it was last cleaned up. -/
def Clean (s : Watched) : Prop :=
  ∀ id ∈ s.heartbeat_monitor,
    id ∈ all_nodes s.membership_config.membership ∨ id ∈ s.entered

/-- What is known in a round. The metrics show `current`, as far as the task was told, and the
    membership `last` was the last one that the monitor was cleaned up for. -/
structure Following (current last : StoredMembership) (last_msg : String) (s : Watched) : Prop where
  started : s.started = true
  seen_le : s.seen ≤ s.version
  current : s.seen = s.version → s.membership_config = current
  monitor : ∀ id ∈ s.heartbeat_monitor, id ∈ all_nodes last.membership ∨ id ∈ s.entered
  message : s.infos.head?.getD "" = last_msg

variable {current last : StoredMembership} {last_msg : String}

theorem Following.onward (h : Following current last last_msg s) (hr : Onward s s') :
    Following current last last_msg s' where
  started := hr.started.trans h.started
  seen_le := by
    rw [hr.seen]
    exact h.seen_le.trans hr.version
  current := by
    intro hseen
    have hle := h.seen_le
    have hle' := hr.version
    have heq := hr.seen
    rw [hr.unchanged (by omega)]
    exact h.current (by omega)
  monitor := by
    intro id hid
    rcases hr.monitor id hid with hid | hid
    · exact .inr hid
    · rcases h.monitor id hid with hid | hid
      · exact .inl hid
      · exact .inr (hr.entered hid)
  message := by
    rw [hr.infos]
    exact h.message

/-- The task has looked at the metrics. -/
theorem Following.look (h : Following current last last_msg s) :
    Following s.membership_config last last_msg s :=
  ⟨h.started, h.seen_le, fun _ => rfl, h.monitor, h.message⟩

theorem Following.clean (h : Following last last last_msg s) (hseen : s.seen = s.version) : s.Clean := by
  intro id hid
  rw [h.current hseen]
  exact h.monitor id hid

end Watched

open Watched (Onward Following)

/-- The calls that the task may make, and when. -/
def watching : Discipline watched where
  inv := Watched.Inv
  rel := fun _ => Onward
  can := fun _ s o =>
    match o with
    | .changed => s.seen = s.version → s.Clean
    | .info msg => s.infos.head? ≠ some msg
    | .unwrap_none => False
    | _ => True
  idle := fun _ s => s.started = false →
    s.infos = [] ∧ ∀ id ∈ s.heartbeat_monitor, id ∈ s.entered
  refl := fun _ s => .refl s
  trans := fun h h' => h.trans h'
  idle_stable := by
    intro _ s s' hr hidle hstarted
    obtain ⟨hinfos, hmonitor⟩ := hidle (hr.started ▸ hstarted)
    refine ⟨hr.infos.trans hinfos, fun id hid => ?_⟩
    rcases hr.monitor id hid with hid | hid
    · exact hid
    · exact hr.entered (hmonitor id hid)
  init_ok := by
    intro s h
    obtain ⟨hvalid, hseen, hmonitor, hinfos, _⟩ := h
    refine ⟨⟨hvalid, hseen, hinfos ▸ .nil⟩, fun _ _ => ⟨hinfos, fun id hid => ?_⟩⟩
    rw [hmonitor] at hid
    exact absurd hid Finmap.notMem_empty
  env_ok := by
    intro s m s' hi hm
    obtain ⟨hi', hr⟩ := Onward.move hi hm
    exact ⟨hi', fun _ => hr⟩

section rules
variable {α : Type} {Q : α → Watched → Prop} {s : Watched} {current last : StoredMembership}
  {last_msg : String}

/-- The rule for a call of the task, which is the only one. -/
theorem wp_watch {o : WatchOp} {k : o.Resp → WatchProg α} (h : Following current last last_msg s)
    (hnext : ∀ s', s'.Inv → Following current last last_msg s' → watching.can () s' o ∧
      ∀ r s'', s'.call o r s'' → s''.Inv ∧ watching.wp () Q (k r) s'') :
    watching.wp () Q (.call o k) s := by
  intro s' hi hr
  obtain ⟨hcan, hcall⟩ := hnext s' hi (h.onward hr)
  refine ⟨hcan, fun r s'' hc => ?_⟩
  obtain ⟨hi', hwp⟩ := hcall r s'' hc
  exact ⟨hi', fun j hj => absurd rfl hj, hwp⟩

/-- A message is logged unless it is the last one. -/
theorem wp_log_message {msg : String} (h : Following current last last_msg s) :
    watching.wp () (fun last_msg s' => Following current last last_msg s') (log_message msg last_msg)
      s := by
  unfold log_message
  split
  · next hne =>
    refine wp_watch h ?_
    intro s₁ hi₁ h₁
    have hnew : s₁.infos.head? ≠ some msg := by
      intro heq
      have hmessage := h₁.message
      rw [heq] at hmessage
      exact hne hmessage
    refine ⟨hnew, ?_⟩
    intro r s₂ hc
    cases hc
    refine ⟨⟨hi₁.valid, hi₁.seen_le, ?_⟩, ?_⟩
    · show (msg :: s₁.infos).IsChain (· ≠ ·)
      cases hinfos : s₁.infos with
      | nil => exact .singleton _
      | cons old rest =>
        rw [hinfos] at hnew
        refine .cons_cons ?_ (hinfos ▸ hi₁.infos)
        intro heq
        exact hnew (heq ▸ rfl)
    · have h₂ : Following current last msg { s₁ with infos := msg :: s₁.infos } :=
        ⟨h₁.started, h₁.seen_le, h₁.current, h₁.monitor, rfl⟩
      exact fun s₃ _ hr => h₂.onward hr
  · exact fun s₁ _ hr => h.onward hr

/-- What holds when the task waits holds when it waits again. -/
theorem wp_watch_loop (d : Display) (fuel : Nat) (h : Following last last last_msg s) :
    watching.wp () (fun _ s' => s'.started = true ∧ s'.running = false)
      (watch_membership_changes_loop d fuel last last_msg) s := by
  induction fuel generalizing s last last_msg with
  | zero => exact wp_watch h fun _ _ _ => ⟨trivial, nofun⟩
  | succ fuel ih =>
    refine wp_watch h ?_
    intro s₁ hi₁ h₁
    refine ⟨h₁.clean, ?_⟩
    intro r s₂ hc
    cases r with
    | false =>
      obtain ⟨_, hstopped, rfl⟩ := hc
      refine ⟨hi₁, fun s₃ _ hr => ?_⟩
      exact ⟨hr.started.trans h₁.started, hr.stopped hstopped⟩
    | true =>
      obtain ⟨_, rfl⟩ := hc
      refine ⟨⟨hi₁.valid, Nat.le_refl _, hi₁.infos⟩, ?_⟩
      -- the task knows that there was something new, but not what the metrics show now
      have h₂ : Following s₁.membership_config last last_msg { s₁ with seen := s₁.version } :=
        ⟨h₁.started, Nat.le_refl _, fun _ => rfl, h₁.monitor, h₁.message⟩
      refine wp_watch h₂ ?_
      intro s₃ hi₃ h₃
      refine ⟨trivial, ?_⟩
      intro current s₄ hc
      obtain ⟨rfl, rfl⟩ := hc
      refine ⟨hi₃, ?_⟩
      have h₄ := h₃.look
      show watching.wp () _ (if _ then _ else _) _
      split
      · next heq => exact ih (heq ▸ h₄)
      · refine wp_watch h₄ ?_
        intro s₅ hi₅ h₅
        refine ⟨trivial, ?_⟩
        intro leader_id s₆ hc
        obtain ⟨_, rfl⟩ := hc
        refine ⟨hi₅, ?_⟩
        obtain ⟨msg, hmsg⟩ := membership_message_isSome (d := d) hi₃.valid leader_id
        simp only [Prog.bind, hmsg]
        refine LTS.Discipline.wp_bind hi₅ (LTS.Discipline.wp_mono ?_ (wp_log_message h₅))
        intro last_msg s₇ _ h₇
        refine wp_watch h₇ ?_
        intro s₈ hi₈ h₈
        refine ⟨trivial, ?_⟩
        intro r s₉ hc
        cases hc
        refine ⟨⟨hi₈.valid, hi₈.seen_le, hi₈.infos⟩, ih ⟨h₈.started, h₈.seen_le, h₈.current, ?_, h₈.message⟩⟩
        -- only members are left in the monitor
        intro id hid
        obtain ⟨t, ht⟩ := Finmap.mem_iff.mp hid
        rw [HeartbeatMonitor.lookup_retain] at ht
        split at ht
        · next hmem => exact .inl (of_decide_eq_true hmem)
        · cases ht

end rules

/-! ### Runs -/

def watch_runs (d : Display) (fuel : Nat) :
    LTS.System (Crew Unit Watched WatchOp WatchOp.Resp Unit) (LTS.Move Unit WatchMove WatchOp Unit) :=
  LTS.crew watched fun _ _ => watch_membership_changes d fuel

variable {d : Display} {fuel : Nat} {c : Crew Unit Watched WatchOp WatchOp.Resp Unit}

theorem watch_runs_inv (hc : (watch_runs d fuel).Reachable c) :
    watching.CrewInv (fun _ _ s => s.started = true ∧ s.running = false) c := by
  refine watching.crew_sound _ ?_ ?_ hc
  · intro _ _ s _ hpost hstarted
    rw [hpost.1] at hstarted
    cases hstarted
  · intro _ _ s s' hi hidle hs
    obtain ⟨hstarted, rfl⟩ := hs
    obtain ⟨hinfos, hmonitor⟩ := hidle hstarted
    refine ⟨⟨hi.valid, hi.seen_le, hi.infos⟩, fun j hj => absurd rfl hj, ?_⟩
    -- nobody is a member of the default membership
    have hnone : all_nodes (default : StoredMembership).membership = ∅ := by decide
    have h₀ : Following s.membership_config default "" { s with started := true } :=
      ⟨rfl, hi.seen_le, fun _ => rfl, fun id hid => .inr (hmonitor id hid), by rw [hinfos]; rfl⟩
    refine wp_watch h₀ ?_
    intro s₁ hi₁ h₁
    refine ⟨trivial, ?_⟩
    intro last s₂ hc
    obtain ⟨rfl, rfl⟩ := hc
    refine ⟨hi₁, wp_watch_loop d fuel ⟨h₁.started, h₁.seen_le, fun _ => rfl, ?_, h₁.message⟩⟩
    intro id hid
    rcases h₁.monitor id hid with hmem | hmem
    · rw [hnone] at hmem
      exact absurd hmem (Finset.notMem_empty id)
    · exact .inr hmem

/-- **No change is missed**: whatever the metrics show and when, in every run

    - no `unwrap` fails, and no message is logged twice in a row;
    - whenever the task waits and the metrics show nothing that it was not told of, the nodes
      in the heartbeat monitor are members of what the metrics show, or have got
      their entry since the monitor was last cleaned up;
    - the task ends only if Raft has. -/
theorem membership_watched (hc : (watch_runs d fuel).Reachable c) :
    (∀ k, c.worker () ≠ some (.call .unwrap_none k)) ∧
    c.shared.infos.IsChain (· ≠ ·) ∧
    (∀ k, c.worker () = some (.call .changed k) → c.shared.seen = c.shared.version →
      c.shared.Clean) ∧
    ∀ a, c.worker () = some (.pure a) → c.shared.running = false := by
  have hinv := watch_runs_inv hc
  refine ⟨?_, hinv.inv.infos, ?_, ?_⟩
  · intro k hk
    exact hinv.can hk
  · intro k hk
    exact hinv.can hk
  · intro a ha
    exact (hinv.returned ha).2

/-! ### A round -/

/-- A membership with one voter, node 1. -/
def one_voter : StoredMembership :=
  ⟨none, ⟨[{1}], (∅ : HashMap NodeId Node).insert 1 Node.localhost⟩⟩

def local_display : Display := ⟨fun _ => "1", fun _ => "127.0.0.1:35001"⟩

theorem one_voter_message : membership_message local_display one_voter.membership (some 1) =
    some "Membership changed:\nvoters=[\n    1 127.0.0.1:35001 [LEADER]\n], learners=[]\n" := by
  have hvoters : one_voter.membership.voter_ids = {1} := by decide
  have hlearners : one_voter.membership.learner_ids = ∅ := by decide
  have hnode : one_voter.membership.get_node 1 = some Node.localhost := by decide
  unfold membership_message
  rw [hvoters, hlearners, BTreeMap.ascending, BTreeMap.ascending, Finset.sort_singleton,
    Finset.sort_empty]
  simp only [member_list, member_lines, hnode]
  decide

/-- The membership changes, and node 5, which is no member, leaves the monitor. -/
theorem membership_watched_round :
    ∃ c k, (watch_runs local_display 2).Reachable c ∧ c.worker () = some (.call .changed k) ∧
      c.shared.infos =
        ["Membership changed:\nvoters=[\n    1 127.0.0.1:35001 [LEADER]\n], learners=[]\n"] ∧
      c.shared.heartbeat_monitor.lookup 5 = none ∧ c.shared.Clean := by
  have h₀ : (watch_runs local_display 2).Reachable
      ⟨⟨default, none, 0, 0, true, ∅, ∅, [], false⟩, fun _ => none⟩ :=
    .init ⟨⟨by decide, Nat.le_refl _, rfl, rfl, rfl⟩, fun _ => rfl⟩
  have h₁ := Crew.env h₀ (.on_heartbeat 7 5) rfl
  have h₂ := Crew.start h₁ () () (.inl rfl) ⟨rfl, rfl⟩
  have h₃ := Crew.call h₂ () (o := .membership_config) default rfl ⟨rfl, rfl⟩
  have h₄ := Crew.env h₃ (.observe one_voter (some 1)) ⟨rfl, by decide, rfl⟩
  have h₅ := Crew.call h₄ () (o := .changed) true rfl ⟨by decide, rfl⟩
  have h₆ := Crew.call h₅ () (o := .membership_config) one_voter rfl ⟨rfl, rfl⟩
  have h₇ := Crew.call h₆ () (o := .current_leader) (some 1) rfl ⟨rfl, rfl⟩
  simp only [Prog.bind, one_voter_message] at h₇
  have h₈ := Crew.call h₇ () (o := .info _) () rfl rfl
  have h₉ := Crew.call h₈ () (o := .retain (all_nodes one_voter.membership)) () rfl rfl
  obtain ⟨_, _, hclean, _⟩ := membership_watched h₉
  have hgone : (((∅ : HeartbeatMonitor).on_heartbeat 7 5).retain
      (decide <| · ∈ all_nodes one_voter.membership)).lookup 5 = none := by
    rw [HeartbeatMonitor.lookup_retain]
    exact if_neg (by decide)
  exact ⟨_, _, h₉, rfl, rfl, hgone, hclean _ rfl rfl⟩

end Distruct

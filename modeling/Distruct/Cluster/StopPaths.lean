import Distruct.Cluster.DetectFailures

/-! # Two Ways to Stop

    A node stops because its user asks it to, or because its failure detector
    has not seen a quorum for too long. Both paths stop Raft and then send the
    signal on which the other background tasks end. The signal can only be sent
    while somebody still listens: the task that watches the membership, which
    also ends by itself once Raft has stopped, and the main loop, which ends on
    the signal only.

    Here the two tasks run side by side on one node, with any metrics, any
    progress of the listeners and any time between two calls.
-/

namespace Distruct

open LTS (Site Crew Discipline)

/-- The tasks that can stop the node. -/
inductive StopTask where
  | detector
  | shutdown
  deriving DecidableEq

structure Lifecycle where
  /-- What `raft.metrics()` and `raft.server_metrics()` show. -/
  metrics : RaftMetrics
  server_metrics : RaftServerMetrics
  /-- Whether Raft runs, and else who stopped it. -/
  stopped_by : Option StopTask
  /-- The receivers of the signal. -/
  watch_rx : Bool
  main_rx : Bool
  /-- Whether the signal was sent. -/
  signalled : Bool
  /-- Whether the leader can be reached and would accept that the node leaves. -/
  willing : Bool
  /-- The tasks that have been started. -/
  started : Finset StopTask

inductive LifecycleMove where
  | observe (metrics : RaftMetrics) (server_metrics : RaftServerMetrics)
  | decide (willing : Bool)
  /-- `watch_membership_changes` ends. -/
  | watch_ends
  /-- `main_loop` ends. -/
  | main_ends

namespace Lifecycle

def init (s : Lifecycle) : Prop :=
  s.stopped_by = none ∧ s.watch_rx = true ∧ s.main_rx = true ∧ s.signalled = false ∧ s.started = ∅

def move (s : Lifecycle) : LifecycleMove → Lifecycle → Prop
  | .observe metrics server_metrics, s' =>
      s' = { s with metrics := metrics, server_metrics := server_metrics }
  | .decide willing, s' => s' = { s with willing := willing }
  -- the metrics channel is closed when Raft has stopped
  | .watch_ends, s' =>
      (s.signalled = true ∨ s.stopped_by ≠ none) ∧ s' = { s with watch_rx := false }
  | .main_ends, s' => s.signalled = true ∧ s' = { s with main_rx := false }

/-- Each task is started once. -/
def start (task : StopTask) (s s' : Lifecycle) : Prop :=
  task ∉ s.started ∧ s' = { s with started := insert task s.started }

/-- `raft.shutdown()`. Nothing is known about the answer of a Raft that has
    stopped already. -/
def shutdown (task : StopTask) (s : Lifecycle) (r : Except String Unit) (s' : Lifecycle) : Prop :=
  if s.stopped_by = none then r = .ok () ∧ s' = { s with stopped_by := some task } else s' = s

/-- Sending the signal fails if and only if there is no receiver. -/
def broadcast_shutdown (s : Lifecycle) (r : Except String Unit) (s' : Lifecycle) : Prop :=
  if s.watch_rx = true ∨ s.main_rx = true then r = .ok () ∧ s' = { s with signalled := true }
  else (∃ e, r = .error e) ∧ s' = s

/-- A proposal to the node's own Raft fails once that has stopped. -/
def change_membership (s : Lifecycle) (r : Except (RaftError ClientWriteError) ClientWriteResponse) :
    Prop :=
  if s.stopped_by = none then s.willing = true → ∃ resp, r = .ok resp
  else r = .error (.Fatal .Stopped)

def call (task : StopTask) (s : Lifecycle) : (o : DetectorOp) → o.Resp → Lifecycle → Prop
  | .changed _, r, s' => (r = false → s.stopped_by ≠ none) ∧ s' = s
  | .tick _, _, s' => s' = s
  | .now _, _, s' => s' = s
  -- any entries in the heartbeat monitor
  | .borrow_metrics _, r, s' => (r = none ↔ s.metrics.state ≠ .Leader) ∧ s' = s
  | .node (.metrics _), r, s' => r = s.metrics ∧ s' = s
  | .node (.server_metrics _), r, s' => r = s.server_metrics ∧ s' = s
  | .node (.change_membership ..), r, s' => s.change_membership r ∧ s' = s
  | .node (.connect ..), r, s' => (s.willing = true → ∃ conn, r = .ok conn) ∧ s' = s
  | .node (.exchange ..), r, s' =>
      (s.willing = true → ∃ resp, r = .ok (.ok (.ClientWrite resp))) ∧ s' = s
  | .node (.shutdown _), r, s' => s.shutdown task r s'
  | .node (.broadcast_shutdown _), r, s' => s.broadcast_shutdown r s'
  | _, _, _ => False

/-- The condition under which the two paths do not get into each other's way: who
    stops Raft finds it running, and while a graceful shutdown has the node
    removed, Raft is running and the leader is willing. -/
def InTurn (task : StopTask) (s : Lifecycle) : DetectorOp → Prop
  | .node (.shutdown _) => s.stopped_by = none
  | .node (.change_membership ..) => task = .shutdown → s.stopped_by = none ∧ s.willing = true
  | .node (.connect ..) => s.willing = true
  | .node (.exchange ..) => s.willing = true
  | _ => True

end Lifecycle

def lifecycle : Site StopTask Lifecycle LifecycleMove DetectorOp Unit DetectorOp.Resp where
  init := Lifecycle.init
  env := Lifecycle.move
  start := fun task s _ s' => Lifecycle.start task s s'
  call := fun task s o r s' => s.call task o r s'

/-- What the two tasks run on node `i`. -/
def stop_tasks (fuel : Nat) (i : NodeId) (task : StopTask) (_ : Unit) :
    DetectorProg (Except ProcessExit Unit) :=
  match task with
  | .detector => (detect_failures fuel i).run
  | .shutdown => DetectorProg.lift (shutdown_task fuel i).run

namespace Lifecycle

variable {s s' : Lifecycle} {task : StopTask}

theorem change_membership_stopped (h : s.stopped_by ≠ none) :
    s.change_membership (.error (.Fatal .Stopped)) := by
  simp [change_membership, h]

theorem change_membership_willing (resp : ClientWriteResponse) (h : s.stopped_by = none) :
    s.change_membership (.ok resp) := by
  simp [change_membership, h]

/-- The main loop listens until the signal is sent, which happens after Raft was
    stopped. -/
structure Inv (s : Lifecycle) : Prop where
  listening : s.signalled = false → s.main_rx = true
  stopped : s.signalled = true → s.stopped_by ≠ none

/-- What a task relies on: if it has stopped Raft, nobody else sends the signal. -/
def Rel (task : StopTask) (s s' : Lifecycle) : Prop :=
  s.stopped_by = some task → s'.stopped_by = some task ∧ s'.signalled = s.signalled

theorem Inv.move (h : s.Inv) {m : LifecycleMove} (hm : s.move m s') :
    s'.Inv ∧ ∀ task, Rel task s s' := by
  cases m with
  | observe metrics server_metrics =>
    cases hm
    exact ⟨⟨h.listening, h.stopped⟩, fun _ hs => ⟨hs, rfl⟩⟩
  | decide willing =>
    cases hm
    exact ⟨⟨h.listening, h.stopped⟩, fun _ hs => ⟨hs, rfl⟩⟩
  | watch_ends =>
    obtain ⟨_, rfl⟩ := hm
    exact ⟨⟨h.listening, h.stopped⟩, fun _ hs => ⟨hs, rfl⟩⟩
  | main_ends =>
    obtain ⟨hsig, rfl⟩ := hm
    refine ⟨⟨?_, h.stopped⟩, fun _ hs => ⟨hs, rfl⟩⟩
    intro hnot
    rw [hsig] at hnot
    cases hnot

end Lifecycle

open Lifecycle in
/-- The discipline of the two tasks in the runs that meet the condition. -/
def stopping : Discipline (lifecycle.restrict (fun _ _ => True) InTurn) where
  inv := Inv
  rel := Rel
  can := fun _ _ _ => True
  idle := fun _ _ => True
  refl := fun _ _ hs => ⟨hs, rfl⟩
  trans := by
    intro task a b c hab hbc hs
    obtain ⟨hb, hsig⟩ := hab hs
    obtain ⟨hc, hsig'⟩ := hbc hb
    exact ⟨hc, hsig'.trans hsig⟩
  idle_stable := fun _ _ => trivial
  init_ok := by
    intro s hinit
    obtain ⟨_, _, hmain, hsig, _⟩ := hinit
    refine ⟨⟨fun _ => hmain, ?_⟩, fun _ => trivial⟩
    intro hs
    rw [hsig] at hs
    cases hs
  env_ok := fun h hm => h.move hm.2

section tasks
open Lifecycle
open DetectorProg (lift await_node)

variable {s : Lifecycle} {task : StopTask} {i : NodeId} {fuel : Nat}

/-- A call that changes nothing. -/
theorem stop_silent {α : Type} {Q : α → Lifecycle → Prop} {o : DetectorOp}
    {k : o.Resp → DetectorProg α}
    (hsilent : ∀ (s : Lifecycle) (r : o.Resp) (s' : Lifecycle), s.call task o r s' → s' = s)
    (h : ∀ s', stopping.inv s' → InTurn task s' o → ∀ r, s'.call task o r s' →
      stopping.wp task Q (k r) s') :
    stopping.wp task Q (.call o k) s := by
  refine Discipline.wp_silent (fun _ _ _ => trivial) (fun s r s' hc => hsilent s r s' hc.2) ?_
  intro s' hi _ r hc
  exact h s' hi hc.1 r hc.2

/-- Who stops Raft sends the signal to somebody. -/
theorem stop_force_shutdown :
    stopping.wp task (fun r _ => ∃ a, r = .ok a) (lift (force_shutdown i).run) s := by
  intro s' hi _
  refine ⟨trivial, ?_⟩
  intro r s'' hc
  have hrun : s'.stopped_by = none := hc.1
  have hshut : s'.shutdown task r s'' := hc.2
  simp only [Lifecycle.shutdown, hrun, if_true] at hshut
  obtain ⟨rfl, rfl⟩ := hshut
  -- nobody can have sent the signal before
  have hsig : s'.signalled = false := by
    by_contra hs
    exact hi.stopped (by simpa using hs) hrun
  refine ⟨⟨hi.listening, fun _ h => by cases h⟩, ?_, ?_⟩
  · intro j _ hj
    rw [hrun] at hj
    cases hj
  · intro s₁ hi₁ hr₁
    refine ⟨trivial, ?_⟩
    intro r s₂ hc₂
    obtain ⟨hown, hsig₁⟩ := hr₁ rfl
    have hmain : s₁.main_rx = true := hi₁.listening (hsig₁.trans hsig)
    have hsend : s₁.broadcast_shutdown r s₂ := hc₂.2
    simp only [Lifecycle.broadcast_shutdown, hmain, or_true, if_true] at hsend
    obtain ⟨rfl, rfl⟩ := hsend
    refine ⟨⟨fun h => (by cases h), fun _ h => ?_⟩, ?_, ?_⟩
    · rw [hown] at h
      cases h
    · intro j hj hj'
      rw [hown] at hj'
      exact absurd (Option.some.inj hj').symm hj
    · intro _ _ _
      exact ⟨(), rfl⟩

/-- The removals of the detector, whatever Raft answers. -/
theorem stop_remove_unreachable {Q : Unit → Lifecycle → Prop} {found : Detection}
    (hi : stopping.inv s) (h : ∀ s', stopping.inv s' → Q () s') :
    stopping.wp task Q (remove_unreachable i found) s := by
  have htry : ∀ {Q : Unit → Lifecycle → Prop} {s : Lifecycle} {ids : Finset NodeId}
      {members : ChangeMembers}, (∀ s', stopping.inv s' → Q () s') →
      stopping.wp task Q (try_remove i ids members) s := by
    intro Q s ids members h
    unfold try_remove
    split
    · refine stop_silent (fun s r s' hc => hc.2) ?_
      intro s' _ _ _ _ s'' hi'' _
      exact h s'' hi''
    · intro s' hi' _
      exact h s' hi'
  refine Discipline.wp_bind hi (htry ?_)
  intro _ _
  exact htry h

theorem stop_quorum_reached {found : Detection} {last : Instant} :
    stopping.wp task (fun _ _ => True) (quorum_reached i found last) s := by
  unfold quorum_reached
  split
  · refine stop_silent (fun s r s' hc => hc) ?_
    intro s' hi' _ now _
    show stopping.wp task _ (remove_unreachable i found >>= fun _ => .pure now) s'
    refine Discipline.wp_bind hi' (stop_remove_unreachable hi' ?_)
    intro _ _ _ _ _
    trivial
  · intro _ _ _
    trivial

theorem stop_detect_failures_loop {last : Instant} (hi : stopping.inv s) :
    stopping.wp task (fun r _ => ∃ a, r = .ok a) (detect_failures_loop i fuel last).run s := by
  induction fuel generalizing last s with
  | zero =>
    intro s' _ _
    exact ⟨trivial, fun r => nomatch r⟩
  | succ fuel ih =>
    rw [detect_failures_loop]
    refine Discipline.wp_run_lift_bind hi (stop_silent (fun s r s' hc => hc.2) ?_)
    intro _ _ _ changed _ s₁ hi₁ _
    cases changed with
    | false =>
      intro _ _ _
      exact ⟨(), rfl⟩
    | true =>
      rw [if_pos rfl]
      refine Discipline.wp_run_lift_bind hi₁ (stop_silent (fun s r s' hc => hc) ?_)
      intro _ _ _ _ _ s₂ hi₂ _
      refine Discipline.wp_run_lift_bind hi₂ (stop_silent (fun s r s' hc => hc.2) ?_)
      intro _ _ _ found _ s₃ hi₃ _
      cases found with
      | none => exact ih hi₃
      | some found =>
        refine Discipline.wp_run_lift_bind hi₃ (Discipline.wp_mono ?_ stop_quorum_reached)
        intro last' s₄ hi₄ _
        refine Discipline.wp_run_lift_bind hi₄ (stop_silent (fun s r s' hc => hc) ?_)
        intro _ _ _ now _ s₅ hi₅ _
        split
        · exact stop_force_shutdown
        · exact ih hi₅

/-- A client that asks the leader for the removal of its node. -/
theorem stop_change_membership {Q : Except Error ClientWriteResponse → Lifecycle → Prop} {c : Client}
    {members : ChangeMembers} (hi : stopping.inv s) (hQ : ∀ resp s', stopping.inv s' → Q (.ok resp) s') :
    stopping.wp task Q (lift (c.change_membership fuel members false).run) s := by
  unfold Client.change_membership Client.call Client.request
  refine DetectorProg.wp_lift_run_bind hi ?_
  cases fuel with
  | zero =>
    intro s' _ _
    exact ⟨trivial, fun r => nomatch r⟩
  | succ fuel =>
    rw [Client.request_loop]
    refine DetectorProg.wp_lift_run_bind hi (stop_silent (fun s r s' hc => hc.2) ?_)
    intro s₁ hi₁ hwill r hr s₂ hi₂ _
    obtain ⟨resp, rfl⟩ := hr.1 hwill
    refine ⟨?_, fun e he => by cases he⟩
    intro a ha
    cases ha
    intro s₃ hi₃ _
    refine ⟨?_, fun e he => by cases he⟩
    intro a ha
    cases ha
    intro s₄ hi₄ _
    exact hQ resp s₄ hi₄

theorem stop_leave_cluster (hi : stopping.inv s) :
    stopping.wp .shutdown (fun r _ => r = .ok ()) (lift (leave_cluster fuel i).run) s := by
  unfold leave_cluster
  refine DetectorProg.wp_lift_run_lift hi (stop_silent (fun s r s' hc => hc.2) ?_)
  intro _ _ _ metrics _ s₁ hi₁ _
  split
  · refine DetectorProg.wp_lift_run_lift hi₁ (stop_silent (fun s r s' hc => hc.2) ?_)
    intro _ _ _ own _ s₂ hi₂ _
    refine DetectorProg.wp_lift_run_lift hi₂ (stop_silent (fun s r s' hc => hc.2) ?_)
    intro _ _ _ server_metrics _ s₃ hi₃ _
    split
    · refine DetectorProg.wp_lift_run_bind hi₃ (stop_silent (fun s r s' hc => hc.2) ?_)
      intro s₄ _ hturn r hr _ _ _
      have hrun : s₄.stopped_by = none ∧ s₄.willing = true := hturn rfl
      have hok : s₄.change_membership r := hr.1
      simp only [Lifecycle.change_membership, hrun, if_true] at hok
      obtain ⟨resp, rfl⟩ := hok trivial
      refine ⟨?_, fun e he => by cases he⟩
      intro _ _ _ _ _
      rfl
    · refine DetectorProg.wp_lift_run_lift hi₃ (stop_silent (fun s r s' hc => hc.2) ?_)
      intro _ _ _ metrics _ s₄ hi₄ _
      split
      · intro _ _ _
        rfl
      · refine DetectorProg.wp_lift_run_lift hi₄ (stop_silent (fun s r s' hc => hc.2) ?_)
        intro _ _ _ metrics _ s₅ hi₅ _
        split
        · intro _ _ _
          rfl
        · refine DetectorProg.wp_lift_run_bind hi₅ ?_
          refine DetectorProg.wp_lift_run_bind hi₅ (stop_silent (fun s r s' hc => hc.2) ?_)
          intro _ _ hwilling r hr s₆ hi₆ _
          obtain ⟨conn, rfl⟩ := hr.1 hwilling
          refine ⟨?_, fun e he => by cases he⟩
          intro a ha s₇ hi₇ _
          cases ha
          refine ⟨?_, fun e he => by cases he⟩
          intro client hclient
          refine DetectorProg.wp_lift_run_lift hi₇ (stop_silent (fun s r s' hc => hc.2) ?_)
          intro _ _ _ server_metrics _ s₈ hi₈ _
          -- the request is the same for a learner and for a voter
          have hleave : ∀ members, stopping.wp .shutdown (fun r _ => r = .ok ())
              (lift (do let _ ← client.change_membership fuel members false; return ()).run) s₈ := by
            intro members
            refine DetectorProg.wp_lift_run_bind hi₈ (stop_change_membership hi₈ ?_)
            intro resp s₉ _
            refine ⟨?_, fun e he => by cases he⟩
            intro _ _ _ _ _
            rfl
          split
          · exact hleave _
          · exact hleave _
  · intro _ _ _
    rfl

theorem stop_shutdown_task (hi : stopping.inv s) :
    stopping.wp .shutdown (fun r _ => ∃ a, r = .ok a) (lift (shutdown_task fuel i).run) s := by
  unfold shutdown_task on_graceful_shutdown
  -- the node leaves, then it stops; the result of leaving is never an error
  refine DetectorProg.wp_lift_run_bind hi (DetectorProg.wp_lift_run_lift hi ?_)
  refine Discipline.wp_mono ?_ (stop_leave_cluster hi)
  intro r s₁ hi₁ hleft
  subst hleft
  refine DetectorProg.wp_lift_run_bind hi₁ (Discipline.wp_mono ?_ stop_force_shutdown)
  intro r s₂ _ hr
  obtain ⟨a, rfl⟩ := hr
  refine ⟨?_, fun e he => by cases he⟩
  intro _ _ _ _ _
  refine ⟨?_, fun e he => by cases he⟩
  intro left hleft
  cases hleft
  intro _ _ _
  exact ⟨(), rfl⟩

end tasks

open Lifecycle in
/-- **The two ways to stop do not end in `process::exit`**, in every run in which
    who stops Raft finds it running, and a graceful shutdown finds Raft running
    and the leader willing for as long as it has the node removed. -/
theorem stop_without_exit (fuel : Nat) (i : NodeId)
    (c : Crew StopTask Lifecycle DetectorOp DetectorOp.Resp (Except ProcessExit Unit))
    (hc : (LTS.crew (lifecycle.restrict (fun _ _ => True) InTurn) (stop_tasks fuel i)).Reachable c) :
    ∀ task exit, c.worker task ≠ some (.pure (.error exit)) := by
  intro task exit hw
  suffices hcrew : stopping.CrewInv (fun _ r _ => ∃ a, r = .ok a) c by
    obtain ⟨a, ha⟩ := hcrew.returned hw
    cases ha
  refine Discipline.crew_sound stopping _ ?_ ?_ hc
  · intro _ _ _ _ _
    trivial
  · intro task _ s s' hi _ hs
    obtain ⟨_, rfl⟩ := hs
    have hi' : stopping.inv { s with started := insert task s.started } :=
      ⟨hi.listening, hi.stopped⟩
    refine ⟨hi', fun _ _ hown => ⟨hown, rfl⟩, ?_⟩
    cases task with
    | detector =>
      refine Discipline.wp_run_lift_bind hi' (stop_silent (fun s r s' hc => hc) ?_)
      intro _ _ _ now _ s₁ hi₁ _
      exact stop_detect_failures_loop hi₁
    | shutdown => exact stop_shutdown_task hi'

/-- Node 1 leads a cluster of two. -/
def pair_leader : Lifecycle where
  metrics := ⟨1, .Leader, some 1, ⟨none, ⟨[{1, 2}], HashMap.collect
    [(1, .on_port 35001), (2, .on_port 35002)]⟩⟩⟩
  server_metrics := ⟨1, .Leader⟩
  stopped_by := none
  watch_rx := true
  main_rx := true
  signalled := false
  willing := true
  started := ∅

/-- What the detector of node 1 finds when node 2 does not answer. -/
def lonely : Detection := ⟨2, {2}, ∅⟩

/-- **Either order ends in `process::exit`.** When the detector has stopped the
    node, a graceful shutdown fails because Raft does not answer anymore. And when
    the detector decides to stop just before a graceful shutdown is through, there
    is nobody left to send the signal to. -/
theorem exit_after_stop :
    (∃ c, (LTS.crew lifecycle (stop_tasks 1 1)).Reachable c ∧
      c.worker .detector = some (.pure (.ok ())) ∧
      c.worker .shutdown = some (.pure (.error ⟨1⟩))) ∧
    (∃ c, (LTS.crew lifecycle (stop_tasks 1 1)).Reachable c ∧
      c.worker .shutdown = some (.pure (.ok ())) ∧
      c.worker .detector = some (.pure (.error ⟨1⟩))) := by
  -- in both runs the detector first finds that it is alone
  have h₀ : (LTS.crew lifecycle (stop_tasks 1 1)).Reachable ⟨pair_leader, fun _ => none⟩ :=
    .init ⟨⟨rfl, rfl, rfl, rfl, rfl⟩, fun _ => rfl⟩
  have h₁ := Crew.start h₀ .detector () (.inl rfl) ⟨by decide, rfl⟩
  have h₂ := Crew.call h₁ .detector (0 : Nat) rfl rfl
  have h₃ := Crew.call h₂ .detector true rfl ⟨fun h => (by cases h), rfl⟩
  have h₄ := Crew.call h₃ .detector () rfl rfl
  have h₅ := Crew.call h₄ .detector (some lonely) rfl ⟨by decide, rfl⟩
  have h₆ := Crew.call h₅ .detector (from_secs 21) rfl rfl
  constructor
  · have h₇ := Crew.call h₆ .detector (Except.ok () : Except String Unit) rfl ⟨rfl, rfl⟩
    have h₈ := Crew.call h₇ .detector (Except.ok () : Except String Unit) rfl ⟨rfl, rfl⟩
    have h₉ := Crew.start h₈ .shutdown () (.inl rfl) ⟨by decide, rfl⟩
    have h₁₀ := Crew.call h₉ .shutdown _ rfl ⟨rfl, rfl⟩
    have h₁₁ := Crew.call h₁₀ .shutdown _ rfl ⟨rfl, rfl⟩
    have h₁₂ := Crew.call h₁₁ .shutdown _ rfl ⟨rfl, rfl⟩
    have h₁₃ := Crew.call h₁₂ .shutdown
      (Except.error (.Fatal .Stopped) : Except (RaftError ClientWriteError) ClientWriteResponse) rfl
      ⟨Lifecycle.change_membership_stopped (by decide), rfl⟩
    exact ⟨_, h₁₃, rfl, rfl⟩
  · have h₇ := Crew.start h₆ .shutdown () (.inl rfl) ⟨by decide, rfl⟩
    have h₈ := Crew.call h₇ .shutdown _ rfl ⟨rfl, rfl⟩
    have h₉ := Crew.call h₈ .shutdown _ rfl ⟨rfl, rfl⟩
    have h₁₀ := Crew.call h₉ .shutdown _ rfl ⟨rfl, rfl⟩
    have h₁₁ := Crew.call h₁₀ .shutdown
      (Except.ok ⟨⟨⟨1, 1⟩, 3⟩, .Noop, none⟩ : Except (RaftError ClientWriteError) ClientWriteResponse) rfl
      ⟨Lifecycle.change_membership_willing _ rfl, rfl⟩
    have h₁₂ := Crew.call h₁₁ .shutdown (Except.ok () : Except String Unit) rfl ⟨rfl, rfl⟩
    have h₁₃ := Crew.call h₁₂ .shutdown (Except.ok () : Except String Unit) rfl ⟨rfl, rfl⟩
    have h₁₄ := Crew.env h₁₃ .watch_ends ⟨.inl rfl, rfl⟩
    have h₁₅ := Crew.env h₁₄ .main_ends ⟨rfl, rfl⟩
    have h₁₆ := Crew.call h₁₅ .detector (Except.ok () : Except String Unit) rfl
      rfl
    have h₁₇ := Crew.call h₁₆ .detector (Except.error "channel closed" : Except String Unit) rfl
      ⟨⟨_, rfl⟩, rfl⟩
    exact ⟨_, h₁₇, rfl, rfl⟩

open Lifecycle in
/-- Node 1 shuts down gracefully while its detector is running. The detector finds
    that a quorum is possible, and then that Raft has stopped. -/
theorem stop_pair_leader : ∃ c,
    (LTS.crew (lifecycle.restrict (fun _ _ => True) InTurn) (stop_tasks 2 1)).Reachable c ∧
      c.worker .detector = some (.pure (.ok ())) ∧ c.worker .shutdown = some (.pure (.ok ())) ∧
      ∀ task exit, c.worker task ≠ some (.pure (.error exit)) := by
  have h₀ : (LTS.crew (lifecycle.restrict (fun _ _ => True) InTurn)
      (stop_tasks 2 1)).Reachable ⟨pair_leader, fun _ => none⟩ :=
    .init ⟨⟨rfl, rfl, rfl, rfl, rfl⟩, fun _ => rfl⟩
  have h₁ := Crew.start h₀ .detector () (.inl rfl) ⟨by decide, rfl⟩
  have h₂ := Crew.call h₁ .detector (0 : Nat) rfl ⟨trivial, rfl⟩
  have h₃ := Crew.call h₂ .detector true rfl ⟨trivial, nofun, rfl⟩
  have h₄ := Crew.start h₃ .shutdown () (.inl rfl) ⟨by decide, rfl⟩
  have h₅ := Crew.call h₄ .shutdown _ rfl ⟨trivial, rfl, rfl⟩
  have h₆ := Crew.call h₅ .detector () rfl ⟨trivial, rfl⟩
  have h₇ := Crew.call h₆ .detector (some ⟨2, ∅, ∅⟩) rfl ⟨trivial, by decide, rfl⟩
  have h₈ := Crew.call h₇ .detector (1 : Nat) rfl ⟨trivial, rfl⟩
  have h₉ := Crew.call h₈ .shutdown _ rfl ⟨trivial, rfl, rfl⟩
  have h₁₀ := Crew.call h₉ .shutdown _ rfl ⟨trivial, rfl, rfl⟩
  have h₁₁ := Crew.call h₁₀ .shutdown
    (Except.ok ⟨⟨⟨1, 1⟩, 3⟩, .Noop, none⟩ : Except (RaftError ClientWriteError) ClientWriteResponse)
    rfl ⟨fun _ => ⟨rfl, rfl⟩, change_membership_willing _ rfl, rfl⟩
  have h₁₂ := Crew.call h₁₁ .detector (1 : Nat) rfl ⟨trivial, rfl⟩
  have h₁₃ := Crew.call h₁₂ .shutdown (Except.ok () : Except String Unit) rfl ⟨rfl, rfl, rfl⟩
  have h₁₄ := Crew.call h₁₃ .detector false rfl ⟨trivial, fun _ => nofun, rfl⟩
  have h₁₅ := Crew.call h₁₄ .shutdown (Except.ok () : Except String Unit) rfl ⟨trivial, rfl, rfl⟩
  exact ⟨_, h₁₅, rfl, rfl, stop_without_exit 2 1 _ h₁₅⟩

end Distruct

import Distruct.Cluster.Spawn
import Distruct.Framework.Workers
import Distruct.Raft.Membership

/-! # A Failed Join

    `spawn` on a node, with the cluster of its seed going on meanwhile.

    The accept loop of `Server::new` ends when its endpoint is closed. Nothing in
    the crate closes an endpoint. The other tasks end with Raft or on the signal
    that the two shutdown paths send, and `spawn` does neither. Only the task that
    waits for the request to shut down gracefully ends when `spawn` fails.
-/

namespace Distruct

open LTS (Site Crew Discipline)
open LTS.Discipline

/-! ### The node and its cluster meanwhile -/

structure Spawning where
  /-- The effective membership of the cluster that is joined. -/
  membership : Membership
  server_id : Option NodeId
  started : Finset BackgroundTask
  running : Finset BackgroundTask
  raft_running : Bool
  signalled : Bool
  /-- `spawn` has given up its senders, of the request for a graceful shutdown and
      of the signal. -/
  senders_dropped : Bool
  endpoint_closed : Bool

inductive SpawningMove where
  /-- The cluster changes its membership. -/
  | change (membership : Membership)
  /-- Raft fails. -/
  | raft_stops
  /-- The failure detector stops the node. -/
  | force_shutdown
  /-- `spawn` returns an error. -/
  | drop_senders
  | ends (task : BackgroundTask)

namespace Spawning

def init (s : Spawning) : Prop :=
  s.server_id = none ∧ s.started = ∅ ∧ s.running = ∅ ∧ s.raft_running = false ∧
    s.signalled = false ∧ s.senders_dropped = false ∧ s.endpoint_closed = false

/-- Those who wait for the signal stop waiting: it was sent, or nobody is left
    to send it. -/
def Notified (s : Spawning) : Prop :=
  s.signalled = true ∨
    (s.senders_dropped = true ∧ .graceful_shutdown ∉ s.running ∧ .detect_failures ∉ s.running)

/-- When a background task ends. -/
def MayEnd (s : Spawning) : BackgroundTask → Prop
  | .accept_loop => s.endpoint_closed = true
  -- no request can come anymore
  | .graceful_shutdown => s.senders_dropped = true
  | .watch_membership_changes => s.Notified ∨ s.raft_running = false
  | .detect_failures => s.raft_running = false
  | .main_loop => s.Notified

def move (s : Spawning) : SpawningMove → Spawning → Prop
  | .change membership, s' => s' = { s with membership := membership }
  | .raft_stops, s' => s' = { s with raft_running := false }
  | .force_shutdown, s' =>
      .detect_failures ∈ s.running ∧ s' = { s with raft_running := false, signalled := true }
  -- not before all tasks are started
  | .drop_senders, s' => (∀ t, t ∈ s.started) ∧ s' = { s with senders_dropped := true }
  | .ends task, s' => s.MayEnd task ∧ s' = { s with running := s.running.erase task }

/-- The membership that a request to the cluster asks for. -/
def requested (m : Membership) : RequestBody → Membership
  | .AddLearner id node _ => m.change true (.AddNodes (Finmap.singleton id node))
  | .ChangeMembership members retain => m.change retain members
  | _ => m

def call (s : Spawning) : (o : SpawnOp) → o.Resp → Spawning → Prop
  | .generate_id, r, s' => r ∉ s.membership.nodes ∧ s' = { s with server_id := some r }
  | .raft_new _, r, s' => s' = if r = .ok () then { s with raft_running := true } else s
  | .spawn_task task, _, s' =>
      s' = { s with started := insert task s.started, running := insert task s.running }
  -- a request takes effect or not, whatever comes back
  | .node (.exchange _ _ msg), _, s' =>
      s' = s ∨ s' = { s with membership := requested s.membership msg.body }
  | .node (.shutdown _), _, s' => s' = { s with raft_running := false }
  | .node (.broadcast_shutdown _), _, s' => s' = { s with signalled := true }
  | _, _, s' => s' = s

/-- Nothing is left of an attempt to join. -/
structure NothingLeft (s : Spawning) : Prop where
  membership : ∀ id, s.server_id = some id → id ∉ s.membership.nodes
  accept_loop : .accept_loop ∉ s.running
  watch_membership_changes : .watch_membership_changes ∉ s.running
  detect_failures : .detect_failures ∉ s.running
  main_loop : .main_loop ∉ s.running

end Spawning

/-- One attempt to spawn a node. -/
def spawning : Site Unit Spawning SpawningMove SpawnOp ClusterConfig SpawnOp.Resp where
  init := Spawning.init
  env := Spawning.move
  start := fun _ s _ s' => s.started = ∅ ∧ s' = s
  call := fun _ s o r s' => s.call o r s'

/-- The errors that come from a node whose background tasks are started. -/
def SpawnClusterError.after_start : SpawnClusterError → Prop
  | .Join _ => True
  | .Wait _ => True
  | _ => False

/-! ### What `spawn` leaves running -/

namespace Spawning

variable {s s' : Spawning}

/-- The accept loop runs once it is started, and so do the other tasks while Raft
    does, except the one that waits for a request. -/
structure Inv (s : Spawning) : Prop where
  endpoint_open : s.endpoint_closed = false
  running_started : s.running ⊆ s.started
  signal : s.signalled = true → .detect_failures ∈ s.started ∧ s.raft_running = false
  accepting : .accept_loop ∈ s.started → .accept_loop ∈ s.running
  alive : s.raft_running = true → ∀ t ∈ s.started, t ≠ .graceful_shutdown → t ∈ s.running
  dropped : s.senders_dropped = true → .detect_failures ∈ s.started

/-- The calls of `spawn` that neither start nor stop anything. -/
def Quiet : SpawnOp → Prop
  | .spawn_task _ => False
  | .raft_new _ => False
  | .node (.shutdown _) => False
  | .node (.broadcast_shutdown _) => False
  | _ => True

/-- While Raft runs, the failure detector does, and could send the signal. -/
theorem Inv.stopped (h : s.Inv) (hn : s.Notified) : s.raft_running = false := by
  rcases hn with hsig | ⟨hdropped, _, hnot⟩
  · exact (h.signal hsig).2
  · refine Bool.eq_false_iff.mpr ?_
    intro hraft
    exact hnot (h.alive hraft _ (h.dropped hdropped) (by decide))

theorem Inv.move (h : s.Inv) {m : SpawningMove} (hm : s.move m s') : s'.Inv ∧ s'.started = s.started := by
  cases m with
  | change membership =>
    cases hm
    exact ⟨⟨h.endpoint_open, h.running_started, h.signal, h.accepting, h.alive, h.dropped⟩, rfl⟩
  | raft_stops =>
    cases hm
    exact ⟨⟨h.endpoint_open, h.running_started, fun hs => ⟨(h.signal hs).1, rfl⟩, h.accepting, nofun,
      h.dropped⟩, rfl⟩
  | force_shutdown =>
    obtain ⟨hrun, rfl⟩ := hm
    exact ⟨⟨h.endpoint_open, h.running_started, fun _ => ⟨h.running_started hrun, rfl⟩, h.accepting,
      nofun, h.dropped⟩, rfl⟩
  | drop_senders =>
    obtain ⟨hall, rfl⟩ := hm
    exact ⟨⟨h.endpoint_open, h.running_started, h.signal, h.accepting, h.alive, fun _ => hall _⟩, rfl⟩
  | ends task =>
    obtain ⟨hend, rfl⟩ := hm
    have hopen : task ≠ .accept_loop := by
      rintro rfl
      rw [MayEnd, h.endpoint_open] at hend
      cases hend
    -- no other task can end while Raft runs, but the one that waits for a request
    have hstopped : task ≠ .graceful_shutdown → s.raft_running = false := by
      intro hne
      cases task with
      | accept_loop => exact absurd rfl hopen
      | graceful_shutdown => exact absurd rfl hne
      | watch_membership_changes =>
        rcases hend with hn | hr
        · exact h.stopped hn
        · exact hr
      | detect_failures => exact hend
      | main_loop => exact h.stopped hend
    refine ⟨⟨h.endpoint_open, ?_, h.signal, ?_, ?_, h.dropped⟩, rfl⟩
    · exact (Finset.erase_subset _ _).trans h.running_started
    · intro hacc
      exact Finset.mem_erase.mpr ⟨hopen.symm, h.accepting hacc⟩
    · intro hr t ht hne
      refine Finset.mem_erase.mpr ⟨?_, h.alive hr t ht hne⟩
      rintro rfl
      exact absurd hr (Bool.eq_false_iff.mp (hstopped hne))

/-- A call that neither starts nor stops anything. -/
theorem Inv.quiet (h : s.Inv) {o : SpawnOp} {r : o.Resp} (ho : Quiet o) (hc : s.call o r s') :
    s'.Inv ∧ s'.started = s.started := by
  have hsame : ∀ m id, ({ s with membership := m, server_id := id } : Spawning).Inv :=
    fun _ _ => ⟨h.endpoint_open, h.running_started, h.signal, h.accepting, h.alive, h.dropped⟩
  cases o with
  | spawn_task task => exact ho.elim
  | raft_new id => exact ho.elim
  | generate_id =>
    obtain ⟨-, rfl⟩ := hc
    exact ⟨hsame _ _, rfl⟩
  | node o =>
    cases o with
    | shutdown i => exact ho.elim
    | broadcast_shutdown i => exact ho.elim
    | exchange i conn msg =>
      rcases hc with rfl | rfl
      · exact ⟨h, rfl⟩
      · exact ⟨hsame _ _, rfl⟩
    | _ =>
      cases hc
      exact ⟨h, rfl⟩
  | _ =>
    cases hc
    exact ⟨h, rfl⟩

/-- Between its calls, `spawn` finds the tasks started that it has started. -/
def starting : Discipline spawning where
  inv := Inv
  rel := fun _ s s' => s'.started = s.started
  can := fun _ _ _ => True
  idle := fun _ _ => True
  refl := fun _ _ => rfl
  trans := fun h h' => h'.trans h
  idle_stable := fun _ _ => trivial
  init_ok := by
    intro s hinit
    obtain ⟨hid, hst, hrun, hraft, hsig, hdrop, hcl⟩ := hinit
    refine ⟨⟨hcl, ?_, ?_, ?_, ?_, ?_⟩, fun _ => trivial⟩
    · rw [hrun]
      exact Finset.empty_subset _
    · rw [hsig]
      nofun
    · rw [hst]
      nofun
    · rw [hraft]
      nofun
    · rw [hdrop]
      nofun
  env_ok := by
    intro s m s' hinv hm
    obtain ⟨hinv', hst⟩ := hinv.move hm
    exact ⟨hinv', fun _ => hst⟩

section rules
variable {α : Type} {Q : α → Spawning → Prop} {T : Finset BackgroundTask}

theorem wp_quiet {o : SpawnOp} {k : o.Resp → SpawnProg α} (ho : Quiet o) (hs : s.started = T)
    (h : ∀ r t, t.started = T → starting.wp () Q (k r) t) : starting.wp () Q (.call o k) s := by
  intro s₁ hinv hr
  refine ⟨trivial, ?_⟩
  intro r s₂ hc
  obtain ⟨hinv', hst⟩ := hinv.quiet ho hc
  refine ⟨hinv', fun j hj => absurd rfl hj, h r s₂ ?_⟩
  exact hst.trans (hr.trans hs)

theorem wp_spawn_task {task : BackgroundTask} {k : Unit → SpawnProg α} (hs : s.started = T)
    (h : ∀ t, t.started = insert task T → starting.wp () Q (k ()) t) :
    starting.wp () Q (.call (.spawn_task task) k) s := by
  intro s₁ hinv hr
  have hst : s₁.started = T := hr.trans hs
  refine ⟨trivial, ?_⟩
  rintro - s₂ rfl
  refine ⟨⟨hinv.endpoint_open, ?_, ?_, ?_, ?_, ?_⟩, fun j hj => absurd rfl hj, h _ ?_⟩
  · exact Finset.insert_subset_insert _ hinv.running_started
  · intro hsig
    exact ⟨Finset.mem_insert_of_mem (hinv.signal hsig).1, (hinv.signal hsig).2⟩
  · intro hacc
    rcases Finset.mem_insert.mp hacc with rfl | hacc
    · exact Finset.mem_insert_self _ _
    · exact Finset.mem_insert_of_mem (hinv.accepting hacc)
  · intro hraft t ht hne
    rcases Finset.mem_insert.mp ht with rfl | ht
    · exact Finset.mem_insert_self _ _
    · exact Finset.mem_insert_of_mem (hinv.alive hraft t ht hne)
  · intro hdropped
    exact Finset.mem_insert_of_mem (hinv.dropped hdropped)
  · rw [← hst]

/-- Raft is started when only the accept loop is. -/
theorem wp_raft_new {id : NodeId} {k : Except Fatal Unit → SpawnProg α}
    (hs : s.started = {.accept_loop})
    (h : ∀ r t, t.started = {.accept_loop} → starting.wp () Q (k r) t) :
    starting.wp () Q (.call (.raft_new id) k) s := by
  intro s₁ hinv hr
  have hst : s₁.started = {.accept_loop} := hr.trans hs
  refine ⟨trivial, ?_⟩
  intro r s₂ hc
  have hc' : s₂ = if r = .ok () then { s₁ with raft_running := true } else s₁ := hc
  by_cases hok : r = .ok ()
  · rw [if_pos hok] at hc'
    subst hc'
    refine ⟨⟨hinv.endpoint_open, hinv.running_started, ?_, hinv.accepting, ?_, hinv.dropped⟩,
      fun j hj => absurd rfl hj, h r _ hst⟩
    · -- the detector, which could have sent the signal, is not started yet
      intro hsig
      have hdet := (hinv.signal hsig).1
      rw [hst] at hdet
      simp at hdet
    · intro _ t ht _
      have hacc := hinv.accepting (by rw [hst]; simp)
      change t ∈ s₁.started at ht
      rw [hst, Finset.mem_singleton] at ht
      rw [ht]
      exact hacc
  · rw [if_neg hok] at hc'
    subst hc'
    exact ⟨hinv, fun j hj => absurd rfl hj, h r _ hst⟩

/-- A program of quiet calls keeps what is started. -/
theorem wp_quiet_prog {p : SpawnProg α} (hp : p.Uses Prog.AnyAnswer Quiet) (hs : s.started = T) :
    starting.wp () (fun _ t => t.started = T) p s := by
  refine wp_of_uses (P := Quiet) (fun s s' hr hs => hr.trans hs) (fun _ _ _ _ _ => trivial) ?_ hp hs
  intro s o r s' hinv ho hs hc
  obtain ⟨hinv', hst⟩ := hinv.quiet ho hc
  exact ⟨hinv', fun j hj => absurd rfl hj, hst.trans hs⟩

end rules

/-! ### The calls of the join -/

theorem uses_lift {α : Type} {p : NodeProg α} (hp : p.Uses Prog.AnyAnswer Client.Talks) :
    (SpawnProg.lift p).Uses Prog.AnyAnswer Quiet := by
  apply Prog.uses_interp
  refine Prog.uses_mono (fun _ _ _ => trivial) ?_ hp
  intro o ho
  cases o with
  | connect i node => exact ⟨trivial, fun _ _ => trivial⟩
  | exchange i conn msg => exact ⟨trivial, fun _ _ => trivial⟩
  | out_of_fuel => exact ⟨trivial, nofun⟩
  | _ => exact ho.elim

theorem uses_joining {α : Type} {p : NodeResult Error α} (hp : p.run.Uses Prog.AnyAnswer Client.Talks) :
    (Cluster.joining p).run.Uses Prog.AnyAnswer Quiet :=
  Prog.uses_map (uses_lift hp)

theorem uses_wait (state : ServerState) : (Cluster.wait state).run.Uses Prog.AnyAnswer Quiet :=
  Prog.uses_map ⟨trivial, fun _ _ => trivial⟩

theorem uses_join (fuel : Nat) (server_id : NodeId) (server_node : Node) (seed : SocketAddr × String) :
    (Cluster.join fuel server_id server_node seed).run.Uses Prog.AnyAnswer Quiet := by
  refine Prog.uses_run_bind (uses_joining (Client.uses_new _ _ _)) ?_
  intro client _
  refine Prog.uses_run_bind (uses_joining (Client.uses_call _ _ _ _)) ?_
  intro _ _
  refine Prog.uses_run_bind (uses_joining (Client.uses_call _ _ _ _)) ?_
  intro _ _
  refine Prog.uses_run_bind (uses_wait _) ?_
  intro _ _
  exact ⟨trivial, fun _ _ => trivial⟩

theorem uses_initialize_cluster (server_id : NodeId) (server_node : Node) :
    (Cluster.initialize_cluster server_id server_node).run.Uses Prog.AnyAnswer Quiet := by
  refine Prog.uses_run_bind (Prog.uses_map ⟨trivial, fun _ _ => trivial⟩) ?_
  intro _ _
  exact uses_wait _

/-- An error of the last part means that all tasks were started before. -/
def Begun (r : Except SpawnClusterError ClusterRef) (s : Spawning) : Prop :=
  ∀ e, r = .error e → e.after_start → ∀ t, t ∈ s.started

theorem begun_early {e : SpawnClusterError} (he : ¬ e.after_start) :
    starting.wp () Begun (.pure (.error e)) s := by
  intro s' _ _ e' heq hafter
  cases heq
  exact absurd hafter he

theorem wp_spawn (fuel : Nat) (config : ClusterConfig) (hs : s.started = ∅) :
    starting.wp () Begun (Cluster.spawn fuel config).run s := by
  show starting.wp () Begun (.call (.create_endpoint _ _ _) _) s
  refine wp_quiet trivial hs ?_
  intro r s hs
  match r with
  | .error (.inl e) => exact begun_early (e := .Config e) id
  | .error (.inr reason) => exact begun_early (e := .CreateEndpoint reason) id
  | .ok () =>
  show starting.wp () Begun (.call (.spawn_task .accept_loop) _) s
  refine wp_spawn_task hs ?_
  intro s hs
  show starting.wp () Begun (.call .local_addr _) s
  refine wp_quiet trivial hs ?_
  intro r s hs
  match r with
  | .error reason => exact begun_early (e := .CreateEndpoint reason) id
  | .ok local_addr =>
  show starting.wp () Begun (.call .generate_id _) s
  refine wp_quiet trivial hs ?_
  intro server_id s hs
  show starting.wp () Begun (.call (.raft_new server_id) _) s
  refine wp_raft_new hs ?_
  intro r s hs
  match r with
  | .error f => exact begun_early (e := .Initialize (.Fatal f)) id
  | .ok () =>
  show starting.wp () Begun (.call (.spawn_task .graceful_shutdown) fun _ =>
    .call (.spawn_task .watch_membership_changes) fun _ => .call (.spawn_task .detect_failures) fun _ =>
    .call (.spawn_task .main_loop) _) s
  refine wp_spawn_task hs fun s hs => wp_spawn_task hs fun s hs => wp_spawn_task hs fun s hs =>
    wp_spawn_task hs fun s hs => ?_
  -- from here on everything is started
  refine wp_mono ?_ (wp_quiet_prog ?_ hs)
  · intro r t _ ht e _ _ task
    rw [ht]
    cases task <;> decide
  · cases config.seed with
    | some seed => exact Prog.uses_run_bind (uses_join fuel server_id _ seed) fun _ _ => trivial
    | none => exact Prog.uses_run_bind (uses_initialize_cluster server_id _) fun _ _ => trivial

/-! ### A failed attempt -/

abbrev Attempt := Crew Unit Spawning SpawnOp SpawnOp.Resp (Except SpawnClusterError ClusterRef)

/-- One attempt, with anything that happens on the node and in its cluster meanwhile. -/
def attempt (fuel : Nat) : LTS.System Attempt (LTS.Move Unit SpawningMove SpawnOp ClusterConfig) :=
  LTS.crew spawning fun _ config => (Cluster.spawn fuel config).run

theorem attempt_sound {fuel : Nat} {c : Attempt} (hc : (attempt fuel).Reachable c) :
    CrewInv starting (fun _ => Begun) c := by
  refine crew_sound starting (fun _ => Begun) (fun _ _ _ _ _ => trivial) ?_ hc
  rintro - config s s' hinv - ⟨hst, rfl⟩
  exact ⟨hinv, fun j hj => absurd rfl hj, wp_spawn fuel config hst⟩

/-- **A failed join leaves the node behind**: whenever `spawn` fails after it has
    started the background tasks, the accept loop still runs, and as long as Raft
    does so do all the others, except the one that waits for the request to shut
    down gracefully. -/
theorem failed_join_leaves_node {fuel : Nat} {c : Attempt} (hc : (attempt fuel).Reachable c)
    {e : SpawnClusterError} (he : e.after_start) (hret : c.worker () = some (.pure (.error e))) :
    ¬ c.shared.NothingLeft ∧ .accept_loop ∈ c.shared.running ∧
      (c.shared.raft_running = true → ∀ t, t ≠ .graceful_shutdown → t ∈ c.shared.running) := by
  have h := attempt_sound hc
  have hbegun : ∀ t, t ∈ c.shared.started := h.returned hret e rfl he
  have hacc := h.inv.accepting (hbegun _)
  refine ⟨?_, hacc, fun hraft t => h.inv.alive hraft t (hbegun t)⟩
  intro hnone
  exact hnone.accept_loop hacc

section example_cluster

/-- A node that wants to join the single node 0 over its address. -/
def newcomer : ClusterConfig where
  bind_addr := (Node.on_port 35002).addr
  public_addr := none
  public_server_name := "localhost"
  seed := some (SocketAddr.localhost, "localhost")
  certs := []
  key := []

/-- The cluster of node 0, before the newcomer is spawned. -/
def single_node : Spawning where
  membership := ⟨[{0}], Finmap.singleton 0 .localhost⟩
  server_id := none
  started := ∅
  running := ∅
  raft_running := false
  signalled := false
  senders_dropped := false
  endpoint_closed := false

def all_tasks : Finset BackgroundTask :=
  {.main_loop, .detect_failures, .watch_membership_changes, .graceful_shutdown, .accept_loop}

/-- The newcomer with the id 1, when it begins to join. -/
theorem newcomer_begins : ∃ c, (attempt 1).Reachable c ∧
    c.shared = { single_node with
      server_id := some 1, started := all_tasks, running := all_tasks, raft_running := true } ∧
    c.worker () = some (Cluster.join 1 1 (.on_port 35002) (SocketAddr.localhost, "localhost") >>=
      fun _ => (pure ⟨1, (Node.on_port 35002).addr, (Node.on_port 35002).addr⟩ :
        ExceptT SpawnClusterError SpawnProg ClusterRef)).run := by
  have h₀ : (attempt 1).Reachable ⟨single_node, fun _ => none⟩ :=
    .init ⟨⟨rfl, rfl, rfl, rfl, rfl, rfl, rfl⟩, fun _ => rfl⟩
  have h₁ := Crew.start h₀ () newcomer (.inl rfl) ⟨rfl, rfl⟩
  have h₂ := Crew.call h₁ () (o := .create_endpoint _ _ _) (.ok ()) rfl rfl
  have h₃ := Crew.call h₂ () (o := .spawn_task .accept_loop) () rfl rfl
  have h₄ := Crew.call h₃ () (o := .local_addr) (.ok (Node.on_port 35002).addr) rfl rfl
  have h₅ := Crew.call h₄ () (o := .generate_id) (1 : Nat) rfl ⟨by decide, rfl⟩
  have h₆ := Crew.call h₅ () (o := .raft_new 1) (.ok ()) rfl rfl
  have h₇ := Crew.call h₆ () (o := .spawn_task .graceful_shutdown) () rfl rfl
  have h₈ := Crew.call h₇ () (o := .spawn_task .watch_membership_changes) () rfl rfl
  have h₉ := Crew.call h₈ () (o := .spawn_task .detect_failures) () rfl rfl
  have h₁₀ := Crew.call h₉ () (o := .spawn_task .main_loop) () rfl rfl
  exact ⟨_, h₁₀, rfl, rfl⟩

/-- The seed cannot be reached. -/
theorem unreachable_seed_leaves_node : ∃ c, (attempt 1).Reachable c ∧
    c.worker () = some (.pure (.error (.Join (.Transport (.Connect "unreachable"))))) ∧
    ¬ c.shared.NothingLeft := by
  obtain ⟨c, hc, -, hw⟩ := newcomer_begins
  have h₁ := Crew.call hc () (o := .node (.connect 1 .localhost)) (.error (.Connect "unreachable")) hw rfl
  exact ⟨_, h₁, rfl, (failed_join_leaves_node h₁ (e := .Join (.Transport (.Connect "unreachable")))
    trivial rfl).1⟩

/-- Node 0 accepts the newcomer as a learner and is then lost. The newcomer is in
    the membership, and all its tasks are running, when `spawn` reports the failure. -/
theorem lost_leader_leaves_learner : ∃ c, (attempt 1).Reachable c ∧
    c.worker () = some (.pure (.error (.Join (.Transport (.Connection "timed out"))))) ∧
    c.shared.server_id = some 1 ∧ 1 ∈ c.shared.membership.nodes ∧ c.shared.running = all_tasks ∧
    ¬ c.shared.NothingLeft := by
  obtain ⟨c, hc, hs, hw⟩ := newcomer_begins
  have h₁ := Crew.call hc () (o := .node (.connect 1 .localhost)) (.ok ⟨0⟩) hw rfl
  have h₂ := Crew.call h₁ ()
    (o := .node (.exchange 1 ⟨0⟩ ⟨none, .AddLearner 1 (.on_port 35002) true⟩))
    (.ok (.ok (.AddLearner ⟨⟨⟨1, 0⟩, 2⟩, .Noop, none⟩))) rfl (.inr rfl)
  have h₃ := Crew.call h₂ ()
    (o := .node (.exchange 1 ⟨0⟩ ⟨none, .ChangeMembership (.AddVoterIds {1}) true⟩))
    (.error (.Transport (.Connection "timed out"))) rfl (.inl rfl)
  refine ⟨_, h₃, rfl, ?_, ?_, ?_, ?_⟩
  · simp [hs]
  · simp only [hs]
    decide
  · simp [hs]
  · intro hnone
    apply hnone.accept_loop
    simp only [hs]
    decide

end example_cluster

end Spawning

end Distruct

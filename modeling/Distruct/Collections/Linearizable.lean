import Distruct.Collections.ReadPath

/-! # Linearizable Reads

    The reads of `DMap` and `DMultiMap` as jobs of a cluster, next to requests
    of every kind that other clients send to any of its nodes.
-/

namespace Distruct

open LTS (Rely)
open Postcard (Bytes)
open World (progress progress_kept Advances)

/-! ### What the reads look at -/

section looks
variable (name : String) (key : Bytes)

/-- A read that makes one call, which leaves everything as it is. -/
theorem looks_call {α : Type} {o : NodeId → Op} {k : (i : NodeId) → (o i).Resp → α}
    {P : StateMachineData → α → Prop}
    (h : ∀ i w w' r, World.call w (o i) r w' → P (w.data i) (k i r) ∧ w' = w) :
    Looks (fun i => .call (o i) fun r => .pure (k i r)) P := by
  intro i Q s hnext
  refine Rely.wp_call_kept progress_kept ?_
  intro s₁ hi hr r s₂ hcall
  obtain ⟨hval, rfl⟩ := h i s₁ s₂ r hcall.2
  exact hnext s₂ hi hr (k i r) hval

theorem looks_get_with_lock :
    Looks (fun i => ask (.get_with_lock i name key)) fun d a => a = d.get_with_lock name key :=
  looks_call fun _ _ _ _ h => h

theorem looks_contains_key :
    Looks (fun i => ask (.contains_key i name key)) fun d a => a = d.contains_key name key :=
  looks_call fun _ _ _ _ h => h

theorem looks_map_len :
    Looks (fun i => ask (.map_len i name)) fun d a => a = d.map_len name :=
  looks_call fun _ _ _ _ h => h

theorem looks_len_stale {K V : Type} :
    Looks (fun i => (⟨name, i⟩ : DMap K V).len_stale) fun d a => a = (d.map_len name).getD 0 :=
  looks_call fun _ _ _ _ h => ⟨congrArg (·.getD 0) h.1, h.2⟩

theorem looks_get_with_lock_multi :
    Looks (fun i => ask (.get_with_lock_multi i name key)) fun d a =>
      Option.Rel HashSet.Lists (d.get_with_lock_multi name key) a :=
  looks_call fun _ _ _ _ h => h

end looks

/-! ### The four methods -/

section methods
variable {K V Q : Type} [Serialize Q] {s : World} {c : ReadConsistency}

theorem wp_get_with [Deserialize V] (hc : c.linearizable = true) (hi : s.Inv) (fuel : Nat)
    (m : DMap K V) (key : Q) :
    progress.wp (Rely.ifOk (Seen s fun d value => ∃ bs, Serialize.to_allocvec key = .ok bs ∧
      DMap.decode_value (d.get_with_lock m.name bs) = .ok value))
      (linked (m.get_with fuel key c)) s := by
  refine wp_read_with hc hi ?_ ?_
  · intro s₁ hi₁ h₁
    refine wp_to_allocvec fun bs hbs => ?_
    refine wp_seen_imp ?_ (wp_decode hi₁
      (wp_linked_look (looks_get_with_lock m.name bs) ⟨rfl, fun _ _ => trivial⟩ h₁))
    intro d value hobs
    obtain ⟨a, rfl, ha⟩ := hobs
    exact ⟨bs, hbs, ha⟩
  · intro client s₁ hi₁ h₁
    refine wp_to_allocvec fun bs hbs => ?_
    refine wp_seen_imp (P := fun d b => ∃ a, a = d.get_with_lock m.name bs ∧
      DMap.decode_value a = .ok b) ?_ (wp_decode hi₁ ?_)
    · intro d value hobs
      obtain ⟨a, rfl, ha⟩ := hobs
      exact ⟨bs, hbs, ha⟩
    · exact wp_client_call (looks_get_with_lock m.name bs) hc (fun _ => rfl) (fun _ => rfl)
        fuel client hi₁ h₁

theorem wp_contains_key_with (hc : c.linearizable = true) (hi : s.Inv) (fuel : Nat)
    (m : DMap K V) (key : Q) :
    progress.wp (Rely.ifOk (Seen s fun d found => ∃ bs, Serialize.to_allocvec key = .ok bs ∧
      found = d.contains_key m.name bs)) (linked (m.contains_key_with fuel key c)) s := by
  refine wp_read_with hc hi ?_ ?_
  · intro s₁ hi₁ h₁
    refine wp_to_allocvec fun bs hbs => ?_
    refine wp_seen_imp ?_ (wp_decode (g := .ok) hi₁
      (wp_linked_look (looks_contains_key m.name bs) ⟨rfl, fun _ _ => trivial⟩ h₁))
    intro d value hobs
    obtain ⟨a, rfl, ha⟩ := hobs
    cases ha
    exact ⟨bs, hbs, rfl⟩
  · intro client s₁ hi₁ h₁
    refine wp_to_allocvec fun bs hbs => ?_
    refine wp_seen_imp (P := fun d a => a = d.contains_key m.name bs) (fun _ _ h => ⟨bs, hbs, h⟩) ?_
    exact wp_client_call (looks_contains_key m.name bs) hc (fun _ => rfl) (fun _ => rfl)
      fuel client hi₁ h₁

theorem wp_len_with (hc : c.linearizable = true) (hi : s.Inv) (fuel : Nat) (m : DMap K V) :
    progress.wp (Rely.ifOk (Seen s fun d n => n = (d.map_len m.name).getD 0))
      (linked (m.len_with fuel c)) s := by
  refine wp_read_with hc hi ?_ ?_
  · intro s₁ hi₁ h₁
    exact wp_linked_look (looks_len_stale m.name) ⟨rfl, fun _ _ => trivial⟩ h₁
  · intro client s₁ hi₁ h₁
    refine wp_seen_imp (P := fun d b => ∃ a, a = d.map_len m.name ∧ Except.ok (a.getD 0) = .ok b)
      ?_ (wp_decode hi₁ ?_)
    · intro d n hobs
      obtain ⟨a, rfl, ha⟩ := hobs
      cases ha
      rfl
    · exact wp_client_call (looks_map_len m.name) hc (fun _ => rfl) (fun _ => rfl)
        fuel client hi₁ h₁

theorem wp_multi_get_with [Deserialize V] (hc : c.linearizable = true) (hi : s.Inv) (fuel : Nat)
    (m : DMultiMap K V) (key : Q) :
    progress.wp (Rely.ifOk (Seen s fun d values => ∃ bs l, Serialize.to_allocvec key = .ok bs ∧
      Option.Rel HashSet.Lists (d.get_with_lock_multi m.name bs) l ∧
      DMultiMap.decode_values l = .ok values)) (linked (m.get_with fuel key c)) s := by
  refine wp_read_with hc hi ?_ ?_
  · intro s₁ hi₁ h₁
    refine wp_to_allocvec fun bs hbs => ?_
    refine wp_seen_imp ?_ (wp_decode hi₁
      (wp_linked_look (looks_get_with_lock_multi m.name bs) ⟨rfl, fun _ _ => trivial⟩ h₁))
    intro d value hobs
    obtain ⟨l, hl, hval⟩ := hobs
    exact ⟨bs, l, hbs, hl, hval⟩
  · intro client s₁ hi₁ h₁
    refine wp_to_allocvec fun bs hbs => ?_
    refine wp_seen_imp (P := fun d b => ∃ l,
      Option.Rel HashSet.Lists (d.get_with_lock_multi m.name bs) l ∧
      DMultiMap.decode_values l = .ok b) ?_ (wp_decode hi₁ ?_)
    · intro d value hobs
      obtain ⟨l, hl, hval⟩ := hobs
      exact ⟨bs, l, hbs, hl, hval⟩
    · exact wp_client_call (looks_get_with_lock_multi m.name bs) hc (fun _ => rfl) (fun _ => rfl)
        fuel client hi₁ h₁

end methods

/-! ### Reads as jobs

    The types of keys and values are drawn from any family `Ty` of types that
    can be encoded and decoded. A key may be looked up in another form than the
    one it is stored in. -/

section jobs
variable {T : Type} (Ty : T → Type)

inductive Query where
  | get (k v q : T) (key : Ty q)
  | contains_key (k v q : T) (key : Ty q)
  | len (k v : T)
  | get_multi (k v q : T) (key : Ty q)

inductive Answer where
  | get (v : T) (value : Option (Ty v))
  | contains_key (found : Bool)
  | len (n : Nat)
  | get_multi (v : T) (values : List (Ty v))

/-- A read of the collection `name` on the node `cluster`. -/
structure Reading where
  name : String
  cluster : NodeId
  fuel : Nat
  query : Query Ty
  consistency : ReadConsistency

/-- A read, or the handling of any message on any node. -/
inductive ClusterJob where
  | serve (i : NodeId) (message : Request)
  | read (r : Reading Ty)

/-- What a job returns. -/
inductive Outcome where
  | reply (r : Except RemoteError Response)
  | answer (r : Except Error (Answer Ty))

variable {Ty} [∀ t, Serialize (Ty t)] [∀ t, Deserialize (Ty t)]

def Reading.method (r : Reading Ty) : NodeResult Error (Answer Ty) :=
  match r.query with
  | .get k v _ key => do
    return .get v (← (⟨r.name, r.cluster⟩ : DMap (Ty k) (Ty v)).get_with r.fuel key r.consistency)
  | .contains_key k v _ key => do
    return .contains_key
      (← (⟨r.name, r.cluster⟩ : DMap (Ty k) (Ty v)).contains_key_with r.fuel key r.consistency)
  | .len k v => do
    return .len (← (⟨r.name, r.cluster⟩ : DMap (Ty k) (Ty v)).len_with r.fuel r.consistency)
  | .get_multi k v _ key => do
    return .get_multi v
      (← (⟨r.name, r.cluster⟩ : DMultiMap (Ty k) (Ty v)).get_with r.fuel key r.consistency)

/-- The answers that the data `d` justifies. -/
def Reading.Observes (r : Reading Ty) (d : StateMachineData) (a : Answer Ty) : Prop :=
  match r.query with
  | .get _ v _ key => ∃ bs value, Serialize.to_allocvec key = .ok bs ∧
      DMap.decode_value (d.get_with_lock r.name bs) = .ok value ∧ a = .get v value
  | .contains_key _ _ _ key => ∃ bs, Serialize.to_allocvec key = .ok bs ∧
      a = .contains_key (d.contains_key r.name bs)
  | .len _ _ => a = .len ((d.map_len r.name).getD 0)
  | .get_multi _ v _ key => ∃ bs l values, Serialize.to_allocvec key = .ok bs ∧
      Option.Rel HashSet.Lists (d.get_with_lock_multi r.name bs) l ∧
      DMultiMap.decode_values l = .ok values ∧ a = .get_multi v values

def ClusterJob.run : ClusterJob Ty → NodeProg (Outcome Ty)
  | .serve i message => Outcome.reply <$> handle_message i message
  | .read r => Outcome.answer <$> linked r.method

/-- What a job promises: a successful linearizable read shows a prefix that is
    long enough. -/
def ClusterJob.Post : ClusterJob Ty → World → Outcome Ty → World → Prop
  | .read r, s₀, .answer (.ok a), s => r.consistency.linearizable = true → Seen s₀ r.Observes a s
  | _, _, _, _ => True

theorem wp_reading {s : World} (hi : s.Inv) (r : Reading Ty)
    (hc : r.consistency.linearizable = true) :
    progress.wp (Rely.ifOk (Seen s r.Observes)) (linked r.method) s := by
  obtain ⟨name, cluster, fuel, query, consistency⟩ := r
  cases query with
  | get k v q key =>
    refine wp_seen_imp ?_ (wp_decode (g := fun value => .ok (Answer.get v value)) hi
      (wp_get_with (K := Ty k) hc hi fuel ⟨name, cluster⟩ key))
    intro d a hobs
    obtain ⟨value, ⟨bs, hbs, hval⟩, ha⟩ := hobs
    cases ha
    exact ⟨bs, value, hbs, hval, rfl⟩
  | contains_key k v q key =>
    refine wp_seen_imp ?_ (wp_decode (g := fun found => .ok (Answer.contains_key found)) hi
      (wp_contains_key_with (K := Ty k) (V := Ty v) hc hi fuel ⟨name, cluster⟩ key))
    intro d a hobs
    obtain ⟨value, ⟨bs, hbs, rfl⟩, ha⟩ := hobs
    cases ha
    exact ⟨bs, hbs, rfl⟩
  | len k v =>
    refine wp_seen_imp ?_ (wp_decode (g := fun n => .ok (Answer.len n)) hi
      (wp_len_with (K := Ty k) (V := Ty v) hc hi fuel ⟨name, cluster⟩))
    intro d a hobs
    obtain ⟨n, rfl, ha⟩ := hobs
    cases ha
    rfl
  | get_multi k v q key =>
    refine wp_seen_imp ?_ (wp_decode (g := fun values => .ok (Answer.get_multi v values)) hi
      (wp_multi_get_with (K := Ty k) hc hi fuel ⟨name, cluster⟩ key))
    intro d a hobs
    obtain ⟨values, ⟨bs, l, hbs, hl, hval⟩, ha⟩ := hobs
    cases ha
    exact ⟨bs, l, values, hbs, hl, hval, rfl⟩

theorem wp_job {s : World} (hi : s.Inv) (j : ClusterJob Ty) : progress.wp (j.Post s) j.run s := by
  cases j with
  | serve i message => exact Rely.wp_of_forall progress_kept (fun _ _ => trivial) _ s
  | read r =>
    refine Rely.wp_map ?_
    by_cases hc : r.consistency.linearizable = true
    · refine Rely.wp_mono ?_ (wp_reading hi r hc)
      intro out s₁ h
      cases out with
      | error e => trivial
      | ok a => exact fun _ => h a rfl
    · refine Rely.wp_of_forall progress_kept ?_ _ s
      intro out s₁
      cases out with
      | error e => trivial
      | ok a => exact fun h => absurd h hc

/-- Task `t` is a linearizable read that returned `a` at the given time. -/
structure ReadReturned (c : LTS.Pool World Op Op.Resp (ClusterJob Ty) (Outcome Ty)) (t : Nat)
    (task : LTS.Task World Op Op.Resp (ClusterJob Ty) (Outcome Ty)) (r : Reading Ty)
    (a : Answer Ty) (time : Nat) : Prop where
  task_eq : c.tasks[t]? = some task
  job : task.job = .read r
  linearizable : r.consistency.linearizable = true
  todo : task.todo = .pure (.answer (.ok a))
  ended : ∃ s, task.ended = some (time, s)

/-- The prefix that a read has seen, where it began and where it returned. -/
theorem ReadReturned.seen {c : LTS.Pool World Op Op.Resp (ClusterJob Ty) (Outcome Ty)}
    (hinv : Rely.PoolInv progress ClusterJob.Post c) {t : Nat}
    {task : LTS.Task World Op Op.Resp (ClusterJob Ty) (Outcome Ty)} {r : Reading Ty}
    {a : Answer Ty} {time : Nat} (h : ReadReturned c t task r a time) :
    ∃ s, task.ended = some (time, s) ∧ Advances s c.shared ∧ Seen task.started r.Observes a s := by
  obtain ⟨s, hs⟩ := h.ended
  obtain ⟨_, hadv, out, htodo, hpost⟩ :=
    (hinv.task task (List.mem_of_getElem? h.task_eq)).returned hs
  rw [h.todo] at htodo
  cases htodo
  rw [h.job] at hpost
  exact ⟨s, hs, hadv, hpost h.linearizable⟩

/-- **Linearizable reads**: in every run without removals, under every order of
    the nodes' steps and every change of the leader, each successful read with
    consistency `LeaseRead` or `ReadIndex` observes a prefix of the committed
    log that holds every write acknowledged before the read was started, and a
    read that is started after another one has returned does not observe a
    shorter prefix. -/
theorem reads_linearizable {c : LTS.Pool World Op Op.Resp (ClusterJob Ty) (Outcome Ty)}
    (hc : (LTS.tasks (world.restrict World.forward World.misses) ClusterJob.run).Reachable c) :
    ∃ observed : Nat → Nat,
      (∀ t task r a time, ReadReturned c t task r a time →
        (∀ k ∈ task.started.acked, k < observed t) ∧
        observed t ≤ c.shared.log.length ∧
        r.Observes (replay c.shared.log (observed t)).data a) ∧
      (∀ t₁ t₂ task₁ task₂ r₁ r₂ a₁ a₂ time₁ time₂,
        ReadReturned c t₁ task₁ r₁ a₁ time₁ → ReadReturned c t₂ task₂ r₂ a₂ time₂ →
        time₁ ≤ task₂.began → observed t₁ ≤ observed t₂) := by
  have hinv := progress.tasks_sound ClusterJob.Post (fun j s hi => wp_job hi j) hc
  -- the prefix lies between the logs at the start and at the return
  have hone : ∀ t, ∃ n, ∀ task r a time, ReadReturned c t task r a time →
      ∃ s, task.ended = some (time, s) ∧ Advances s c.shared ∧
        task.started.log.length ≤ n ∧ n ≤ s.log.length ∧ r.Observes (replay s.log n).data a := by
    intro t
    -- a task that is no such read may observe anything
    by_cases h : ∃ task r a time, ReadReturned c t task r a time
    · obtain ⟨task, r, a, time, h⟩ := h
      obtain ⟨s, hs, hadv, n, hlo, hhi, hobs⟩ := h.seen hinv
      refine ⟨n, ?_⟩
      intro task' r' a' time' h'
      cases h.task_eq.symm.trans h'.task_eq
      cases h.job.symm.trans h'.job
      cases h.todo.symm.trans h'.todo
      obtain ⟨s', hs'⟩ := h'.ended
      cases hs.symm.trans hs'
      exact ⟨s, hs, hadv, hlo, hhi, hobs⟩
    · exact ⟨0, fun task r a time h' => absurd ⟨task, r, a, time, h'⟩ h⟩
  choose observed hobserved using hone
  refine ⟨observed, ?_, ?_⟩
  · intro t task r a time h
    obtain ⟨s, _, hadv, hlo, hhi, hobs⟩ := hobserved t task r a time h
    refine ⟨?_, ?_, ?_⟩
    · intro k hk
      -- the writes acknowledged at the start are in the log of that moment
      have htask := hinv.task task (List.mem_of_getElem? h.task_eq)
      exact Nat.lt_of_lt_of_le (htask.started_inv.acked_lt k hk) hlo
    · exact Nat.le_trans hhi hadv.log.length_le
    · rw [replay_of_advances hadv hhi]
      exact hobs
  · intro t₁ t₂ task₁ task₂ r₁ r₂ a₁ a₂ time₁ time₂ h₁ h₂ htime
    obtain ⟨s₁, hs₁, _, _, hhi, _⟩ := hobserved t₁ _ _ _ _ h₁
    obtain ⟨s₂, _, _, hlo, _, _⟩ := hobserved t₂ _ _ _ _ h₂
    -- the first read had returned when the second one began
    have hbetween := hinv.ordered task₁ (List.mem_of_getElem? h₁.task_eq) task₂
      (List.mem_of_getElem? h₂.task_eq) hs₁ htime
    exact hhi.trans (hbetween.log.length_le.trans hlo)

end jobs

/-! ### A read after a write -/

def leader_metrics : RaftMetrics := ⟨0, .Leader, some 0, default⟩

/-- Jobs with bytes as keys and values. -/
def bytes_job : ClusterJob (fun _ : Unit => Bytes) → NodeProg (Outcome fun _ : Unit => Bytes) :=
  ClusterJob.run

/-- An insertion has been acknowledged by the leader. -/
theorem insert_acknowledged :
    ∃ w n t, (LTS.tasks (world.restrict World.forward World.misses)
        bytes_job).Reachable ⟨w, n, [t]⟩ ∧
      w.acked = [0] ∧ w.log = [insert_entry] ∧
      w.node 0 = ⟨((default : StateMachine).apply [insert_entry]).2, leader_metrics⟩ := by
  refine ⟨_, _, _, .step (.call 0 (.await_write 0 (.Insert "m" [1] [2])))
    (.step (.env (.apply 0 1)) (.step (.env (.commit insert_entry))
    (.step (.call 0 (.submit_write 0 (.Insert "m" [1] [2])))
    (.step (.spawn (.serve 0 ⟨none, .Insert "m" [1] [2]⟩)) (.step (.env (.observe 0 leader_metrics))
    (.init (s := ⟨World.fresh, 0, []⟩) ⟨⟨rfl, fun _ => rfl, rfl, rfl, rfl, rfl⟩, rfl, rfl⟩)
    ⟨_, ⟨trivial, rfl⟩, rfl⟩) rfl)
    ⟨_, _, (), _, rfl, rfl, ⟨trivial, rfl⟩, rfl⟩) ⟨_, ⟨trivial, rfl, ?_, rfl⟩, rfl⟩)
    ⟨_, ⟨trivial, rfl⟩, rfl⟩)
    ⟨_, _, .ok ⟨insert_entry.log_id, .Insert none, none⟩, _, rfl, rfl,
      ⟨trivial, insert_entry, List.mem_singleton.mpr rfl, rfl, rfl, ?_, rfl⟩, rfl⟩, rfl, rfl, rfl⟩
  · intro req h
    cases h
    exact List.mem_singleton.mpr rfl
  · exact List.mem_singleton.mpr rfl

/-- The leader is then asked for the length of the map. -/
theorem reads_linearizable_after_insert :
    ∃ c task r time n, (LTS.tasks (world.restrict World.forward World.misses)
        bytes_job).Reachable c ∧
      ReadReturned c 1 task r (.len 1) time ∧
      0 ∈ task.started.acked ∧ 0 < n ∧ r.Observes (replay c.shared.log n).data (.len 1) := by
  obtain ⟨w, clock, t, hc, hacked, hlog, hnode⟩ := insert_acknowledged
  obtain ⟨c, task, hc, hread, hstarted⟩ : ∃ c task,
      (LTS.tasks (world.restrict World.forward World.misses)
        bytes_job).Reachable c ∧
      ReadReturned c 1 task ⟨"m", 0, 0, .len () (), .ReadIndex⟩ (.len 1) (clock + 5) ∧
      task.started = w := by
    refine ⟨_, _, .step (.call 1 (.map_len 0 "m")) (.step (.call 1 (.await_read 0 ⟨1⟩))
      (.step (.call 1 (.begin_read 0)) (.step (.call 1 (.current_leader 0))
      (.step (.spawn (.read ⟨"m", 0, 0, .len () (), .ReadIndex⟩)) hc rfl)
      ⟨_, _, some 0, w, rfl, rfl, ⟨trivial, ?_, rfl⟩, rfl⟩)
      ⟨_, _, ⟨1⟩, w, rfl, rfl, ⟨trivial, ?_, rfl⟩, rfl⟩)
      ⟨_, _, .ok none, w, rfl, rfl, ⟨trivial, ?_, rfl⟩, rfl⟩)
      ⟨_, _, some 1, w, rfl, rfl, ⟨trivial, ?_, rfl⟩, rfl⟩,
      ⟨rfl, rfl, rfl, rfl, _, rfl⟩, rfl⟩
    · simp only [hnode, leader_metrics]
    · simp only [hlog, List.length_singleton]
    · simp only [World.applied, hnode]
      decide
    · simp only [World.data, NodeState.data, hnode]
      decide
  obtain ⟨observed, hobs, _⟩ := reads_linearizable hc
  obtain ⟨hacked', _, hval⟩ := hobs 1 task _ _ _ hread
  have hmem : 0 ∈ task.started.acked := by simp [hstarted, hacked]
  exact ⟨c, task, _, _, observed 1, hc, hread, hmem, hacked' 0 hmem, hval⟩

end Distruct

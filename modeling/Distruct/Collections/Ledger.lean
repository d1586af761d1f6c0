import Distruct.Collections.Linearizable
import Distruct.Connection.RequestPath

/-! # A Ledger of Writes

    The cluster again, with notes on who wrote what: which calls have begun,
    which writes each of them has handed to Raft, and for every entry of the
    committed log the submission that it comes from. The notes change nothing
    about the moves of the cluster. They say more precisely what Raft does with
    a write:

    - An entry with a request comes from one submission of that request, and no
      submission is committed twice.
    - A write is acknowledged with the entry that comes from the submission
      that is being waited for.
    - A write that is refused, also one that is refused with a hint at another
      leader, may be committed all the same, then or later.
-/

namespace Distruct

open LTS (Rely Discipline)
open World (Advances)

/-! ### What `apply` answered -/

/-- Every answer of a node is the response of the prefix of the log that its
    entry ends. -/
def World.Answered (w : World) : Prop :=
  ∀ i id d, (id, d) ∈ w.answers i →
    ∃ k e, w.log[k]? = some e ∧ e.log_id = id ∧ d = (apply_entry (replay w.log k) e).2

namespace World

variable {w w' : World}

theorem Answered.of_init (h : w.init) : w.Answered := by
  obtain ⟨_, _, hans, _⟩ := h
  simp [Answered, hans]

/-- A position of the log keeps its entry and the prefix before it. -/
theorem kept_of_prefix {log log' : List Entry} (h : log <+: log') {k : Nat} {e : Entry}
    (hk : log[k]? = some e) : log'[k]? = some e ∧ replay log' k = replay log k := by
  obtain ⟨more, rfl⟩ := h
  obtain ⟨hlt, _⟩ := List.getElem?_eq_some_iff.mp hk
  refine ⟨?_, ?_⟩
  · rw [List.getElem?_append_left hlt]
    exact hk
  · exact Replay.upTo_append _ (Nat.le_of_lt hlt)

/-- A longer log with the same answers. -/
theorem Answered.extend (h : w.Answered) (hlog : w.log <+: w'.log)
    (hans : w'.answers = w.answers) : w'.Answered := by
  intro i id d hmem
  rw [hans] at hmem
  obtain ⟨k, e, hk, hid, hd⟩ := h i id d hmem
  obtain ⟨hk', hreplay⟩ := kept_of_prefix hlog hk
  exact ⟨k, e, hk', hid, by rw [hreplay]; exact hd⟩

/-- A batch of entries is answered in the states of the log. -/
theorem Inv.answered_batch (hinv : w.Inv) (i : NodeId) (n : Nat) {id : LogId}
    {d : RaftResponse} (hmem : (id, d) ∈ (((w.backlog i).take n).map Entry.log_id).zip
      ((w.node i).sm.apply ((w.backlog i).take n)).1) :
    ∃ k e, w.log[k]? = some e ∧ e.log_id = id ∧ d = (apply_entry (replay w.log k) e).2 := by
  obtain ⟨j, hj⟩ := List.mem_iff_getElem?.mp hmem
  rw [List.getElem?_zip_eq_some] at hj
  obtain ⟨hid, hd⟩ := hj
  -- the node starts the batch from the prefix that it has applied
  rw [StateMachine.apply, (hinv.replica i).2] at hd
  have hpre : (w.backlog i).take n <+: w.log.drop (w.applied i) := List.take_prefix n _
  obtain ⟨e, he, hlog, rfl⟩ := Replay.getElem?_feed_upTo apply_entry hpre hd
  rw [List.getElem?_map, he] at hid
  cases hid
  exact ⟨_, e, hlog, rfl, rfl⟩

/-- What a move of Raft does to the log and to the answers: the log only grows, and only
    a node that applies a batch answers. -/
theorem answers_of_move {m : RaftMove} (hm : w.move m w') :
    w.log <+: w'.log ∧ ∀ i id d, (id, d) ∈ w'.answers i → (id, d) ∈ w.answers i ∨
      ∃ n, m = .apply i n ∧ (id, d) ∈ (((w.backlog i).take n).map Entry.log_id).zip
        ((w.node i).sm.apply ((w.backlog i).take n)).1 := by
  cases m with
  | commit e =>
    obtain ⟨_, _, rfl⟩ := hm
    exact ⟨List.prefix_append _ _, fun _ _ _ hmem => .inl hmem⟩
  | apply i n =>
    cases hm
    refine ⟨List.prefix_refl _, ?_⟩
    intro j id d hmem
    by_cases hj : j = i
    · subst hj
      simp only [Function.update_self] at hmem
      rcases List.mem_append.mp hmem with hmem | hmem
      · exact .inl hmem
      · exact .inr ⟨n, rfl, hmem⟩
    · simp only [Function.update_of_ne hj] at hmem
      exact .inl hmem
  | build_snapshot i ord =>
    obtain ⟨snap, sm, _, rfl⟩ := hm
    exact ⟨List.prefix_refl _, fun _ _ _ hmem => .inl hmem⟩
  | install_snapshot i snap =>
    obtain ⟨_, rfl⟩ := hm
    exact ⟨List.prefix_refl _, fun _ _ _ hmem => .inl hmem⟩
  | observe i m =>
    cases hm
    exact ⟨List.prefix_refl _, fun _ _ _ hmem => .inl hmem⟩

theorem Answered.move (h : w.Answered) (hinv : w.Inv) {m : RaftMove} (hm : w.move m w') :
    w'.Answered := by
  obtain ⟨hlog, hans⟩ := answers_of_move hm
  intro i id d hmem
  have hold : ∃ k e, w.log[k]? = some e ∧ e.log_id = id ∧ d = (apply_entry (replay w.log k) e).2 := by
    rcases hans i id d hmem with hmem | ⟨n, _, hmem⟩
    · exact h i id d hmem
    · exact hinv.answered_batch i n hmem
  obtain ⟨k, e, hk, hid, hd⟩ := hold
  obtain ⟨hk', hreplay⟩ := kept_of_prefix hlog hk
  exact ⟨k, e, hk', hid, by rw [hreplay]; exact hd⟩

/-- No call touches the log or what the nodes have answered. -/
theorem call_log {o : Op} {r : o.Resp} (hc : w.call o r w') :
    w'.log = w.log ∧ w'.answers = w.answers := by
  cases o with
  | submit_write i req =>
    cases hc
    exact ⟨rfl, rfl⟩
  | await_write i req =>
    cases r with
    | error err =>
      cases hc
      exact ⟨rfl, rfl⟩
    | ok resp =>
      obtain ⟨e, _, _, _, _, rfl⟩ := hc
      exact ⟨rfl, rfl⟩
  | await_read i ticket =>
    cases r with
    | error err =>
      cases hc
      exact ⟨rfl, rfl⟩
    | ok l =>
      obtain ⟨_, rfl⟩ := hc
      exact ⟨rfl, rfl⟩
  | exchange i conn msg => cases hc
  | panic reason => cases r
  | out_of_fuel => cases r
  | add_learner | change_membership | append_entries | vote | connect | force_remove | on_heartbeat
  | elapsed | shutdown | broadcast_shutdown | transmit =>
    cases hc
    exact ⟨rfl, rfl⟩
  | _ =>
    obtain ⟨_, rfl⟩ := hc
    exact ⟨rfl, rfl⟩

theorem Answered.call (h : w.Answered) {o : Op} {r : o.Resp} (hc : w.call o r w') : w'.Answered := by
  obtain ⟨hlog, hans⟩ := call_log hc
  exact h.extend (by rw [hlog]) hans

end World

/-! ### The ledger -/

structure Ledger (ι Job : Type) where
  world : World
  /-- The calls that have begun, each with the length of the log at that time. -/
  calls : ι → Option (Job × Nat)
  /-- The writes handed to Raft, each with the call that did so. -/
  submissions : List (ι × RaftRequest)
  /-- For each entry of the log the submission that it comes from. -/
  origins : List (Option Nat)
  /-- The latest submission of each call. -/
  latest : ι → Option Nat
  /-- How often a write of each call was redirected to another leader. -/
  redirects : ι → Nat

namespace Ledger

variable {ι Job : Type} [DecidableEq ι]

/-- Where a new entry of the log comes from. -/
def Stems (s : Ledger ι Job) (e : Entry) (origin : Option Nat) : Prop :=
  match e.payload with
  | .Normal req =>
      ∃ id c, origin = some id ∧ s.submissions[id]? = some (c, req) ∧ some id ∉ s.origins
  | _ => origin = none

def init (s : Ledger ι Job) : Prop :=
  s.world.init ∧ s.calls = (fun _ => none) ∧ s.submissions = [] ∧ s.origins = [] ∧
    s.latest = (fun _ => none) ∧ s.redirects = fun _ => 0

/-- A move of Raft. The origin is that of the entry, if one is committed. -/
def env (s : Ledger ι Job) (m : RaftMove × Option Nat) (s' : Ledger ι Job) : Prop :=
  ∃ w', s.world.move m.1 w' ∧
    match m.1 with
    | .commit e => s.Stems e m.2 ∧ s' = { s with world := w', origins := s.origins ++ [m.2] }
    | _ => s' = { s with world := w' }

/-- Each call begins once. -/
def start (c : ι) (s : Ledger ι Job) (j : Job) (s' : Ledger ι Job) : Prop :=
  s.calls c = none ∧
    s' = { s with calls := Function.update s.calls c (some (j, s.world.log.length)) }

def call (c : ι) (s : Ledger ι Job) : (o : Op) → o.Resp → Ledger ι Job → Prop
  | .submit_write i req, r, s' =>
      ∃ w', s.world.call (.submit_write i req) r w' ∧
        s' = { s with
          world := w'
          submissions := s.submissions ++ [(c, req)]
          latest := Function.update s.latest c (some s.submissions.length) }
  | .await_write i req, .error e, s' =>
      ∃ w', s.world.call (.await_write i req) (.error e) w' ∧
        s' = { s with
          world := w'
          redirects :=
            if (Client.redirect (.RaftWrite e)).isSome then
              Function.update s.redirects c (s.redirects c + 1)
            else s.redirects }
  | .await_write i req, .ok resp, s' =>
      -- the entry that is acknowledged comes from the submission that is waited for
      ∃ w' id, ∃ (k : Nat) (e : Entry), s.world.call (.await_write i req) (.ok resp) w' ∧
        s.latest c = some id ∧ s.origins[k]? = some (some id) ∧ s.world.log[k]? = some e ∧
        resp.log_id = e.log_id ∧ s' = { s with world := w' }
  | o, r, s' => ∃ w', s.world.call o r w' ∧ s' = { s with world := w' }

end Ledger

/-- The cluster with its ledger, as what the calls that are under way share. -/
def ledger (ι Job : Type) [DecidableEq ι] :
    LTS.Site ι (Ledger ι Job) (RaftMove × Option Nat) Op Job Op.Resp where
  init := Ledger.init
  env := Ledger.env
  start := Ledger.start
  call := Ledger.call

/-- The ledger of a cluster in which no removal finds anything and no node goes
    back to an older snapshot. -/
def forward_ledger (ι Job : Type) [DecidableEq ι] :
    LTS.Site ι (Ledger ι Job) (RaftMove × Option Nat) Op Job Op.Resp :=
  (ledger ι Job).restrict (fun s m => s.world.forward m.1) fun _ s o => s.world.misses o

namespace Ledger

variable {ι Job : Type} [DecidableEq ι] {s s' : Ledger ι Job} {c : ι}

/-- The submissions of a call. -/
def submitted (s : Ledger ι Job) (c : ι) : Finset Nat :=
  {id ∈ Finset.range s.submissions.length | (s.submissions[id]?).map Prod.fst = some c}

/-- The call that an entry of the log goes back to. -/
def owner (s : Ledger ι Job) (k : Nat) : Option ι :=
  ((s.origins[k]?).join.bind fun id => s.submissions[id]?).map Prod.fst

/-- The positions of the log that go back to a call. -/
def entries (s : Ledger ι Job) (c : ι) : Finset Nat :=
  {k ∈ Finset.range s.world.log.length | s.owner k = some c}

/-! ### What a call does to the ledger -/

/-- What becomes of the notes: nothing, a submission, or a redirect. -/
theorem call_cases {o : Op} {r : o.Resp} (h : s.call c o r s') :
    s.world.call o r s'.world ∧
    ((s' = { s with world := s'.world } ∧ ∀ i req, o ≠ .submit_write i req) ∨
      (∃ i req, o = .submit_write i req ∧
        s' = { s with
          world := s'.world
          submissions := s.submissions ++ [(c, req)]
          latest := Function.update s.latest c (some s.submissions.length) }) ∨
      ∃ i req, o = .await_write i req ∧
        s' = { s with
          world := s'.world
          redirects := Function.update s.redirects c (s.redirects c + 1) }) := by
  cases o with
  | submit_write i req =>
    obtain ⟨w', hw, rfl⟩ := h
    exact ⟨hw, .inr (.inl ⟨i, req, rfl, rfl⟩)⟩
  | await_write i req =>
    cases r with
    | error e =>
      obtain ⟨w', hw, rfl⟩ := h
      refine ⟨hw, ?_⟩
      by_cases he : (Client.redirect (.RaftWrite e)).isSome
      · exact .inr (.inr ⟨i, req, rfl, by simp only [he, if_true]⟩)
      · refine .inl ⟨?_, nofun⟩
        simp only [he, Bool.false_eq_true, if_false]
    | ok resp =>
      obtain ⟨w', id, k, e, hw, _, _, _, _, rfl⟩ := h
      exact ⟨hw, .inl ⟨rfl, nofun⟩⟩
  | _ =>
    obtain ⟨w', hw, rfl⟩ := h
    exact ⟨hw, .inl ⟨rfl, nofun⟩⟩

theorem submitted_append (c' : ι) (req : RaftRequest) (w' : World) (l : ι → Option Nat) :
    ({ s with world := w', submissions := s.submissions ++ [(c', req)], latest := l } :
      Ledger ι Job).submitted c
      = if c' = c then insert s.submissions.length (s.submitted c) else s.submitted c := by
  have hold : ∀ id ∈ Finset.range s.submissions.length,
      ((s.submissions ++ [(c', req)])[id]?).map Prod.fst = (s.submissions[id]?).map Prod.fst := by
    intro id hid
    rw [List.getElem?_append_left (Finset.mem_range.mp hid)]
  simp only [submitted, List.length_append, List.length_singleton, Finset.range_add_one,
    Finset.filter_insert, List.getElem?_concat_length, Option.map_some, Option.some.injEq]
  rw [Finset.filter_congr fun id hid => by rw [hold id hid]]

theorem call_log {o : Op} {r : o.Resp} (h : s.call c o r s') : s'.world.log = s.world.log :=
  (World.call_log (call_cases h).1).1

/-- No call begins another one. -/
theorem call_calls {o : Op} {r : o.Resp} (h : s.call c o r s') : s'.calls = s.calls := by
  obtain ⟨_, ⟨hs, _⟩ | ⟨i, req, _, hs⟩ | ⟨i, req, _, hs⟩⟩ := call_cases h <;> rw [hs]

/-- The calls on the way of a request change nothing. -/
theorem eq_of_travels {o : Op} (ho : Travels o) {r : o.Resp} (h : s.call c o r s') : s' = s := by
  cases o with
  | server_metrics | metrics | connect | transmit =>
    obtain ⟨w', hw, rfl⟩ := h
    obtain ⟨_, rfl⟩ := hw
    rfl
  | out_of_fuel => cases r
  | _ => cases ho

/-- A redirect is noted for the call that receives it. -/
theorem redirects_of_redirected {i : NodeId} {req : RaftRequest} {e : RaftError ClientWriteError}
    (h : s.call c (.await_write i req) (.error e) s') (he : (Client.redirect (.RaftWrite e)).isSome) :
    s'.redirects c = s.redirects c + 1 ∧ s'.submitted c = s.submitted c ∧ s'.calls = s.calls := by
  obtain ⟨w', _, rfl⟩ := h
  refine ⟨?_, rfl, rfl⟩
  simp only [he, if_true, Function.update_self]

/-- What the notes on a call keep while it is not the one at work: they stay
    as they are, and the log only grows. -/
structure Keeps (c : ι) (s s' : Ledger ι Job) : Prop where
  calls : s'.calls c = s.calls c
  latest : s'.latest c = s.latest c
  redirects : s'.redirects c = s.redirects c
  submitted : s'.submitted c = s.submitted c
  log : s.world.log <+: s'.world.log
  origins : s.origins <+: s'.origins

theorem Keeps.refl (c : ι) (s : Ledger ι Job) : Keeps c s s :=
  ⟨rfl, rfl, rfl, rfl, List.prefix_refl _, List.prefix_refl _⟩

theorem Keeps.trans {a b d : Ledger ι Job} (h : Keeps c a b) (h' : Keeps c b d) : Keeps c a d where
  calls := h'.calls.trans h.calls
  latest := h'.latest.trans h.latest
  redirects := h'.redirects.trans h.redirects
  submitted := h'.submitted.trans h.submitted
  log := h.log.trans h'.log
  origins := h.origins.trans h'.origins

omit [DecidableEq ι] in
/-- What a move of Raft does to the notes: a new entry has an origin. -/
theorem env_cases {m : RaftMove × Option Nat} (h : s.env m s') :
    s.world.move m.1 s'.world ∧
    ((∃ e, s.Stems e m.2 ∧ s'.world.log = s.world.log ++ [e] ∧
        s' = { s with world := s'.world, origins := s.origins ++ [m.2] }) ∨
      (s'.world.log = s.world.log ∧ s' = { s with world := s'.world })) := by
  obtain ⟨m, origin⟩ := m
  obtain ⟨w', hm, h⟩ := h
  cases m with
  | commit e =>
    obtain ⟨hstems, rfl⟩ := h
    refine ⟨hm, .inl ⟨e, hstems, ?_, rfl⟩⟩
    obtain ⟨_, _, rfl⟩ := hm
    rfl
  | apply i n =>
    cases h
    refine ⟨hm, .inr ⟨?_, rfl⟩⟩
    cases hm
    rfl
  | build_snapshot i ord =>
    cases h
    refine ⟨hm, .inr ⟨?_, rfl⟩⟩
    obtain ⟨snap, sm, _, rfl⟩ := hm
    rfl
  | install_snapshot i snap =>
    cases h
    refine ⟨hm, .inr ⟨?_, rfl⟩⟩
    obtain ⟨_, rfl⟩ := hm
    rfl
  | observe i m =>
    cases h
    refine ⟨hm, .inr ⟨?_, rfl⟩⟩
    cases hm
    rfl

theorem keeps_of_env {m : RaftMove × Option Nat} (h : s.env m s') (c : ι) : Keeps c s s' := by
  obtain ⟨_, ⟨e, _, hlog, hs⟩ | ⟨hlog, hs⟩⟩ := env_cases h
  · have hpre : s.world.log <+: s'.world.log := by
      rw [hlog]
      exact List.prefix_append _ _
    rw [hs]
    exact ⟨rfl, rfl, rfl, rfl, hpre, List.prefix_append _ _⟩
  · have hpre : s.world.log <+: s'.world.log := by rw [hlog]
    rw [hs]
    exact ⟨rfl, rfl, rfl, rfl, hpre, List.prefix_refl _⟩

theorem keeps_of_start {d : ι} {j : Job} (h : s.start d j s') (hd : c ≠ d) : Keeps c s s' := by
  obtain ⟨_, rfl⟩ := h
  exact ⟨Function.update_of_ne hd _ _, rfl, rfl, rfl, List.prefix_refl _, List.prefix_refl _⟩

theorem keeps_of_call {d : ι} {o : Op} {r : o.Resp} (h : s.call d o r s') (hd : c ≠ d) :
    Keeps c s s' := by
  obtain ⟨hw, hcases⟩ := call_cases h
  have hlog : s.world.log <+: s'.world.log := by rw [(World.call_log hw).1]
  rcases hcases with ⟨hs, _⟩ | ⟨i, req, _, hs⟩ | ⟨i, req, _, hs⟩
  · rw [hs]
    exact ⟨rfl, rfl, rfl, rfl, hlog, List.prefix_refl _⟩
  · rw [hs]
    refine ⟨rfl, Function.update_of_ne hd _ _, rfl, ?_, hlog, List.prefix_refl _⟩
    rw [submitted_append, if_neg hd.symm]
  · rw [hs]
    exact ⟨rfl, rfl, Function.update_of_ne hd _ _, rfl, hlog, List.prefix_refl _⟩

/-! ### Well-formed ledgers -/

structure Wf (s : Ledger ι Job) : Prop where
  /-- One origin for each entry. -/
  length : s.origins.length = s.world.log.length
  /-- The entry of a submission carries what was submitted. -/
  origin : ∀ (k id : Nat) (e : Entry), s.origins[k]? = some (some id) → s.world.log[k]? = some e →
    ∃ d req, s.submissions[id]? = some (d, req) ∧ e.payload = .Normal req
  /-- No submission is committed twice. -/
  once : ∀ k₁ k₂ id : Nat, s.origins[k₁]? = some (some id) → s.origins[k₂]? = some (some id) → k₁ = k₂
  /-- Every request in the log was submitted. -/
  submitted : ∀ (k : Nat) (e : Entry) (req : RaftRequest), s.world.log[k]? = some e →
    e.payload = .Normal req → ∃ id : Nat, s.origins[k]? = some (some id)
  /-- A call waits for a submission of its own. -/
  latest : ∀ d id, s.latest d = some id → ∃ req, s.submissions[id]? = some (d, req)

omit [DecidableEq ι] in
theorem Wf.of_init (h : s.init) : s.Wf := by
  obtain ⟨hw, _, hsub, horig, hlatest, _⟩ := h
  refine ⟨?_, ?_, ?_, ?_, ?_⟩
  · rw [horig, hw.1]
    rfl
  · intro k id e hk
    simp [horig] at hk
  · intro k₁ k₂ id hk
    simp [horig] at hk
  · intro k e req hk
    simp [hw.1] at hk
  · intro d id hd
    simp [hlatest] at hd

omit [DecidableEq ι] in
/-- Nothing but the cluster and the calls that have begun has changed. -/
theorem Wf.frame (h : s.Wf) (hlog : s'.world.log = s.world.log)
    (hsub : s'.submissions = s.submissions) (horig : s'.origins = s.origins)
    (hlatest : s'.latest = s.latest) : s'.Wf := by
  obtain ⟨h₁, h₂, h₃, h₄, h₅⟩ := h
  refine ⟨?_, ?_, ?_, ?_, ?_⟩
  · rw [hlog, horig]
    exact h₁
  · rw [hlog, horig, hsub]
    exact h₂
  · rw [horig]
    exact h₃
  · rw [hlog, horig]
    exact h₄
  · rw [hlatest, hsub]
    exact h₅

/-- What stands at the end of a list that was extended by one element. -/
theorem getElem?_concat_cases {α : Type*} {l : List α} {a x : α} {k : Nat}
    (h : (l ++ [a])[k]? = some x) : l[k]? = some x ∨ (k = l.length ∧ x = a) := by
  rw [List.getElem?_append] at h
  split at h
  · exact .inl h
  · rw [List.getElem?_singleton] at h
    split at h
    · cases h
      exact .inr ⟨by omega, rfl⟩
    · cases h

omit [DecidableEq ι] in
theorem Wf.commit (h : s.Wf) {e : Entry} {origin : Option Nat} (hstems : s.Stems e origin)
    (hlog : s'.world.log = s.world.log ++ [e])
    (hs : s' = { s with world := s'.world, origins := s.origins ++ [origin] }) : s'.Wf := by
  have horig : s'.origins = s.origins ++ [origin] := by rw [hs]
  have hsub : s'.submissions = s.submissions := by rw [hs]
  have hlatest : s'.latest = s.latest := by rw [hs]
  -- the origin of the new entry is fresh
  have hfresh : ∀ id, origin = some id → some id ∉ s.origins ∧
      ∃ d req, s.submissions[id]? = some (d, req) ∧ e.payload = .Normal req := by
    intro id hid
    unfold Stems at hstems
    split at hstems
    · next req hreq =>
      obtain ⟨id', d, rfl, hd, hnot⟩ := hstems
      cases hid
      exact ⟨hnot, d, req, hd, hreq⟩
    · rw [hstems] at hid
      cases hid
  refine ⟨?_, ?_, ?_, ?_, ?_⟩
  · rw [horig, hlog, List.length_append, List.length_append, h.length]
    rfl
  · intro k id e' hk he
    rw [horig] at hk
    rw [hlog] at he
    rw [hsub]
    rcases getElem?_concat_cases hk with hk | ⟨rfl, hid⟩
    · obtain ⟨hlt, _⟩ := List.getElem?_eq_some_iff.mp hk
      rw [List.getElem?_append_left (h.length ▸ hlt)] at he
      exact h.origin k id e' hk he
    · rw [h.length, List.getElem?_concat_length] at he
      cases he
      exact (hfresh id hid.symm).2
  · intro k₁ k₂ id hk₁ hk₂
    rw [horig] at hk₁ hk₂
    rcases getElem?_concat_cases hk₁ with hk₁ | ⟨rfl, hid₁⟩ <;>
      rcases getElem?_concat_cases hk₂ with hk₂ | ⟨rfl, hid₂⟩
    · exact h.once k₁ k₂ id hk₁ hk₂
    · exact absurd (List.mem_of_getElem? hk₁) (hfresh id hid₂.symm).1
    · exact absurd (List.mem_of_getElem? hk₂) (hfresh id hid₁.symm).1
    · rfl
  · intro k e' req hk hreq
    rw [hlog] at hk
    rw [horig]
    rcases getElem?_concat_cases hk with hk | ⟨rfl, rfl⟩
    · obtain ⟨id, hid⟩ := h.submitted k e' req hk hreq
      obtain ⟨hlt, _⟩ := List.getElem?_eq_some_iff.mp hid
      exact ⟨id, by rw [List.getElem?_append_left hlt]; exact hid⟩
    · simp only [Stems, hreq] at hstems
      obtain ⟨id, _, rfl, _⟩ := hstems
      exact ⟨id, by rw [← h.length, List.getElem?_concat_length]⟩
  · rw [hlatest, hsub]
    exact h.latest

omit [DecidableEq ι] in
theorem Wf.env (h : s.Wf) {m : RaftMove × Option Nat} (hm : s.env m s') : s'.Wf := by
  obtain ⟨_, ⟨e, hstems, hlog, hs⟩ | ⟨hlog, hs⟩⟩ := env_cases hm
  · exact h.commit hstems hlog hs
  · exact h.frame hlog (by rw [hs]) (by rw [hs]) (by rw [hs])

omit [DecidableEq ι] in
/-- An entry comes from a submission that was made. -/
theorem Wf.origin_lt (h : s.Wf) {k id : Nat} (hk : s.origins[k]? = some (some id)) :
    id < s.submissions.length := by
  obtain ⟨hlt, _⟩ := List.getElem?_eq_some_iff.mp hk
  have he := List.getElem?_eq_getElem (h.length ▸ hlt)
  obtain ⟨d, req, hsub, _⟩ := h.origin k id _ hk he
  exact (List.getElem?_eq_some_iff.mp hsub).1

theorem Wf.start (h : s.Wf) {j : Job} (hs : s.start c j s') : s'.Wf := by
  obtain ⟨_, rfl⟩ := hs
  exact h.frame rfl rfl rfl rfl

/-- A write that is handed to Raft takes the next number. -/
theorem Wf.submit (h : s.Wf) {req : RaftRequest} (hlog : s'.world.log = s.world.log)
    (hs : s' = { s with
      world := s'.world
      submissions := s.submissions ++ [(c, req)]
      latest := Function.update s.latest c (some s.submissions.length) }) : s'.Wf := by
  have hold : ∀ (id : Nat) (x : ι × RaftRequest), s.submissions[id]? = some x →
      s'.submissions[id]? = some x := by
    intro id x hid
    obtain ⟨hlt, _⟩ := List.getElem?_eq_some_iff.mp hid
    rw [hs]
    simp only [List.getElem?_append_left hlt]
    exact hid
  have horig : s'.origins = s.origins := by rw [hs]
  refine ⟨?_, ?_, ?_, ?_, ?_⟩
  · rw [horig, hlog]
    exact h.length
  · intro k id e hk he
    rw [horig] at hk
    rw [hlog] at he
    obtain ⟨d, req', hd, hreq⟩ := h.origin k id e hk he
    exact ⟨d, req', hold id _ hd, hreq⟩
  · rw [horig]
    exact h.once
  · rw [hlog, horig]
    exact h.submitted
  · intro d id hd
    rw [hs] at hd
    by_cases hdc : d = c
    · subst hdc
      simp only [Function.update_self, Option.some.injEq] at hd
      subst hd
      exact ⟨req, by rw [hs]; simp⟩
    · simp only [Function.update_of_ne hdc] at hd
      obtain ⟨req', hreq'⟩ := h.latest d id hd
      exact ⟨req', hold id _ hreq'⟩

theorem Wf.call (h : s.Wf) {o : Op} {r : o.Resp} (hc : s.call c o r s') : s'.Wf := by
  obtain ⟨hw, hcases⟩ := call_cases hc
  have hlog := (World.call_log hw).1
  rcases hcases with ⟨hs, _⟩ | ⟨i, req, _, hs⟩ | ⟨i, req, _, hs⟩
  · exact h.frame hlog (by rw [hs]) (by rw [hs]) (by rw [hs])
  · exact h.submit hlog hs
  · exact h.frame hlog (by rw [hs]) (by rw [hs]) (by rw [hs])

/-! ### Counting -/

/-- An entry goes back to a call by way of one of its submissions. -/
theorem mem_entries {k : Nat} (h : k ∈ s.entries c) :
    ∃ id, s.origins[k]? = some (some id) ∧ id ∈ s.submitted c := by
  obtain ⟨_, hown⟩ := Finset.mem_filter.mp h
  obtain ⟨x, hx, hxc⟩ := Option.map_eq_some_iff.mp hown
  obtain ⟨id, hid, hsub⟩ := Option.bind_eq_some_iff.mp hx
  refine ⟨id, Option.join_eq_some_iff.mp hid, ?_⟩
  obtain ⟨hlt, _⟩ := List.getElem?_eq_some_iff.mp hsub
  refine Finset.mem_filter.mpr ⟨Finset.mem_range.mpr hlt, ?_⟩
  rw [hsub, Option.map_some, hxc]

/-- A call has at most as many entries as submissions. -/
theorem Wf.card_entries_le (h : s.Wf) (c : ι) : (s.entries c).card ≤ (s.submitted c).card := by
  refine Finset.card_le_card_of_injOn (fun k => (s.origins[k]?).join.getD 0) ?_ ?_
  · intro k hk
    obtain ⟨id, hid, hmem⟩ := mem_entries hk
    simpa [hid] using hmem
  · intro k₁ hk₁ k₂ hk₂ heq
    obtain ⟨id₁, hid₁, _⟩ := mem_entries hk₁
    obtain ⟨id₂, hid₂, _⟩ := mem_entries hk₂
    simp only [hid₁, hid₂, Option.join_some, Option.getD_some] at heq
    subst heq
    exact h.once k₁ k₂ id₁ hid₁ hid₂

end Ledger

end Distruct

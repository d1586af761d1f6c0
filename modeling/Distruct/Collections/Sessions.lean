import Distruct.Collections.Linearizability
import Distruct.Collections.Views
import Distruct.Framework.History

/-! # What Successive Calls See

    Reads of every consistency, next to the insertions. A read that asks for no
    confirmation may be behind the committed log, but it still shows the data of
    a prefix of it: the prefix that the node which answered had applied at some
    moment of the read. Nodes only go forward, so whoever stays with one node
    never sees an older prefix than before, and sees the writes that this node
    has acknowledged.
-/

namespace Distruct

open LTS (Rely Discipline)
open Postcard (Bytes)
open World (Advances)

section views
variable {ι Job : Type} [DecidableEq ι]

theorem orderly_forwards (caller : ι) :
    Forwards (orderly : Discipline (forward_ledger ι Job)) caller where
  kept := orderly_kept
  rel := fun hr => hr.advances
  call := by
    intro s o r s' hi hc
    obtain ⟨hcall, _⟩ := Ledger.call_cases hc.2
    have hf := World.frame_of_call hc.1 hcall
    refine ⟨hcall, by rw [hf.log], fun i => ?_⟩
    rw [World.applied, World.applied, hf.node]

/-- Whichever node answers shows a prefix that it has applied. -/
theorem reads_views (caller : ι) (w₀ : World) (c : ReadConsistency) :
    Viewing (orderly : Discipline (forward_ledger ι Job)) caller c (fun s => Advances w₀ s.world)
      (fun j s => c.linearizable = true → w₀.log.length ≤ s.world.applied j)
      fun j d s => ∃ p, Glimpse w₀ c j s.world p ∧ d = (replay s.world.log p).data :=
  (orderly_forwards caller).views (orderly_routes caller 0).quiet
    (fun _ j hi => ⟨(hi.world.replica j).1, hi.world.data_eq j⟩) w₀ c

end views

/-! ### Nodes know what they have answered -/

/-- A node answers only what it has applied. -/
def World.Heard (w : World) : Prop :=
  ∀ i id d, (id, d) ∈ w.answers i → id.index < w.applied i

namespace World

variable {w w' : World}

theorem Heard.of_init (h : w.init) : w.Heard := by
  obtain ⟨_, _, hans, _⟩ := h
  simp [Heard, hans]

theorem Heard.extend (h : w.Heard) (happ : ∀ i, w.applied i ≤ w'.applied i)
    (hans : w'.answers = w.answers) : w'.Heard := by
  intro i id d hmem
  rw [hans] at hmem
  exact Nat.lt_of_lt_of_le (h i id d hmem) (happ i)

/-- The answers of a batch are about entries that the node has applied with it. -/
theorem Inv.heard_batch (hi : w.Inv) (i : NodeId) (n : Nat) {id : LogId} {d : RaftResponse}
    (hmem : (id, d) ∈ (((w.backlog i).take n).map Entry.log_id).zip
      ((w.node i).sm.apply ((w.backlog i).take n)).1) :
    id.index < ((w.node i).sm.apply ((w.backlog i).take n)).2.state_machine.applied := by
  rw [hi.apply_batch, applied_replay hi.indexed (hi.batch_le i n)]
  obtain ⟨e, he, rfl⟩ := List.mem_map.mp (List.of_mem_zip hmem).1
  obtain ⟨k, hk⟩ := List.mem_iff_getElem?.mp he
  obtain ⟨hlt, _⟩ := List.getElem?_eq_some_iff.mp hk
  -- the entry stands `k` places behind what was applied before
  rw [List.getElem?_take_of_lt (by rw [List.length_take] at hlt; omega), World.backlog,
    List.getElem?_drop] at hk
  rw [hi.indexed _ e hk]
  omega

theorem Heard.move (h : w.Heard) (hi : w.Inv) {m : RaftMove} (hok : w.forward m)
    (hm : w.move m w') : w'.Heard := by
  have hadv := (hi.advances_move hok hm).applied
  obtain ⟨_, hans⟩ := answers_of_move hm
  intro i id d hmem
  rcases hans i id d hmem with hmem | ⟨n, rfl, hmem⟩
  · exact Nat.lt_of_lt_of_le (h i id d hmem) (hadv i)
  · have hnew := hi.heard_batch i n hmem
    cases hm
    show id.index < ((w.set_sm i _).node i).sm.state_machine.applied
    rw [set_sm_sm, if_pos rfl]
    exact hnew

theorem Heard.call (h : w.Heard) {o : Op} {r : o.Resp} (hok : w.misses o) (hc : w.call o r w') :
    w'.Heard := by
  have hf := frame_of_call hok hc
  refine h.extend (fun i => ?_) (call_log hc).2
  rw [World.applied, World.applied, hf.node]

end World

section acknowledged
variable {ι Job : Type} [DecidableEq ι] {s s' : Ledger ι Job} {c : ι}

theorem heard_init (h : (forward_ledger ι Job).init s) : s.world.Heard := .of_init h.1

theorem heard_env {m : RaftMove × Option Nat} (hi : s.Inv) (h : s.world.Heard)
    (hm : (forward_ledger ι Job).env s m s') : s'.world.Heard :=
  h.move hi.world hm.1 (Ledger.env_cases hm.2).1

theorem heard_call {o : Op} {r : o.Resp} (_ : s.Inv) (h : s.world.Heard)
    (hc : (forward_ledger ι Job).call c s o r s') : s'.world.Heard :=
  h.call hc.1 (Ledger.call_cases hc.2).1

/-- Calls and moves of Raft go forward, and nodes know what they have answered. -/
def sessions : Discipline (forward_ledger ι Job) :=
  orderly.strengthen (fun s => s.world.Heard) heard_init heard_env

theorem sessions_kept : (sessions : Discipline (forward_ledger ι Job)).Kept :=
  orderly_kept.strengthen heard_init heard_env heard_call

theorem wp_sessions {α : Type} {Q : α → Ledger ι Job → Prop} {p : NodeProg α}
    (h : orderly.wp c Q p s) : sessions.wp c Q p s :=
  Discipline.wp_strengthen heard_init heard_env heard_call h

/-- Node `i` has applied the write that call `c` was waiting for. -/
def Ledger.AppliedAt (c : ι) (i : NodeId) (s : Ledger ι Job) : Prop :=
  ∃ p, s.Placed c p ∧ p < s.world.applied i

theorem Ledger.AppliedAt.onward {i : NodeId} (h : s.AppliedAt c i)
    (hr : Ledger.Onward c s s') : s'.AppliedAt c i := by
  obtain ⟨p, hp, hlt⟩ := h
  exact ⟨p, hp.onward hr, Nat.lt_of_lt_of_le hlt (hr.advances.applied i)⟩

/-- A node that acknowledges a write has applied it. -/
theorem wp_acknowledged {body : RequestBody} {req : RaftRequest} (hbody : body.write = some req)
    (i : NodeId) (target : Option NodeId) :
    sessions.wp c (Rely.ifOk fun _ s' => s'.AppliedAt c i) (handle_message i ⟨target, body⟩) s := by
  have hwrite : ∀ s : Ledger ι Job,
      sessions.wp c (Rely.ifOk fun _ s' => s'.AppliedAt c i) (handle_body i body) s := by
    intro s
    rw [handle_body_of_write hbody]
    refine Discipline.wp_call_kept sessions_kept ?_
    intro s₁ _ _ _ s₂ _
    refine Discipline.wp_call_kept sessions_kept ?_
    intro s₃ hi₃ _ r s₄ hc s₅ _ hr₅ resp hresp
    cases r with
    | error e => cases hresp
    | ok resp =>
      have hcall : s₃.call c (.await_write i req) (.ok resp) s₄ := hc.2
      obtain ⟨w', id, p, e, hw, hid, hp, he, hlog_id, rfl⟩ := hcall
      obtain ⟨e₁, _, _, hlog_id₁, hans, rfl⟩ := hw
      have hlt := hi₃.2 i _ _ hans
      -- the entry stands where its log id says
      rw [← hlog_id₁, hlog_id, hi₃.1.world.indexed p e he] at hlt
      refine Ledger.AppliedAt.onward ?_ hr₅
      exact ⟨p, ⟨id, hid, hp⟩, hlt⟩
  unfold handle_message
  split
  · exact hwrite s
  · refine Discipline.wp_call_kept sessions_kept ?_
    intro s₁ _ _ metrics s₂ _
    show sessions.wp c _ (if _ then _ else _) _
    split
    · exact Discipline.wp_error
    · exact hwrite s₂

end acknowledged

/-! ### Calls in the log -/

section moments
variable {T : Type} {Ty : T → Type} [∀ t, Serialize (Ty t)] [∀ t, Deserialize (Ty t)]

/-- The calls that succeed, whatever the consistency of a read. -/
def Call.Completes : Call Ty → Result Ty → Prop
  | .read _, .answer (.ok _) => True
  | .serve _ message, .reply (.ok _) =>
      message.body.write.isSome ∨ message.body.consistency.isSome
  | j, out => j.Succeeds out

/-- `j.Shows d out`: a sequential map that holds `d` answers `out`, to a method
    or to a request. -/
def Call.Shows (d : StateMachineData) (j : Call Ty) (out : Result Ty) : Prop :=
  j.Explains d out ∨
    ∃ i message resp, j = .serve i message ∧ message.body.Observes d resp ∧ out = .reply (.ok resp)

/-- The consistency that a call reads with. -/
def Call.consistency : Call Ty → Option ReadConsistency
  | .read r => some r.consistency
  | .serve _ message => message.body.consistency
  | _ => none

/-- The calls that are not to be behind: writes and linearizable reads. -/
def Call.Current (j : Call Ty) : Prop :=
  j.writes = true ∨ ∃ c, j.consistency = some c ∧ c.linearizable = true

/-- The calls that node `i` answers from its own state: stale reads that are made
    there, and requests that it handles. Which node has answered a method that went
    to the leader is not known. -/
def Call.At (i : NodeId) : Call Ty → Prop
  | .read r => r.consistency = .Stale ∧ r.cluster = i
  | .serve j _ => j = i
  | _ => False

/-- How much of the log a call at point `p` stands for; a write includes its own
    entry. -/
def Call.upto (j : Call Ty) (p : Nat) : Nat := if j.writes then p + 1 else p

/-- A point in the log for call `c`, which began when the log had `n` entries, and
    later than some moment at which each node `i` had applied `base i` of them. -/
structure Call.Moment {ι : Type} (c : ι) (j : Call Ty) (n : Nat) (out : Result Ty)
    (base : NodeId → Nat) (s : Ledger ι (Call Ty)) (p : Nat) : Prop where
  shows : j.Shows (replay s.world.log p).data out
  in_log : j.upto p ≤ s.world.log.length
  written : j.writes = true → s.Placed c p
  current : j.Current → n ≤ p
  here : ∀ i, j.At i → base i ≤ p ∧ j.upto p ≤ s.world.applied i

variable {ι : Type} [DecidableEq ι] {s s' : Ledger ι (Call Ty)} {c : ι} {j : Call Ty} {n p : Nat}
  {out : Result Ty} {base : NodeId → Nat}

omit [∀ t, Serialize (Ty t)] [∀ t, Deserialize (Ty t)] in
theorem Call.le_upto (j : Call Ty) (p : Nat) : p ≤ j.upto p := by
  unfold Call.upto
  split <;> omega

theorem Call.Moment.onward (h : j.Moment c n out base s p) (hr : Ledger.Onward c s s') :
    j.Moment c n out base s' p where
  shows := by
    rw [replay_of_advances hr.advances ((j.le_upto p).trans h.in_log)]
    exact h.shows
  in_log := h.in_log.trans hr.keeps.log.length_le
  written := fun hw => (h.written hw).onward hr
  current := h.current
  here := by
    intro i hi
    obtain ⟨hbase, hupto⟩ := h.here i hi
    exact ⟨hbase, hupto.trans (hr.advances.applied i)⟩

omit [DecidableEq ι] in
/-- A write of which nothing else is known. -/
theorem Call.Point.moment (h : j.Point c n out s p) (hw : j.writes = true)
    (here : ∀ i, j.At i → base i ≤ p ∧ p < s.world.applied i) : j.Moment c n out base s p where
  shows := .inl h.explains
  in_log := by
    obtain ⟨_, e, _, he, _⟩ := h.written hw
    obtain ⟨hlt, _⟩ := List.getElem?_eq_some_iff.mp he
    simp only [Call.upto, hw, if_true]
    omega
  written := fun _ => (h.written hw).1
  current := fun _ => h.after_begin
  here := by
    intro i hi
    obtain ⟨hbase, hlt⟩ := here i hi
    simp only [Call.upto, hw, if_true]
    exact ⟨hbase, hlt⟩

omit [DecidableEq ι] in
/-- What a read has seen gives it a point. -/
theorem Found.moment {w₀ : World} {cons : ReadConsistency} {N : NodeId → Prop} {α : Type}
    {P : StateMachineData → α → Prop} {a : α}
    (h : Found (fun j d s => ∃ p, Glimpse w₀ cons j s.world p ∧ d = (replay s.world.log p).data) N P
      a s)
    (hw : j.writes = false) (hcons : j.consistency = some cons)
    (hshows : ∀ d, P d a → j.Shows d out) (hat : ∀ i k, j.At i → N k → k = i)
    (hn : n ≤ w₀.log.length) (hbase : ∀ i, base i ≤ w₀.applied i) :
    ∃ p, j.Moment c n out base s p := by
  obtain ⟨k, _, hk, ⟨p, hp, rfl⟩, ha⟩ := h
  have hupto : j.upto p = p := by simp [Call.upto, hw]
  refine ⟨p, hshows _ ha, ?_, ?_, ?_, ?_⟩
  · rw [hupto]
    exact hp.in_log
  · intro htrue
    rw [hw] at htrue
    cases htrue
  · intro hcur
    rcases hcur with htrue | ⟨cons', hcons', hlin⟩
    · rw [hw] at htrue
      cases htrue
    · rw [hcons] at hcons'
      cases hcons'
      exact hn.trans (hp.committed hlin)
  · intro i hi
    obtain rfl := hat i k hi hk
    rw [hupto]
    exact ⟨(hbase k).trans hp.applied, hp.shown⟩

omit [DecidableEq ι] [∀ t, Serialize (Ty t)] [∀ t, Deserialize (Ty t)] in
theorem Call.Completes.succeeds (h : j.Completes out) (hw : j.writes = true) : j.Succeeds out := by
  cases j with
  | read r => cases hw
  | insert | insert_multi | clear => cases out <;> exact h
  | serve i message =>
    cases out with
    | reply r =>
      cases r with
      | ok resp => exact hw
      | error e => cases h
    | _ => cases h

/-- Every call that succeeds has a point. -/
theorem wp_moment (j : Call Ty) (hi : sessions.inv s) (hbase : ∀ i, base i ≤ s.world.applied i) :
    sessions.wp c (fun out s' => j.Completes out →
      ∃ p, j.Moment c s.world.log.length out base s' p) j.run s := by
  have hpoint : sessions.wp c (fun out s' => j.Succeeds out →
      ∃ p, j.Point c s.world.log.length out s' p) j.run s :=
    wp_sessions (wp_orderly_run j hi.1 (Nat.le_refl _))
  cases j with
  | read r =>
    refine Discipline.wp_map (Discipline.wp_mono ?_ (wp_sessions
      (Viewing.reading r (reads_views c s.world r.consistency) hi.1 (.refl _))))
    intro out s' _ h hcomp
    cases out with
    | error e => cases hcomp
    | ok a =>
      refine (h a rfl).moment rfl rfl (fun d hd => .inl ⟨a, rfl, hd⟩) ?_ (Nat.le_refl _) hbase
      intro i k hat hk
      rw [hk hat.1, hat.2]
  | insert | insert_multi | clear =>
    refine Discipline.wp_mono ?_ hpoint
    intro out s' _ h hcomp
    obtain ⟨p, hp⟩ := h (hcomp.succeeds rfl)
    exact ⟨p, hp.moment rfl fun _ hat => hat.elim⟩
  | serve i message =>
    obtain ⟨target, body⟩ := message
    cases hcons : body.consistency with
    | some cons =>
      have hwrite := RequestBody.write_of_consistency hcons
      refine Discipline.wp_map (Discipline.wp_mono ?_ (wp_sessions
        ((reads_views c s.world cons).message hcons i target hi.1 (.refl _))))
      intro out s' _ h hcomp
      cases out with
      | error e => cases hcomp
      | ok resp =>
        refine (h resp rfl).moment (by simp [Call.writes, hwrite]) hcons
          (fun d hd => .inr ⟨i, _, resp, rfl, hd, rfl⟩) ?_ (Nat.le_refl _) hbase
        intro i' k hat hk
        rw [hk]
        exact hat
    | none =>
      cases hwrite : body.write with
      | none =>
        refine Discipline.wp_of_forall sessions_kept ?_ _ s
        intro out s' hcomp
        cases out with
        | reply r =>
          cases r with
          | error e => cases hcomp
          | ok resp =>
            have hsome : body.write.isSome ∨ body.consistency.isSome := hcomp
            simp [hwrite, hcons] at hsome
        | _ => cases hcomp
      | some req =>
        have hacked : sessions.wp c (fun out s' =>
            ∀ resp, out = Result.reply (.ok resp) → s'.AppliedAt c i)
            (Call.serve i ⟨target, body⟩ : Call Ty).run s := by
          refine Discipline.wp_map (Discipline.wp_mono ?_ (wp_acknowledged hwrite i target))
          intro r s' _ h resp hr
          cases hr
          exact h resp rfl
        refine Discipline.wp_mono ?_ (Discipline.wp_and hpoint hacked)
        intro out s' hi' h hcomp
        obtain ⟨h, hacked⟩ := h
        cases out with
        | reply r =>
          cases r with
          | error e => cases hcomp
          | ok resp =>
            have hw : (Call.serve i ⟨target, body⟩ : Call Ty).writes = true := by
              simp [Call.writes, hwrite]
            obtain ⟨p, hp⟩ := h (by show body.write.isSome; simp [hwrite])
            obtain ⟨q, hq, hlt⟩ := hacked resp rfl
            -- a submission is committed once, so both speak of the same entry
            obtain ⟨⟨id, hid, hp'⟩, _⟩ := hp.written hw
            obtain ⟨id', hid', hq'⟩ := hq
            rw [hid] at hid'
            cases hid'
            obtain rfl := hi'.1.wf.once p q id hp' hq'
            refine ⟨p, hp.moment hw ?_⟩
            intro i' hat
            obtain rfl := hat
            refine ⟨?_, hlt⟩
            exact (hbase i).trans ((hi.1.world.replica i).1.trans hp.after_begin)
        | _ => cases hcomp

end moments

/-! ### Runs -/

section runs
variable {ι : Type} [DecidableEq ι] {T : Type} {Ty : T → Type} [∀ t, Serialize (Ty t)]
  [∀ t, Deserialize (Ty t)] {crew crew₀ : LTS.Crew ι (Ledger ι (Call Ty)) Op Op.Resp (Result Ty)}
  {c : ι} {j : Call Ty} {n : Nat} {out : Result Ty}

/-- Call `c` of the method `j`, which began when the log had `n` entries, has
    returned `out`, which is a success. -/
structure Completed (crew : LTS.Crew ι (Ledger ι (Call Ty)) Op Op.Resp (Result Ty)) (c : ι)
    (j : Call Ty) (n : Nat) (out : Result Ty) : Prop where
  began : crew.shared.calls c = some (j, n)
  returned : crew.worker c = some (.pure out)
  completes : j.Completes out

omit [∀ t, Serialize (Ty t)] [∀ t, Deserialize (Ty t)] in
theorem sessions_start {s s' : Ledger ι (Call Ty)} (hi : sessions.inv s) (hs : s.start c j s') :
    sessions.inv s' ∧ ∀ d, d ≠ c → Ledger.Onward d s s' := by
  obtain ⟨hinv, hrel⟩ := orderly_start hi.1 hs
  refine ⟨⟨hinv, ?_⟩, hrel⟩
  obtain ⟨_, rfl⟩ := hs
  exact hi.2

theorem session_runs_inv (hc : (call_runs ι Ty).Reachable crew) :
    sessions.CrewInv (fun _ _ _ => True) crew := by
  refine sessions.crew_sound _ (fun _ _ _ _ _ => trivial) ?_ hc
  intro c j s s' hi _ hs
  obtain ⟨hi', hrel⟩ := sessions_start hi hs
  exact ⟨hi', hrel, Discipline.wp_of_forall sessions_kept (fun _ _ => trivial) _ s'⟩

/-- The cluster only goes forward, and a call that has begun stays so. -/
theorem forward_of_steps (hc : (call_runs ι Ty).Reachable crew₀)
    (hsteps : (call_runs ι Ty).Steps crew₀ crew) :
    Advances crew₀.shared.world crew.shared.world ∧
      ∀ c, crew₀.shared.calls c ≠ none → crew.shared.calls c ≠ none := by
  induction hsteps with
  | refl => exact ⟨.refl _, fun _ h => h⟩
  | @tail crew₁ crew₂ hpre hstep ih =>
    obtain ⟨hadv, hcalls⟩ := ih
    obtain ⟨m, hm⟩ := hstep
    have hi := (session_runs_inv (LTS.System.Steps.reachable hpre hc)).inv.1
    cases m with
    | env e =>
      obtain ⟨s', hs, rfl⟩ := hm
      refine ⟨hadv.trans (hi.world.advances_move hs.1 (Ledger.env_cases hs.2).1), fun d hd => ?_⟩
      rw [(Ledger.keeps_of_env hs.2 d).calls]
      exact hcalls d hd
    | start d k =>
      obtain ⟨s', _, ⟨_, rfl⟩, rfl⟩ := hm
      refine ⟨hadv, fun e he => ?_⟩
      by_cases hed : e = d
      · subst hed
        simp only [Function.update_self]
        exact fun h => (by cases h)
      · simp only [Function.update_of_ne hed]
        exact hcalls e he
    | call d o =>
      obtain ⟨k, r, s', _, hs, rfl⟩ := hm
      have hf := World.frame_of_call hs.1 (Ledger.call_cases hs.2).1
      refine ⟨hadv.trans ⟨by rw [hf.log], fun i => ?_⟩, fun e he => ?_⟩
      · rw [World.applied, World.applied, hf.node]
      · rw [Ledger.call_calls hs.2]
        exact hcalls e he

/-- A call that has not begun has nothing to do. -/
theorem worker_of_not_begun (hc : (call_runs ι Ty).Reachable crew) :
    ∀ c, crew.shared.calls c = none → crew.worker c = none := by
  refine LTS.System.invariant
    (fun crew => ∀ c, crew.shared.calls c = none → crew.worker c = none) ?_ ?_ crew hc
  · exact fun crew hinit c _ => hinit.2 c
  · intro crew m crew' ih hstep c hnone
    cases m with
    | env e =>
      obtain ⟨s', hs, rfl⟩ := hstep
      rw [(Ledger.keeps_of_env hs.2 c).calls] at hnone
      exact ih c hnone
    | start d k =>
      obtain ⟨s', _, ⟨_, rfl⟩, rfl⟩ := hstep
      by_cases hcd : c = d
      · subst hcd
        simp only [Function.update_self] at hnone
        cases hnone
      · simp only [Function.update_of_ne hcd] at hnone ⊢
        exact ih c hnone
    | call d o =>
      obtain ⟨k, r, s', hw, hs, rfl⟩ := hstep
      rw [Ledger.call_calls hs.2] at hnone
      by_cases hcd : c = d
      · subst hcd
        rw [ih c hnone] at hw
        cases hw
      · simp only [Function.update_of_ne hcd]
        exact ih c hnone

/-- A call that has returned stays as it is. -/
theorem Completed.later (hc : (call_runs ι Ty).Reachable crew₀)
    (hsteps : (call_runs ι Ty).Steps crew₀ crew) (h : Completed crew₀ c j n out) :
    Ledger.Onward c crew₀.shared crew.shared ∧ Completed crew c j n out := by
  obtain ⟨hr, hw⟩ := Discipline.CrewInv.waits (fun _ => session_runs_inv)
    (fun d k s s' hd hi hs => (sessions_start hi hs).2 c hd.symm)
    (fun s => s.calls c = some (j, n)) (fun s s' hr hs => hr.keeps.calls.trans hs)
    (fun s k s' hs hstart => by rw [hstart.1] at hs; cases hs) hc hsteps h.began h.returned
  exact ⟨hr, hr.keeps.calls.trans h.began, hw, h.completes⟩

/-- What a call has seen that had not begun in some earlier state. -/
theorem Completed.moment (hc : (call_runs ι Ty).Reachable crew₀)
    (hsteps : (call_runs ι Ty).Steps crew₀ crew) (hnone : crew₀.shared.calls c = none)
    (h : Completed crew c j n out) :
    ∃ p, j.Moment c n out crew₀.shared.world.applied crew.shared p := by
  have hsince := Discipline.CrewInv.since (fun _ => session_runs_inv)
    (fun d k s s' hd hi hs => (sessions_start hi hs).2 c hd.symm)
    (fun s => s.calls c = none ∧ ∀ i, crew₀.shared.world.applied i ≤ s.world.applied i)
    (fun s => s.calls c ≠ none)
    (fun s s' _ hr hs => ⟨hr.keeps.calls.trans hs.1, fun i => (hs.2 i).trans (hr.advances.applied i)⟩)
    (fun s s' hr hs => by rw [hr.keeps.calls]; exact hs)
    (fun s o r s' hs hcall => by rw [Ledger.call_calls hcall.2]; exact hs)
    (fun s k s' hs hstart => hs hstart.1)
    (Q := fun out s' => ∃ j n, s'.calls c = some (j, n) ∧
      (j.Completes out → ∃ p, j.Moment c n out crew₀.shared.world.applied s' p)) ?_ hc hsteps
    ⟨hnone, fun _ => Nat.le_refl _⟩ (worker_of_not_begun hc c hnone)
  · rcases hsince with ⟨⟨hnot, _⟩, _⟩ | ⟨_, p, hp, hwp⟩
    · rw [h.began] at hnot
      cases hnot
    · rw [h.returned] at hp
      cases hp
      have hinv := (session_runs_inv (LTS.System.Steps.reachable hsteps hc)).inv
      obtain ⟨j', n', hj, hmoment⟩ := hwp _ hinv (sessions.refl c _)
      rw [h.began] at hj
      cases hj
      exact hmoment h.completes
  · -- the call begins: from here on the program has been looked at
    intro k s s' hi hb hs
    have hi' := (sessions_start hi hs).1
    obtain ⟨_, rfl⟩ := hs
    refine ⟨by simp only [Function.update_self]; exact fun h => (by cases h), ?_⟩
    refine Discipline.wp_mono ?_ (Discipline.wp_frame
      (R := fun s' => s'.calls c = some (k, s.world.log.length)) ?_ ?_ (Function.update_self _ _ _)
      (wp_moment k hi' hb.2))
    · intro out s₁ _ h₁
      exact ⟨k, _, h₁.1, h₁.2⟩
    · exact fun s₁ s₂ hr h₁ => hr.keeps.calls.trans h₁
    · intro s₁ o r s₂ h₁ hcall
      rw [Ledger.call_calls hcall.2]
      exact h₁

/-- One point for a call, whatever earlier and later moments of the run it is
    compared with. -/
theorem exists_moment (run : (call_runs ι Ty).Run) (c : ι) :
    ∃ p, ∀ t u j n out, (run.state u).shared.calls c = none → Completed (run.state t) c j n out →
      j.Moment c n out (run.state u).shared.world.applied (run.state t).shared p := by
  by_cases hex : ∃ t, ∃ j n out, Completed (run.state t) c j n out
  · -- the moments at which the call begins and returns
    classical
    obtain ⟨j, n, out, h⟩ := Nat.find_spec hex
    have hbegan : ∃ t, (run.state t).shared.calls c ≠ none :=
      ⟨_, fun hnone => by rw [h.began] at hnone; cases hnone⟩
    have hzero : (run.state 0).shared.calls c = none := by
      have hinit : Ledger.init (run.state 0).shared := run.starts.1
      rw [hinit.2.1]
    have hpos : Nat.find hbegan ≠ 0 := fun hz => Nat.find_spec hbegan (by rw [hz]; exact hzero)
    obtain ⟨k, hk⟩ := Nat.exists_eq_succ_of_ne_zero hpos
    have hlast : (run.state k).shared.calls c = none := by
      by_contra hnot
      have := Nat.find_min' hbegan hnot
      omega
    have hle : Nat.find hbegan ≤ Nat.find hex :=
      Nat.find_min' hbegan fun hnone => by rw [h.began] at hnone; cases hnone
    obtain ⟨p, hp⟩ := Completed.moment (run.reachable k) (run.steps (by omega)) hlast h
    refine ⟨p, ?_⟩
    intro t u j' n' out' hu h'
    -- it returned no later than now, and began no earlier than then
    have ht : Nat.find hex ≤ t := Nat.find_min' hex ⟨j', n', out', h'⟩
    have huk : u ≤ k := by
      by_contra hlt
      refine (forward_of_steps (run.reachable _) (run.steps ?_)).2 c (Nat.find_spec hbegan) hu
      omega
    obtain ⟨hr, hlater⟩ := h.later (run.reachable _) (run.steps ht)
    cases hlater.began.symm.trans h'.began
    cases hlater.returned.symm.trans h'.returned
    have hmoment := hp.onward hr
    have hadv := (forward_of_steps (run.reachable u) (run.steps huk)).1
    exact ⟨hmoment.shows, hmoment.in_log, hmoment.written, hmoment.current, fun i hi =>
      ⟨(hadv.applied i).trans (hmoment.here i hi).1, (hmoment.here i hi).2⟩⟩
  · exact ⟨0, fun t u j n out _ h => absurd ⟨t, j, n, out, h⟩ hex⟩

/-- **Session guarantees**: in every run without removals, under every order of the
    nodes' steps and every change of the leader, all calls that succeed, whatever
    the consistency of their reads, have points in the committed log such that

    - what a call returns is what the state machine answers at its point, and the
      point of a write is the position of its own entry;
    - a call that is begun after another one has returned stands for all that the
      other one stands for, a write for its own entry too, if it is a write or a
      linearizable read itself, or if the same node has answered both: then a
      stale read does not go back behind an earlier one, and it sees every
      write that this node has acknowledged. -/
theorem sessions_in_order (run : (call_runs ι Ty).Run) :
    ∃ point : ι → Nat,
      (∀ t c j n out, Completed (run.state t) c j n out →
        j.Shows (replay (run.state t).shared.world.log (point c)).data out ∧
        j.upto (point c) ≤ (run.state t).shared.world.log.length ∧
        (j.writes = true → (run.state t).shared.Placed c (point c))) ∧
      ∀ t₁ t₂ c₁ c₂ j₁ j₂ n₁ n₂ out₁ out₂, Completed (run.state t₁) c₁ j₁ n₁ out₁ →
        (run.state t₁).shared.calls c₂ = none → Completed (run.state t₂) c₂ j₂ n₂ out₂ →
        (j₂.Current ∨ ∃ i, j₁.At i ∧ j₂.At i) → j₁.upto (point c₁) ≤ point c₂ := by
  choose point hpoint using exists_moment run
  have hnone : ∀ c, (run.state 0).shared.calls c = none := by
    intro c
    have hinit : Ledger.init (run.state 0).shared := run.starts.1
    rw [hinit.2.1]
  refine ⟨point, ?_, ?_⟩
  · intro t c j n out h
    have hmoment := hpoint c t 0 j n out (hnone c) h
    exact ⟨hmoment.shows, hmoment.in_log, hmoment.written⟩
  · intro t₁ t₂ c₁ c₂ j₁ j₂ n₁ n₂ out₁ out₂ h₁ hnot h₂ hcase
    have hm₁ := hpoint c₁ t₁ 0 _ _ _ (hnone c₁) h₁
    have hm₂ := hpoint c₂ t₂ t₁ _ _ _ hnot h₂
    -- the second call has returned later than the first one
    have hle : t₁ ≤ t₂ := by
      by_contra hlt
      refine (forward_of_steps (run.reachable t₂) (run.steps (by omega))).2 c₂ ?_ hnot
      intro h
      rw [h₂.began] at h
      cases h
    rcases hcase with hcur | ⟨i, hat₁, hat₂⟩
    · have hbegan := (began_after (run.steps hle) hnot).2 _ _ h₂.began
      exact hm₁.in_log.trans (hbegan.trans (hm₂.current hcur))
    · exact (hm₁.here i hat₁).2.trans (hm₂.here i hat₂).1

end runs

/-- A stale read on the node that has acknowledged an insertion comes after it. -/
theorem sessions_in_order_stale :
    ∃ (run : (call_runs Nat fun _ : Unit => Bytes).Run) (t₁ t₂ : Nat) (j₁ j₂ : BytesCall) (out₁ : _)
      (point : Nat → Nat),
      Completed (run.state t₁) 0 j₁ 0 out₁ ∧
      Completed (run.state t₂) 1 j₂ 1 (.answer (.ok (.len 1))) ∧ ¬ j₂.Current ∧ j₁.At 0 ∧ j₂.At 0 ∧
      point 0 < point 1 := by
  obtain ⟨crew₀, hc₀, hcalls, hworker, hcalls₁, hworker₁, hlog, hnode⟩ := insert_noted
  have h₀ : Completed crew₀ 0 (.serve 0 ⟨none, .Insert "m" [1] [2]⟩) 0
      (.reply (.ok (.ClientWrite ⟨insert_entry.log_id, .Insert none, none⟩))) :=
    ⟨hcalls, hworker, .inl rfl⟩
  -- node 0 is asked for what it has, without a confirmation
  obtain ⟨crew, hsteps, hread⟩ : ∃ crew, (call_runs Nat fun _ : Unit => Bytes).Steps crew₀ crew ∧
      Completed crew 1 (.read ⟨"m", 0, 0, .len () (), .Stale⟩) 1 (.answer (.ok (.len 1))) := by
    refine ⟨_, .tail (.tail .refl
      ⟨.start 1 (.read ⟨"m", 0, 0, .len () (), .Stale⟩), _, .inl hworker₁, ⟨hcalls₁, rfl⟩, rfl⟩)
      ⟨.call 1 (.map_len 0 "m"), _, some 1, _, rfl, ⟨trivial, _, ⟨?_, rfl⟩, rfl⟩, rfl⟩, ?_, rfl, trivial⟩
    · simp only [World.data, NodeState.data, hnode]
      decide
    · simp only [Function.update_self, hlog, List.length_singleton]
  obtain ⟨run₀, t₁, ht₁⟩ := LTS.System.Run.exists_of_reachable hc₀
  obtain ⟨run, t₂, _, ht₂, hsame⟩ := run₀.extend t₁ (ht₁ ▸ hsteps)
  have hstate₁ : run.state t₁ = crew₀ := (hsame t₁ (Nat.le_refl _)).trans ht₁
  have h₁ : Completed (run.state t₁) 0 _ _ _ := hstate₁ ▸ h₀
  have h₂ : Completed (run.state t₂) 1 _ _ _ := ht₂ ▸ hread
  obtain ⟨point, _, horder⟩ := sessions_in_order run
  have hlt := horder t₁ t₂ 0 1 _ _ _ _ _ _ h₁ (hstate₁ ▸ hcalls₁) h₂ (.inr ⟨0, rfl, rfl, rfl⟩)
  refine ⟨run, t₁, t₂, _, _, _, point, h₁, h₂, ?_, rfl, ⟨rfl, rfl⟩, hlt⟩
  intro hcur
  rcases hcur with hw | ⟨c, hc, hlin⟩
  · cases hw
  · cases hc
    cases hlin

end Distruct

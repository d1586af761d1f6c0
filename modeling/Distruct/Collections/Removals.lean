import Distruct.Collections.Sessions
import Distruct.Collections.Slots

/-! # What Removals Do to Insertions and Reads

    A removal goes past the log: the leader empties a slot of its own data, and
    the other nodes do not hear of it. The calls are no longer linearizable
    then. But nothing is made up either: in every run, with any removals on any
    nodes, each node holds a copy of what the log says, with losses, and what a
    call returns is right for such a copy. As far as slots are not removed
    from, the copies have everything.
-/

namespace Distruct

open LTS (Rely Discipline)
open Postcard (Bytes)
open World (Advances)
open Lossy (Copy)

variable {kept : Slot → Prop}

/-! ### What `apply` answers with losses -/

/-- Every answer of a node is the response that a copy of the prefix before the entry
    gives. -/
def World.Reported (kept : Slot → Prop) (w : World) : Prop :=
  ∀ i id d, (id, d) ∈ w.answers i → ∃ k e sm, w.log[k]? = some e ∧ e.log_id = id ∧
    Lags kept sm (replay w.log k) ∧ d = (apply_entry sm e).2

namespace World

variable {w w' : World}

theorem Reported.of_init (h : w.init) : w.Reported kept := by
  obtain ⟨_, _, hans, _⟩ := h
  simp [Reported, hans]

theorem Reported.extend (h : w.Reported kept) (hlog : w.log <+: w'.log)
    (hans : w'.answers = w.answers) : w'.Reported kept := by
  intro i id d hmem
  rw [hans] at hmem
  obtain ⟨k, e, sm, hk, hid, hsm, hd⟩ := h i id d hmem
  obtain ⟨hk', hreplay⟩ := kept_of_prefix hlog hk
  exact ⟨k, e, sm, hk', hid, by rw [hreplay]; exact hsm, hd⟩

/-- The node goes through the batch as the log does, with the losses it had before. -/
theorem Lossy.reported_batch (h : w.Lossy kept) (i : NodeId) (n : Nat) {id : LogId}
    {d : RaftResponse} (hmem : (id, d) ∈ (((w.backlog i).take n).map Entry.log_id).zip
      ((w.node i).sm.apply ((w.backlog i).take n)).1) :
    ∃ k e sm, w.log[k]? = some e ∧ e.log_id = id ∧ Lags kept sm (replay w.log k) ∧
      d = (apply_entry sm e).2 := by
  obtain ⟨j, hj⟩ := List.mem_iff_getElem?.mp hmem
  rw [List.getElem?_zip_eq_some] at hj
  obtain ⟨hid, hd⟩ := hj
  have hfeed : (Replay.feed apply_entry (w.node i).sm.state_machine ((w.backlog i).take n)).2[j]?
      = some d := hd
  rw [Replay.getElem?_feed] at hfeed
  obtain ⟨e, he, rfl⟩ := Option.map_eq_some_iff.mp hfeed
  rw [List.getElem?_map, he] at hid
  cases hid
  have hpre : (w.backlog i).take n <+: w.log.drop (w.applied i) := List.take_prefix n _
  obtain ⟨hlt, _⟩ := List.getElem?_eq_some_iff.mp he
  refine ⟨w.applied i + j, e, _, ?_, rfl, ?_, rfl⟩
  · obtain ⟨rest, hrest⟩ := hpre
    rw [← List.getElem?_drop, ← hrest, List.getElem?_append_left hlt]
    exact he
  · -- the entries before the `j`th one of the batch
    have hlags := Replay.feed_related apply_entry (R := Lags kept) (fun _ _ e h => h.apply_entry e)
      (h.replica i).2 (((w.backlog i).take n).take j)
    have hupto : (Replay.feed apply_entry (replay w.log (w.applied i))
        (((w.backlog i).take n).take j)).1 = replay w.log (w.applied i + j) := by
      rw [replay, Replay.feed_upTo apply_entry ((List.take_prefix j _).trans hpre), List.length_take,
        Nat.min_eq_left (Nat.le_of_lt hlt), replay]
    rw [hupto] at hlags
    exact hlags

theorem Reported.move (h : w.Reported kept) (hl : w.Lossy kept) {m : RaftMove}
    (hm : w.move m w') : w'.Reported kept := by
  obtain ⟨hlog, hans⟩ := answers_of_move hm
  intro i id d hmem
  have hold : ∃ k e sm, w.log[k]? = some e ∧ e.log_id = id ∧ Lags kept sm (replay w.log k) ∧
      d = (apply_entry sm e).2 := by
    rcases hans i id d hmem with hmem | ⟨n, _, hmem⟩
    · exact h i id d hmem
    · exact hl.reported_batch i n hmem
  obtain ⟨k, e, sm, hk, hid, hsm, hd⟩ := hold
  obtain ⟨hk', hreplay⟩ := kept_of_prefix hlog hk
  exact ⟨k, e, sm, hk', hid, by rw [hreplay]; exact hsm, hd⟩

theorem Reported.call (h : w.Reported kept) {o : Op} {r : o.Resp} (hc : w.call o r w') :
    w'.Reported kept := by
  obtain ⟨hlog, hans⟩ := call_log hc
  exact h.extend (by rw [hlog]) hans

end World

/-! ### The ledger with removals -/

/-- The ledger of a cluster in which the removals spare the slots `kept`, and no node goes
    back to an older snapshot. -/
def losing_ledger (kept : Slot → Prop) (ι Job : Type) [DecidableEq ι] :
    LTS.Site ι (Ledger ι Job) (RaftMove × Option Nat) Op Job Op.Resp :=
  (ledger ι Job).restrict (fun s m => s.world.forward m.1) fun _ s o => s.world.spares kept o

section losing
variable {ι Job : Type} [DecidableEq ι] {s s' : Ledger ι Job} {c : ι} {n : Nat}

structure Ledger.Losing (kept : Slot → Prop) (s : Ledger ι Job) : Prop where
  world : s.world.Lossy kept
  reported : s.world.Reported kept
  wf : s.Wf

/-- Calls and moves of Raft go forward, and lose no more than they may. -/
def losing (kept : Slot → Prop) : Discipline (losing_ledger kept ι Job) where
  inv := Ledger.Losing kept
  rel := Ledger.Onward
  can := fun _ _ _ => True
  idle := fun _ _ => True
  refl := Ledger.Onward.refl
  trans := Ledger.Onward.trans
  idle_stable := fun _ _ => trivial
  init_ok := fun h => ⟨⟨.of_init h.1, .of_init h.1, .of_init h⟩, fun _ => trivial⟩
  env_ok := by
    intro s m s' hi hm
    obtain ⟨hok, hm⟩ := hm
    obtain ⟨hmove, _⟩ := Ledger.env_cases hm
    obtain ⟨hlossy, hadv⟩ := hi.world.move hok hmove
    exact ⟨⟨hlossy, hi.reported.move hi.world hmove, hi.wf.env hm⟩,
      fun c => ⟨Ledger.keeps_of_env hm c, hadv⟩⟩

theorem losing_start {j : Job} (hi : s.Losing kept) (hs : s.start c j s') :
    s'.Losing kept ∧ ∀ d, d ≠ c → Ledger.Onward d s s' := by
  have hwf := hi.wf.start hs
  refine ⟨⟨?_, ?_, hwf⟩, fun d hd => ⟨Ledger.keeps_of_start hs hd, ?_⟩⟩ <;> obtain ⟨_, rfl⟩ := hs
  · exact hi.world
  · exact hi.reported
  · exact .refl _

theorem losing_kept : (losing kept : Discipline (losing_ledger kept ι Job)).Kept where
  can := fun _ _ _ => trivial
  kept := by
    intro c s o r s' hi hc
    obtain ⟨hok, hc⟩ := hc
    obtain ⟨hcall, _⟩ := Ledger.call_cases hc
    obtain ⟨hlossy, hadv⟩ := hi.world.call hok hcall
    exact ⟨⟨hlossy, hi.reported.call hcall, hi.wf.call hc⟩,
      fun d hd => ⟨Ledger.keeps_of_call hc hd, hadv⟩⟩

theorem losing_quiet (o : Op) (ho : Travels o) :
    Quiet (losing kept : Discipline (losing_ledger kept ι Job)) o :=
  ⟨fun _ _ _ => trivial, fun _ _ _ _ hc => Ledger.eq_of_travels ho hc.2⟩

/-! ### Writes -/

/-- The request `req` of call `c` stands in the log, not before position `n`, and `d` is
    what a copy of the prefix before it answers. -/
def Ledger.TookLossy (kept : Slot → Prop) (c : ι) (n : Nat) (req : RaftRequest) (d : RaftResponse)
    (s : Ledger ι Job) : Prop :=
  ∃ (p : Nat) (data : StateMachineData), n ≤ p ∧ p ≤ s.world.log.length ∧ s.Placed c p ∧
    Copy kept data.slot (replay s.world.log p).data.slot ∧ d = (apply_request data req).2

theorem Ledger.TookLossy.onward {req : RaftRequest} {d : RaftResponse}
    (h : s.TookLossy kept c n req d) (hr : Ledger.Onward c s s') : s'.TookLossy kept c n req d := by
  obtain ⟨p, data, hn, hp, hplaced, hcopy, hd⟩ := h
  refine ⟨p, data, hn, hp.trans hr.keeps.log.length_le, hplaced.onward hr, ?_, hd⟩
  rw [replay_of_advances hr.advances hp]
  exact hcopy

theorem Ledger.Losing.acknowledged (h : s.Losing kept) {i : NodeId} {req : RaftRequest}
    {resp : ClientWriteResponse} (hc : s.call c (.await_write i req) (.ok resp) s') {id : Nat}
    (hid : s.latest c = some id) (hn : ∀ p : Nat, s.origins[p]? = some (some id) → n ≤ p) :
    s.TookLossy kept c n req resp.data := by
  have hindexed := h.world.indexed
  obtain ⟨p, e, hp, he, hreq, hans⟩ := Ledger.acknowledged hindexed hc hid
  obtain ⟨k, e₂, sm, hk, hlog_id₂, hsm, hd⟩ := h.reported i _ _ hans
  have hpos : k = p := by
    rw [← hindexed k e₂ hk, ← hindexed p e he, hlog_id₂]
  subst hpos
  rw [he] at hk
  cases hk
  obtain ⟨hlt, _⟩ := List.getElem?_eq_some_iff.mp he
  refine ⟨k, sm.data, hn k hp, Nat.le_of_lt hlt, ⟨id, hid, hp⟩, hsm.data, ?_⟩
  rw [hd]
  simp only [apply_entry, hreq]

theorem losing_routes (c : ι) (n : Nat) :
    Routes (losing kept : Discipline (losing_ledger kept ι Job)) c
      fun s => n ≤ s.world.log.length where
  quiet := losing_quiet
  before := fun _ _ hr h => h.trans hr.keeps.log.length_le

theorem losing_serves {body : RequestBody} {req : RaftRequest} (hbody : body.write = some req)
    (c : ι) (n : Nat) :
    Serves (losing kept : Discipline (losing_ledger kept ι Job)) c body
      (fun s => n ≤ s.world.log.length)
      fun resp s => ∃ r, resp = .ClientWrite r ∧ s.TookLossy kept c n req r.data := by
  refine write_serves losing_kept (fun h => h.wf) (fun h => h.keeps) (fun h => h.2)
    (losing_routes c n) (fun _ _ _ hr h => h.onward hr) ?_ hbody
  intro s₃ i resp s₄ id hi₃ hcall hid hyoung
  obtain ⟨p, data, hn, hp, hplaced, hcopy, hd⟩ := hi₃.acknowledged hcall hid hyoung
  -- the acknowledgement itself changes neither the log nor the notes
  have hlog := Ledger.call_log hcall
  obtain ⟨_, w', _, _, _, _, _, _, _, _, rfl⟩ := hcall
  exact ⟨p, data, hn, by rw [hlog]; exact hp, hplaced, by rw [hlog]; exact hcopy, hd⟩

/-! ### Reads and removals -/

theorem losing_forwards (caller : ι) :
    Forwards (losing kept : Discipline (losing_ledger kept ι Job)) caller where
  kept := losing_kept
  rel := fun hr => hr.advances
  call := by
    intro s o r s' hi hc
    obtain ⟨hcall, _⟩ := Ledger.call_cases hc.2
    exact ⟨hcall, (hi.world.call hc.1 hcall).2⟩

/-- `d` is a copy of a prefix of the log that node `j` has applied. -/
def CopyAt (kept : Slot → Prop) (w₀ : World) (c : ReadConsistency) (j : NodeId)
    (d : StateMachineData) (s : Ledger ι Job) : Prop :=
  ∃ p, Glimpse w₀ c j s.world p ∧ Copy kept d.slot (replay s.world.log p).data.slot

/-- Whichever node answers shows a copy of what it has applied. -/
theorem losing_views (caller : ι) (w₀ : World) (c : ReadConsistency) :
    Viewing (losing kept : Discipline (losing_ledger kept ι Job)) caller c
      (fun s => Advances w₀ s.world) (fun j s => c.linearizable = true → w₀.log.length ≤ s.world.applied j)
      (CopyAt kept w₀ c) :=
  (losing_forwards caller).views losing_quiet (R := fun d d' => Copy kept d.slot d'.slot)
    (fun _ j hi => ⟨(hi.world.replica j).1, (hi.world.replica j).2.data⟩) w₀ c

/-- The responses to a removal that the data `d` justifies. -/
def RequestBody.Removed (body : RequestBody) (d : StateMachineData) (resp : Response) : Prop :=
  match body with
  | .Remove map key => resp = .Remove (d.get_with_lock map key)
  | .RemoveMulti multi_map key value =>
      resp = .RemoveMulti (decide (value ∈ (d.get_with_lock_multi multi_map key).getD ∅))
  | _ => False

/-- A removal tells what the node that carried it out had in the slot. -/
theorem losing_removes {body : RequestBody} (hbody : body.removes = true) (c : ι) (w₀ : World) :
    Serves (losing kept : Discipline (losing_ledger kept ι Job)) c body
      (fun s => Advances w₀ s.world) (Found (CopyAt kept w₀ .Stale) (fun _ => True) body.Removed) where
  toRoutes := (losing_views c w₀ .Stale).toRoutes
  after := fun _ _ _ hr h => (losing_views c w₀ .Stale).found_stable hr h
  handle := by
    intro j s hi hs
    -- the data before the removal is that of the node
    have hdata : ∀ {s₁ s₂ : Ledger ι Job}, s₁.Losing kept → Advances s.world s₁.world →
        Advances s₁.world s₂.world → CopyAt kept w₀ .Stale j (s₁.world.data j) s₂ := by
      intro s₁ s₂ hi₁ hr₁ hadv
      obtain ⟨hle, hlags⟩ := hi₁.world.replica j
      have hshown : Glimpse w₀ .Stale j s₁.world (s₁.world.applied j) :=
        ⟨(hs.trans hr₁).applied j, fun h => (by cases h), Nat.le_refl _, hle⟩
      refine ⟨_, hshown.mono hadv, ?_⟩
      rw [replay_of_advances hadv hle]
      exact hlags.data
    cases body with
    | Remove map key =>
      refine (losing_forwards c).wp_call hs ?_
      intro s₁ r s₂ hi₁ hr₁ hcall _ hadv₂ s₃ _ hr₃
      obtain ⟨rfl, _⟩ := hcall
      refine ⟨j, _, trivial, hdata hi₁ hr₁ (hadv₂.trans hr₃.advances), ?_⟩
      show Response.Remove _ = _
      rw [StateMachineData.remove_fst, StateMachineData.get_with_lock_eq]
    | RemoveMulti multi_map key value =>
      refine (losing_forwards c).wp_call hs ?_
      intro s₁ r s₂ hi₁ hr₁ hcall _ hadv₂ s₃ _ hr₃
      obtain ⟨rfl, _⟩ := hcall
      refine ⟨j, _, trivial, hdata hi₁ hr₁ (hadv₂.trans hr₃.advances), ?_⟩
      show Response.RemoveMulti _ = _
      rw [StateMachineData.remove_multi_value_fst, StateMachineData.get_with_lock_multi_eq]
    | _ => cases hbody

end losing

/-! ### The methods that remove -/

section methods
variable {ι σ Env Job : Type} {site : LTS.Site ι σ Env Op Job Op.Resp} {D : Discipline site} {c : ι}
  {s : σ} {K V Q U : Type} [Serialize Q] [Serialize U] {I : σ → Prop} {H : RequestBody → Response → σ → Prop}

omit [Serialize U] in
theorem wp_remove [Deserialize V] (m : DMap K V) (fuel : Nat) (key : Q) (hroute : Routes D c I)
    (h : ∀ kb, Serialize.to_allocvec key = .ok kb → Serves D c (.Remove m.name kb) I (H (.Remove m.name kb)))
    (hi : D.inv s) (hs : I s) :
    D.wp c (Rely.ifOk fun old s' => ∃ kb r, Serialize.to_allocvec key = .ok kb ∧
      DMap.decode_value r = .ok old ∧ H (.Remove m.name kb) (.Remove r) s') (linked (m.remove fuel key)) s := by
  refine hroute.to_leader m.cluster hi hs ?_
  intro client s₁ hi₁ hs₁
  refine wp_encoded fun kb hkb => ?_
  have hserve := h kb hkb
  refine Discipline.wp_mono ?_ (wp_linked_decode (g := DMap.decode_value) ?_ hi₁
    (hserve.call _ fuel client hi₁ hs₁))
  · intro r s₂ _ hr old hold
    obtain ⟨bs, hdec, resp, hacc, hH⟩ := hr old hold
    -- only a response to a removal is accepted
    split at hacc
    · cases hacc
      exact ⟨kb, bs, hkb, hdec, hH⟩
    · cases hacc
  · intro bs s₂ s₃ hr hbs
    obtain ⟨resp, hacc, hH⟩ := hbs
    exact ⟨resp, hacc, hserve.after _ _ _ hr hH⟩

theorem wp_remove_multi (m : DMultiMap K V) (fuel : Nat) (key : Q) (value : U)
    (hroute : Routes D c I)
    (h : ∀ kb vb, Serialize.to_allocvec key = .ok kb → Serialize.to_allocvec value = .ok vb →
      Serves D c (.RemoveMulti m.name kb vb) I (H (.RemoveMulti m.name kb vb)))
    (hi : D.inv s) (hs : I s) :
    D.wp c (Rely.ifOk fun present s' => ∃ kb vb, Serialize.to_allocvec key = .ok kb ∧
      Serialize.to_allocvec value = .ok vb ∧ H (.RemoveMulti m.name kb vb) (.RemoveMulti present) s')
      (linked (m.remove fuel key value)) s := by
  refine hroute.to_leader m.cluster hi hs ?_
  intro client s₁ hi₁ hs₁
  refine wp_encoded fun kb hkb => wp_encoded fun vb hvb => ?_
  refine Discipline.wp_mono ?_ ((h kb vb hkb hvb).call _ fuel client hi₁ hs₁)
  intro r s₂ _ hr present hpresent
  obtain ⟨resp, hacc, hH⟩ := hr present hpresent
  split at hacc
  · cases hacc
    exact ⟨kb, vb, hkb, hvb, hH⟩
  · cases hacc

end methods

/-! ### Calls -/

section activities
variable {T : Type} (Ty : T → Type)

/-- The calls of a run in which things are removed. -/
inductive Activity where
  | call (j : Call Ty)
  | remove (k v q : T) (m : DMap (Ty k) (Ty v)) (fuel : Nat) (key : Ty q)
  | remove_multi (k v q u : T) (m : DMultiMap (Ty k) (Ty v)) (fuel : Nat) (key : Ty q) (value : Ty u)

/-- What they return. -/
inductive Activity.Result where
  | call (out : Distruct.Result Ty)
  | removed (v : T) (old : Except Error (Option (Ty v)))
  | removed_multi (present : Except Error Bool)

variable {Ty} [∀ t, Serialize (Ty t)] [∀ t, Deserialize (Ty t)]

namespace Activity

def run : Activity Ty → NodeProg (Activity.Result Ty)
  | .call j => Result.call <$> j.run
  | .remove _ v _ m fuel key => Result.removed v <$> linked (m.remove fuel key)
  | .remove_multi _ _ _ _ m fuel key value => Result.removed_multi <$> linked (m.remove fuel key value)

/-- The calls that succeed. -/
def Completes : Activity Ty → Activity.Result Ty → Prop
  | .call j, .call out => j.Completes out ∨ ∃ i message resp, j = .serve i message ∧
      message.body.removes = true ∧ out = .reply (.ok resp)
  | .remove .., .removed _ (.ok _) => True
  | .remove_multi .., .removed_multi (.ok _) => True
  | _, _ => False

/-- `j.Shows d out`: a sequential map that holds `d` answers `out`. -/
def Shows (d : StateMachineData) : Activity Ty → Activity.Result Ty → Prop
  | .call j, out => ∃ out', out = .call out' ∧ (j.Shows d out' ∨ ∃ i message resp,
      j = .serve i message ∧ message.body.Removed d resp ∧ out' = .reply (.ok resp))
  | .remove _ v _ m _ key, out => ∃ kb old, Serialize.to_allocvec key = .ok kb ∧
      DMap.decode_value (d.get_with_lock m.name kb) = .ok old ∧ out = .removed v (.ok old)
  | .remove_multi _ _ _ _ m _ key value, out => ∃ kb vb, Serialize.to_allocvec key = .ok kb ∧
      Serialize.to_allocvec value = .ok vb ∧
      out = .removed_multi (.ok (decide (vb ∈ (d.get_with_lock_multi m.name kb).getD ∅)))

/-- The calls that are not to be behind. -/
def Current : Activity Ty → Prop
  | .call j => j.Current
  | _ => False

def writes : Activity Ty → Bool
  | .call j => j.writes
  | _ => false

/-- A point `p` in the log for call `c`, which began when the log had `n` entries, and the
    data `d` that explains what it has returned: a copy of what the log says there. -/
structure Account {ι : Type} (kept : Slot → Prop) (c : ι) (j : Activity Ty) (n : Nat)
    (out : Activity.Result Ty) (s : Ledger ι (Activity Ty)) (p : Nat) (d : StateMachineData) :
    Prop where
  shows : j.Shows d out
  copy : Copy kept d.slot (replay s.world.log p).data.slot
  in_log : p ≤ s.world.log.length
  written : j.writes = true → s.Placed c p
  current : j.Current → n ≤ p

end Activity

variable {ι : Type} [DecidableEq ι] {s : Ledger ι (Activity Ty)} {c : ι} {n : Nat}

omit [DecidableEq ι] in
/-- What was seen at some node gives an account. -/
theorem Found.account {w₀ : World} {cons : ReadConsistency} {N : NodeId → Prop} {α : Type}
    {P : StateMachineData → α → Prop} {a : α} {j : Activity Ty} {out : Activity.Result Ty}
    (h : Found (CopyAt kept w₀ cons) N P a s) (hw : j.writes = false)
    (hcur : j.Current → cons.linearizable = true) (hshows : ∀ d, P d a → j.Shows d out)
    (hn : n ≤ w₀.log.length) : ∃ p d, j.Account kept c n out s p d := by
  obtain ⟨_, d, _, ⟨p, hp, hcopy⟩, ha⟩ := h
  refine ⟨p, d, hshows d ha, hcopy, hp.in_log, ?_, fun hj => hn.trans (hp.committed (hcur hj))⟩
  intro htrue
  rw [hw] at htrue
  cases htrue

/-- Every call that reads or writes and succeeds has an account. -/
theorem wp_call_account (j : Call Ty) (hi : s.Losing kept) :
    (losing kept).wp c (fun out s' => (Activity.call j).Completes (.call out) →
      ∃ p d, (Activity.call j).Account kept c s.world.log.length (.call out) s' p d) j.run s := by
  cases hw : j.writes with
  | true =>
    refine Discipline.wp_mono ?_ (wp_write_run (losing_routes c s.world.log.length)
      (fun hbody => losing_serves hbody c _) j hw hi (Nat.le_refl _))
    intro out s' _ h hcomp
    have hsucc : j.Succeeds out := by
      rcases hcomp with hcomp | ⟨i, message, resp, rfl, _, rfl⟩
      · exact hcomp.succeeds hw
      · exact hw
    obtain ⟨req, d, ⟨p, data, hn, hp, hplaced, hcopy, hd⟩, _, hout⟩ := h hsucc
    exact ⟨p, data, ⟨_, rfl, .inl (.inl (hout data hd))⟩, hcopy, hp, fun _ => hplaced, fun _ => hn⟩
  | false =>
    cases j with
    | read r =>
      refine Discipline.wp_map (Discipline.wp_mono ?_
        (Viewing.reading r (losing_views c s.world r.consistency) hi (.refl _)))
      intro out s' _ h hcomp
      cases out with
      | error e =>
        rcases hcomp with hcomp | ⟨_, _, _, hj, _⟩
        · cases hcomp
        · cases hj
      | ok a =>
        refine (h a rfl).account hw ?_ (fun d hd => ⟨_, rfl, .inl (.inl ⟨a, rfl, hd⟩)⟩) (Nat.le_refl _)
        intro hcur
        rcases hcur with hcur | ⟨cons, hcons, hlin⟩
        · cases hcur
        · cases hcons
          exact hlin
    | insert | insert_multi | clear => cases hw
    | serve i message =>
      obtain ⟨target, body⟩ := message
      cases hcons : body.consistency with
      | some cons =>
        refine Discipline.wp_map (Discipline.wp_mono ?_
          ((losing_views c s.world cons).message hcons i target hi (.refl _)))
        intro out s' _ h hcomp
        cases out with
        | error e =>
          rcases hcomp with hcomp | ⟨_, _, _, _, _, hout⟩
          · cases hcomp
          · cases hout
        | ok resp =>
          refine (h resp rfl).account hw ?_
            (fun d hd => ⟨_, rfl, .inl (.inr ⟨i, _, resp, rfl, hd, rfl⟩)⟩) (Nat.le_refl _)
          intro hcur
          rcases hcur with hcur | ⟨cons', hcons', hlin⟩
          · rw [hw] at hcur
            cases hcur
          · have hsame : body.consistency = some cons' := hcons'
            rw [hcons] at hsame
            cases hsame
            exact hlin
      | none =>
        have hwrite : body.write.isSome = false := hw
        cases hrem : body.removes with
        | true =>
          refine Discipline.wp_map (Discipline.wp_mono ?_
            ((losing_removes hrem c s.world).handle_message i target hi (.refl _)))
          intro out s' _ h hcomp
          cases out with
          | error e =>
            rcases hcomp with hcomp | ⟨_, _, _, _, _, hout⟩
            · cases hcomp
            · cases hout
          | ok resp =>
            refine Found.account h hw ?_ (fun d hd => ⟨_, rfl, .inr ⟨i, _, resp, rfl, hd, rfl⟩⟩)
              (Nat.le_refl _)
            intro hcur
            rcases hcur with hcur | ⟨cons, hcons', _⟩
            · rw [hw] at hcur
              cases hcur
            · have hsome : body.consistency = some cons := hcons'
              rw [hcons] at hsome
              cases hsome
        | false =>
          -- nothing is said of other requests
          refine Discipline.wp_of_forall losing_kept ?_ _ s
          intro out s' hcomp
          rcases hcomp with hcomp | ⟨_, _, _, hj, hrem', _⟩
          · cases out with
            | reply r =>
              cases r with
              | error e => cases hcomp
              | ok resp =>
                have hsome : body.write.isSome ∨ body.consistency.isSome := hcomp
                simp [hwrite, hcons] at hsome
            | _ => cases hcomp
          · cases hj
            rw [hrem] at hrem'
            cases hrem'

theorem wp_account (j : Activity Ty) (hi : s.Losing kept) :
    (losing kept).wp c (fun out s' => j.Completes out →
      ∃ p d, j.Account kept c s.world.log.length out s' p d) j.run s := by
  have hroute : Routes (losing kept : Discipline (losing_ledger kept ι (Activity Ty))) c
      fun s' => Advances s.world s'.world := (losing_views c s.world .Stale).toRoutes
  cases j with
  | call j => exact Discipline.wp_map (wp_call_account j hi)
  | remove k v q m fuel key =>
    refine Discipline.wp_map (Discipline.wp_mono ?_ (wp_remove m fuel key hroute
      (H := fun body => Found (CopyAt kept s.world .Stale) (fun _ => True) body.Removed)
      (fun _ _ => losing_removes rfl c s.world) hi (.refl _)))
    intro out s' _ h hcomp
    cases out with
    | error e => cases hcomp
    | ok old =>
      obtain ⟨kb, r, hkb, hdec, hfound⟩ := h old rfl
      refine hfound.account rfl (fun hcur => hcur.elim) ?_ (Nat.le_refl _)
      intro d hd
      -- what was removed is what was there
      have hr : r = d.get_with_lock m.name kb := Response.Remove.inj hd
      exact ⟨kb, old, hkb, hr ▸ hdec, rfl⟩
  | remove_multi k v q u m fuel key value =>
    refine Discipline.wp_map (Discipline.wp_mono ?_ (wp_remove_multi m fuel key value hroute
      (H := fun body => Found (CopyAt kept s.world .Stale) (fun _ => True) body.Removed)
      (fun _ _ _ _ => losing_removes rfl c s.world) hi (.refl _)))
    intro out s' _ h hcomp
    cases out with
    | error e => cases hcomp
    | ok present =>
      obtain ⟨kb, vb, hkb, hvb, hfound⟩ := h present rfl
      refine hfound.account rfl (fun hcur => hcur.elim) ?_ (Nat.le_refl _)
      intro d hd
      have hp : present = decide (vb ∈ (d.get_with_lock_multi m.name kb).getD ∅) :=
        Response.RemoveMulti.inj hd
      exact ⟨kb, vb, hkb, hvb, by rw [hp]⟩

end activities

/-! ### Runs -/

section runs
variable {ι : Type} [DecidableEq ι] {T : Type} {Ty : T → Type} [∀ t, Serialize (Ty t)]
  [∀ t, Deserialize (Ty t)]
  {crew : LTS.Crew ι (Ledger ι (Activity Ty)) Op Op.Resp (Activity.Result Ty)}

/-- All calls, removals too, in any order and interleaving. -/
def losing_runs (kept : Slot → Prop) (ι : Type) [DecidableEq ι] {T : Type} (Ty : T → Type)
    [∀ t, Serialize (Ty t)] [∀ t, Deserialize (Ty t)] :
    LTS.System (LTS.Crew ι (Ledger ι (Activity Ty)) Op Op.Resp (Activity.Result Ty))
      (LTS.Move ι (RaftMove × Option Nat) Op (Activity Ty)) :=
  LTS.crew (losing_ledger kept ι (Activity Ty)) fun _ j => j.run

theorem losing_runs_inv (hc : (losing_runs kept ι Ty).Reachable crew) :
    (losing kept).CrewInv (fun c out s => ∃ j n, s.calls c = some (j, n) ∧
      (j.Completes out → ∃ p d, j.Account kept c n out s p d)) crew := by
  refine (losing kept).crew_sound _ (fun _ _ _ _ _ => trivial) ?_ hc
  intro c j s s' hi _ hs
  obtain ⟨hi', hrel⟩ := losing_start hi hs
  obtain ⟨_, rfl⟩ := hs
  refine ⟨hi', hrel, ?_⟩
  -- the call remains the one that was begun
  refine Discipline.wp_mono ?_ (Discipline.wp_frame
    (R := fun s' => s'.calls c = some (j, s.world.log.length)) ?_ ?_ (Function.update_self _ _ _)
    (wp_account j hi'))
  · intro out s' _ h
    exact ⟨j, _, h.1, h.2⟩
  · intro s₁ s₂ hr h
    exact hr.keeps.calls.trans h
  · intro s₁ o r s₂ h hcall
    rw [Ledger.call_calls hcall.2]
    exact h

/-- **Removals only lose**: whatever is removed, on whichever nodes, and whatever else is
    called meanwhile, as long as the removals spare the slots `kept`:

    - what a node holds in a slot is what the prefix of the log says that it has
      applied, and the slots `kept` hold all that it says;
    - every call that succeeds, an insertion, a read or a removal itself, returns
      what such a copy of a prefix of the log answers. For a write the prefix
      ends before its own entry, and for a write or a linearizable read it
      holds everything that was committed when the call began. -/
theorem removals_only_lose (hc : (losing_runs kept ι Ty).Reachable crew) :
    (∀ i, crew.shared.world.applied i ≤ crew.shared.world.log.length ∧ ∀ slot,
      (∀ v, (crew.shared.world.data i).slot slot = some v →
        (replay crew.shared.world.log (crew.shared.world.applied i)).data.slot slot = some v) ∧
      (kept slot → (crew.shared.world.data i).slot slot
        = (replay crew.shared.world.log (crew.shared.world.applied i)).data.slot slot)) ∧
    ∀ c j n out, crew.shared.calls c = some (j, n) → crew.worker c = some (.pure out) →
      j.Completes out → ∃ p d, j.Account kept c n out crew.shared p d := by
  have hinv := losing_runs_inv hc
  refine ⟨?_, ?_⟩
  · intro i
    obtain ⟨hle, hlags⟩ := hinv.inv.world.replica i
    exact ⟨hle, fun slot => ⟨fun v hv => hlags.data.of_some hv, fun hk => hlags.data.eq_of_kept hk⟩⟩
  · intro c j n out hj hout hcomp
    obtain ⟨j', n', hj', haccount⟩ := hinv.returned hout
    rw [hj] at hj'
    cases hj'
    exact haccount hcomp

end runs

/-- The leader inserts an entry and then removes it. -/
theorem entry_removed (hkept : ¬ kept (.entry "m" [1])) :
    ∃ crew, (losing_runs kept Nat fun _ : Unit => Bytes).Reachable crew ∧
      crew.shared.calls 1 = some (.call (.serve 0 ⟨none, .Remove "m" [1]⟩), 1) ∧
      crew.worker 1 = some (.pure (.call (.reply (.ok (.Remove (some [2])))))) ∧
      crew.shared.calls 2 = none ∧ crew.worker 2 = none ∧
      crew.shared.submissions = [(0, .Insert "m" [1] [2])] ∧ crew.shared.origins = [some 0] ∧
      crew.shared.world.log = [insert_entry] ∧
      crew.shared.world.node 0 = (⟨((default : StateMachine).apply [insert_entry]).2,
        leader_metrics⟩ : NodeState).withData
          (((default : StateMachine).apply [insert_entry]).2.state_machine.data.remove "m" [1]).2 := by
  have h₀ : (losing_runs kept Nat fun _ : Unit => Bytes).Reachable
      ⟨⟨World.fresh, fun _ => none, [], [], fun _ => none, fun _ => 0⟩, fun _ => none⟩ :=
    .init ⟨⟨⟨rfl, fun _ => rfl, rfl, rfl, rfl, rfl⟩, rfl, rfl, rfl, rfl, rfl⟩, fun _ => rfl⟩
  have h₁ := LTS.Crew.env h₀ (.observe 0 leader_metrics, none) ⟨trivial, _, rfl, rfl⟩
  have h₂ := LTS.Crew.start h₁ 0 (.call (.serve 0 ⟨none, .Insert "m" [1] [2]⟩)) (.inl rfl) ⟨rfl, rfl⟩
  have h₃ := LTS.Crew.call h₂ 0 (o := .submit_write 0 (.Insert "m" [1] [2])) ()
    rfl ⟨trivial, _, rfl, rfl⟩
  have hprop : ∀ req, insert_entry.payload = .Normal req →
      req ∈ [RaftRequest.Insert "m" [1] [2]] := by
    intro req h
    cases h
    exact List.mem_singleton.mpr rfl
  have h₄ := LTS.Crew.env h₃ (.commit insert_entry, some 0)
    ⟨trivial, _, ⟨rfl, hprop, rfl⟩, ⟨0, 0, rfl, rfl, nofun⟩, rfl⟩
  have h₅ := LTS.Crew.env h₄ (.apply 0 1, none) ⟨trivial, _, rfl, rfl⟩
  have h₆ := LTS.Crew.start h₅ 1 (.call (.serve 0 ⟨none, .Remove "m" [1]⟩)) (.inl rfl) ⟨rfl, rfl⟩
  have h₇ := LTS.Crew.call h₆ 1 (o := .remove 0 "m" [1]) (some [2]) rfl
    ⟨fun h => absurd h hkept, _, ⟨by decide, rfl⟩, rfl⟩
  exact ⟨_, h₇, rfl, rfl, rfl, rfl, rfl, rfl, rfl, rfl⟩

/-- The leader no longer holds what the log says, and what the removal returned has an
    account. -/
theorem removals_only_lose_entry :
    ∃ crew p d, (losing_runs (· ≠ .entry "m" [1]) Nat fun _ : Unit => Bytes).Reachable crew ∧
      crew.shared.world.log = [insert_entry] ∧
      (crew.shared.world.data 0).slot (.entry "m" [1]) = none ∧
      (replay crew.shared.world.log (crew.shared.world.applied 0)).data.slot (.entry "m" [1])
        = some [2] ∧
      (Activity.call (.serve 0 ⟨none, .Remove "m" [1]⟩)).Account (· ≠ .entry "m" [1]) 1 1
        (.call (.reply (.ok (.Remove (some [2]))))) crew.shared p d := by
  obtain ⟨crew, hc, hcalls, hworker, _, _, _, _, hlog, hnode⟩ :=
    @entry_removed (· ≠ .entry "m" [1]) (fun h => h rfl)
  obtain ⟨_, haccount⟩ := removals_only_lose hc
  obtain ⟨p, d, hpd⟩ := haccount 1 _ _ _ hcalls hworker (.inr ⟨0, _, _, rfl, rfl, rfl⟩)
  refine ⟨crew, p, d, hc, hlog, ?_, ?_, hpd⟩
  · simp only [World.data, NodeState.data, hnode]
    decide
  · simp only [World.applied, hnode, hlog]
    decide

end Distruct

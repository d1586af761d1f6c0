import Distruct.Collections.Writes

/-! # Linearizable Collections

    Insertions and reads together. Every call that succeeds has a point in the
    committed log: a write the position of its entry, a read the end of the
    prefix that it has seen. The point lies between the beginning and the
    return of the call, and what the call returns is what the state machine
    answers there.
-/

namespace Distruct

open LTS (Rely Discipline)
open Postcard (Bytes)
open World (progress Advances)

/-! ### Writes over any discipline -/

section writes
variable {ι Job : Type} [DecidableEq ι] {site : LTS.Site ι (Ledger ι Job) (RaftMove × Option Nat) Op Job Op.Resp}
  {D : Discipline site} {c : ι} {n : Nat}

/-- What is known of an acknowledgement is known of the response to a request that
    writes: the entry comes from the submission that was made for it, and
    that is younger than what was in the log when the call began. -/
theorem write_serves {req : RaftRequest} {T : RaftResponse → Ledger ι Job → Prop} (hk : D.Kept)
    (hwf : ∀ {s}, D.inv s → s.Wf) (hkeeps : ∀ {s s'}, D.rel c s s' → Ledger.Keeps c s s')
    (hsite : ∀ {s o r s'}, site.call c s o r s' → s.call c o r s')
    (hroute : Routes D c fun s => n ≤ s.world.log.length)
    (hstable : ∀ d s s', D.rel c s s' → T d s → T d s')
    (hack : ∀ s i resp s' id, D.inv s → s.call c (.await_write i req) (.ok resp) s' →
      s.latest c = some id → (∀ p : Nat, s.origins[p]? = some (some id) → n ≤ p) → T resp.data s')
    {body : RequestBody} (hbody : body.write = some req) :
    Serves D c body (fun s => n ≤ s.world.log.length)
      fun resp s => ∃ r, resp = .ClientWrite r ∧ T r.data s where
  toRoutes := hroute
  after := by
    intro resp s s' hr h
    obtain ⟨r, hresp, hT⟩ := h
    exact ⟨r, hresp, hstable _ _ _ hr hT⟩
  handle := by
    intro i s hi hn
    rw [handle_body_of_write hbody]
    refine Discipline.wp_call_kept hk ?_
    intro s₁ hi₁ hr₁ r s₂ hc₂
    have hcall₂ : s₁.call c (.submit_write i req) r s₂ := hsite hc₂
    have hn₁ : n ≤ s₁.world.log.length := hn.trans (hkeeps hr₁).log.length_le
    -- the number of the submission is fresh
    have hlatest : s₂.latest c = some s₁.submissions.length := by
      obtain ⟨w', _, rfl⟩ := hcall₂
      exact Function.update_self _ _ _
    have hfresh : ∀ p : Nat, s₂.origins[p]? ≠ some (some s₁.submissions.length) := by
      obtain ⟨w', _, rfl⟩ := hcall₂
      intro p hp
      exact Nat.lt_irrefl _ ((hwf hi₁).origin_lt hp)
    have hlength : n ≤ s₂.origins.length := by
      obtain ⟨w', _, rfl⟩ := hcall₂
      exact (hwf hi₁).length ▸ hn₁
    refine Discipline.wp_call_kept hk ?_
    intro s₃ hi₃ hr₃ r s₄ hc₄ s₅ hi₅ hr₅
    cases r with
    | error e =>
      intro _
      have hcall₄ : s₃.call c (.await_write i req) (.error e) s₄ := hsite hc₄
      have hlog₂ := Ledger.call_log hcall₂
      have hlog₄ := Ledger.call_log hcall₄
      have hle₃ := (hkeeps hr₃).log.length_le
      have hle₅ := (hkeeps hr₅).log.length_le
      rw [hlog₂] at hle₃
      rw [hlog₄] at hle₅
      exact hn₁.trans (hle₃.trans hle₅)
    | ok resp =>
      have hcall₄ : s₃.call c (.await_write i req) (.ok resp) s₄ := hsite hc₄
      have hid₃ := (hkeeps hr₃).latest.trans hlatest
      refine ⟨resp, rfl, hstable _ _ _ hr₅ (hack s₃ i resp s₄ _ hi₃ hcall₄ hid₃ ?_)⟩
      -- an entry of this submission is younger than the submission
      intro p hp
      by_contra hlt
      obtain ⟨more, hmore⟩ := (hkeeps hr₃).origins
      rw [← hmore, List.getElem?_append_left (by omega)] at hp
      exact hfresh p hp

end writes

/-! ### Runs that go forward -/

section orderly
variable {ι Job : Type} [DecidableEq ι] {s s' : Ledger ι Job} {c : ι}

structure Ledger.Inv (s : Ledger ι Job) : Prop where
  world : s.world.Inv
  answered : s.world.Answered
  wf : s.Wf

/-- What a call relies on. -/
structure Ledger.Onward (c : ι) (s s' : Ledger ι Job) : Prop where
  keeps : Ledger.Keeps c s s'
  advances : Advances s.world s'.world

theorem Ledger.Onward.refl (c : ι) (s : Ledger ι Job) : Ledger.Onward c s s :=
  ⟨.refl c s, .refl s.world⟩

theorem Ledger.Onward.trans {s₁ s₂ s₃ : Ledger ι Job} (h : Ledger.Onward c s₁ s₂)
    (h' : Ledger.Onward c s₂ s₃) : Ledger.Onward c s₁ s₃ :=
  ⟨h.keeps.trans h'.keeps, h.advances.trans h'.advances⟩

/-- Calls and moves of Raft go forward, and leave the notes of others alone. -/
def orderly : Discipline (forward_ledger ι Job) where
  inv := Ledger.Inv
  rel := Ledger.Onward
  can := fun _ _ _ => True
  idle := fun _ _ => True
  refl := Ledger.Onward.refl
  trans := Ledger.Onward.trans
  idle_stable := fun _ _ => trivial
  init_ok := fun h => ⟨⟨.of_init h.1, .of_init h.1, .of_init h⟩, fun _ => trivial⟩
  env_ok := by
    intro s m s' hi hm
    obtain ⟨hok, hm⟩ := hm
    obtain ⟨hmove, _⟩ := Ledger.env_cases hm
    exact ⟨⟨hi.world.move hmove, hi.answered.move hi.world hmove, hi.wf.env hm⟩,
      fun c => ⟨Ledger.keeps_of_env hm c, hi.world.advances_move hok hmove⟩⟩

theorem orderly_start {j : Job} (hi : s.Inv) (hs : s.start c j s') :
    s'.Inv ∧ ∀ d, d ≠ c → Ledger.Onward d s s' := by
  have hwf := hi.wf.start hs
  refine ⟨⟨?_, ?_, hwf⟩, fun d hd => ⟨Ledger.keeps_of_start hs hd, ?_⟩⟩ <;> obtain ⟨_, rfl⟩ := hs
  · exact hi.world
  · exact hi.answered
  · exact .refl _

theorem orderly_kept : (orderly : Discipline (forward_ledger ι Job)).Kept where
  can := fun _ _ _ => trivial
  kept := by
    intro c s o r s' hi hc
    obtain ⟨hok, hc⟩ := hc
    obtain ⟨hcall, _⟩ := Ledger.call_cases hc
    have hf := World.frame_of_call hok hcall
    refine ⟨⟨hi.world.frame hf, hi.answered.call hcall, hi.wf.call hc⟩, fun d hd => ?_⟩
    refine ⟨Ledger.keeps_of_call hc hd, ?_, ?_⟩
    · rw [hf.log]
    · intro i
      rw [World.applied, World.applied, hf.node]

/-- Without its notes, the ledger is the cluster in which reads were studied. -/
theorem orderly_projects :
    (orderly : Discipline (forward_ledger ι Job)).Projects progress Ledger.world where
  inv := fun h => h.world
  rel := fun h => h.advances
  call := by
    intro c s o r s' hc
    obtain ⟨hok, hc⟩ := hc
    exact ⟨hok, (Ledger.call_cases hc).1⟩

/-! ### Writes -/

/-- The position `p` of the log holds the write that call `c` was waiting for. -/
def Ledger.Placed (c : ι) (s : Ledger ι Job) (p : Nat) : Prop :=
  ∃ id : Nat, s.latest c = some id ∧ s.origins[p]? = some (some id)

/-- The request `req` of call `c` stands in the log, not before position `n`, and
    `d` is what was answered there. -/
def Ledger.Took (c : ι) (n : Nat) (req : RaftRequest) (d : RaftResponse) (s : Ledger ι Job) : Prop :=
  ∃ (p : Nat) (e : Entry), n ≤ p ∧ s.Placed c p ∧ s.world.log[p]? = some e ∧
    e.payload = .Normal req ∧ d = (apply_request (replay s.world.log p).data req).2

theorem Ledger.Placed.onward {p : Nat} (h : s.Placed c p) (hr : Ledger.Onward c s s') :
    s'.Placed c p := by
  obtain ⟨id, hid, hp⟩ := h
  obtain ⟨more, hmore⟩ := hr.keeps.origins
  obtain ⟨hlt, _⟩ := List.getElem?_eq_some_iff.mp hp
  refine ⟨id, hr.keeps.latest.trans hid, ?_⟩
  rw [← hmore, List.getElem?_append_left hlt]
  exact hp

omit [DecidableEq ι] in
/-- Two calls do not wait for the same entry. -/
theorem Ledger.Wf.placed_inj (h : s.Wf) {d : ι} {p : Nat} (hc : s.Placed c p) (hd : s.Placed d p) :
    c = d := by
  obtain ⟨id, hid, hp⟩ := hc
  obtain ⟨id', hid', hp'⟩ := hd
  rw [hp] at hp'
  cases hp'
  obtain ⟨req, hreq⟩ := h.latest c id hid
  obtain ⟨req', hreq'⟩ := h.latest d id hid'
  rw [hreq] at hreq'
  cases hreq'
  rfl

theorem Ledger.Took.onward {n : Nat} {req : RaftRequest} {d : RaftResponse} (h : s.Took c n req d)
    (hr : Ledger.Onward c s s') : s'.Took c n req d := by
  obtain ⟨p, e, hn, hplaced, he, hreq, hd⟩ := h
  obtain ⟨he', hreplay⟩ := World.kept_of_prefix hr.keeps.log he
  exact ⟨p, e, hn, hplaced.onward hr, he', hreq, by rw [hreplay]; exact hd⟩

/-- What an acknowledgement says: the entry that comes from the submission that was
    waited for holds the request, and the node has answered that entry. -/
theorem Ledger.acknowledged (hindexed : Indexed s.world.log) {i : NodeId} {req : RaftRequest}
    {resp : ClientWriteResponse} (hc : s.call c (.await_write i req) (.ok resp) s') {id : Nat}
    (hid : s.latest c = some id) :
    ∃ (p : Nat) (e : Entry), s.origins[p]? = some (some id) ∧ s.world.log[p]? = some e ∧
      e.payload = .Normal req ∧ (e.log_id, resp.data) ∈ s.world.answers i := by
  obtain ⟨w', id', p, e, hw, hid', hp, he, hlog_id, _⟩ := hc
  rw [hid] at hid'
  cases hid'
  obtain ⟨e₁, he₁, hreq, hlog_id₁, hans, _⟩ := hw
  obtain ⟨p₁, hp₁⟩ := List.mem_iff_getElem?.mp he₁
  -- both entries have the same log id and so the same position
  have hpos : p₁ = p := by
    rw [← hindexed p₁ e₁ hp₁, ← hindexed p e he, ← hlog_id, hlog_id₁]
  subst hpos
  rw [he] at hp₁
  cases hp₁
  exact ⟨p₁, e, hp, he, hreq, hans⟩

/-- The answer is that of the state machine at the entry, which comes after everything
    that was in the log when the write was submitted. -/
theorem Ledger.Inv.acknowledged (h : s.Inv) {i : NodeId} {req : RaftRequest}
    {resp : ClientWriteResponse} (hc : s.call c (.await_write i req) (.ok resp) s') {n id : Nat}
    (hid : s.latest c = some id) (hn : ∀ p : Nat, s.origins[p]? = some (some id) → n ≤ p) :
    s.Took c n req resp.data := by
  have hindexed := h.world.indexed
  obtain ⟨p, e, hp, he, hreq, hans⟩ := Ledger.acknowledged hindexed hc hid
  obtain ⟨k, e₂, hk, hlog_id₂, hd⟩ := h.answered i _ _ hans
  have hpos : k = p := by
    rw [← hindexed k e₂ hk, ← hindexed p e he, hlog_id₂]
  subst hpos
  rw [he] at hk
  cases hk
  refine ⟨k, e, hn k hp, ⟨id, hid, hp⟩, he, hreq, ?_⟩
  rw [hd]
  simp only [apply_entry, hreq]

theorem orderly_routes (c : ι) (n : Nat) :
    Routes (orderly : Discipline (forward_ledger ι Job)) c fun s => n ≤ s.world.log.length where
  quiet := fun _ ho => ⟨fun _ _ _ => trivial, fun _ _ _ _ hc => Ledger.eq_of_travels ho hc.2⟩
  before := fun _ _ hr h => h.trans hr.keeps.log.length_le

/-- A write that is answered stands in the log, after everything that was there
    when the call began. -/
theorem orderly_serves {body : RequestBody} {req : RaftRequest} (hbody : body.write = some req)
    (c : ι) (n : Nat) :
    Serves (orderly : Discipline (forward_ledger ι Job)) c body (fun s => n ≤ s.world.log.length)
      fun resp s => ∃ r, resp = .ClientWrite r ∧ s.Took c n req r.data := by
  refine write_serves orderly_kept (fun h => h.wf) (fun h => h.keeps) (fun h => h.2)
    (orderly_routes c n) (fun _ _ _ hr h => h.onward hr) ?_ hbody
  intro s₃ i resp s₄ id hi₃ hcall hid hyoung
  obtain ⟨p, e, hp, hplaced, he, hreq, hd⟩ := hi₃.acknowledged hcall hid hyoung
  -- the acknowledgement itself changes neither the log nor the notes
  have hlog := Ledger.call_log hcall
  obtain ⟨_, w', _, _, _, _, _, _, _, _, rfl⟩ := hcall
  exact ⟨p, e, hp, hplaced, by rw [hlog]; exact he, hreq, by rw [hlog]; exact hd⟩

end orderly

/-! ### What a call says of the data -/

theorem or_default_lookup (d : StateMachineData) (map : String) (key : Bytes) :
    (d.maps.or_default map ∅).lookup key = d.get_with_lock map key := by
  rw [StateMachineData.get_with_lock, HashMap.or_default]
  cases d.maps.lookup map <;> rfl

theorem or_default_lookup_multi (d : StateMachineData) (multi_map : String) (key : Bytes) :
    (d.multi_maps.or_default multi_map ∅).or_default key ∅
      = (d.get_with_lock_multi multi_map key).getD ∅ := by
  rw [StateMachineData.get_with_lock_multi, HashMap.or_default, HashMap.or_default]
  cases d.multi_maps.lookup multi_map <;> rfl

section explains
variable {T : Type} {Ty : T → Type} [∀ t, Serialize (Ty t)] [∀ t, Deserialize (Ty t)]

/-- Whether a call writes. -/
def Call.writes : Call Ty → Bool
  | .read _ => false
  | .serve _ message => message.body.write.isSome
  | _ => true

/-- The calls that succeed, as far as they are to be linearizable. -/
def Call.Succeeds : Call Ty → Result Ty → Prop
  | .read r, .answer (.ok _) => r.consistency.linearizable = true
  | .insert .., .inserted _ (.ok _) => True
  | .insert_multi .., .inserted_multi (.ok _) => True
  | .clear .., .cleared (.ok _) => True
  | .serve _ message, .reply (.ok _) => message.body.write.isSome
  | _, _ => False

/-- `j.Explains d out`: a sequential map that holds `d` answers `out`. -/
def Call.Explains (d : StateMachineData) : Call Ty → Result Ty → Prop
  | .read r, out => ∃ a, out = .answer (.ok a) ∧ r.Observes d a
  | .insert _ v m _ key _, out => ∃ kb old, Serialize.to_allocvec key = .ok kb ∧
      DMap.decode_value (d.get_with_lock m.name kb) = .ok old ∧ out = .inserted v (.ok old)
  | .insert_multi _ _ m _ key value, out => ∃ kb vb, Serialize.to_allocvec key = .ok kb ∧
      Serialize.to_allocvec value = .ok vb ∧
      out = .inserted_multi
        (.ok (decide (vb ∉ (d.get_with_lock_multi m.name kb).getD ∅)))
  | .clear .., out => out = .cleared (.ok ())
  | .serve _ message, out => ∃ req resp, message.body.write = some req ∧
      resp.data = (apply_request d req).2 ∧ out = .reply (.ok (.ClientWrite resp))

/-- A point at which call `c`, which began when the log had `n` entries and
    returned `out`, may have taken place. A write took place where its entry is. -/
structure Call.Point {ι : Type} (c : ι) (j : Call Ty) (n : Nat) (out : Result Ty)
    (s : Ledger ι (Call Ty)) (p : Nat) : Prop where
  after_begin : n ≤ p
  in_log : p ≤ s.world.log.length
  explains : j.Explains (replay s.world.log p).data out
  written : j.writes = true → s.Placed c p ∧
    ∃ (e : Entry) (req : RaftRequest), s.world.log[p]? = some e ∧ e.payload = .Normal req ∧ j.Writes req

variable {ι : Type} [DecidableEq ι] {s : Ledger ι (Call Ty)} {c : ι} {n : Nat}

omit [DecidableEq ι] in
/-- A write that took effect has its point where its entry is. -/
theorem Ledger.Took.point {j : Call Ty} {req : RaftRequest} {d : RaftResponse} {out : Result Ty}
    (h : s.Took c n req d) (hreq : j.Writes req)
    (hout : ∀ data, d = (apply_request data req).2 → j.Explains data out) :
    ∃ p, j.Point c n out s p := by
  obtain ⟨p, e, hn, hplaced, he, hpay, hd⟩ := h
  obtain ⟨hlt, _⟩ := List.getElem?_eq_some_iff.mp he
  exact ⟨p, hn, Nat.le_of_lt hlt, hout _ hd, fun _ => ⟨hplaced, e, req, he, hpay, hreq⟩⟩

omit [DecidableEq ι] in
/-- What a call that writes returns, given what its request is answered. -/
theorem wp_write_run {σ Env Job : Type} {site : LTS.Site ι σ Env Op Job Op.Resp} {D : Discipline site}
    {I : σ → Prop} {s : σ} {T : RaftRequest → RaftResponse → σ → Prop} (hroute : Routes D c I)
    (hserve : ∀ {body req}, body.write = some req →
      Serves D c body I fun resp s => ∃ r, resp = .ClientWrite r ∧ T req r.data s)
    (j : Call Ty) (hw : j.writes = true) (hi : D.inv s) (hs : I s) :
    D.wp c (fun out s' => j.Succeeds out → ∃ req d, T req d s' ∧ j.Writes req ∧
      ∀ data, d = (apply_request data req).2 → j.Explains data out) j.run s := by
  cases j with
  | read r => cases hw
  | insert k v m fuel key value =>
    refine Discipline.wp_map (Discipline.wp_mono ?_ (wp_insert m fuel key value hroute
      (H := fun req resp s' => ∃ r, resp = .ClientWrite r ∧ T req r.data s')
      (fun _ _ _ _ => hserve rfl) hi hs))
    intro out s' _ h hsucc
    cases out with
    | error e => cases hsucc
    | ok old =>
      obtain ⟨kb, vb, bs, resp, hkb, hvb, hdec, hdata, r, hresp, hT⟩ := h old rfl
      cases hresp
      rw [hdata] at hT
      refine ⟨_, _, hT, ⟨kb, vb, hkb, hvb, rfl⟩, ?_⟩
      intro data hd
      -- the response holds what was there before
      have hbs : bs = data.get_with_lock m.name kb := by
        rw [← or_default_lookup]
        exact RaftResponse.Insert.inj hd
      exact ⟨kb, old, hkb, hbs ▸ hdec, rfl⟩
  | insert_multi k v m fuel key value =>
    refine Discipline.wp_map (Discipline.wp_mono ?_ (wp_insert_multi m fuel key value hroute
      (H := fun req resp s' => ∃ r, resp = .ClientWrite r ∧ T req r.data s')
      (fun _ _ _ _ => hserve rfl) hi hs))
    intro out s' _ h hsucc
    cases out with
    | error e => cases hsucc
    | ok inserted =>
      obtain ⟨kb, vb, resp, hkb, hvb, hdata, r, hresp, hT⟩ := h inserted rfl
      cases hresp
      rw [hdata] at hT
      refine ⟨_, _, hT, ⟨kb, vb, hkb, hvb, rfl⟩, ?_⟩
      intro data hd
      have hins : inserted = decide (vb ∉ (data.get_with_lock_multi m.name kb).getD ∅) := by
        rw [← or_default_lookup_multi]
        exact RaftResponse.InsertMulti.inj hd
      exact ⟨kb, vb, hkb, hvb, by rw [hins]⟩
  | clear k v m fuel =>
    refine Discipline.wp_map (Discipline.wp_mono ?_ (wp_clear m fuel hroute
      (H := fun req resp s' => ∃ r, resp = .ClientWrite r ∧ T req r.data s')
      (hserve rfl) hi hs))
    intro out s' _ h hsucc
    cases out with
    | error e => cases hsucc
    | ok u =>
      -- the response to a write is never the one that `clear` accepts
      obtain ⟨r, hresp, _⟩ := h u rfl
      cases hresp
  | serve i message =>
    obtain ⟨target, body⟩ := message
    obtain ⟨req, hreq⟩ := Option.isSome_iff_exists.mp hw
    refine Discipline.wp_map (Discipline.wp_mono ?_ ((hserve hreq).handle_message i target hi hs))
    intro out s' _ h hsucc
    cases out with
    | error e => cases hsucc
    | ok resp =>
      obtain ⟨r, rfl, hT⟩ := h
      exact ⟨req, _, hT, hreq, fun data hd => ⟨req, r, hreq, hd, rfl⟩⟩

/-- Every call that succeeds has a point. -/
theorem wp_orderly_run (j : Call Ty) (hi : s.Inv) (hn : n ≤ s.world.log.length) :
    orderly.wp c (fun out s' => j.Succeeds out → ∃ p, j.Point c n out s' p) j.run s := by
  cases hw : j.writes with
  | true =>
    refine Discipline.wp_mono ?_ (wp_write_run (orderly_routes c n)
      (fun hbody => orderly_serves hbody c n) j hw hi hn)
    intro out s' _ h hsucc
    obtain ⟨req, d, htook, hreq, hout⟩ := h hsucc
    exact htook.point hreq hout
  | false =>
    cases j with
    | read r =>
      refine Discipline.wp_map ?_
      by_cases hc : r.consistency.linearizable = true
      · -- what was proved of reads without the ledger
        refine Discipline.wp_mono ?_ (Discipline.wp_of_rely orderly_kept orderly_projects
          (wp_reading hi.world r hc))
        intro out s' _ h hsucc
        cases out with
        | error e => cases hsucc
        | ok a =>
          obtain ⟨p, hlo, hhi, hobs⟩ := h a rfl
          exact ⟨p, hn.trans hlo, hhi, ⟨a, rfl, hobs⟩, nofun⟩
      · refine Discipline.wp_of_forall orderly_kept ?_ _ s
        intro out s' hsucc
        cases out with
        | error e => cases hsucc
        | ok a => exact absurd hsucc hc
    | serve i message =>
      refine Discipline.wp_map (Discipline.wp_of_forall orderly_kept ?_ _ s)
      intro out s' hsucc
      cases out with
      | error e => cases hsucc
      | ok resp =>
        have hsome : message.body.write.isSome = true := hsucc
        have hnone : message.body.write.isSome = false := hw
        rw [hsome] at hnone
        cases hnone
    | insert | insert_multi | clear => cases hw

theorem Call.Point.onward {j : Call Ty} {out : Result Ty} {s' : Ledger ι (Call Ty)} {p : Nat}
    (h : j.Point c n out s p) (hr : Ledger.Onward c s s') : j.Point c n out s' p where
  after_begin := h.after_begin
  in_log := h.in_log.trans hr.keeps.log.length_le
  explains := by
    rw [replay_of_advances hr.advances h.in_log]
    exact h.explains
  written := by
    intro hw
    obtain ⟨hplaced, e, req, he, hrest⟩ := h.written hw
    exact ⟨hplaced.onward hr, e, req, (World.kept_of_prefix hr.keeps.log he).1, hrest⟩

end explains

/-! ### Runs -/

section runs
variable {ι : Type} [DecidableEq ι] {T : Type} {Ty : T → Type} [∀ t, Serialize (Ty t)]
  [∀ t, Deserialize (Ty t)] {crew crew₀ : LTS.Crew ι (Ledger ι (Call Ty)) Op Op.Resp (Result Ty)}
  {c : ι} {j : Call Ty} {n : Nat} {out : Result Ty}

/-- All calls, in any order and interleaving. -/
def call_runs (ι : Type) [DecidableEq ι] {T : Type} (Ty : T → Type) [∀ t, Serialize (Ty t)]
    [∀ t, Deserialize (Ty t)] : LTS.System (LTS.Crew ι (Ledger ι (Call Ty)) Op Op.Resp (Result Ty))
      (LTS.Move ι (RaftMove × Option Nat) Op (Call Ty)) :=
  LTS.crew (forward_ledger ι (Call Ty)) fun _ j => j.run

/-- Call `c` of the method `j`, which began when the log had `n` entries, has
    returned `out`, which is a success. -/
structure Succeeded (crew : LTS.Crew ι (Ledger ι (Call Ty)) Op Op.Resp (Result Ty)) (c : ι)
    (j : Call Ty) (n : Nat) (out : Result Ty) : Prop where
  began : crew.shared.calls c = some (j, n)
  returned : crew.worker c = some (.pure out)
  succeeds : j.Succeeds out

/-- What is known of a call that has returned. -/
def ReturnedAt (c : ι) (out : Result Ty) (s : Ledger ι (Call Ty)) : Prop :=
  ∃ j n, s.calls c = some (j, n) ∧ (j.Succeeds out → ∃ p, j.Point c n out s p)

theorem call_runs_inv (hc : (call_runs ι Ty).Reachable crew) :
    orderly.CrewInv ReturnedAt crew := by
  refine orderly.crew_sound ReturnedAt (fun _ _ _ _ _ => trivial) ?_ hc
  intro c j s s' hi _ hs
  obtain ⟨hi', hrel⟩ := orderly_start hi hs
  obtain ⟨_, rfl⟩ := hs
  refine ⟨hi', hrel, ?_⟩
  -- the call remains the one that was begun
  refine Discipline.wp_mono ?_ (Discipline.wp_frame
    (R := fun s' => s'.calls c = some (j, s.world.log.length)) ?_ ?_ (Function.update_self _ _ _)
    (wp_orderly_run j hi' (Nat.le_refl _)))
  · intro out s' _ h
    exact ⟨j, _, h.1, h.2⟩
  · intro s₁ s₂ hr h
    exact hr.keeps.calls.trans h
  · intro s₁ o r s₂ h hcall
    rw [Ledger.call_calls hcall.2]
    exact h

theorem Succeeded.point (hc : (call_runs ι Ty).Reachable crew) (h : Succeeded crew c j n out) :
    ∃ p, j.Point c n out crew.shared p := by
  obtain ⟨j', n', hj, hpoint⟩ := (call_runs_inv hc).returned h.returned
  rw [h.began] at hj
  cases hj
  exact hpoint h.succeeds

/-- A call that has returned stays as it is. -/
theorem Succeeded.later (hc : (call_runs ι Ty).Reachable crew₀)
    (hsteps : (call_runs ι Ty).Steps crew₀ crew) (h : Succeeded crew₀ c j n out) :
    Ledger.Onward c crew₀.shared crew.shared ∧ Succeeded crew c j n out := by
  obtain ⟨hr, hw⟩ := Discipline.CrewInv.waits (fun _ => call_runs_inv)
    (fun d k s s' hd hi hs => (orderly_start hi hs).2 c hd.symm)
    (fun s => s.calls c = some (j, n)) (fun s s' hr hs => hr.keeps.calls.trans hs)
    (fun s k s' hs hstart => by rw [hstart.1] at hs; cases hs) hc hsteps h.began h.returned
  exact ⟨hr, hr.keeps.calls.trans h.began, hw, h.succeeds⟩

/-- The log does not shrink, and a call that begins notes how long it is. -/
theorem began_after (hsteps : (call_runs ι Ty).Steps crew₀ crew)
    (hnone : crew₀.shared.calls c = none) :
    crew₀.shared.world.log.length ≤ crew.shared.world.log.length ∧
    ∀ j n, crew.shared.calls c = some (j, n) → crew₀.shared.world.log.length ≤ n := by
  induction hsteps with
  | refl =>
    refine ⟨Nat.le_refl _, fun j n hj => ?_⟩
    rw [hnone] at hj
    cases hj
  | @tail crew₁ crew₂ _ hstep ih =>
    obtain ⟨hlen, hbegan⟩ := ih
    obtain ⟨m, hm⟩ := hstep
    cases m with
    | env e =>
      obtain ⟨s', hs, rfl⟩ := hm
      have hk := Ledger.keeps_of_env hs.2 c
      refine ⟨hlen.trans hk.log.length_le, fun j n hj => ?_⟩
      rw [hk.calls] at hj
      exact hbegan j n hj
    | start d k =>
      obtain ⟨s', _, ⟨_, rfl⟩, rfl⟩ := hm
      refine ⟨hlen, fun j n hj => ?_⟩
      by_cases hcd : c = d
      · subst hcd
        simp only [Function.update_self, Option.some.injEq, Prod.mk.injEq] at hj
        exact hj.2 ▸ hlen
      · simp only [Function.update_of_ne hcd] at hj
        exact hbegan j n hj
    | call d o =>
      obtain ⟨k, r, s', _, hs, rfl⟩ := hm
      refine ⟨?_, fun j n hj => ?_⟩
      · rw [Ledger.call_log hs.2]
        exact hlen
      · rw [Ledger.call_calls hs.2] at hj
        exact hbegan j n hj

/-- **Linearizability**: in every run without removals, under every order of the
    nodes' steps and every change of the leader, the successful insertions and
    linearizable reads have points in the committed log such that

    - what a call returns is what the state machine answers at its point, and at
      the point of a write stands its own entry;
    - two writes have different points;
    - a call that is begun after another one has returned has its point after
      that of the other. -/
theorem collections_linearizable (hc : (call_runs ι Ty).Reachable crew) :
    ∃ point : ι → Nat,
      (∀ c j n out, Succeeded crew c j n out → j.Point c n out crew.shared (point c)) ∧
      (∀ c₁ c₂ j₁ j₂ n₁ n₂ out₁ out₂, Succeeded crew c₁ j₁ n₁ out₁ → Succeeded crew c₂ j₂ n₂ out₂ →
        j₁.writes = true → j₂.writes = true → point c₁ = point c₂ → c₁ = c₂) ∧
      ∀ crew₀ c₁ c₂ j₁ j₂ n₁ n₂ out₁ out₂, (call_runs ι Ty).Reachable crew₀ →
        (call_runs ι Ty).Steps crew₀ crew → Succeeded crew₀ c₁ j₁ n₁ out₁ →
        crew₀.shared.calls c₂ = none → Succeeded crew c₂ j₂ n₂ out₂ →
        point c₁ ≤ point c₂ ∧ (j₁.writes = true → point c₁ < point c₂) := by
  -- the earliest point of each call
  have hone : ∀ c, ∃ p, ∀ j n out, Succeeded crew c j n out →
      j.Point c n out crew.shared p ∧ ∀ q, j.Point c n out crew.shared q → p ≤ q := by
    intro c
    by_cases h : ∃ j n out, Succeeded crew c j n out
    · obtain ⟨j, n, out, h⟩ := h
      classical
      refine ⟨Nat.find (h.point hc), ?_⟩
      intro j' n' out' h'
      cases h.began.symm.trans h'.began
      cases h.returned.symm.trans h'.returned
      exact ⟨Nat.find_spec (h.point hc), fun q hq => Nat.find_min' _ hq⟩
    · exact ⟨0, fun j n out h' => absurd ⟨j, n, out, h'⟩ h⟩
  choose point hpoint using hone
  refine ⟨point, ?_, ?_, ?_⟩
  · intro c j n out h
    exact (hpoint c j n out h).1
  · intro c₁ c₂ j₁ j₂ n₁ n₂ out₁ out₂ h₁ h₂ hw₁ hw₂ heq
    obtain ⟨hp₁, _⟩ := (hpoint c₁ _ _ _ h₁).1.written hw₁
    obtain ⟨hp₂, _⟩ := (hpoint c₂ _ _ _ h₂).1.written hw₂
    rw [← heq] at hp₂
    exact (call_runs_inv hc).inv.wf.placed_inj hp₁ hp₂
  · intro crew₀ c₁ c₂ j₁ j₂ n₁ n₂ out₁ out₂ hc₀ hsteps h₁ hnone h₂
    obtain ⟨hr, h₁'⟩ := h₁.later hc₀ hsteps
    -- the point that the first call had when it returned is not after the earliest one
    obtain ⟨q, hq⟩ := h₁.point hc₀
    have hle := (hpoint c₁ _ _ _ h₁').2 q (hq.onward hr)
    have hbegan := (began_after hsteps hnone).2 _ _ h₂.began
    have hafter := (hpoint c₂ _ _ _ h₂).1.after_begin
    have hin := hq.in_log
    refine ⟨by omega, fun hw => ?_⟩
    obtain ⟨_, e, req, he, _⟩ := hq.written hw
    obtain ⟨hlt, _⟩ := List.getElem?_eq_some_iff.mp he
    omega

end runs

/-- A read that is begun after an insertion has returned has its point after
    that of the insertion. -/
theorem collections_linearizable_after_insert :
    ∃ crew j₀ j₁ n₀ n₁ out₀, ∃ point : Nat → Nat,
      (call_runs Nat fun _ : Unit => Bytes).Reachable crew ∧
      Succeeded crew 0 j₀ n₀ out₀ ∧ Succeeded crew 1 j₁ n₁ (.answer (.ok (.len 1))) ∧
      point 0 < point 1 := by
  obtain ⟨crew₀, hc₀, hcalls, hworker, hcalls₁, hworker₁, hlog, hnode⟩ := insert_noted
  have h₀ : Succeeded crew₀ 0 (.serve 0 ⟨none, .Insert "m" [1] [2]⟩) 0
      (.reply (.ok (.ClientWrite ⟨insert_entry.log_id, .Insert none, none⟩))) :=
    ⟨hcalls, hworker, rfl⟩
  -- the leader is asked for the length of the map
  obtain ⟨crew, hsteps, hread⟩ : ∃ crew, (call_runs Nat fun _ : Unit => Bytes).Steps crew₀ crew ∧
      Succeeded crew 1 (.read ⟨"m", 0, 0, .len () (), .ReadIndex⟩) 1 (.answer (.ok (.len 1))) := by
    refine ⟨_, .tail (.tail (.tail (.tail (.tail .refl
      ⟨.start 1 (.read ⟨"m", 0, 0, .len () (), .ReadIndex⟩), _, .inl hworker₁, ⟨hcalls₁, rfl⟩, rfl⟩)
      ⟨.call 1 (.current_leader 0), _, some 0, _, rfl, ⟨trivial, _, ⟨?_, rfl⟩, rfl⟩, rfl⟩)
      ⟨.call 1 (.begin_read 0), _, ⟨1⟩, _, rfl, ⟨trivial, _, ⟨?_, rfl⟩, rfl⟩, rfl⟩)
      ⟨.call 1 (.await_read 0 ⟨1⟩), _, .ok none, _, rfl, ⟨trivial, _, ⟨?_, rfl⟩, rfl⟩, rfl⟩)
      ⟨.call 1 (.map_len 0 "m"), _, some 1, _, rfl, ⟨trivial, _, ⟨?_, rfl⟩, rfl⟩, rfl⟩, ?_, rfl, rfl⟩
    · simp only [hnode, leader_metrics]
    · simp only [hlog, List.length_singleton]
    · simp only [World.applied, hnode]
      decide
    · simp only [World.data, NodeState.data, hnode]
      decide
    · simp only [Function.update_self, hlog, List.length_singleton]
  have hc := LTS.System.Steps.reachable hsteps hc₀
  obtain ⟨point, _, _, hreal⟩ := collections_linearizable hc
  obtain ⟨_, hlt⟩ := hreal crew₀ 0 1 _ _ _ _ _ _ hc₀ hsteps h₀ hcalls₁ hread
  exact ⟨crew, _, _, _, _, _, point, hc, (h₀.later hc₀ hsteps).2, hread, hlt rfl⟩

end Distruct

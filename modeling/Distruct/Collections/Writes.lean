import Distruct.Collections.Ledger

/-! # Calls that Write

    The methods of `DMap` and `DMultiMap` as calls over the ledger: insertions,
    clearings and reads, next to messages of any kind that some node has to
    handle.

    Every entry of the log goes back to a call that was meant to write exactly
    that, and a call has at most one entry more than it was redirected. A
    write that was not redirected is in the log at most once, whether it
    returned, failed or is still under way.
-/

namespace Distruct

open LTS (Rely Discipline)
open Postcard (Bytes)

/-- The write that a request stands for. -/
def RequestBody.write : RequestBody → Option RaftRequest
  | .Insert map key value => some (.Insert map key value)
  | .InsertMulti multi_map key value => some (.InsertMulti multi_map key value)
  | .Clear map => some (.Clear map)
  | _ => none

/-- Requests that write are handled alike. -/
theorem handle_body_of_write {body : RequestBody} {req : RaftRequest} (h : body.write = some req)
    (i : NodeId) : handle_body i body = do
      let r ← Raft.client_write i req
      return (r.map Response.ClientWrite).mapError RemoteError.RaftWrite := by
  cases body with
  | Insert | InsertMulti | Clear =>
    cases h
    rfl
  | _ => cases h

/-! ### Calls -/

section calls
variable {T : Type} (Ty : T → Type)

inductive Call where
  | read (r : Reading Ty)
  | insert (k v : T) (m : DMap (Ty k) (Ty v)) (fuel : Nat) (key : Ty k) (value : Ty v)
  | insert_multi (k v : T) (m : DMultiMap (Ty k) (Ty v)) (fuel : Nat) (key : Ty k) (value : Ty v)
  | clear (k v : T) (m : DMap (Ty k) (Ty v)) (fuel : Nat)
  | serve (i : NodeId) (message : Request)

/-- What a call returns. -/
inductive Result where
  | answer (r : Except Error (Answer Ty))
  | inserted (v : T) (old : Except Error (Option (Ty v)))
  | inserted_multi (r : Except Error Bool)
  | cleared (r : Except Error Unit)
  | reply (r : Except RemoteError Response)

variable {Ty} [∀ t, Serialize (Ty t)] [∀ t, Deserialize (Ty t)]

def Call.run : Call Ty → NodeProg (Result Ty)
  | .read r => Result.answer <$> linked r.method
  | .insert _ v m fuel key value => Result.inserted v <$> linked (m.insert fuel key value)
  | .insert_multi _ _ m fuel key value =>
    Result.inserted_multi <$> linked (m.insert fuel key value)
  | .clear _ _ m fuel => Result.cleared <$> linked (m.clear fuel)
  | .serve i message => Result.reply <$> handle_message i message

/-- The writes that a call may hand to Raft. -/
def Call.Writes : Call Ty → RaftRequest → Prop
  | .read _, _ => False
  | .insert _ _ m _ key value, req => ∃ kb vb, Serialize.to_allocvec key = .ok kb ∧
      Serialize.to_allocvec value = .ok vb ∧ req = .Insert m.name kb vb
  | .insert_multi _ _ m _ key value, req => ∃ kb vb, Serialize.to_allocvec key = .ok kb ∧
      Serialize.to_allocvec value = .ok vb ∧ req = .InsertMulti m.name kb vb
  | .clear _ _ m _, req => req = .Clear m.name
  | .serve _ message, req => message.body.write = some req

end calls

/-! ### The methods over any discipline -/

section methods
variable {ι σ Env Job : Type} {site : LTS.Site ι σ Env Op Job Op.Resp} {D : Discipline site} {c : ι}
  {s : σ} {K V : Type} [Serialize K] [Serialize V] {I : σ → Prop} {H : RaftRequest → Response → σ → Prop}

omit [Serialize K] [Serialize V] in
/-- What is computed from a value. -/
theorem wp_linked_decode {α β : Type} {x : NodeResult Error α} {g : α → Except Error β}
    {P : α → σ → Prop} (hstable : ∀ a s s', D.rel c s s' → P a s → P a s') (hi : D.inv s)
    (h : D.wp c (Rely.ifOk P) (linked x) s) :
    D.wp c (Rely.ifOk fun b s' => ∃ a, g a = .ok b ∧ P a s')
      (linked (x >>= fun a => ExceptT.mk (pure (g a)))) s := by
  refine Serves.wp_linked_bind hi (Discipline.wp_mono ?_ h)
  intro r s₁ _ hr a ha _ s₂ _ hr₂ b hb
  exact ⟨a, hb, hstable a s₁ s₂ hr₂ (hr a ha)⟩

/-- What an insertion returns, given what its request is answered. -/
theorem wp_insert [Deserialize V] (m : DMap K V) (fuel : Nat) (key : K) (value : V)
    (hroute : Routes D c I)
    (h : ∀ kb vb, Serialize.to_allocvec key = .ok kb → Serialize.to_allocvec value = .ok vb →
      Serves D c (.Insert m.name kb vb) I (H (.Insert m.name kb vb)))
    (hi : D.inv s) (hs : I s) :
    D.wp c (Rely.ifOk fun old s' => ∃ kb vb r resp, Serialize.to_allocvec key = .ok kb ∧
      Serialize.to_allocvec value = .ok vb ∧ DMap.decode_value r = .ok old ∧
      resp.data = .Insert r ∧ H (.Insert m.name kb vb) (.ClientWrite resp) s')
      (linked (m.insert fuel key value)) s := by
  refine hroute.to_leader m.cluster hi hs ?_
  intro client s₁ hi₁ hs₁
  refine wp_encoded fun kb hkb => wp_encoded fun vb hvb => ?_
  have hserve := h kb vb hkb hvb
  refine Discipline.wp_mono ?_ (wp_linked_decode (g := DMap.decode_value) ?_ hi₁
    (hserve.call _ fuel client hi₁ hs₁))
  · intro r s₂ _ hr old hold
    obtain ⟨bs, hdec, resp, hacc, hH⟩ := hr old hold
    -- only a response to an insertion is accepted
    split at hacc
    · next log_id bs' mem =>
      cases hacc
      exact ⟨kb, vb, bs, _, hkb, hvb, hdec, rfl, hH⟩
    · cases hacc
  · intro bs s₂ s₃ hr hbs
    obtain ⟨resp, hacc, hH⟩ := hbs
    exact ⟨resp, hacc, hserve.after _ _ _ hr hH⟩

theorem wp_insert_multi [Deserialize V] (m : DMultiMap K V) (fuel : Nat) (key : K) (value : V)
    (hroute : Routes D c I)
    (h : ∀ kb vb, Serialize.to_allocvec key = .ok kb → Serialize.to_allocvec value = .ok vb →
      Serves D c (.InsertMulti m.name kb vb) I (H (.InsertMulti m.name kb vb)))
    (hi : D.inv s) (hs : I s) :
    D.wp c (Rely.ifOk fun inserted s' => ∃ kb vb resp, Serialize.to_allocvec key = .ok kb ∧
      Serialize.to_allocvec value = .ok vb ∧ resp.data = .InsertMulti inserted ∧
      H (.InsertMulti m.name kb vb) (.ClientWrite resp) s')
      (linked (m.insert fuel key value)) s := by
  refine hroute.to_leader m.cluster hi hs ?_
  intro client s₁ hi₁ hs₁
  refine wp_encoded fun kb hkb => wp_encoded fun vb hvb => ?_
  refine Discipline.wp_mono ?_ ((h kb vb hkb hvb).call _ fuel client hi₁ hs₁)
  intro r s₂ _ hr inserted hins
  obtain ⟨resp, hacc, hH⟩ := hr inserted hins
  split at hacc
  · cases hacc
    exact ⟨kb, vb, _, hkb, hvb, rfl, hH⟩
  · cases hacc

omit [Serialize K] [Serialize V] in
theorem wp_clear (m : DMap K V) (fuel : Nat) (hroute : Routes D c I)
    (h : Serves D c (.Clear m.name) I (H (.Clear m.name))) (hi : D.inv s) (hs : I s) :
    D.wp c (Rely.ifOk fun _ s' => H (.Clear m.name) .Clear s') (linked (m.clear fuel)) s := by
  refine hroute.to_leader m.cluster hi hs ?_
  intro client s₁ hi₁ hs₁
  refine Discipline.wp_mono ?_ (h.call _ fuel client hi₁ hs₁)
  intro r s₂ _ hr u hu
  obtain ⟨resp, hacc, hH⟩ := hr u hu
  split at hacc
  · exact hH
  · cases hacc

end methods

/-! ### Calls that submit nothing -/

/-- A call that has nothing to do with a write, here or on the node it talks to. -/
def Op.Reads : Op → Prop
  | .submit_write .. => False
  | .await_write .. => False
  | .exchange _ _ message => message.body.write = none
  | _ => True

section reads
variable {A : (o : Op) → o.Resp → Prop}

theorem uses_ensure_linearizable (i : NodeId) :
    (Raft.ensure_linearizable i).Uses A Op.Reads :=
  ⟨trivial, fun _ _ => ⟨trivial, fun _ _ => trivial⟩⟩

theorem uses_read_body {body : RequestBody} (h : body.write = none) (i : NodeId) :
    (handle_body i body).Uses A Op.Reads := by
  have hread : ∀ {α : Type} {c : ReadConsistency} {read : NodeProg α} {respond : α → Response},
      read.Uses A Op.Reads → (consistent_read i c read respond).Uses A Op.Reads := by
    intro α c read respond hread
    refine Prog.uses_run_bind ?_ fun _ _ => Prog.uses_run_lift_bind hread fun _ => trivial
    cases c with
    | Stale | LeaderStale => trivial
    | LeaseRead | ReadIndex =>
      exact Prog.uses_run_bind (Prog.uses_map (uses_ensure_linearizable i)) fun _ _ => trivial
  cases body with
  | AddLearner id peer blocking =>
    refine Prog.uses_bind ⟨trivial, fun _ _ => trivial⟩ fun metrics _ => ?_
    dsimp only
    split
    · trivial
    · exact ⟨trivial, fun _ _ => trivial⟩
  | Insert | InsertMulti | Clear => cases h
  | ContainsKey | Get | GetMulti | Len => exact hread ⟨trivial, fun _ _ => trivial⟩
  | ChangeMembership | Append | Vote | Remove | RemoveMulti => exact ⟨trivial, fun _ _ => trivial⟩

theorem uses_read_message {message : Request} (h : message.body.write = none) (i : NodeId) :
    (handle_message i message).Uses A Op.Reads := by
  unfold handle_message
  split
  · exact uses_read_body h i
  · refine ⟨trivial, fun metrics _ => ?_⟩
    show (if _ then _ else _ : NodeProg _).Uses A Op.Reads
    split
    · trivial
    · exact uses_read_body h i

/-- On the peer the request is handled, so an exchange submits nothing either. -/
theorem uses_link {o : Op} (ho : o.Reads) : (link o).Uses A Op.Reads := by
  cases o with
  | exchange i conn message =>
    refine Prog.uses_run_bind ⟨trivial, fun _ _ => trivial⟩ fun _ _ => ?_
    refine Prog.uses_run_lift_bind ?_ fun reply => ?_
    · unfold handle_request
      split
      · exact Prog.uses_map (uses_read_message ho conn.peer)
      · trivial
    · cases reply with
      | none => trivial
      | some reply => exact Prog.uses_run_bind ⟨trivial, fun _ _ => trivial⟩ fun _ _ => trivial
  | _ => exact ⟨ho, fun _ _ => trivial⟩

theorem uses_linked {ε α : Type} {p : NodeResult ε α} (hp : p.run.Uses Prog.AnyAnswer Op.Reads) :
    (linked p).Uses A Op.Reads :=
  Prog.uses_interp link (Prog.uses_mono (fun _ _ _ => trivial) (fun _ => uses_link) hp)

theorem uses_read_loop {body : RequestBody} (h : body.write = none) (owner : NodeId) (fuel : Nat)
    (conn : Connection) (target : Option NodeId) :
    (Client.request_loop owner fuel conn ⟨target, body⟩).run.Uses A Op.Reads := by
  induction fuel generalizing conn target with
  | zero => exact ⟨trivial, nofun⟩
  | succ fuel ih =>
    refine Prog.uses_run_bind ⟨h, fun _ _ => trivial⟩ fun reply _ => ?_
    cases reply with
    | ok resp => trivial
    | error e =>
      dsimp only
      split
      · exact Prog.uses_run_bind (Prog.uses_map ⟨trivial, fun _ _ => trivial⟩) fun conn _ => ih conn _
      · trivial

theorem uses_read_call {α : Type} {body : RequestBody} (h : body.write = none) (fuel : Nat)
    (client : Client) (accept : Response → Option α) :
    (client.call fuel body accept).run.Uses A Op.Reads := by
  refine Prog.uses_run_bind (uses_read_loop h client.owner fuel client.conn _) fun resp _ => ?_
  split
  · trivial
  · trivial

theorem uses_should_read_stale (i : NodeId) (c : ReadConsistency) :
    (should_read_stale i c).run.Uses A Op.Reads := by
  have hlocal : (ensure_local_consistency i c).Uses A Op.Reads := by
    cases c with
    | Stale | LeaderStale => trivial
    | LeaseRead | ReadIndex => exact Prog.uses_map (uses_ensure_linearizable i)
  cases c with
  | Stale => trivial
  | LeaderStale | LeaseRead | ReadIndex =>
    refine Prog.uses_run_lift_bind ⟨trivial, fun _ _ => trivial⟩ fun leader => ?_
    split
    · trivial
    · refine Prog.uses_run_lift_bind hlocal fun r => ?_
      split <;> trivial

theorem uses_to_leader (i : NodeId) : (client_to_leader i).run.Uses A Op.Reads := by
  refine Prog.uses_mono (fun _ _ _ => trivial) ?_ (uses_client_to_leader i)
  intro o ho
  cases o with
  | submit_write | await_write | exchange => cases ho
  | _ => trivial

/-- A method that reads, here or at the leader. -/
theorem uses_read_with {β : Type} {i : NodeId} {c : ReadConsistency} {here : NodeResult Error β}
    {there : Client → NodeResult Error β} (hhere : here.run.Uses A Op.Reads)
    (hthere : ∀ client, (there client).run.Uses A Op.Reads) :
    (do
      if ← should_read_stale i c then here
      else
        let client ← client_to_leader i
        there client : NodeResult Error β).run.Uses A Op.Reads := by
  refine Prog.uses_run_bind (uses_should_read_stale i c) fun b _ => ?_
  split
  · exact hhere
  · exact Prog.uses_run_bind (uses_to_leader i) fun client _ => hthere client

theorem uses_encoded {β Q : Type} [Serialize Q] {key : Q} {f : Bytes → NodeResult Error β}
    (h : ∀ bs, (f bs).run.Uses A Op.Reads) : (to_allocvec key >>= f).run.Uses A Op.Reads :=
  Prog.uses_run_bind trivial fun bs _ => h bs

theorem uses_method {T : Type} {Ty : T → Type} [∀ t, Serialize (Ty t)] [∀ t, Deserialize (Ty t)]
    (r : Reading Ty) : r.method.run.Uses A Op.Reads := by
  obtain ⟨name, cluster, fuel, query, consistency⟩ := r
  cases query with
  | get k v q key =>
    refine Prog.uses_run_bind (uses_read_with ?_ fun client => ?_) fun _ _ => trivial
    · exact uses_encoded fun bs => Prog.uses_run_lift_bind ⟨trivial, fun _ _ => trivial⟩ fun _ => trivial
    · exact uses_encoded fun bs => Prog.uses_run_bind (uses_read_call rfl fuel client _) fun _ _ => trivial
  | contains_key k v q key =>
    refine Prog.uses_run_bind (uses_read_with ?_ fun client => ?_) fun _ _ => trivial
    · exact uses_encoded fun bs => Prog.uses_map ⟨trivial, fun _ _ => trivial⟩
    · exact uses_encoded fun bs => uses_read_call rfl fuel client _
  | len k v =>
    refine Prog.uses_run_bind (uses_read_with ?_ fun client => ?_) fun _ _ => trivial
    · exact Prog.uses_map ⟨trivial, fun _ _ => trivial⟩
    · exact Prog.uses_run_bind (uses_read_call rfl fuel client _) fun _ _ => trivial
  | get_multi k v q key =>
    refine Prog.uses_run_bind (uses_read_with ?_ fun client => ?_) fun _ _ => trivial
    · exact uses_encoded fun bs => Prog.uses_run_lift_bind ⟨trivial, fun _ _ => trivial⟩ fun _ => trivial
    · exact uses_encoded fun bs => Prog.uses_run_bind (uses_read_call rfl fuel client _) fun _ _ => trivial

end reads

/-! ### Counting submissions -/

section counting
variable {ι : Type} [DecidableEq ι] {T : Type} {Ty : T → Type} [∀ t, Serialize (Ty t)]
  {s s' : Ledger ι (Call Ty)} {c : ι} {j : Call Ty} {n : Nat}

/-- Every submission is accounted for: by a call that was meant to make it, and
    for all but the first one of a call by a redirect. -/
structure Ledger.Counted (s : Ledger ι (Call Ty)) : Prop where
  wf : s.Wf
  sent : ∀ c, (s.submitted c).card ≤ s.redirects c + 1
  meant : ∀ (id : Nat) c req, s.submissions[id]? = some (c, req) →
    ∃ j n, s.calls c = some (j, n) ∧ j.Writes req

/-- Call `c` may submit its write: it was redirected since the last time, if
    there was one. -/
def Ledger.Ready (c : ι) (j : Call Ty) (n : Nat) (s : Ledger ι (Call Ty)) : Prop :=
  (s.submitted c).card ≤ s.redirects c ∧ s.calls c = some (j, n)

omit [∀ t, Serialize (Ty t)] in
theorem Ledger.Ready.keeps (h : s.Ready c j n) (hk : Ledger.Keeps c s s') : s'.Ready c j n := by
  obtain ⟨hcard, hcall⟩ := h
  refine ⟨?_, ?_⟩
  · rw [hk.submitted, hk.redirects]
    exact hcard
  · rw [hk.calls]
    exact hcall

namespace Ledger.Counted

theorem of_init (h : s.init) : s.Counted := by
  refine ⟨.of_init h, ?_, ?_⟩
  · intro c
    simp [Ledger.submitted, h.2.2.1]
  · intro id c req hid
    simp [h.2.2.1] at hid

theorem env (h : s.Counted) {m : RaftMove × Option Nat} (hm : s.env m s') : s'.Counted := by
  refine ⟨h.wf.env hm, ?_, ?_⟩
  · intro c
    have hk := Ledger.keeps_of_env hm c
    rw [hk.submitted, hk.redirects]
    exact h.sent c
  · intro id c req hid
    rw [(Ledger.keeps_of_env hm c).calls]
    refine h.meant id c req ?_
    obtain ⟨_, ⟨e, _, _, hs⟩ | ⟨_, hs⟩⟩ := Ledger.env_cases hm <;>
    · rw [hs] at hid
      exact hid

theorem start (h : s.Counted) (hs : s.start c j s') : s'.Counted := by
  have hwf := h.wf.start hs
  obtain ⟨hnone, rfl⟩ := hs
  refine ⟨hwf, h.sent, ?_⟩
  intro id d req hid
  obtain ⟨j', n, hd, hw⟩ := h.meant id d req hid
  -- a call that has submitted something has begun before
  have hdc : d ≠ c := by
    rintro rfl
    rw [hnone] at hd
    cases hd
  exact ⟨j', n, by simp only [Function.update_of_ne hdc]; exact hd, hw⟩

/-- A call that has not begun has submitted nothing. -/
theorem submitted_eq_empty (h : s.Counted) (hc : s.calls c = none) : s.submitted c = ∅ := by
  refine Finset.eq_empty_of_forall_notMem fun id hid => ?_
  obtain ⟨x, hx, rfl⟩ := Option.map_eq_some_iff.mp (Finset.mem_filter.mp hid).2
  obtain ⟨j, n, hj, _⟩ := h.meant id x.1 x.2 hx
  rw [hc] at hj
  cases hj

theorem call_other (h : s.Counted) {o : Op} {r : o.Resp} (ho : ∀ i req, o ≠ .submit_write i req)
    (hc : s.call c o r s') : s'.Counted := by
  have hwf := h.wf.call hc
  obtain ⟨_, ⟨hs, _⟩ | ⟨i, req, rfl, _⟩ | ⟨i, req, _, hs⟩⟩ := Ledger.call_cases hc
  · rw [hs] at hwf ⊢
    exact ⟨hwf, h.sent, h.meant⟩
  · exact absurd rfl (ho i req)
  · have hredirects : s'.redirects = Function.update s.redirects c (s.redirects c + 1) := by rw [hs]
    have hsubmitted : ∀ d, s'.submitted d = s.submitted d := by
      intro d
      rw [hs]
      rfl
    refine ⟨hwf, ?_, ?_⟩
    · intro d
      rw [hsubmitted, hredirects]
      by_cases hdc : d = c
      · subst hdc
        rw [Function.update_self]
        exact Nat.le_succ_of_le (h.sent d)
      · rw [Function.update_of_ne hdc]
        exact h.sent d
    · rw [hs]
      exact h.meant

theorem submit (h : s.Counted) {i : NodeId} {req : RaftRequest} {r : Unit}
    (hready : s.Ready c j n) (hreq : j.Writes req) (hc : s.call c (.submit_write i req) r s') :
    s'.Counted ∧ (s'.submitted c).card = (s.submitted c).card + 1 ∧ s'.calls = s.calls ∧
      s'.redirects = s.redirects := by
  have hwf := h.wf.call hc
  obtain ⟨w', _, rfl⟩ := hc
  have hnew : s.submissions.length ∉ s.submitted c := by simp [Ledger.submitted]
  refine ⟨⟨hwf, ?_, ?_⟩, ?_, rfl, rfl⟩
  · intro d
    rw [Ledger.submitted_append]
    split
    · next hcd =>
      subst hcd
      rw [Finset.card_insert_of_notMem hnew]
      exact Nat.succ_le_succ hready.1
    · exact h.sent d
  · intro id d req' hid
    rcases Ledger.getElem?_concat_cases hid with hid | ⟨_, hlast⟩
    · exact h.meant id d req' hid
    · cases hlast
      exact ⟨j, n, hready.2, hreq⟩
  · rw [Ledger.submitted_append, if_pos rfl, Finset.card_insert_of_notMem hnew]

end Ledger.Counted

/-- The calls submit what they are meant to, and again only after a redirect. -/
def counting : Discipline (ledger ι (Call Ty)) where
  inv := Ledger.Counted
  rel := Ledger.Keeps
  can := fun c s o => ∀ i req, o = .submit_write i req → ∃ j n, s.Ready c j n ∧ j.Writes req
  idle := fun _ _ => True
  refl := Ledger.Keeps.refl
  trans := Ledger.Keeps.trans
  idle_stable := fun _ _ => trivial
  init_ok := fun h => ⟨.of_init h, fun _ => trivial⟩
  env_ok := fun h hm => ⟨h.env hm, fun c => Ledger.keeps_of_env hm c⟩

/-- The rule for a call that submits nothing. -/
theorem wp_counting_call {α : Type} {Q : α → Ledger ι (Call Ty) → Prop} {o : Op}
    {k : o.Resp → NodeProg α} (ho : ∀ i req, o ≠ .submit_write i req)
    (h : ∀ s', s'.Counted → Ledger.Keeps c s s' → ∀ r s'', s'.call c o r s'' →
      counting.wp c Q (k r) s'') : counting.wp c Q (.call o k) s := by
  intro s₁ hi₁ hk₁
  refine ⟨fun i req heq => absurd heq (ho i req), ?_⟩
  intro r s₂ hc
  exact ⟨hi₁.call_other ho hc, fun d hd => Ledger.keeps_of_call hc hd, h s₁ hi₁ hk₁ r s₂ hc⟩

theorem counting_routes (c : ι) (j : Call Ty) (n : Nat) :
    Routes counting c (Ledger.Ready c j n) where
  quiet := by
    intro o ho
    refine ⟨?_, ?_⟩
    · rintro i s hi j req' rfl
      cases ho
    · exact fun d s r s' hc => Ledger.eq_of_travels ho hc
  before := fun _ _ hk h => h.keeps hk

/-- One message leads to one submission, and to another one only by a redirect. -/
theorem counting_serves {body : RequestBody} {req : RaftRequest} (hbody : body.write = some req)
    (hreq : j.Writes req) : Serves counting c body (Ledger.Ready c j n) fun _ _ => True where
  toRoutes := counting_routes c j n
  after := fun _ _ _ _ _ => trivial
  handle := by
    intro i s hi hready
    rw [handle_body_of_write hbody]
    intro s₁ hi₁ hk₁
    have hready₁ := hready.keeps hk₁
    refine ⟨fun i req' heq => by cases heq; exact ⟨j, n, hready₁, hreq⟩, ?_⟩
    intro r s₂ hc
    obtain ⟨hi₂, hcard, hcalls, hredir⟩ := hi₁.submit hready₁ hreq hc
    refine ⟨hi₂, fun d hd => Ledger.keeps_of_call (o := .submit_write i req) hc hd, ?_⟩
    refine wp_counting_call nofun ?_
    intro s₃ hi₃ hk₃ r s₄ hc₄ s₅ _ hk₅
    cases r with
    | ok resp => trivial
    | error e =>
      intro hredirect
      refine Ledger.Ready.keeps ?_ hk₅
      -- the redirect pays for the next submission
      obtain ⟨hredirects, hsubmitted, hcalls₄⟩ := Ledger.redirects_of_redirected hc₄ hredirect
      refine ⟨?_, ?_⟩
      · rw [hredirects, hsubmitted, hk₃.submitted, hk₃.redirects, hcard, hredir]
        exact Nat.succ_le_succ hready₁.1
      · rw [hcalls₄, hk₃.calls, hcalls]
        exact hready₁.2

theorem wp_counting_reads {α : Type} {p : NodeProg α} (hp : p.Uses Prog.AnyAnswer Op.Reads) :
    counting.wp c (fun _ _ => True) p s := by
  refine Discipline.wp_of_uses (R := fun _ => True) (fun _ _ _ _ => trivial) ?_ ?_ hp trivial
  · rintro s o _ ho _ i req rfl
    cases ho
  · intro s₁ o r s₂ hi₁ ho _ hc
    have hnot : ∀ i req, o ≠ .submit_write i req := by
      rintro i req rfl
      cases ho
    exact ⟨hi₁.call_other hnot hc, fun d hd => Ledger.keeps_of_call hc hd, trivial⟩

/-- A call starts without a submission. -/
theorem wp_counting_run [∀ t, Deserialize (Ty t)] (hi : s.Counted) (hj : s.calls c = some (j, n))
    (hnone : s.submitted c = ∅) : counting.wp c (fun _ _ => True) j.run s := by
  have hready : s.Ready c j n := by
    refine ⟨?_, hj⟩
    rw [hnone, Finset.card_empty]
    exact Nat.zero_le _
  have hroute := counting_routes c j n
  cases j with
  | read r => exact Discipline.wp_map (wp_counting_reads (uses_linked (uses_method r)))
  | insert k v m fuel key value =>
    refine Discipline.wp_map (Discipline.wp_mono (fun _ _ _ _ => trivial)
      (wp_insert (H := fun _ _ _ => True) m fuel key value hroute ?_ hi hready))
    intro kb vb hkb hvb
    exact counting_serves rfl ⟨kb, vb, hkb, hvb, rfl⟩
  | insert_multi k v m fuel key value =>
    refine Discipline.wp_map (Discipline.wp_mono (fun _ _ _ _ => trivial)
      (wp_insert_multi (H := fun _ _ _ => True) m fuel key value hroute ?_ hi hready))
    intro kb vb hkb hvb
    exact counting_serves rfl ⟨kb, vb, hkb, hvb, rfl⟩
  | clear k v m fuel =>
    exact Discipline.wp_map (Discipline.wp_mono (fun _ _ _ _ => trivial)
      (wp_clear (H := fun _ _ _ => True) m fuel hroute (counting_serves rfl rfl) hi hready))
  | serve i message =>
    obtain ⟨target, body⟩ := message
    refine Discipline.wp_map ?_
    by_cases hbody : body.write = none
    · exact wp_counting_reads (uses_read_message hbody i)
    · obtain ⟨req, hreq⟩ := Option.ne_none_iff_exists'.mp hbody
      have hmeant : Call.Writes (.serve i ⟨target, body⟩ : Call Ty) req := hreq
      exact Discipline.wp_mono (fun _ _ _ _ => trivial)
        ((counting_serves hreq hmeant).handle_message i target hi hready)

/-- **Writes are counted**: in every run, whatever else happens in the cluster,
    every request in the log comes from a call that has begun and was meant to
    make it, no call has more entries in the log than it was redirected plus
    one, and a read has none. -/
theorem writes_counted [∀ t, Deserialize (Ty t)]
    {crew : LTS.Crew ι (Ledger ι (Call Ty)) Op Op.Resp (Result Ty)}
    (hc : (LTS.crew (ledger ι (Call Ty)) fun _ j => j.run).Reachable crew) :
    (∀ (k : Nat) (e : Entry) (req : RaftRequest), crew.shared.world.log[k]? = some e →
      e.payload = .Normal req → ∃ c j n, crew.shared.owner k = some c ∧
        crew.shared.calls c = some (j, n) ∧ j.Writes req) ∧
    (∀ c, (crew.shared.entries c).card ≤ crew.shared.redirects c + 1) ∧
    ∀ c r n, crew.shared.calls c = some (.read r, n) → crew.shared.entries c = ∅ := by
  have hinv : crew.shared.Counted := by
    refine (counting.crew_sound (fun _ _ _ => True) (fun _ _ _ _ _ => trivial) ?_ hc).inv
    intro c j s s' hi _ hs
    have hi' := hi.start hs
    refine ⟨hi', fun d hd => Ledger.keeps_of_start hs hd, ?_⟩
    obtain ⟨hnone, rfl⟩ := hs
    exact wp_counting_run (n := s.world.log.length) hi' (Function.update_self _ _ _)
      (hi.submitted_eq_empty hnone)
  refine ⟨?_, ?_, ?_⟩
  · intro k e req hk hreq
    obtain ⟨id, hid⟩ := hinv.wf.submitted k e req hk hreq
    obtain ⟨c, req', hsub, hreq'⟩ := hinv.wf.origin k id e hid hk
    -- the entry carries what was submitted
    rw [hreq] at hreq'
    cases hreq'
    obtain ⟨j, n, hj, hw⟩ := hinv.meant id c req hsub
    exact ⟨c, j, n, by simp [Ledger.owner, hid, hsub], hj, hw⟩
  · intro c
    exact (hinv.wf.card_entries_le c).trans (hinv.sent c)
  · intro c r n hr
    refine Finset.eq_empty_of_forall_notMem fun k hk => ?_
    obtain ⟨id, _, hid⟩ := Ledger.mem_entries hk
    obtain ⟨x, hx, rfl⟩ := Option.map_eq_some_iff.mp (Finset.mem_filter.mp hid).2
    obtain ⟨j, n', hj, hw⟩ := hinv.meant id x.1 x.2 hx
    -- a read is not meant to write anything
    rw [hr] at hj
    cases hj
    exact hw

end counting

/-! ### One insertion -/

/-- Calls with bytes as keys and values. -/
abbrev BytesCall : Type := Call fun _ : Unit => Bytes

/-- Nodes that have just been started, and no calls. -/
def Ledger.fresh : Ledger Nat BytesCall where
  world := World.fresh
  calls := fun _ => none
  submissions := []
  origins := []
  latest := fun _ => none
  redirects := fun _ => 0

/-- The leader is asked to insert something, and has answered. -/
theorem insert_noted :
    ∃ crew, (LTS.crew (forward_ledger Nat BytesCall) fun _ j => j.run).Reachable crew ∧
      crew.shared.calls 0 = some (.serve 0 ⟨none, .Insert "m" [1] [2]⟩, 0) ∧
      crew.worker 0
        = some (.pure (.reply (.ok (.ClientWrite ⟨insert_entry.log_id, .Insert none, none⟩)))) ∧
      crew.shared.calls 1 = none ∧ crew.worker 1 = none ∧
      crew.shared.world.log = [insert_entry] ∧
      crew.shared.world.node 0
        = ⟨((default : StateMachine).apply [insert_entry]).2, leader_metrics⟩ := by
  have h₀ : (LTS.crew (forward_ledger Nat BytesCall) fun _ j => j.run).Reachable
      ⟨Ledger.fresh, fun _ => none⟩ :=
    .init ⟨⟨⟨rfl, fun _ => rfl, rfl, rfl, rfl, rfl⟩, rfl, rfl, rfl, rfl, rfl⟩, fun _ => rfl⟩
  have h₁ := LTS.Crew.env h₀ (.observe 0 leader_metrics, none) ⟨trivial, _, rfl, rfl⟩
  have h₂ := LTS.Crew.start h₁ 0 (.serve 0 ⟨none, .Insert "m" [1] [2]⟩) (.inl rfl) ⟨rfl, rfl⟩
  have h₃ := LTS.Crew.call h₂ 0 (o := .submit_write 0 (.Insert "m" [1] [2])) ()
    rfl ⟨trivial, _, rfl, rfl⟩
  have hprop : ∀ req, insert_entry.payload = .Normal req →
      req ∈ [RaftRequest.Insert "m" [1] [2]] := by
    intro req h
    cases h
    exact List.mem_singleton.mpr rfl
  have h₄ := LTS.Crew.env h₃ (.commit insert_entry, some 0)
    ⟨trivial, _, ⟨rfl, hprop, rfl⟩, ⟨0, 0, rfl, rfl, nofun⟩, rfl⟩
  have h₅ := LTS.Crew.env h₄ (.apply 0 1, none) ⟨trivial, _, rfl, rfl⟩
  have h₆ := LTS.Crew.call h₅ 0 (o := .await_write 0 (.Insert "m" [1] [2]))
    (.ok ⟨insert_entry.log_id, .Insert none, none⟩) rfl
    ⟨trivial, _, 0, 0, insert_entry,
      ⟨insert_entry, List.mem_singleton.mpr rfl, rfl, rfl, List.mem_singleton.mpr rfl, rfl⟩,
      rfl, rfl, rfl, rfl, rfl⟩
  exact ⟨_, h₆, rfl, rfl, rfl, rfl, rfl, rfl⟩

/-- The insertion is in the log, and the call has no other entry. -/
theorem writes_counted_insert :
    ∃ crew, (LTS.crew (ledger Nat BytesCall) fun _ j => j.run).Reachable crew ∧
      crew.shared.world.log = [insert_entry] ∧ (∃ c, crew.shared.owner 0 = some c) ∧
      ∀ c, (crew.shared.entries c).card ≤ crew.shared.redirects c + 1 := by
  obtain ⟨crew, hc, _, _, _, _, hlog, _⟩ := insert_noted
  have hc' := LTS.crew_of_restrict hc
  obtain ⟨hown, hcard, _⟩ := writes_counted hc'
  obtain ⟨c, _, _, howner, _⟩ := hown 0 insert_entry _ (by rw [hlog]; rfl) rfl
  exact ⟨crew, hc', hlog, ⟨c, howner⟩, hcard⟩

end Distruct

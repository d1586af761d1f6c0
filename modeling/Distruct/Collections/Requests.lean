import Distruct.Collections.Served

/-! # Requests and Writes

    What the requests of the served system write. A caller may give up at any
    time, a node may read a request late or stop, and yet the log holds nothing
    but what some caller meant to write, and no request is in it twice. A request
    that was turned away, or was still in the mailbox when the main loop ended,
    has written nothing.
-/

namespace Distruct

open LTS (Ticket Stage)
open Postcard (Bytes Format)

/-! ### What a request may write -/

/-- A call that leads to no write but those in `W`. -/
def Op.Within (W : RaftRequest → Prop) : Op → Prop
  | .submit_write _ req => W req
  | .exchange _ _ message => ∀ req, message.body.write = some req → W req
  | _ => True

/-- A call that hands a write to Raft. -/
def Op.Submits : Op → Prop
  | .submit_write .. => True
  | _ => False

section within
variable {A : (o : Op) → o.Resp → Prop} {W W' : RaftRequest → Prop}

theorem within_of_reads {o : Op} (h : o.Reads) : o.Within W := by
  cases o with
  | submit_write => exact h.elim
  | exchange i conn message =>
    intro req hreq
    rw [show message.body.write = none from h] at hreq
    cases hreq
  | _ => trivial

theorem within_mono (hW : ∀ req, W req → W' req) {o : Op} (h : o.Within W) : o.Within W' := by
  cases o with
  | submit_write i req => exact hW req h
  | exchange i conn message => exact fun req hreq => hW req (h req hreq)
  | _ => trivial

/-- A client sends one body, again and again. -/
theorem within_request_loop {body : RequestBody} (h : ∀ req, body.write = some req → W req)
    (owner : NodeId) (fuel : Nat) (conn : Connection) (target : Option NodeId) :
    (Client.request_loop owner fuel conn ⟨target, body⟩).run.Uses A (Op.Within W) := by
  induction fuel generalizing conn target with
  | zero => exact ⟨trivial, nofun⟩
  | succ fuel ih =>
    refine Prog.uses_run_bind ⟨h, fun _ _ => trivial⟩ fun reply _ => ?_
    cases reply with
    | ok resp => trivial
    | error e =>
      dsimp only
      split
      · exact Prog.uses_run_bind (Prog.uses_map ⟨trivial, fun _ _ => trivial⟩) fun conn _ => ih conn _
      · trivial

theorem within_call {α : Type} {body : RequestBody} (h : ∀ req, body.write = some req → W req)
    (fuel : Nat) (client : Client) (accept : Response → Option α) :
    (client.call fuel body accept).run.Uses A (Op.Within W) := by
  refine Prog.uses_run_bind (within_request_loop h client.owner fuel client.conn _) fun resp _ => ?_
  split
  · trivial
  · trivial

theorem within_to_leader {β : Type} (i : NodeId) {f : Client → NodeResult Error β}
    (hf : ∀ client, (f client).run.Uses A (Op.Within W)) :
    (client_to_leader i >>= f).run.Uses A (Op.Within W) :=
  Prog.uses_run_bind (Prog.uses_mono (fun _ _ h => h) (fun _ => within_of_reads) (uses_to_leader i))
    fun client _ => hf client

/-- What is encoded is known from then on. -/
theorem within_encoded {β Q : Type} [Serialize Q] {key : Q} {f : Bytes → NodeResult Error β}
    (h : ∀ bs, Serialize.to_allocvec key = .ok bs → (f bs).run.Uses A (Op.Within W)) :
    (to_allocvec key >>= f).run.Uses A (Op.Within W) := by
  unfold to_allocvec
  cases hkey : Serialize.to_allocvec key with
  | error e => trivial
  | ok bs => exact h bs hkey

/-- A method sends what its call is meant to write. -/
theorem Call.method_within {T : Type} {Ty : T → Type} [∀ t, Serialize (Ty t)]
    [∀ t, Deserialize (Ty t)] {j : Call Ty} (hj : j.Asked) :
    j.method.Uses A (Op.Within j.Writes) := by
  cases j with
  | read r =>
    exact Prog.uses_map (Prog.uses_mono (fun _ _ h => h) (fun _ => within_of_reads) (uses_method r))
  | insert k v m fuel key value =>
    refine Prog.uses_map (within_to_leader m.cluster fun client => ?_)
    refine within_encoded fun kb hkb => within_encoded fun vb hvb => ?_
    refine Prog.uses_run_bind (within_call ?_ fuel client _) fun _ _ => trivial
    intro req hreq
    cases hreq
    exact ⟨kb, vb, hkb, hvb, rfl⟩
  | insert_multi k v m fuel key value =>
    refine Prog.uses_map (within_to_leader m.cluster fun client => ?_)
    refine within_encoded fun kb hkb => within_encoded fun vb hvb => within_call ?_ fuel client _
    intro req hreq
    cases hreq
    exact ⟨kb, vb, hkb, hvb, rfl⟩
  | clear k v m fuel =>
    refine Prog.uses_map (within_to_leader m.cluster fun client => within_call ?_ fuel client _)
    intro req hreq
    cases hreq
    rfl
  | serve i message => exact hj.elim

/-- A node hands to Raft what the message says. -/
theorem within_handle_message (i : NodeId) {message : Request}
    (h : ∀ req, message.body.write = some req → W req) :
    (handle_message i message).Uses A (Op.Within W) := by
  have hbody : (handle_body i message.body).Uses A (Op.Within W) := by
    by_cases hread : message.body.write = none
    · exact Prog.uses_mono (fun _ _ h => h) (fun _ => within_of_reads) (uses_read_body hread i)
    · obtain ⟨req, hreq⟩ := Option.ne_none_iff_exists'.mp hread
      rw [handle_body_of_write hreq]
      exact ⟨h req hreq, fun _ _ => ⟨trivial, fun _ _ => trivial⟩⟩
  unfold handle_message
  split
  · exact hbody
  · refine ⟨trivial, fun metrics _ => ?_⟩
    show (if _ then _ else _ : NodeProg _).Uses A (Op.Within W)
    split
    · trivial
    · exact hbody

/-- ... and at most once. -/
theorem atMost_handle_message (i : NodeId) (message : Request) :
    (handle_message i message).AtMost Op.Submits 1 := by
  have hbody : (handle_body i message.body).AtMost Op.Submits 1 := by
    by_cases hread : message.body.write = none
    · refine Prog.atMost_of_uses (Prog.uses_mono (fun _ _ h => h) ?_ (uses_read_body hread i))
      intro o ho hsub
      cases o with
      | submit_write => exact ho
      | _ => exact hsub
    · obtain ⟨req, hreq⟩ := Option.ne_none_iff_exists'.mp hread
      rw [handle_body_of_write hreq]
      exact .inl ⟨trivial, 0, rfl, fun _ => .inr ⟨id, fun _ => trivial⟩⟩
  unfold handle_message
  split
  · exact hbody
  · refine .inr ⟨id, fun metrics => ?_⟩
    show (if _ then _ else _ : NodeProg _).AtMost Op.Submits 1
    split
    · trivial
    · exact hbody

end within

/-! ### What is known of every request -/

section requests
variable {ι : Type} [DecidableEq ι] {T : Type} {Ty : T → Type} [∀ t, Serialize (Ty t)]
  {U : UlidReader} {E : Format RemoteError} {c₀ c c' : Serving ι Ty}

/-- What caller `i` was meant to write. -/
def Ledger.Meant (s : Ledger (ι ⊕ Ticket ι) (Call Ty)) (i : ι) (req : RaftRequest) : Prop :=
  ∃ j n, s.calls (.inl i) = some (j, n) ∧ j.Writes req

variable (U) in
/-- A request that may write what is in `W`, and has written `n` times. -/
def Stage.Bounded (W : RaftRequest → Prop) (n : Nat) :
    Option (Stage Op Op.Resp NodeId Bytes Request (Except RemoteError Response)) → Prop
  | none => n = 0
  | some (.sent _ packet) =>
      n = 0 ∧ ∀ message req, read_request U packet = some message →
        message.body.write = some req → W req
  | some (.queued _ message) => n = 0 ∧ ∀ req, message.body.write = some req → W req
  | some (.taken _ left) =>
      left.Uses Prog.AnyAnswer (Op.Within W) ∧ ∃ m, n + m ≤ 1 ∧ left.AtMost Op.Submits m
  | some (.answered none) => n = 0
  | some (.answered (some _)) => n ≤ 1

variable (U) in
/-- Every write in the ledger comes from a request of a caller that meant it. -/
structure Recorded (c : Serving ι Ty) : Prop where
  wf : c.shared.Wf
  works : ∀ i p, c.desk i = .works p → p.Uses Prog.AnyAnswer (Op.Within (c.shared.Meant i))
  waits : ∀ i o k, c.desk i = .waits o k → o.Within (c.shared.Meant i) ∧
    ∀ r, (k r).Uses Prog.AnyAnswer (Op.Within (c.shared.Meant i))
  bounded : ∀ t, Stage.Bounded U (c.shared.Meant t.1) (c.shared.submitted (.inr t)).card (c.stage t)
  meant : ∀ (id : Nat) w req, c.shared.submissions[id]? = some (w, req) →
    ∃ t, w = .inr t ∧ c.shared.Meant t.1 req

namespace Recorded

omit [DecidableEq ι] in
theorem meant_mono {s s' : Ledger (ι ⊕ Ticket ι) (Call Ty)} {i : ι}
    (h : ∀ x, s.calls (.inl i) = some x → s'.calls (.inl i) = some x) {req : RaftRequest}
    (hreq : s.Meant i req) : s'.Meant i req := by
  obtain ⟨j, n, hj, hw⟩ := hreq
  exact ⟨j, n, h _ hj, hw⟩

theorem bounded_mono {W W' : RaftRequest → Prop} (hW : ∀ req, W req → W' req) {n : Nat}
    {x : Option (Stage Op Op.Resp NodeId Bytes Request (Except RemoteError Response))}
    (h : Stage.Bounded U W n x) : Stage.Bounded U W' n x := by
  cases x with
  | none => exact h
  | some x =>
    cases x with
    | sent n packet => exact ⟨h.1, fun message req hm hreq => hW req (h.2 message req hm hreq)⟩
    | queued n message => exact ⟨h.1, fun req hreq => hW req (h.2 req hreq)⟩
    | taken n left =>
      exact ⟨Prog.uses_mono (fun _ _ h => h) (fun _ => within_mono hW) h.1, h.2⟩
    | answered reply => cases reply <;> exact h

/-- What is shared changes, but not what was submitted. -/
theorem reshare (h : Recorded U c) {s' : Ledger (ι ⊕ Ticket ι) (Call Ty)} (hwf : s'.Wf)
    (hcalls : ∀ i x, c.shared.calls (.inl i) = some x → s'.calls (.inl i) = some x)
    (hsub : s'.submissions = c.shared.submissions) : Recorded U { c with shared := s' } where
  wf := hwf
  works := by
    intro i p hi
    exact Prog.uses_mono (fun _ _ h => h) (fun _ => within_mono fun _ => meant_mono (hcalls i))
      (h.works i p hi)
  waits := by
    intro i o k hi
    obtain ⟨ho, hk⟩ := h.waits i o k hi
    exact ⟨within_mono (fun _ => meant_mono (hcalls i)) ho, fun r =>
      Prog.uses_mono (fun _ _ h => h) (fun _ => within_mono fun _ => meant_mono (hcalls i)) (hk r)⟩
  bounded := by
    intro t
    have hsame : s'.submitted (.inr t) = c.shared.submitted (.inr t) := by
      simp only [Ledger.submitted, hsub]
    simp only [hsame]
    exact bounded_mono (fun _ => meant_mono (hcalls t.1)) (h.bounded t)
  meant := by
    intro id w req hid
    simp only [hsub] at hid
    obtain ⟨t, rfl, hreq⟩ := h.meant id w req hid
    exact ⟨t, rfl, meant_mono (hcalls t.1) hreq⟩

/-- A caller goes on. -/
theorem turn (h : Recorded U c) {i : ι} {p : NodeProg (Result Ty)}
    (hp : p.Uses Prog.AnyAnswer (Op.Within (c.shared.Meant i))) (round : ι → Nat) :
    Recorded U { c with desk := Function.update c.desk i (.works p), round := round } where
  wf := h.wf
  works := by
    intro i' p' hi
    by_cases hii : i' = i
    · subst hii
      simp only [Function.update_self] at hi
      cases hi
      exact hp
    · simp only [Function.update_of_ne hii] at hi
      exact h.works i' p' hi
  waits := by
    intro i' o k hi
    by_cases hii : i' = i
    · subst hii
      simp only [Function.update_self] at hi
      cases hi
    · simp only [Function.update_of_ne hii] at hi
      exact h.waits i' o k hi
  bounded := h.bounded
  meant := h.meant

/-- A request moves on. -/
theorem advance (h : Recorded U c) {t : Ticket ι}
    {x : Option (Stage Op Op.Resp NodeId Bytes Request (Except RemoteError Response))}
    (hx : Stage.Bounded U (c.shared.Meant t.1) (c.shared.submitted (.inr t)).card x)
    (queue : NodeId → List (Ticket ι)) (loop : NodeId → LTS.Loop ι) :
    Recorded U { c with stage := Function.update c.stage t x, queue := queue, loop := loop } where
  wf := h.wf
  works := h.works
  waits := h.waits
  bounded := by
    intro t'
    by_cases ht : t' = t
    · subst ht
      simp only [Function.update_self]
      exact hx
    · simp only [Function.update_of_ne ht]
      exact h.bounded t'
  meant := h.meant

/-- A call that submits nothing. -/
theorem call_other (h : Recorded U c) {w : ι ⊕ Ticket ι} {o : Op} {r : o.Resp}
    {s' : Ledger (ι ⊕ Ticket ι) (Call Ty)} (ho : ¬ o.Submits) (hc : c.shared.call w o r s') :
    Recorded U { c with shared := s' } := by
  refine h.reshare (h.wf.call hc) ?_ ?_
  · intro i x hx
    rw [Ledger.call_calls hc]
    exact hx
  · obtain ⟨_, ⟨hs, _⟩ | ⟨i, req, rfl, _⟩ | ⟨i, req, _, hs⟩⟩ := Ledger.call_cases hc
    · rw [hs]
    · exact absurd trivial ho
    · rw [hs]

/-- A request hands its write to Raft. -/
theorem submit (h : Recorded U c) {n n' : NodeId} {t : Ticket ι} {req : RaftRequest}
    {k : Unit → NodeProg (Except RemoteError Response)} {r : Unit}
    {s' : Ledger (ι ⊕ Ticket ι) (Call Ty)}
    (ht : c.stage t = some (.taken n (.call (.submit_write n' req) k)))
    (hc : c.shared.call (.inr t) (.submit_write n' req) r s') :
    Recorded U { c with shared := s', stage := Function.update c.stage t (some (.taken n (k r))) } := by
  have hb := h.bounded t
  rw [ht] at hb
  obtain ⟨⟨hreq, hleft⟩, m, hm, hcount⟩ := hb
  have hwf := h.wf.call hc
  obtain ⟨w', _, rfl⟩ := hc
  -- this was the last one
  rcases hcount with ⟨_, m', rfl, hcount⟩ | ⟨hnot, _⟩
  swap
  · exact absurd trivial hnot
  have hnew : c.shared.submissions.length ∉ c.shared.submitted (.inr t) := by
    simp [Ledger.submitted]
  refine ⟨hwf, h.works, h.waits, ?_, ?_⟩
  · intro t'
    rw [Ledger.submitted_append]
    by_cases htt : t' = t
    · subst htt
      rw [if_pos rfl, Finset.card_insert_of_notMem hnew]
      simp only [Function.update_self]
      exact ⟨hleft r trivial, m', by omega, hcount r⟩
    · have hne : ¬ (Sum.inr t : ι ⊕ Ticket ι) = .inr t' := fun heq => htt (Sum.inr.inj heq).symm
      rw [if_neg hne]
      simp only [Function.update_of_ne htt]
      exact h.bounded t'
  · intro id w req' hid
    rcases Ledger.getElem?_concat_cases hid with hid | ⟨_, hlast⟩
    · exact h.meant id w req' hid
    · cases hlast
      exact ⟨t, rfl, hreq⟩

variable [∀ t, Deserialize (Ty t)]

theorem step (h : Recorded U c) (hmail : LTS.MailInv (post U E) Op.Asks c)
    {m : LTS.MailMove ι (RaftMove × Option Nat) Op {j : Call Ty // j.Asked} NodeId}
    (hm : (served ι Ty U E).step c m c') : Recorded U c' := by
  cases m with
  | env e =>
    obtain ⟨s', hs, rfl⟩ := hm
    refine h.reshare (h.wf.env hs.2) ?_ ?_
    · intro i x hx
      exact (Ledger.keeps_of_env hs.2 _).calls.trans hx
    · obtain ⟨_, ⟨e, _, _, hs'⟩ | ⟨_, hs'⟩⟩ := Ledger.env_cases hs.2 <;> rw [hs']
  | start i j =>
    obtain ⟨s', _, hs, rfl⟩ := hm
    have hwf := h.wf.start hs
    obtain ⟨hnone, rfl⟩ := hs
    refine (h.reshare hwf ?_ rfl).turn ?_ c.round
    · intro i' x hx
      have hne : (Sum.inl i' : ι ⊕ Ticket ι) ≠ .inl i := by
        intro heq
        rw [heq, hnone] at hx
        cases hx
      simp only [Function.update_of_ne hne]
      exact hx
    · refine Prog.uses_mono (fun _ _ h => h) (fun _ => within_mono ?_) (Call.method_within j.2)
      intro req hreq
      exact ⟨j.1, _, Function.update_self _ _ _, hreq⟩
  | call i o =>
    obtain ⟨k, r, s', hi, _, hs, rfl⟩ := hm
    have hasks := (hmail.errands.works i _ hi).1
    have hnot : ¬ o.Submits := by
      intro hsub
      cases o with
      | submit_write => exact hasks
      | _ => exact hsub
    have hk := (h.works i _ hi).2 r trivial
    refine (h.call_other hnot hs.2).turn ?_ c.round
    refine Prog.uses_mono (fun _ _ h => h) (fun _ => within_mono fun _ => meant_mono ?_) hk
    intro x hx
    rw [Ledger.call_calls hs.2]
    exact hx
  | send i =>
    obtain ⟨o, k, n, packet, hi, hsends, hsend, rfl⟩ := hm
    obtain ⟨hwithin, hk⟩ := h.works i _ hi
    have hnone : c.stage (i, c.round i) = none :=
      hmail.rounds.unsent fun o k hw => by rw [hi] at hw; cases hw
    have hb := h.bounded (i, c.round i)
    rw [hnone] at hb
    have hsent : Stage.Bounded U (c.shared.Meant i) (c.shared.submitted (.inr (i, c.round i))).card
        (some (.sent n packet)) := by
      refine ⟨hb, fun message req hread hreq => ?_⟩
      cases o with
      | exchange owner conn msg =>
        cases hsends
        -- what is read is what was sent
        obtain ⟨rfl, _⟩ := read_request_encode hsend hread
        exact hwithin req hreq
      | _ => cases hsends
    obtain ⟨hwf, hworks, hwaits, hbounded, hmeant⟩ :=
      h.advance (t := (i, c.round i)) hsent c.queue c.loop
    refine ⟨hwf, ?_, ?_, hbounded, hmeant⟩
    · intro i' p hi'
      by_cases hii : i' = i
      · subst hii
        simp only [Function.update_self] at hi'
        cases hi'
      · simp only [Function.update_of_ne hii] at hi'
        exact hworks i' p hi'
    · intro i' o' k' hi'
      by_cases hii : i' = i
      · subst hii
        simp only [Function.update_self] at hi'
        cases hi'
        exact ⟨hwithin, fun r => hk r trivial⟩
      · simp only [Function.update_of_ne hii] at hi'
        exact hwaits i' o' k' hi'
  | post t =>
    obtain ⟨n, packet, message, ht, _, hread, rfl⟩ := hm
    have hb := h.bounded t
    rw [ht] at hb
    exact h.advance (x := some (.queued n message)) ⟨hb.1, fun req hreq => hb.2 message req hread hreq⟩
      _ _
  | refuse t =>
    obtain ⟨n, packet, ht, _, rfl⟩ := hm
    have hb := h.bounded t
    rw [ht] at hb
    exact h.advance (x := some (.answered none)) hb.1 _ _
  | take n =>
    obtain ⟨t, rest, message, _, _, ht, rfl⟩ := hm
    have hb := h.bounded t
    rw [ht] at hb
    refine h.advance (x := some (.taken n (handle_message n message))) ⟨?_, 1, ?_, ?_⟩ _ _
    · exact within_handle_message n hb.2
    · rw [hb.1]
    · exact atMost_handle_message n message
  | work n o =>
    obtain ⟨t, k, r, s', _, ht, hs, rfl⟩ := hm
    by_cases ho : o.Submits
    · cases o with
      | submit_write n' req => exact h.submit ht hs.2
      | _ => exact ho.elim
    · have h' := h.call_other ho hs.2
      have hb := h'.bounded t
      simp only [ht] at hb
      obtain ⟨⟨_, hleft⟩, m, hm, hcount⟩ := hb
      rcases hcount with ⟨hsub, _⟩ | ⟨_, hcount⟩
      · exact absurd hsub ho
      · exact h'.advance (x := some (.taken n (k r))) ⟨hleft r trivial, m, hm, hcount r⟩ _ _
  | reply n =>
    obtain ⟨t, reply, _, ht, _, rfl⟩ := hm
    have hb := h.bounded t
    rw [ht] at hb
    obtain ⟨_, m, hm, _⟩ := hb
    exact h.advance (x := some (.answered (some reply))) (Nat.le_of_add_right_le hm) _ _
  | stop n =>
    obtain ⟨_, rfl⟩ := hm
    refine ⟨h.wf, h.works, h.waits, fun t => ?_, h.meant⟩
    have hb := h.bounded t
    by_cases hmem : t ∈ c.queue n
    · simp only [hmem, if_true]
      -- it was in the mailbox
      have hbox := (hmail.boxes.queued n t).mp hmem
      cases hx : c.stage t with
      | none =>
        rw [hx] at hbox
        cases hbox
      | some x =>
        rw [hx] at hbox hb
        cases x with
        | queued n' message => exact hb.1
        | sent | taken | answered => cases hbox
    · simp only [hmem, if_false]
      exact hb
  | receive i =>
    obtain ⟨o, k, x, r, hi, _, _, rfl⟩ := hm
    exact h.turn ((h.waits i o k hi).2 r) _
  | lose i =>
    obtain ⟨o, k, r, hi, _, rfl⟩ := hm
    exact h.turn ((h.waits i o k hi).2 r) _

end Recorded

variable [∀ t, Deserialize (Ty t)]

theorem served_recorded (hc : (served ι Ty U E).Reachable c) : Recorded U c := by
  have hmail : ∀ {c}, (served ι Ty U E).Reachable c → LTS.MailInv (post U E) Op.Asks c :=
    LTS.mail_inv fun j => Call.method_asks j.2
  induction hc with
  | @init c hinit =>
    obtain ⟨hs, hdesk, hstage, _, _⟩ := hinit
    have hwf : c.shared.Wf := .of_init hs
    obtain ⟨_, _, hsub, _⟩ : c.shared.init := hs
    refine ⟨hwf, ?_, ?_, ?_, ?_⟩
    · intro i p hi
      rw [hdesk] at hi
      cases hi
    · intro i o k hi
      rw [hdesk] at hi
      cases hi
    · intro t
      rw [hstage]
      simp [Stage.Bounded, Ledger.submitted, hsub]
    · intro id w req hid
      rw [hsub] at hid
      cases hid
  | step m hc hm ih => exact ih.step (hmail hc) hm

/-- **Requests write what they are meant to, once**: in every run of the served
    system,

    - a request in the log comes from one that a caller has sent, and the call of
      that caller was meant to write it;
    - no request is in the log twice, whether its caller still waits, has its
      answer or has given up;
    - a request that no node has begun with, or that was turned away or dropped
      with its mailbox, is not in the log. -/
theorem served_writes (hc : (served ι Ty U E).Reachable c) :
    (∀ (k : Nat) (e : Entry) (req : RaftRequest), c.shared.world.log[k]? = some e →
      e.payload = .Normal req → ∃ i m j n, c.shared.owner k = some (.inr (i, m)) ∧
        c.shared.calls (.inl i) = some (j, n) ∧ j.Writes req) ∧
    (∀ t, (c.shared.entries (.inr t)).card ≤ 1) ∧
    ∀ t, ¬ LTS.Stage.Begun (c.stage t) → c.shared.entries (.inr t) = ∅ := by
  have hr := served_recorded hc
  refine ⟨?_, ?_, ?_⟩
  · intro k e req hk hreq
    obtain ⟨id, hid⟩ := hr.wf.submitted k e req hk hreq
    obtain ⟨w, req', hsub, hreq'⟩ := hr.wf.origin k id e hid hk
    -- the entry carries what was submitted
    rw [hreq] at hreq'
    cases hreq'
    obtain ⟨⟨i, m⟩, rfl, j, n, hj, hw⟩ := hr.meant id w req hsub
    exact ⟨i, m, j, n, by simp [Ledger.owner, hid, hsub], hj, hw⟩
  · intro t
    have hb := hr.bounded t
    have hle : (c.shared.submitted (.inr t)).card ≤ 1 := by
      cases hx : c.stage t with
      | none =>
        rw [hx] at hb
        exact hb.trans_le (Nat.zero_le _)
      | some x =>
        rw [hx] at hb
        cases x with
        | sent | queued => exact hb.1.trans_le (Nat.zero_le _)
        | taken n left =>
          obtain ⟨_, m, hm, _⟩ := hb
          exact Nat.le_of_add_right_le hm
        | answered reply =>
          cases reply with
          | none => exact hb.trans_le (Nat.zero_le _)
          | some r => exact hb
    exact (hr.wf.card_entries_le _).trans hle
  · intro t hnot
    have hb := hr.bounded t
    have hzero : (c.shared.submitted (.inr t)).card = 0 := by
      cases hx : c.stage t with
      | none =>
        rw [hx] at hb
        exact hb
      | some x =>
        rw [hx] at hb hnot
        cases x with
        | sent | queued => exact hb.1
        | taken => exact absurd trivial hnot
        | answered reply =>
          cases reply with
          | none => exact hb
          | some r => exact absurd trivial hnot
    have hcard := hr.wf.card_entries_le (.inr t)
    rw [hzero] at hcard
    exact Finset.card_eq_zero.mp (Nat.le_zero.mp hcard)

/-! ### The main loops -/

/-- **Mailboxes are queues**: between two states of a run of the served system,

    - a node begins with a request only after it has answered those that were
      ahead of it in its mailbox;
    - it works on one request at a time;
    - a request that a node has begun with is not put back, and its reply is final;
    - where the main loop has ended, nothing is queued or served any more;
    - a caller that waits has a request that is on its way, in the mailbox of a
      main loop that runs, being served, or answered. -/
theorem served_in_order (hc₀ : (served ι Ty U E).Reachable c₀) (hsteps : (served ι Ty U E).Steps c₀ c) :
    (∀ n t₁ t₂, [t₁, t₂].Sublist (c₀.queue n) → LTS.Stage.Begun (c.stage t₂) →
      ∃ reply, c.stage t₁ = some (.answered (some reply))) ∧
    (∀ n t₁ t₂ q₁ q₂, c.stage t₁ = some (.taken n q₁) → c.stage t₂ = some (.taken n q₂) → t₁ = t₂) ∧
    (∀ t, LTS.Stage.Begun (c₀.stage t) → LTS.Stage.Begun (c.stage t)) ∧
    (∀ t x, c₀.stage t = some (.answered x) → c.stage t = some (.answered x)) ∧
    (∀ n, c₀.loop n = .stopped → c.queue n = [] ∧ ∀ t q, c.stage t ≠ some (.taken n q)) ∧
    ∀ i o k, c.desk i = .waits o k → ∃ n packet, (post U E).sends o = some (n, packet) ∧
      (c.stage (i, c.round i) = some (.sent n packet) ∨
        ((i, c.round i) ∈ c.queue n ∧ c.loop n ≠ .stopped) ∨
        c.loop n = .serving (i, c.round i) ∨
        ∃ x, c.stage (i, c.round i) = some (.answered x)) := by
  have hprog : ∀ j : {j : Call Ty // j.Asked}, j.1.method.Uses Prog.AnyAnswer Op.Asks :=
    fun j => Call.method_asks j.2
  have hmail : LTS.MailInv (post U E) Op.Asks c :=
    LTS.mail_inv hprog (LTS.System.Steps.reachable hsteps hc₀)
  -- the loop knows what it is busy with
  have hserving : ∀ {n t q}, c.stage t = some (.taken n q) → c.loop n = .serving t := by
    intro n t q ht
    rw [hmail.boxes.serving, ht]
    rfl
  refine ⟨?_, ?_, ?_, ?_, ?_, ?_⟩
  · intro n t₁ t₂ hqueue hbegun
    exact LTS.in_order hprog hc₀ hsteps hqueue hbegun
  · intro n t₁ t₂ q₁ q₂ h₁ h₂
    have hsame := (hserving h₁).symm.trans (hserving h₂)
    cases hsame
    rfl
  · intro t ht
    exact LTS.begun_along hprog hc₀ hsteps ht
  · intro t x ht
    exact LTS.answered_along hprog hc₀ hsteps ht
  · intro n hn
    have hstopped := LTS.stopped_along hsteps hn
    refine ⟨hmail.boxes.stopped n hstopped, fun t q ht => ?_⟩
    rw [hserving ht] at hstopped
    cases hstopped
  · intro i o k hi
    exact hmail.located hi

end requests

/-! ### One insertion -/

/-- The insertion of the caller is in the log, once, and its answer is final. -/
theorem served_writes_insert :
    ∃ c, (served Nat (fun _ : Unit => UInt8) Wire.crockford no_errors).Reachable c ∧
      c.shared.world.log = [insert_entry] ∧ (∃ i m, c.shared.owner 0 = some (.inr (i, m))) ∧
      (c.shared.entries (.inr (0, 0))).card ≤ 1 ∧ c.shared.entries (.inr (0, 1)) = ∅ := by
  obtain ⟨c, hc, _, _, hunsent, _, _, hlog, _⟩ := served_insert
  obtain ⟨hown, hcard, hnone⟩ := served_writes hc
  obtain ⟨i, m, _, _, howner, _⟩ := hown 0 insert_entry _ (by rw [hlog]; rfl) rfl
  refine ⟨c, hc, hlog, ⟨i, m, howner⟩, hcard (0, 0), hnone (0, 1) ?_⟩
  rw [hunsent]
  exact id

theorem served_in_order_insert :
    ∃ c, (served Nat (fun _ : Unit => UInt8) Wire.crockford no_errors).Reachable c ∧
      ∀ c', (served Nat (fun _ : Unit => UInt8) Wire.crockford no_errors).Steps c c' →
        c'.stage (0, 0) = some (.answered (some insert_reply)) := by
  obtain ⟨c, hc, _, hreply, _⟩ := served_insert
  refine ⟨c, hc, fun c' hsteps => ?_⟩
  obtain ⟨_, _, _, hfinal, _⟩ := served_in_order hc hsteps
  exact hfinal (0, 0) _ hreply

end Distruct

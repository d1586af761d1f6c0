import Distruct.Collections.Linearizability
import Distruct.Connection.MessageSize
import Distruct.Connection.Serving

/-! # Served Calls

    The methods of the collections over the mailboxes of the nodes. A caller
    runs a method as it is written, without `link`: its requests travel as bytes
    to a node, wait in the mailbox of the main loop, and are carried out there
    under the number of the request. A caller whose connection breaks goes on with an
    error, and the node may still carry the request out.

    The calls over a cluster in which requests were inlined are what was studied
    so far. Here they are the abstract level: every run of the served system is
    one of theirs, so what was proved of them holds of the served system, too.
-/

namespace Distruct

open LTS (Ticket Office Phase)
open Postcard (Bytes Format)

/-! ### What a caller does itself -/

/-- The calls that a caller makes: everything but writes into Raft. -/
def Op.Asks : Op → Prop
  | .submit_write .. => False
  | .await_write .. => False
  | _ => True

section methods
variable {A : (o : Op) → o.Resp → Prop}

theorem asks_of_reads {o : Op} (h : o.Reads) : o.Asks := by
  cases o with
  | submit_write | await_write => exact h
  | _ => trivial

theorem asks_of_talks {o : Op} (h : Client.Talks o) : o.Asks := by
  cases o with
  | submit_write | await_write => exact h
  | _ => trivial

theorem asks_call {α : Type} (fuel : Nat) (client : Client) (body : RequestBody)
    (accept : Response → Option α) : (client.call fuel body accept).run.Uses A Op.Asks :=
  Prog.uses_mono (fun _ _ h => h) (fun _ => asks_of_talks) (Client.uses_call fuel client body accept)

/-- A method that goes to the leader. -/
theorem asks_to_leader {β : Type} (i : NodeId) {f : Client → NodeResult Error β}
    (hf : ∀ client, (f client).run.Uses A Op.Asks) : (client_to_leader i >>= f).run.Uses A Op.Asks :=
  Prog.uses_run_bind (Prog.uses_mono (fun _ _ h => h) (fun _ => asks_of_reads) (uses_to_leader i))
    fun client _ => hf client

theorem asks_encoded {β Q : Type} [Serialize Q] {key : Q} {f : Bytes → NodeResult Error β}
    (h : ∀ bs, (f bs).run.Uses A Op.Asks) : (to_allocvec key >>= f).run.Uses A Op.Asks :=
  Prog.uses_run_bind trivial fun bs _ => h bs

end methods

section asked
variable {T : Type} {Ty : T → Type} [∀ t, Serialize (Ty t)] [∀ t, Deserialize (Ty t)]

/-- A call of a method, not the handling of a message. -/
def Call.Asked : Call Ty → Prop
  | .serve .. => False
  | _ => True

/-- The method of a call, as it is written. -/
def Call.method : Call Ty → NodeProg (Result Ty)
  | .read r => Result.answer <$> r.method.run
  | .insert _ v m fuel key value => Result.inserted v <$> (m.insert fuel key value).run
  | .insert_multi _ _ m fuel key value => Result.inserted_multi <$> (m.insert fuel key value).run
  | .clear _ _ m fuel => Result.cleared <$> (m.clear fuel).run
  | .serve i message => Result.reply <$> handle_message i message

/-- With the peers inlined it is the call that was studied. -/
theorem Call.run_eq_interp {j : Call Ty} (hj : j.Asked) : j.run = j.method.interp link := by
  have hmap : ∀ {α β : Type} (f : α → β) (p : NodeProg α),
      (f <$> p).interp link = f <$> p.interp link := by
    intro α β f p
    rw [← bind_pure_comp, Prog.interp_bind, ← bind_pure_comp]
    rfl
  cases j with
  | serve i message => exact hj.elim
  | read | insert | insert_multi | clear => exact (hmap _ _).symm

theorem Call.method_asks {A : (o : Op) → o.Resp → Prop} {j : Call Ty} (hj : j.Asked) :
    j.method.Uses A Op.Asks := by
  cases j with
  | read r =>
    exact Prog.uses_map (Prog.uses_mono (fun _ _ h => h) (fun _ => asks_of_reads) (uses_method r))
  | insert k v m fuel key value =>
    refine Prog.uses_map (asks_to_leader m.cluster fun client => ?_)
    refine asks_encoded fun kb => asks_encoded fun vb => ?_
    exact Prog.uses_run_bind (asks_call fuel client _ _) fun _ _ => trivial
  | insert_multi k v m fuel key value =>
    refine Prog.uses_map (asks_to_leader m.cluster fun client => ?_)
    exact asks_encoded fun kb => asks_encoded fun vb => asks_call fuel client _ _
  | clear k v m fuel =>
    exact Prog.uses_map (asks_to_leader m.cluster fun client => asks_call fuel client _ _)
  | serve i message => exact hj.elim

end asked

/-! ### The served system -/

section system
variable (ι : Type) [DecidableEq ι] {T : Type} (Ty : T → Type)

/-- Callers and nodes share the ledger. A caller begins one call, which is not a
    removal, and notes how long the log is. No removal finds anything, and no node
    goes back to an older snapshot. -/
def callers : LTS.Site (ι ⊕ Ticket ι) (Ledger (ι ⊕ Ticket ι) (Call Ty)) (RaftMove × Option Nat) Op
    {j : Call Ty // j.Asked} Op.Resp where
  init := (forward_ledger (ι ⊕ Ticket ι) (Call Ty)).init
  env := (forward_ledger (ι ⊕ Ticket ι) (Call Ty)).env
  start := fun w s j s' => s.start w j.1 s'
  call := (forward_ledger (ι ⊕ Ticket ι) (Call Ty)).call

variable [∀ t, Serialize (Ty t)] [∀ t, Deserialize (Ty t)]

/-- What the callers, the requests on their way and the main loops of the nodes
    are at. -/
abbrev Serving := Office ι (Ledger (ι ⊕ Ticket ι) (Call Ty)) Op Op.Resp NodeId Bytes Request
  (Except RemoteError Response) (Result Ty)

/-- All calls, through the mailboxes, in any order and interleaving. -/
def served (U : UlidReader) (E : Format RemoteError) :
    LTS.System (Serving ι Ty)
      (LTS.MailMove ι (RaftMove × Option Nat) Op {j : Call Ty // j.Asked} NodeId) :=
  LTS.mail (post U E) (callers ι Ty) fun j => j.1.method

end system

/-! ### Two ledgers

    In the matching run a request is carried out in the name of its caller, or
    in its own if the caller gives up. So the ledgers differ in who has
    submitted what, and in nothing else. -/

section ledgers
variable {ι : Type} [DecidableEq ι] {T : Type} {Ty : T → Type}

/-- The ledger `s` of the served system and the ledger `t` of the matching run. -/
structure Mirrors (ρ : Ticket ι → Phase ι) (s t : Ledger (ι ⊕ Ticket ι) (Call Ty)) : Prop where
  world : t.world = s.world
  calls : ∀ i, t.calls (.inl i) = s.calls (.inl i)
  origins : t.origins = s.origins
  /-- The same requests, each submitted by a request of the caller in whose name
      it is. -/
  submitted : t.submissions.map Prod.snd = s.submissions.map Prod.snd
  owner : ∀ (id : Nat) w req, t.submissions[id]? = some (w, req) →
    ∃ x, s.submissions[id]? = some (.inr x, req) ∧ ∀ i, w = .inl i → i = x.1
  latest : ∀ x w id, ρ x = .active w → s.latest (.inr x) = some id → t.latest w = some id
  unused : ∀ x, ρ x = .unused → s.latest (.inr x) = none ∧ t.calls (.inr x) = none

variable {ρ : Ticket ι → Phase ι} {s s' t : Ledger (ι ⊕ Ticket ι) (Call Ty)}

namespace Mirrors

omit [DecidableEq ι] in
theorem length (h : Mirrors ρ s t) : t.submissions.length = s.submissions.length := by
  have hlen := congrArg List.length h.submitted
  rwa [List.length_map, List.length_map] at hlen

omit [DecidableEq ι] in
/-- Only the cluster moves. -/
theorem move (h : Mirrors ρ s t) (w : World) :
    Mirrors ρ { s with world := w } { t with world := w } :=
  ⟨rfl, h.calls, h.origins, h.submitted, h.owner, h.latest, h.unused⟩

omit [DecidableEq ι] in
theorem stems (h : Mirrors ρ s t) {e : Entry} {origin : Option Nat} (hs : s.Stems e origin) :
    t.Stems e origin := by
  unfold Ledger.Stems at hs ⊢
  split
  · next req hreq =>
    simp only [hreq] at hs
    obtain ⟨id, c, rfl, hsub, hnot⟩ := hs
    -- the same request has the same number
    have hreq' : (t.submissions.map Prod.snd)[id]? = some req := by
      rw [h.submitted, List.getElem?_map, hsub]
      rfl
    rw [List.getElem?_map] at hreq'
    obtain ⟨x, hx, rfl⟩ := Option.map_eq_some_iff.mp hreq'
    exact ⟨id, x.1, rfl, hx, by rw [h.origins]; exact hnot⟩
  · next hother =>
    split at hs
    · next req hreq => exact absurd hreq (hother req)
    · exact hs

omit [DecidableEq ι] in
theorem env (h : Mirrors ρ s t) {m : RaftMove × Option Nat} (hm : s.env m s') :
    ∃ t', t.env m t' ∧ Mirrors ρ s' t' := by
  obtain ⟨m, origin⟩ := m
  obtain ⟨w', hmove, hs⟩ := hm
  have hmove' : t.world.move m w' := by
    rw [h.world]
    exact hmove
  cases m with
  | commit e =>
    obtain ⟨hstems, rfl⟩ := hs
    refine ⟨_, ⟨w', hmove', h.stems hstems, rfl⟩, ?_⟩
    have horigins : t.origins ++ [origin] = s.origins ++ [origin] := by rw [h.origins]
    exact ⟨rfl, h.calls, horigins, h.submitted, h.owner, h.latest, h.unused⟩
  | apply | build_snapshot | install_snapshot | observe =>
    cases hs
    exact ⟨_, ⟨w', hmove', rfl⟩, h.move w'⟩

theorem start (h : Mirrors ρ s t) {i : ι} {j : Call Ty} (hs : s.start (.inl i) j s') :
    ∃ t', t.start (.inl i) j t' ∧ Mirrors ρ s' t' := by
  obtain ⟨hnone, rfl⟩ := hs
  refine ⟨_, ⟨(h.calls i).trans hnone, rfl⟩,
    ⟨h.world, ?_, h.origins, h.submitted, h.owner, h.latest, ?_⟩⟩
  · intro i'
    by_cases hi : i' = i
    · subst hi
      simp only [Function.update_self, h.world]
    · have hne : (Sum.inl i' : ι ⊕ Ticket ι) ≠ .inl i := fun heq => hi (Sum.inl.inj heq)
      simp only [Function.update_of_ne hne]
      exact h.calls i'
  · intro x hx
    have hne : (Sum.inr x : ι ⊕ Ticket ι) ≠ .inl i := nofun
    simp only [Function.update_of_ne hne]
    exact h.unused x hx

/-- A call that submits nothing leads to nothing but redirects. -/
theorem call_other (h : Mirrors ρ s t) {v w : ι ⊕ Ticket ι} {o : Op} {r : o.Resp}
    (ho : ∀ i req, o ≠ .submit_write i req) (hlatest : ∀ i req id, o = .await_write i req →
      s.latest v = some id → t.latest w = some id) (hc : s.call v o r s') :
    ∃ t', t.call w o r t' ∧ Mirrors ρ s' t' := by
  cases o with
  | submit_write i req => exact absurd rfl (ho i req)
  | await_write i req =>
    cases r with
    | error e =>
      obtain ⟨w', hw, rfl⟩ := hc
      refine ⟨_, ⟨w', by rw [h.world]; exact hw, rfl⟩, ?_⟩
      exact ⟨rfl, h.calls, h.origins, h.submitted, h.owner, h.latest, h.unused⟩
    | ok resp =>
      obtain ⟨w', id, k, e, hw, hid, hk, he, hlog, rfl⟩ := hc
      refine ⟨_, ⟨w', id, k, e, ?_, hlatest i req id rfl hid, ?_, ?_, hlog, rfl⟩, h.move w'⟩
      · rw [h.world]
        exact hw
      · rw [h.origins]
        exact hk
      · rw [h.world]
        exact he
  | _ =>
    obtain ⟨w', hw, rfl⟩ := hc
    exact ⟨_, ⟨w', by rw [h.world]; exact hw, rfl⟩, h.move w'⟩

/-- A request hands a write to Raft, in whosever name. -/
theorem submit (h : Mirrors ρ s t) {x : Ticket ι} {w : ι ⊕ Ticket ι} (hx : ρ x = .active w)
    (hinj : ∀ y, ρ y = .active w → y = x) (hname : ∀ i, w = .inl i → i = x.1) {n : NodeId}
    {req : RaftRequest} {r : Unit} (hc : s.call (.inr x) (.submit_write n req) r s') :
    ∃ t', t.call w (.submit_write n req) r t' ∧ Mirrors ρ s' t' := by
  obtain ⟨w', hw, rfl⟩ := hc
  refine ⟨_, ⟨w', by rw [h.world]; exact hw, rfl⟩, ⟨rfl, h.calls, h.origins, ?_, ?_, ?_, ?_⟩⟩
  · rw [List.map_append, List.map_append, h.submitted]
    rfl
  · intro id v req' hid
    rcases Ledger.getElem?_concat_cases hid with hid | ⟨rfl, hlast⟩
    · obtain ⟨y, hy, hyv⟩ := h.owner id v req' hid
      obtain ⟨hlt, _⟩ := List.getElem?_eq_some_iff.mp hy
      exact ⟨y, by rw [List.getElem?_append_left hlt]; exact hy, hyv⟩
    · cases hlast
      exact ⟨x, by rw [h.length, List.getElem?_concat_length], hname⟩
  · intro y v id hy hid
    by_cases hyx : y = x
    · subst hyx
      rw [hx] at hy
      cases hy
      simp only [Function.update_self, h.length] at hid ⊢
      exact hid
    · -- the others are carried out in other names
      have hv : v ≠ w := by
        rintro rfl
        exact hyx (hinj y hy)
      have hne : (Sum.inr y : ι ⊕ Ticket ι) ≠ .inr x := fun heq => hyx (Sum.inr.inj heq)
      simp only [Function.update_of_ne hne] at hid
      simp only [Function.update_of_ne hv]
      exact h.latest y v id hy hid
  · intro y hy
    have hne : (Sum.inr y : ι ⊕ Ticket ι) ≠ .inr x := by
      intro heq
      rw [Sum.inr.inj heq, hx] at hy
      cases hy
    simp only [Function.update_of_ne hne]
    exact h.unused y hy

/-- What is known of the requests that are carried out, when one more begins or
    ends. -/
theorem turn (h : Mirrors ρ s t) {x : Ticket ι} {p : Phase ι}
    (hnone : ∀ w, p = .active w → s.latest (.inr x) = none)
    (hp : p ≠ .unused) : Mirrors (Function.update ρ x p) s t where
  world := h.world
  calls := h.calls
  origins := h.origins
  submitted := h.submitted
  owner := h.owner
  latest := by
    intro y w id hy hid
    by_cases hyx : y = x
    · subst hyx
      rw [Function.update_self] at hy
      rw [hnone w hy] at hid
      cases hid
    · rw [Function.update_of_ne hyx] at hy
      exact h.latest y w id hy hid
  unused := by
    intro y hy
    by_cases hyx : y = x
    · subst hyx
      rw [Function.update_self] at hy
      exact absurd hy hp
    · rw [Function.update_of_ne hyx] at hy
      exact h.unused y hy

/-- A request gets a worker of its own. -/
theorem errand (h : Mirrors ρ s t) {x : Ticket ι} (hx : ρ x ≠ .unused)
    (call : Option (Call Ty × Nat)) :
    Mirrors ρ s { t with calls := Function.update t.calls (.inr x) call } where
  world := h.world
  calls := by
    intro i
    have hne : (Sum.inl i : ι ⊕ Ticket ι) ≠ .inr x := nofun
    simp only [Function.update_of_ne hne]
    exact h.calls i
  origins := h.origins
  submitted := h.submitted
  owner := h.owner
  latest := h.latest
  unused := by
    intro y hy
    have hne : (Sum.inr y : ι ⊕ Ticket ι) ≠ .inr x := by
      intro heq
      rw [Sum.inr.inj heq] at hy
      exact hx hy
    simp only [Function.update_of_ne hne]
    exact h.unused y hy

omit [DecidableEq ι] in
theorem misses (h : Mirrors ρ s t) {o : Op} (ho : s.world.misses o) : t.world.misses o := by
  rw [h.world]
  exact ho

end Mirrors

variable (ι Ty) in
/-- The served system over the ledger of the callers, and the calls over theirs. -/
def mirrored :
    LTS.Bridge (callers ι Ty) (forward_ledger (ι ⊕ Ticket ι) (Call Ty)) Subtype.val
      (fun n message => .serve n message) Op.Asks where
  rel := Mirrors
  init := by
    intro s hs
    have hinit : s.init := hs
    obtain ⟨_, hcalls, hsub, _, hlatest, _⟩ := hinit
    refine ⟨s, hs, ⟨rfl, fun _ => rfl, rfl, rfl, ?_, ?_, ?_⟩⟩
    · intro id w req hid
      rw [hsub] at hid
      cases hid
    · nofun
    · intro x _
      rw [hcalls, hlatest]
      exact ⟨rfl, rfl⟩
  env := by
    intro ρ s t m s' h hm
    obtain ⟨hok, hm⟩ := hm
    obtain ⟨t', ht, h'⟩ := h.env hm
    have hok' : t.world.forward m.1 := by
      rw [h.world]
      exact hok
    exact ⟨m, t', ⟨hok', ht⟩, h'⟩
  start := fun h hs => h.start hs
  call := by
    intro ρ s t i o r s' h _ ho hc
    obtain ⟨hok, hc⟩ := hc
    have hother : (∀ n req, o ≠ .submit_write n req) ∧ ∀ n req, o ≠ .await_write n req :=
      ⟨fun n req heq => by rw [heq] at ho; exact ho, fun n req heq => by rw [heq] at ho; exact ho⟩
    obtain ⟨t', ht, h'⟩ := h.call_other (w := .inl i) hother.1
      (fun n req id heq _ => absurd heq (hother.2 n req)) hc
    exact ⟨t', ⟨h.misses hok, ht⟩, h'⟩
  work := by
    intro ρ s t x w o r s' h hx hinj hname hc
    obtain ⟨hok, hc⟩ := hc
    by_cases ho : ∃ n req, o = .submit_write n req
    · obtain ⟨n, req, rfl⟩ := ho
      obtain ⟨t', ht, h'⟩ := h.submit hx hinj hname hc
      exact ⟨t', ⟨h.misses hok, ht⟩, h'⟩
    · obtain ⟨t', ht, h'⟩ := h.call_other (w := w) (fun n req heq => ho ⟨n, req, heq⟩)
        (fun n req id _ hid => h.latest x w id hx hid) hc
      exact ⟨t', ⟨h.misses hok, ht⟩, h'⟩
  attend := fun h hx _ => h.turn (fun _ _ => (h.unused _ hx).1) nofun
  serve := by
    intro ρ s t x n message h hx
    refine ⟨_, ⟨(h.unused x hx).2, rfl⟩, Mirrors.errand ?_ (x := x) ?_ _⟩
    · exact h.turn (fun _ _ => (h.unused x hx).1) nofun
    · rw [Function.update_self]
      nofun
  done := fun h => h.turn nofun nofun

end ledgers

/-! ### The abstract level -/

section levels
variable {ι : Type} [DecidableEq ι] {T : Type} {Ty : T → Type} [∀ t, Serialize (Ty t)]
  [∀ t, Deserialize (Ty t)] {U : UlidReader} {E : Format RemoteError} {c₀ c : Serving ι Ty}
  {a : LTS.Crew (ι ⊕ Ticket ι) (Ledger (ι ⊕ Ticket ι) (Call Ty)) Op Op.Resp (Result Ty)} {i : ι}
  {j : Call Ty} {n : Nat} {out : Result Ty}

variable (U E) in
/-- Over a ledger nothing happens while bytes travel. -/
def ledger_inlines :
    LTS.Inlines (post U E) (forward_ledger (ι ⊕ Ticket ι) (Call Ty)) link :=
  link_inlines fun _ s _ _ _ => ⟨trivial, s.world, rfl, rfl⟩

/-- What the calls `a` show of the served system `c`: the cluster, which calls
    have begun, where the log comes from, and what has been returned. -/
structure Shows (c : Serving ι Ty)
    (a : LTS.Crew (ι ⊕ Ticket ι) (Ledger (ι ⊕ Ticket ι) (Call Ty)) Op Op.Resp (Result Ty)) : Prop where
  world : a.shared.world = c.shared.world
  calls : ∀ i, a.shared.calls (.inl i) = c.shared.calls (.inl i)
  origins : a.shared.origins = c.shared.origins
  /-- A write in the name of a caller is one of its requests. -/
  owner : ∀ (id : Nat) i req, a.shared.submissions[id]? = some (.inl i, req) →
    ∃ m, c.shared.submissions[id]? = some (.inr (i, m), req)
  returned : ∀ i out, c.desk i = .works (.pure out) → a.worker (.inl i) = some (.pure out)

omit [∀ t, Serialize (Ty t)] [∀ t, Deserialize (Ty t)] in
theorem shows_of_matches {A : Finset (Ticket ι)}
    (h : LTS.Matches (ledger_inlines U E) (mirrored ι Ty) Result.reply A c a) : Shows c a := by
  have hmirrors : Mirrors (c.phase A) c.shared a.shared := h.rel
  refine ⟨hmirrors.world, hmirrors.calls, hmirrors.origins, ?_, ?_⟩
  · intro id i req hid
    obtain ⟨⟨i', m⟩, hx, hname⟩ := hmirrors.owner id _ req hid
    cases hname i rfl
    exact ⟨m, hx⟩
  · intro i out hi
    exact h.works i _ hi

/-- Every run of the served system is matched, step by step, by one of the calls
    with the nodes inlined. -/
theorem served_matched (hc₀ : (served ι Ty U E).Reachable c₀) (hsteps : (served ι Ty U E).Steps c₀ c) :
    ∃ A a₀ a, (call_runs (ι ⊕ Ticket ι) Ty).Reachable a₀ ∧
      (call_runs (ι ⊕ Ticket ι) Ty).Steps a₀ a ∧
      LTS.Matches (ledger_inlines U E) (mirrored ι Ty) Result.reply A c₀ a₀ ∧
      LTS.Matches (ledger_inlines U E) (mirrored ι Ty) Result.reply ∅ c a := by
  have hprog : ∀ j : {j : Call Ty // j.Asked}, j.1.method.Uses Prog.AnyAnswer Op.Asks :=
    fun j => Call.method_asks j.2
  have hjob : ∀ (_ : ι) (j : {j : Call Ty // j.Asked}), j.1.run = j.1.method.interp link :=
    fun _ j => Call.run_eq_interp j.2
  have hsim : ∃ A, ∀ a₀, LTS.Matches (ledger_inlines U E) (mirrored ι Ty) Result.reply A c₀ a₀ →
      ∃ a, (call_runs (ι ⊕ Ticket ι) Ty).Steps a₀ a ∧
        LTS.Matches (ledger_inlines U E) (mirrored ι Ty) Result.reply ∅ c a :=
    LTS.mail_inlined _ _ hprog hjob (fun _ _ _ => rfl) hc₀ hsteps ∅
  obtain ⟨A, hsim⟩ := hsim
  have hmatched : ∃ a₀, (call_runs (ι ⊕ Ticket ι) Ty).Reachable a₀ ∧
      LTS.Matches (ledger_inlines U E) (mirrored ι Ty) Result.reply A c₀ a₀ :=
    LTS.mail_matched _ _ hprog hjob (fun _ _ _ => rfl) hc₀ A
  obtain ⟨a₀, ha₀, hM₀⟩ := hmatched
  obtain ⟨a, hsteps', hM⟩ := hsim a₀ hM₀
  exact ⟨A, a₀, a, ha₀, hsteps', hM₀, hM⟩

/-- **Refinement**: what happens between two states of the served system, with
    bytes, mailboxes and connections that break, may just as well have happened
    where every caller carries its requests out itself. -/
theorem served_refines (hc₀ : (served ι Ty U E).Reachable c₀) (hsteps : (served ι Ty U E).Steps c₀ c) :
    ∃ a₀ a, (call_runs (ι ⊕ Ticket ι) Ty).Reachable a₀ ∧
      (call_runs (ι ⊕ Ticket ι) Ty).Steps a₀ a ∧ Shows c₀ a₀ ∧ Shows c a := by
  obtain ⟨A, a₀, a, ha₀, hsteps', hM₀, hM⟩ := served_matched hc₀ hsteps
  exact ⟨a₀, a, ha₀, hsteps', shows_of_matches hM₀, shows_of_matches hM⟩

/-! ### Served calls are linearizable -/

/-- Caller `i` has made the call `j`, which began when the log had `n` entries, and
    `out`, a success, has come back. -/
structure Fulfilled (c : Serving ι Ty) (i : ι) (j : Call Ty) (n : Nat) (out : Result Ty) : Prop where
  began : c.shared.calls (.inl i) = some (j, n)
  returned : c.desk i = .works (.pure out)
  succeeds : j.Succeeds out

/-- A point at which a call may have taken place. A write took place where an
    entry is that one of the requests of its caller has submitted. -/
structure Call.ServedAt (i : ι) (j : Call Ty) (n : Nat) (out : Result Ty)
    (s : Ledger (ι ⊕ Ticket ι) (Call Ty)) (p : Nat) : Prop where
  after_begin : n ≤ p
  in_log : p ≤ s.world.log.length
  explains : j.Explains (replay s.world.log p).data out
  written : j.writes = true → (∃ m, s.owner p = some (.inr (i, m))) ∧
    ∃ (e : Entry) (req : RaftRequest), s.world.log[p]? = some e ∧ e.payload = .Normal req ∧ j.Writes req

omit [DecidableEq ι] [∀ t, Serialize (Ty t)] [∀ t, Deserialize (Ty t)] in
theorem Fulfilled.shown (h : Fulfilled c i j n out) (hs : Shows c a) : Succeeded a (.inl i) j n out :=
  ⟨(hs.calls i).trans h.began, hs.returned i out h.returned, h.succeeds⟩

/-- A call that has returned stays as it is. -/
theorem Fulfilled.later (hsteps : (served ι Ty U E).Steps c₀ c) (h : Fulfilled c₀ i j n out) :
    Fulfilled c i j n out := by
  induction hsteps with
  | refl => exact h
  | @tail c₁ c₂ _ hstep ih =>
    obtain ⟨m, hm⟩ := hstep
    obtain ⟨hbegan, hreturned, hsucc⟩ := ih
    -- another caller takes a turn
    have hother : ∀ {i' d}, (∀ b, c₁.desk i' ≠ .works (.pure b)) →
        Function.update c₁.desk i' d i = .works (.pure out) := by
      intro i' d hbusy
      have hne : i ≠ i' := by
        rintro rfl
        exact hbusy out hreturned
      rw [Function.update_of_ne hne]
      exact hreturned
    cases m with
    | env e =>
      obtain ⟨s', hs, rfl⟩ := hm
      exact ⟨(Ledger.keeps_of_env hs.2 _).calls.trans hbegan, hreturned, hsucc⟩
    | start i' j' =>
      obtain ⟨s', _, hs, rfl⟩ := hm
      -- this one has begun before
      have hne : i ≠ i' := by
        rintro rfl
        rw [hs.1] at hbegan
        cases hbegan
      have hk := Ledger.keeps_of_start hs (c := .inl i) fun heq => hne (Sum.inl.inj heq)
      refine ⟨hk.calls.trans hbegan, ?_, hsucc⟩
      simp only [Function.update_of_ne hne]
      exact hreturned
    | call i' o =>
      obtain ⟨k, r, s', hi, _, hs, rfl⟩ := hm
      refine ⟨?_, hother fun b hb => ?_, hsucc⟩
      · rw [Ledger.call_calls hs.2]
        exact hbegan
      · rw [hi] at hb
        cases hb
    | work n' o =>
      obtain ⟨t, k, r, s', _, _, hs, rfl⟩ := hm
      refine ⟨?_, hreturned, hsucc⟩
      rw [Ledger.call_calls hs.2]
      exact hbegan
    | send i' =>
      obtain ⟨o, k, n', packet, hi, _, _, rfl⟩ := hm
      refine ⟨hbegan, hother fun b hb => ?_, hsucc⟩
      rw [hi] at hb
      cases hb
    | receive i' =>
      obtain ⟨o, k, x, r, hi, _, _, rfl⟩ := hm
      refine ⟨hbegan, hother fun b hb => ?_, hsucc⟩
      rw [hi] at hb
      cases hb
    | lose i' =>
      obtain ⟨o, k, r, hi, _, rfl⟩ := hm
      refine ⟨hbegan, hother fun b hb => ?_, hsucc⟩
      rw [hi] at hb
      cases hb
    | post t =>
      obtain ⟨n', packet, msg, _, _, _, rfl⟩ := hm
      exact ⟨hbegan, hreturned, hsucc⟩
    | refuse t =>
      obtain ⟨n', packet, _, _, rfl⟩ := hm
      exact ⟨hbegan, hreturned, hsucc⟩
    | take n' =>
      obtain ⟨t, rest, msg, _, _, _, rfl⟩ := hm
      exact ⟨hbegan, hreturned, hsucc⟩
    | reply n' =>
      obtain ⟨t, r, _, _, _, rfl⟩ := hm
      exact ⟨hbegan, hreturned, hsucc⟩
    | stop n' =>
      obtain ⟨_, rfl⟩ := hm
      exact ⟨hbegan, hreturned, hsucc⟩

omit [DecidableEq ι] in
theorem Shows.point (hs : Shows c a) (hwf : a.shared.Wf) {p : Nat}
    (h : j.Point (.inl i) n out a.shared p) : j.ServedAt i n out c.shared p where
  after_begin := h.after_begin
  in_log := by
    rw [← hs.world]
    exact h.in_log
  explains := by
    rw [← hs.world]
    exact h.explains
  written := by
    intro hw
    obtain ⟨⟨id, hid, hp⟩, he⟩ := h.written hw
    refine ⟨?_, by rw [← hs.world]; exact he⟩
    -- the submission that the call waited for is one of its requests
    obtain ⟨req, hreq⟩ := hwf.latest _ id hid
    obtain ⟨m, hm⟩ := hs.owner id i req hreq
    rw [hs.origins] at hp
    exact ⟨m, by simp [Ledger.owner, hp, hm]⟩

/-- **Linearizability of the served system**: however long requests and replies
    are under way, wait in the mailboxes of the nodes or are lost, the insertions,
    the clearings and the linearizable reads that succeed have points in the
    committed log such that

    - what a call returns is what the state machine answers at its point, and at
      the point of a write stands an entry that one of its requests submitted;
    - two writes have different points;
    - a call that is begun after another one has returned has its point after
      that of the other. -/
theorem served_linearizable (hc : (served ι Ty U E).Reachable c) :
    ∃ point : ι → Nat,
      (∀ i j n out, Fulfilled c i j n out → j.ServedAt i n out c.shared (point i)) ∧
      (∀ i₁ i₂ j₁ j₂ n₁ n₂ out₁ out₂, Fulfilled c i₁ j₁ n₁ out₁ → Fulfilled c i₂ j₂ n₂ out₂ →
        j₁.writes = true → j₂.writes = true → point i₁ = point i₂ → i₁ = i₂) ∧
      ∀ c₀ i₁ i₂ j₁ j₂ n₁ n₂ out₁ out₂, (served ι Ty U E).Reachable c₀ →
        (served ι Ty U E).Steps c₀ c → Fulfilled c₀ i₁ j₁ n₁ out₁ →
        c₀.shared.calls (.inl i₂) = none → Fulfilled c i₂ j₂ n₂ out₂ →
        point i₁ ≤ point i₂ ∧ (j₁.writes = true → point i₁ < point i₂) := by
  have hexists : ∀ i j n out, Fulfilled c i j n out → ∃ p, j.ServedAt i n out c.shared p := by
    intro i j n out h
    obtain ⟨_, _, a, ha₀, hsteps, _, hM⟩ := served_matched hc .refl
    have ha := LTS.System.Steps.reachable hsteps ha₀
    have hs := shows_of_matches hM
    obtain ⟨p, hp⟩ := (h.shown hs).point ha
    exact ⟨p, hs.point (call_runs_inv ha).inv.wf hp⟩
  -- the earliest point of each call
  have hone : ∀ i, ∃ p, ∀ j n out, Fulfilled c i j n out →
      j.ServedAt i n out c.shared p ∧ ∀ q, j.ServedAt i n out c.shared q → p ≤ q := by
    intro i
    by_cases h : ∃ j n out, Fulfilled c i j n out
    · obtain ⟨j, n, out, h⟩ := h
      classical
      have hex := hexists i j n out h
      refine ⟨Nat.find hex, ?_⟩
      intro j' n' out' h'
      cases h.began.symm.trans h'.began
      cases h.returned.symm.trans h'.returned
      exact ⟨Nat.find_spec hex, fun q hq => Nat.find_min' _ hq⟩
    · exact ⟨0, fun j n out h' => absurd ⟨j, n, out, h'⟩ h⟩
  choose point hpoint using hone
  refine ⟨point, ?_, ?_, ?_⟩
  · intro i j n out h
    exact (hpoint i j n out h).1
  · intro i₁ i₂ j₁ j₂ n₁ n₂ out₁ out₂ h₁ h₂ hw₁ hw₂ heq
    obtain ⟨⟨m₁, hp₁⟩, _⟩ := (hpoint i₁ _ _ _ h₁).1.written hw₁
    obtain ⟨⟨m₂, hp₂⟩, _⟩ := (hpoint i₂ _ _ _ h₂).1.written hw₂
    -- an entry goes back to one request
    rw [heq, hp₂] at hp₁
    cases hp₁
    rfl
  · intro c₀ i₁ i₂ j₁ j₂ n₁ n₂ out₁ out₂ hc₀ hsteps h₁ hnone h₂
    obtain ⟨_, a₀, a, ha₀, hsteps', hM₀, hM⟩ := served_matched hc₀ hsteps
    have hs₀ := shows_of_matches hM₀
    have hs := shows_of_matches hM
    have ha := LTS.System.Steps.reachable hsteps' ha₀
    obtain ⟨hr, h₁'⟩ := (h₁.shown hs₀).later ha₀ hsteps'
    -- the point that the first call had when it returned is not after the earliest one
    obtain ⟨q, hq⟩ := (h₁.shown hs₀).point ha₀
    have hle := (hpoint i₁ _ _ _ (h₁.later hsteps)).2 q (hs.point (call_runs_inv ha).inv.wf (hq.onward hr))
    have hbegan := (began_after hsteps' ((hs₀.calls i₂).trans hnone)).2 _ _ (h₂.shown hs).began
    have hafter := (hpoint i₂ _ _ _ h₂).1.after_begin
    have hin := hq.in_log
    refine ⟨by omega, fun hw => ?_⟩
    obtain ⟨_, e, req, he, _⟩ := hq.written hw
    obtain ⟨hlt, _⟩ := List.getElem?_eq_some_iff.mp he
    omega

end levels

/-! ### One insertion -/

/-- The leader, which knows its own address. -/
def serving_metrics : RaftMetrics where
  id := 0
  state := .Leader
  current_leader := some 0
  membership_config := ⟨none, ⟨[{0}], Finmap.singleton 0 Node.localhost⟩⟩


/-- No node reports an error. -/
def no_errors : Format RemoteError where
  encode := fun _ => []
  decode := fun _ => .error .SerdeDeCustom
  fits := fun _ => False
  decode_encode := nofun
  decode_ok := nofun

def insert_call : Call fun _ : Unit => UInt8 := .insert () () ⟨"m", 0⟩ 1 1 2

def insert_message : Request := ⟨some 0, .Insert "m" [1] [2]⟩

theorem insert_message_fits : (Wire.request Wire.crockford).fits insert_message := by
  refine ⟨?_, ?_⟩
  · intro a ha
    cases ha
    show 0 < 2 ^ 128
    norm_num
  · refine ⟨_, rfl, ("m", [1], [2]), rfl, ?_, ?_, ?_⟩
    · show "m".utf8ByteSize < 2 ^ 64
      decide
    · exact ⟨by norm_num, fun _ _ => trivial⟩
    · exact ⟨by norm_num, fun _ _ => trivial⟩

theorem insert_message_read :
    read_request Wire.crockford (Encode.request insert_message) = some insert_message := by
  have hacc : accepts insert_message = true :=
    (short_write_accepted (by decide) (by decide) (by decide)).1
  have hback := Wire.request_from_bytes Wire.crockford insert_message_fits []
  rw [List.append_nil] at hback
  rw [read_request, if_pos (of_decide_eq_true hacc), hback]
  rfl


def insert_reply : Except RemoteError Response :=
  .ok (.ClientWrite ⟨insert_entry.log_id, .Insert none, none⟩)

theorem insert_reply_fits : (Wire.reply Wire.crockford no_errors).fits insert_reply := by
  refine ⟨_, rfl, .ClientWrite ⟨insert_entry.log_id, .Insert none, none⟩, rfl, _, rfl,
    ⟨insert_entry.log_id, .Insert none, none⟩, rfl, ?_, ?_, nofun⟩
  · refine ⟨⟨?_, ?_⟩, ?_⟩
    · exact Postcard.Format.fits_u64.mpr (by norm_num [insert_entry])
    · show 0 < 2 ^ 128
      norm_num
    · exact Postcard.Format.fits_u64.mpr (by norm_num [insert_entry])
  · exact ⟨_, rfl, none, rfl, nofun⟩

/-- Nothing has begun. -/
def quiet : Serving Nat fun _ : Unit => UInt8 where
  shared := ⟨World.fresh, fun _ => none, [], [], fun _ => none, fun _ => 0⟩
  desk := fun _ => .idle
  round := fun _ => 0
  stage := fun _ => none
  queue := fun _ => []
  loop := fun _ => .ready

/-- The leader inserts something for a caller on its own node, and the caller has
    the answer. -/
theorem served_insert :
    ∃ c, (served Nat (fun _ : Unit => UInt8) Wire.crockford no_errors).Reachable c ∧
      Fulfilled c 0 insert_call 0 (.inserted () (.ok none)) ∧
      c.stage (0, 0) = some (.answered (some insert_reply)) ∧ c.stage (0, 1) = none ∧
      c.shared.calls (.inl 1) = none ∧ c.desk 1 = .idle ∧ c.shared.world.log = [insert_entry] ∧
      c.shared.world.node 0
        = ⟨((default : StateMachine).apply [insert_entry]).2, serving_metrics⟩ := by
  have h₀ : (served Nat (fun _ : Unit => UInt8) Wire.crockford no_errors).Reachable quiet :=
    .init ⟨⟨⟨rfl, fun _ => rfl, rfl, rfl, rfl, rfl⟩, rfl, rfl, rfl, rfl, rfl⟩, fun _ => rfl,
      fun _ => rfl, fun _ => rfl, fun _ => rfl⟩
  have h₁ := LTS.Office.env h₀ (.observe 0 serving_metrics, none) ⟨trivial, _, rfl, rfl⟩
  have h₂ := LTS.Office.start h₁ 0 ⟨insert_call, trivial⟩ (.inl rfl) ⟨rfl, rfl⟩
  have h₃ := LTS.Office.call h₂ 0 (o := .metrics 0) serving_metrics rfl rfl
    ⟨trivial, _, ⟨rfl, rfl⟩, rfl⟩
  have h₄ := LTS.Office.call h₃ 0 (o := .connect 0 Node.localhost) (.ok ⟨0⟩) rfl rfl
    ⟨trivial, _, rfl, rfl⟩
  have h₅ := LTS.Office.send h₄ 0 (o := .exchange 0 ⟨0⟩ insert_message) rfl rfl insert_message_fits
  have h₆ := LTS.Office.arrive h₅ (0, 0) rfl nofun insert_message_read
  have h₇ := LTS.Office.take h₆ 0 rfl rfl rfl
  have h₈ := LTS.Office.work h₇ 0 (o := .server_metrics 0) ⟨0, .Leader⟩ rfl rfl
    ⟨trivial, _, ⟨rfl, rfl⟩, rfl⟩
  have h₉ := LTS.Office.work h₈ 0 (o := .submit_write 0 (.Insert "m" [1] [2])) () rfl rfl
    ⟨trivial, _, rfl, rfl⟩
  have hprop : ∀ req, insert_entry.payload = .Normal req →
      req ∈ [RaftRequest.Insert "m" [1] [2]] := by
    intro req h
    cases h
    exact List.mem_singleton.mpr rfl
  have h₁₀ := LTS.Office.env h₉ (.commit insert_entry, some 0)
    ⟨trivial, _, ⟨rfl, hprop, rfl⟩, ⟨0, _, rfl, rfl, nofun⟩, rfl⟩
  have h₁₁ := LTS.Office.env h₁₀ (.apply 0 1, none) ⟨trivial, _, rfl, rfl⟩
  have h₁₂ := LTS.Office.work h₁₁ 0 (o := .await_write 0 (.Insert "m" [1] [2]))
    (.ok ⟨insert_entry.log_id, .Insert none, none⟩) rfl rfl
    ⟨trivial, _, 0, 0, insert_entry,
      ⟨insert_entry, List.mem_singleton.mpr rfl, rfl, rfl, List.mem_singleton.mpr rfl, rfl⟩,
      rfl, rfl, rfl, rfl, rfl⟩
  have h₁₃ := LTS.Office.reply h₁₂ 0 rfl rfl insert_reply_fits
  have h₁₄ := LTS.Office.receive h₁₃ 0 (o := .exchange 0 ⟨0⟩ insert_message) (.ok insert_reply) rfl rfl
    (read_reply_encode insert_reply_fits).symm
  exact ⟨_, h₁₄, ⟨rfl, rfl, trivial⟩, rfl, rfl, rfl, rfl, rfl, rfl⟩

/-- The insertion might have been carried out by the caller. -/
theorem served_refines_insert :
    ∃ c a, (served Nat (fun _ : Unit => UInt8) Wire.crockford no_errors).Reachable c ∧
      (call_runs (Nat ⊕ Ticket Nat) fun _ : Unit => UInt8).Reachable a ∧
      a.worker (.inl 0) = some (.pure (.inserted () (.ok none))) ∧
      a.shared.world.log = [insert_entry] := by
  obtain ⟨c, hc, hdone, _, _, _, _, hlog, _⟩ := served_insert
  obtain ⟨a₀, a, ha₀, hsteps, _, hs⟩ := served_refines hc .refl
  refine ⟨c, a, hc, LTS.System.Steps.reachable hsteps ha₀, hs.returned 0 _ hdone.returned, ?_⟩
  rw [hs.world]
  exact hlog

/-- A read that is begun after the insertion has returned has its point after
    that of the insertion. -/
theorem served_linearizable_after_insert :
    ∃ c out, ∃ point : Nat → Nat,
      (served Nat (fun _ : Unit => UInt8) Wire.crockford no_errors).Reachable c ∧
      Fulfilled c 0 insert_call 0 out ∧
      Fulfilled c 1 (.read ⟨"m", 0, 0, .len () (), .ReadIndex⟩) 1 (.answer (.ok (.len 1))) ∧
      point 0 < point 1 := by
  obtain ⟨c₀, hc₀, h₀, _, _, hcalls₁, hdesk₁, hlog, hnode⟩ := served_insert
  -- the leader is asked for the length of the map
  obtain ⟨c, hsteps, hread⟩ : ∃ c,
      (served Nat (fun _ : Unit => UInt8) Wire.crockford no_errors).Steps c₀ c ∧
      Fulfilled c 1 (.read ⟨"m", 0, 0, .len () (), .ReadIndex⟩) 1 (.answer (.ok (.len 1))) := by
    refine ⟨_, .tail (.tail (.tail (.tail (.tail .refl
      ⟨.start 1 ⟨.read ⟨"m", 0, 0, .len () (), .ReadIndex⟩, trivial⟩, _, .inl hdesk₁, ⟨hcalls₁, rfl⟩,
        rfl⟩)
      ⟨.call 1 (.current_leader 0), _, some 0, _, rfl, rfl, ⟨trivial, _, ⟨?_, rfl⟩, rfl⟩, rfl⟩)
      ⟨.call 1 (.begin_read 0), _, ⟨1⟩, _, rfl, rfl, ⟨trivial, _, ⟨?_, rfl⟩, rfl⟩, rfl⟩)
      ⟨.call 1 (.await_read 0 ⟨1⟩), _, .ok none, _, rfl, rfl, ⟨trivial, _, ⟨?_, rfl⟩, rfl⟩, rfl⟩)
      ⟨.call 1 (.map_len 0 "m"), _, some 1, _, rfl, rfl, ⟨trivial, _, ⟨?_, rfl⟩, rfl⟩, rfl⟩, ?_, rfl, rfl⟩
    · simp only [hnode, serving_metrics]
    · simp only [hlog, List.length_singleton]
    · simp only [World.applied, hnode]
      decide
    · simp only [World.data, NodeState.data, hnode]
      decide
    · simp only [Function.update_self, hlog, List.length_singleton]
  have hc := LTS.System.Steps.reachable hsteps hc₀
  obtain ⟨point, _, _, hreal⟩ := served_linearizable hc
  obtain ⟨_, hlt⟩ := hreal c₀ 0 1 _ _ _ _ _ _ hc₀ hsteps h₀ hcalls₁ hread
  exact ⟨c, _, point, hc, h₀.later hsteps, hread, hlt rfl⟩

end Distruct

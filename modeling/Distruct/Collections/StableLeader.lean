import Distruct.Collections.Reference

/-! # Collections under a Stable Leader

    Operations on the collections, called on any nodes one after the other,
    while one leader stays the leader: every node knows it and its address, the
    network delivers, and the leader answers. Everything else is left open and
    may differ from call to call: what else the metrics show, which log ids the
    leader assigns, and in which order a set is enumerated.

    The results are those of the reference collections. An operation whose
    request is longer than the server reads never reaches the main loop of the
    leader: it fails and has no effect.
-/

namespace Distruct

open Postcard (Bytes)
open Serialize.Lawful (bytes bytes_injective)
open StateMachineData (SetsMap SetsSet)

/-- A leader and all that its answers depend on. The numbers count calls. -/
structure StableLeader where
  leader : NodeId
  node : Node
  metrics : Nat → NodeId → RaftMetrics
  own_id : ∀ t i, (metrics t i).id = i
  known : ∀ t i, (metrics t i).current_leader = some leader
  reachable : ∀ t i, (metrics t i).membership_config.membership.get_node leader = some node
  log_id : Nat → LogId
  membership : Nat → Option Membership
  read_log_id : Nat → Option LogId
  iter : Nat → HashSet Bytes → List Bytes
  lists : ∀ t s, HashSet.Lists s (iter t s)

/-- The state machine of the leader and the number of calls so far. -/
structure Leading where
  sm : StateMachine
  clock : Nat

namespace Leading

def data (s : Leading) : StateMachineData := s.sm.state_machine.data

def tick (s : Leading) : Leading := { s with clock := s.clock + 1 }

def withData (s : Leading) (d : StateMachineData) : Leading :=
  { s with sm := { s.sm with state_machine := { s.sm.state_machine with data := d } } }

end Leading

namespace StableLeader

/-- How the calls are answered. A committed write is applied before the answer;
    the state machine of another node is not part of the state. -/
def answer (L : StableLeader) : (o : Op) → Leading → Option (o.Resp × Leading)
  | .server_metrics i, s =>
    some (⟨(L.metrics s.clock i).id, (L.metrics s.clock i).state⟩, s.tick)
  | .metrics i, s => some (L.metrics s.clock i, s.tick)
  | .current_leader _, s => some (some L.leader, s.tick)
  | .submit_write i _, s => if i = L.leader then some ((), s.tick) else none
  | .await_write i req, s =>
    if i = L.leader then
      -- the write becomes a log entry, and the leader applies it
      let entry : Entry := ⟨L.log_id s.clock, .Normal req⟩
      let r := s.sm.apply [entry]
      r.1.head?.map fun response =>
        (.ok ⟨entry.log_id, response, L.membership s.clock⟩, { s.tick with sm := r.2 })
    else none
  | .begin_read i, s => if i = L.leader then some (⟨s.clock⟩, s.tick) else none
  | .await_read i _, s => if i = L.leader then some (.ok (L.read_log_id s.clock), s.tick) else none
  | .contains_key i map key, s =>
    if i = L.leader then some (s.data.contains_key map key, s.tick) else none
  | .get_with_lock i map key, s =>
    if i = L.leader then some (s.data.get_with_lock map key, s.tick) else none
  | .get_with_lock_multi i multi_map key, s =>
    if i = L.leader then
      some ((s.data.get_with_lock_multi multi_map key).map (L.iter s.clock), s.tick)
    else none
  | .map_len i map, s => if i = L.leader then some (s.data.map_len map, s.tick) else none
  | .remove i map key, s =>
    if i = L.leader then
      some ((s.data.remove map key).1, s.tick.withData (s.data.remove map key).2)
    else none
  | .remove_multi_value i multi_map key value, s =>
    if i = L.leader then
      some ((s.data.remove_multi_value multi_map key value).1,
        s.tick.withData (s.data.remove_multi_value multi_map key value).2)
    else none
  | .connect _ node, s => if node = L.node then some (.ok ⟨L.leader⟩, s.tick) else none
  | .transmit .., s => some (.ok (), s.tick)
  | _, _ => none

/-! ### Programs under a stable leader -/

/-- From the data `d`, the program comes to an end with a result and new data
    that satisfy `Q`. -/
def Ends (L : StableLeader) {α : Type} (Q : α → StateMachineData → Prop) (p : NodeProg α)
    (d : StateMachineData) : Prop :=
  ∀ s : Leading, s.data = d → p.Ensures L.answer (fun a s' => Q a s'.data) s

section rules
variable {L : StableLeader} {α β ε : Type} {d : StateMachineData}

theorem ends_pure {Q : α → StateMachineData → Prop} {a : α} (h : Q a d) :
    L.Ends Q (.pure a) d := by
  intro s hs
  exact Prog.ensures_pure (hs ▸ h)

theorem ends_mono {Q Q' : α → StateMachineData → Prop} {p : NodeProg α}
    (hQ : ∀ a d', Q a d' → Q' a d') (h : L.Ends Q p d) : L.Ends Q' p d := by
  intro s hs
  exact Prog.ensures_mono (fun a s' => hQ a s'.data) (h s hs)

theorem ends_call {Q : α → StateMachineData → Prop} {o : Op} {k : o.Resp → NodeProg α}
    (h : ∀ s : Leading, s.data = d →
      ∃ r s', L.answer o s = some (r, s') ∧ L.Ends Q (k r) s'.data) :
    L.Ends Q (.call o k) d := by
  intro s hs
  obtain ⟨r, s', hr, hk⟩ := h s hs
  exact Prog.ensures_call hr (hk s' rfl)

theorem ends_bind {Q : β → StateMachineData → Prop} {p : NodeProg α} {f : α → NodeProg β}
    (h : L.Ends (fun a d' => L.Ends Q (f a) d') p d) : L.Ends Q (p >>= f) d := by
  intro s hs
  exact Prog.ensures_bind (Prog.ensures_mono (fun a s' ha => ha s' rfl) (h s hs))

theorem ends_map {Q : β → StateMachineData → Prop} {p : NodeProg α} {f : α → β}
    (h : L.Ends (fun a d' => Q (f a) d') p d) : L.Ends Q (f <$> p) d := by
  intro s hs
  exact Prog.ensures_map (h s hs)

/-- Sequencing of programs that can fail. -/
theorem ends_run_bind {Q : Except ε β → StateMachineData → Prop} {x : NodeResult ε α}
    {f : α → NodeResult ε β}
    (h : L.Ends (fun r d' => match r with
      | .ok a => L.Ends Q (f a).run d'
      | .error e => Q (.error e) d') x.run d) :
    L.Ends Q (x >>= f).run d := by
  rw [ExceptT.run_bind]
  refine ends_bind (ends_mono ?_ h)
  intro r d' hr
  cases r with
  | ok a => exact hr
  | error e => exact ends_pure hr

theorem ends_linked_bind {Q : Except ε β → StateMachineData → Prop} {x : NodeResult ε α}
    {f : α → NodeResult ε β}
    (h : L.Ends (fun r d' => match r with
      | .ok a => L.Ends Q (linked (f a)) d'
      | .error e => Q (.error e) d') (linked x) d) :
    L.Ends Q (linked (x >>= f)) d := by
  rw [linked_bind]
  exact ends_run_bind h

end rules

/-! ### The way to the leader -/

section paths
variable {L : StableLeader} {α β : Type} {d : StateMachineData} {i : NodeId} {body : RequestBody}

theorem ends_get_leader :
    L.Ends (fun r d' => r = some (L.leader, L.node) ∧ d' = d) (ClusterRef.get_leader i) d := by
  refine ends_call fun s hs => ⟨L.metrics s.clock i, s.tick, rfl, ends_pure ⟨?_, hs⟩⟩
  simp [L.known, L.reachable]

theorem ends_client_to_leader :
    L.Ends (fun r d' => r = .ok ⟨i, ⟨L.leader⟩, some L.leader⟩ ∧ d' = d)
      (linked (client_to_leader i)) d := by
  unfold client_to_leader
  refine ends_linked_bind ?_
  rw [linked_lift_of_uses (p := ClusterRef.get_leader i) ⟨rfl, fun _ _ => trivial⟩]
  refine ends_map (ends_mono ?_ ends_get_leader)
  intro r d₁ hr
  obtain ⟨rfl, rfl⟩ := hr
  refine ends_call fun s hs => ⟨.ok ⟨L.leader⟩, s.tick, by simp [answer], ?_⟩
  exact ends_pure ⟨rfl, hs⟩

/-- The leader handles a request that it reads. -/
theorem ends_deliver {Q : Except Error (Except RemoteError Response) → StateMachineData → Prop}
    (ha : accepts ⟨some L.leader, body⟩ = true)
    (hbody : L.Ends (fun reply d' => Q (.ok reply) d') (handle_body L.leader body) d) :
    L.Ends Q (deliver i ⟨L.leader⟩ ⟨some L.leader, body⟩) d := by
  refine ends_call fun s hs => ⟨.ok (), s.tick, rfl, ?_⟩
  have hd : s.tick.data = d := hs
  rw [hd]
  refine ends_run_bind (x := liftM (handle_request L.leader ⟨some L.leader, body⟩))
    (ends_map (f := Except.ok) ?_)
  rw [handle_request, if_pos ha]
  refine ends_map ?_
  refine ends_call fun s hs => ⟨_, s.tick, rfl, ?_⟩
  have hd : s.tick.data = d := hs
  rw [hd]
  show L.Ends _ (if L.leader ≠ (L.metrics s.clock L.leader).id then _ else _) d
  -- the request carries the id of the leader
  rw [if_neg (by simp [L.own_id])]
  refine ends_mono ?_ hbody
  intro reply d' hQ
  exact ends_call fun s' hs' => ⟨.ok (), s'.tick, rfl, ends_pure (hs' ▸ hQ)⟩

/-- It drops the stream of a request that is too long. -/
theorem ends_deliver_rejected (ha : accepts ⟨some L.leader, body⟩ = false) :
    L.Ends (fun r d' => (∃ e, r = .error e) ∧ d' = d)
      (deliver i ⟨L.leader⟩ ⟨some L.leader, body⟩) d := by
  refine ends_call fun s hs => ⟨.ok (), s.tick, rfl, ?_⟩
  refine ends_run_bind (x := liftM (handle_request L.leader ⟨some L.leader, body⟩))
    (ends_map (f := Except.ok) ?_)
  rw [handle_request, ha]
  exact ends_pure (ends_pure ⟨⟨_, rfl⟩, hs⟩)

/-- What a method of the client makes of a response. -/
def taken (accept : Response → Option α) (resp : Response) : Except Error α :=
  match accept resp with
  | some a => .ok a
  | none => .error (.Protocol .UnknownResponse)

variable {accept : Response → Option α} {g : α → Except Error β}
  {Q : Except Error β → StateMachineData → Prop}

/-- A method that asks the leader, and computes its result by `g`. -/
theorem ends_remote (fuel : Nat)
    (hbody : accepts ⟨some L.leader, body⟩ = true →
      L.Ends (fun reply d' => ∃ resp, reply = .ok resp ∧ Q ((taken accept resp).bind g) d')
        (handle_body L.leader body) d)
    (hrejected : accepts ⟨some L.leader, body⟩ = false → ∀ e, Q (.error e) d) :
    L.Ends Q (linked (do
      let client ← client_to_leader i
      let a ← client.call (fuel + 1) body accept
      ExceptT.mk (pure (g a)))) d := by
  refine ends_linked_bind (ends_mono ?_ ends_client_to_leader)
  intro r d₁ hr
  obtain ⟨rfl, rfl⟩ := hr
  refine ends_linked_bind ?_
  refine ends_linked_bind ?_
  -- a single exchange settles it, since the leader does not redirect
  refine ends_linked_bind ?_
  have hex : linked (ExceptT.mk (ask (.exchange i ⟨L.leader⟩ ⟨some L.leader, body⟩)))
      = deliver i ⟨L.leader⟩ ⟨some L.leader, body⟩ := Prog.interp_perform link _
  show L.Ends _ (linked (ExceptT.mk (ask (.exchange i ⟨L.leader⟩ ⟨some L.leader, body⟩)))) _
  rw [hex]
  by_cases ha : accepts ⟨some L.leader, body⟩ = true
  · refine ends_deliver ha (ends_mono ?_ (hbody ha))
    intro reply d₂ hreply
    obtain ⟨resp, rfl, hQ⟩ := hreply
    refine ends_pure ?_
    show L.Ends _ (linked (match accept resp with
      | some a => pure a
      | none => throw (Error.Protocol .UnknownResponse))) d₂
    unfold taken at hQ
    cases hresp : accept resp with
    | none =>
      rw [hresp] at hQ
      exact ends_pure hQ
    | some a =>
      rw [hresp] at hQ
      exact ends_pure (ends_pure hQ)
  · refine ends_mono ?_ (ends_deliver_rejected (Bool.not_eq_true _ ▸ ha))
    intro r d₂ hr
    obtain ⟨⟨e, rfl⟩, rfl⟩ := hr
    exact hrejected (Bool.not_eq_true _ ▸ ha) e

/-! ### What the leader does with a request -/

/-- Of the answer to a write, only the response of the state machine matters. -/
theorem ends_write {R : Except RemoteError Response → StateMachineData → Prop} (req : RaftRequest)
    (h : ∀ log_id membership, R (.ok (.ClientWrite ⟨log_id, (apply_request d req).2, membership⟩))
      (apply_request d req).1) :
    L.Ends R (do
      let r ← Raft.client_write L.leader req
      return (r.map Response.ClientWrite).mapError RemoteError.RaftWrite) d := by
  refine ends_call fun s hs => ⟨(), s.tick, by simp [answer], ?_⟩
  have hd : s.tick.data = d := hs
  rw [hd]
  refine ends_call fun s' hs' => ⟨.ok ⟨L.log_id s'.clock, (apply_request d req).2,
    L.membership s'.clock⟩, ⟨(s'.sm.apply [⟨L.log_id s'.clock, .Normal req⟩]).2, s'.clock + 1⟩,
    ?_, ends_pure ?_⟩
  · subst hs'
    simp only [answer, if_true]
    rfl
  · subst hs'
    exact h _ _

theorem ends_ensure_consistency (c : ReadConsistency) :
    L.Ends (fun r d' => r = .ok () ∧ d' = d) (ensure_consistency L.leader c).run d := by
  have hlin : L.Ends (fun r d' => r = .ok () ∧ d' = d)
      (ExceptT.mk (Except.mapError RemoteError.RaftCheckIsLeader <$>
        Raft.ensure_linearizable L.leader) >>= fun _ => pure () : NodeResult RemoteError Unit).run d := by
    refine ends_call fun s hs => ⟨⟨s.clock⟩, s.tick, by simp [answer], ?_⟩
    refine ends_call fun s' hs' => ⟨.ok (L.read_log_id s'.clock), s'.tick, by simp [answer], ?_⟩
    exact ends_pure ⟨rfl, hs'.trans hs⟩
  cases c with
  | Stale => exact ends_pure ⟨rfl, rfl⟩
  | LeaderStale => exact ends_pure ⟨rfl, rfl⟩
  | LeaseRead => exact hlin
  | ReadIndex => exact hlin

theorem ends_consistent_read {γ : Type} {R : Except RemoteError Response → StateMachineData → Prop}
    {c : ReadConsistency} {read : NodeProg γ} {respond : γ → Response}
    (h : L.Ends (fun a d' => R (.ok (respond a)) d') read d) :
    L.Ends R (consistent_read L.leader c read respond) d := by
  refine ends_run_bind (ends_mono ?_ (ends_ensure_consistency c))
  intro r d₁ hr
  obtain ⟨rfl, rfl⟩ := hr
  refine ends_run_bind (x := liftM read) (ends_map (f := Except.ok) (ends_mono ?_ h))
  intro a d₂ ha
  exact ends_pure ha

theorem ends_should_read_stale :
    L.Ends (fun r d' => r = .ok (L.leader == i) ∧ d' = d)
      (linked (should_read_stale i .ReadIndex)) d := by
  refine ends_call fun s hs => ⟨some L.leader, s.tick, rfl, ?_⟩
  by_cases hi : L.leader = i
  · subst hi
    show L.Ends _ (linked (if !(L.leader == L.leader) then _ else _)) _
    rw [beq_self_eq_true]
    -- the leader has its leadership confirmed and reads on its own
    refine ends_call fun s' hs' => ⟨⟨s'.clock⟩, s'.tick, by simp [answer], ?_⟩
    refine ends_call fun s'' hs'' => ⟨.ok (L.read_log_id s''.clock), s''.tick, by simp [answer], ?_⟩
    exact ends_pure ⟨rfl, hs''.trans (hs'.trans hs)⟩
  · -- every other node knows that it is not the leader
    have hbeq : (L.leader == i) = false := beq_false_of_ne hi
    show L.Ends _ (linked (if !(L.leader == i) then _ else _)) _
    rw [hbeq]
    exact ends_pure ⟨rfl, hs⟩

/-- A method that reads: locally on the leader, remotely on every other node. -/
theorem ends_read_with {here : NodeResult Error β} {there : NodeResult Error β}
    (hhere : i = L.leader → L.Ends Q (linked here) d)
    (hthere : i ≠ L.leader → L.Ends Q (linked there) d) :
    L.Ends Q (linked (do if ← should_read_stale i .ReadIndex then here else there)) d := by
  refine ends_linked_bind (ends_mono ?_ ends_should_read_stale)
  intro r d₁ hr
  obtain ⟨rfl, rfl⟩ := hr
  by_cases hi : i = L.leader
  · show L.Ends _ (linked (if (L.leader == i) = true then here else there)) _
    rw [if_pos (by simp [hi])]
    exact hhere hi
  · show L.Ends _ (linked (if (L.leader == i) = true then here else there)) _
    rw [if_neg (by simpa using fun h => hi h.symm)]
    exact hthere hi

end paths

end StableLeader

end Distruct

import Distruct.Collections.Reference
import Distruct.Connection.MessageSize
import Distruct.Framework.Tasks

/-! # Serialization Errors

    `Error::Serialization` comes from both ends of an operation. Keys and values
    are encoded before anything is sent, and the old value is decoded after the
    operation has taken effect. An old value that was stored through a handle
    with another value type need not be decodable.

    The cluster is whatever its nodes are: every node has data of its own, any
    node may turn out to be the leader, requests are redirected, and
    transmissions fail. Nobody else uses the cluster meanwhile.
-/

namespace Distruct

open Postcard (Bytes)
open LTS (Alone alone_pure alone_call alone_bind alone_map alone_run_bind)

/-! ### The cluster -/

/-- The data of the state machine of each node. -/
abbrev Machines := NodeId → StateMachineData

namespace Machines

/-- A write has been applied by node `i`, and perhaps by others. -/
def Applied (i : NodeId) (req : RaftRequest) (s s' : Machines) : Prop :=
  s' i = (apply_request (s i) req).1 ∧ ∀ j, s' j = s j ∨ s' j = (apply_request (s j) req).1

/-- How the calls may be answered. -/
def call (s : Machines) : (o : Op) → o.Resp → Machines → Prop
  | .server_metrics i, r, s' => r.id = i ∧ s' = s
  -- a write that is acknowledged has been applied by the node that took it
  | .await_write i req, r, s' =>
      match r with
      | .error _ => s' = s
      | .ok resp => resp.data = (apply_request (s i) req).2 ∧ Applied i req s s'
  | .contains_key i map key, r, s' => r = (s i).contains_key map key ∧ s' = s
  | .get_with_lock i map key, r, s' => r = (s i).get_with_lock map key ∧ s' = s
  | .get_with_lock_multi i multi_map key, r, s' =>
      (match (s i).get_with_lock_multi multi_map key, r with
        | none, none => True
        | some set, some values => HashSet.Lists set values
        | _, _ => False) ∧ s' = s
  | .map_len i map, r, s' => r = (s i).map_len map ∧ s' = s
  | .remove i map key, r, s' =>
      r = ((s i).remove map key).1 ∧ s' = Function.update s i ((s i).remove map key).2
  | .remove_multi_value i multi_map key value, r, s' =>
      r = ((s i).remove_multi_value multi_map key value).1 ∧
        s' = Function.update s i ((s i).remove_multi_value multi_map key value).2
  | .transmit .., r, s' =>
      (∀ e, r = .error e →
        (∃ t, e = .Transport t) ∨ ∃ p, e = .Protocol (.DeserializeResponse p)) ∧ s' = s
  -- an exchange is carried out step by step
  | .exchange .., _, _ => False
  | _, _, s' => s' = s

end Machines

def machines : LTS.Shared Machines Empty Op Op.Resp where
  init := fun _ => True
  env := fun _ e _ => nomatch e
  call := Machines.call

section runs
variable {α β ε : Type} {s s' : Machines} {i : NodeId}

theorem alone_linked_bind {x : NodeResult ε α} {f : α → NodeResult ε β} {r : Except ε β} :
    Alone machines (linked (x >>= f)) s r s' ↔
      (∃ a t, Alone machines (linked x) s (.ok a) t ∧ Alone machines (linked (f a)) t r s') ∨
      (∃ e, Alone machines (linked x) s (.error e) s' ∧ r = .error e) := by
  rw [linked_bind]
  exact alone_run_bind

theorem alone_ask {o : Op} {r : o.Resp} :
    Alone machines (ask o) s r s' ↔ s.call o r s' := by
  rw [ask_eq, alone_call]
  constructor
  · intro h
    obtain ⟨r', t, hr, h⟩ := h
    obtain ⟨rfl, rfl⟩ := alone_pure.mp h
    exact hr
  · intro h
    exact ⟨r, s', h, alone_pure.mpr ⟨rfl, rfl⟩⟩

end runs

/-! ### The way to a node -/

/-- The errors of the way: no `Error::Serialization` is among them. -/
def Error.OfTheWay (e : Error) : Prop := ∀ p, e ≠ .Serialization p

section way
variable {s s' : Machines} {i j t : NodeId} {body : RequestBody}

theorem alone_client_to_leader {r : Except Error Client}
    (h : Alone machines (linked (client_to_leader i)) s r s') :
    s' = s ∧ (∀ c, r = .ok c → ∃ t, c.target_id = some t) ∧ ∀ e, r = .error e → e.OfTheWay := by
  unfold client_to_leader at h
  rcases alone_linked_bind.mp h with ⟨found, s₁, h₁, h₂⟩ | ⟨e, h₁, _⟩
  · rw [linked_lift_of_uses (p := ClusterRef.get_leader i) ⟨rfl, fun _ _ => trivial⟩] at h₁
    obtain ⟨_, hfound, heq⟩ := alone_map.mp h₁
    cases heq
    obtain ⟨metrics, _, hmetrics, hfound⟩ := alone_call.mp hfound
    obtain ⟨_, rfl⟩ := alone_pure.mp hfound
    cases hmetrics
    cases found with
    | none =>
      obtain ⟨rfl, rfl⟩ := alone_pure.mp h₂
      exact ⟨rfl, nofun, fun e he p hp => by cases he; cases hp⟩
    | some leader =>
      obtain ⟨conn, _, hconn, h₂⟩ := alone_call.mp h₂
      cases hconn
      cases conn with
      | error e =>
        obtain ⟨rfl, rfl⟩ := alone_pure.mp h₂
        exact ⟨rfl, nofun, fun e he p hp => by cases he; cases hp⟩
      | ok conn =>
        obtain ⟨rfl, rfl⟩ := alone_pure.mp h₂
        exact ⟨rfl, fun c hc => ⟨leader.1, by cases hc; rfl⟩, nofun⟩
  · rw [linked_lift_of_uses (p := ClusterRef.get_leader i) ⟨rfl, fun _ _ => trivial⟩] at h₁
    obtain ⟨_, _, heq⟩ := alone_map.mp h₁
    cases heq

/-- Metrics that show node `j` as the leader. -/
def showing_leader (i j : NodeId) : RaftMetrics where
  id := i
  state := .Follower
  current_leader := some j
  membership_config := ⟨none, ⟨[{j}], Finmap.singleton j Node.localhost⟩⟩

/-- Any node may turn out to be the leader. -/
theorem client_to_leader_alone (i j : NodeId) (s : Machines) :
    Alone machines (linked (client_to_leader i)) s (.ok ⟨i, ⟨j⟩, some j⟩) s := by
  unfold client_to_leader
  refine alone_linked_bind.mpr (.inl ⟨some (j, Node.localhost), s, ?_, ?_⟩)
  · rw [linked_lift_of_uses (p := ClusterRef.get_leader i) ⟨rfl, fun _ _ => trivial⟩]
    refine alone_map.mpr ⟨_, alone_call.mpr ⟨showing_leader i j, s, rfl, alone_pure.mpr ⟨?_, rfl⟩⟩, rfl⟩
    simp [showing_leader, Membership.get_node]
  · exact alone_call.mpr ⟨.ok ⟨j⟩, s, rfl, alone_pure.mpr ⟨rfl, rfl⟩⟩

/-- A node takes a request that is meant for it. -/
theorem alone_handle_message {reply : Except RemoteError Response}
    (h : Alone machines (handle_message j ⟨some t, body⟩) s reply s') :
    reply = .error (.InvalidNode t j) ∧ s' = s ∨
      t = j ∧ Alone machines (handle_body t body) s reply s' := by
  obtain ⟨metrics, _, ⟨hid, rfl⟩, h₁⟩ := alone_call.mp h
  simp only [Prog.bind] at h₁
  split at h₁
  · next hne =>
    obtain ⟨rfl, rfl⟩ := alone_pure.mp h₁
    rw [hid]
    exact .inl ⟨rfl, rfl⟩
  · next heq =>
    rw [hid, not_ne_iff] at heq
    subst heq
    exact .inr ⟨rfl, h₁⟩

theorem handle_message_alone {reply : Except RemoteError Response}
    (h : Alone machines (handle_body t body) s reply s') :
    Alone machines (handle_message t ⟨some t, body⟩) s reply s' := by
  refine alone_call.mpr ⟨⟨t, .Leader⟩, s, ⟨rfl, rfl⟩, ?_⟩
  simp only [Prog.bind, ne_eq, not_true_eq_false, if_false]
  exact h

theorem transmit_error {conn : Connection} {e : Error} {s₁ : Machines}
    (h : Alone machines (ask (.transmit i conn)) s (.error e) s₁) : e.OfTheWay := by
  obtain ⟨herror, _⟩ := alone_ask.mp h
  intro p hp
  rcases herror e rfl with ⟨t, rfl⟩ | ⟨q, rfl⟩ <;> cases hp

/-- An exchange fails, or gets the reply of the node at the other end. -/
theorem alone_deliver {conn : Connection} {r : Except Error (Except RemoteError Response)}
    (h : Alone machines (deliver i conn ⟨some t, body⟩) s r s') :
    (∃ e, r = .error e ∧ e.OfTheWay) ∨
    ∃ reply, r = .ok reply ∧ accepts ⟨some t, body⟩ = true ∧
      Alone machines (handle_message conn.peer ⟨some t, body⟩) s reply s' := by
  unfold deliver at h
  rcases alone_run_bind.mp h with ⟨_, s₁, hsent, h₁⟩ | ⟨e, hsent, rfl⟩
  · obtain ⟨_, rfl⟩ := alone_ask.mp hsent
    rcases alone_run_bind.mp h₁ with ⟨handled, s₂, hlift, h₂⟩ | ⟨_, hlift, _⟩
    · obtain ⟨_, hhandled, heq⟩ := alone_map.mp hlift
      cases heq
      unfold handle_request at hhandled
      split at hhandled
      · next ha =>
        obtain ⟨reply, hmessage, rfl⟩ := alone_map.mp hhandled
        rcases alone_run_bind.mp h₂ with ⟨_, s₃, hreceived, h₃⟩ | ⟨e, hreceived, rfl⟩
        · obtain ⟨_, rfl⟩ := alone_ask.mp hreceived
          obtain ⟨rfl, rfl⟩ := alone_pure.mp h₃
          exact .inr ⟨reply, rfl, ha, hmessage⟩
        · exact .inl ⟨e, rfl, transmit_error hreceived⟩
      · -- the stream is dropped
        obtain ⟨rfl, rfl⟩ := alone_pure.mp hhandled
        obtain ⟨rfl, _⟩ := alone_pure.mp h₂
        exact .inl ⟨_, rfl, fun p hp => by cases hp⟩
    · obtain ⟨_, _, heq⟩ := alone_map.mp hlift
      cases heq
  · exact .inl ⟨e, rfl, transmit_error hsent⟩

theorem deliver_alone {reply : Except RemoteError Response} (ha : accepts ⟨some t, body⟩ = true)
    (h : Alone machines (handle_body t body) s reply s') :
    Alone machines (deliver i ⟨t⟩ ⟨some t, body⟩) s (.ok reply) s' := by
  have hsent : ∀ s, Alone machines (ask (.transmit i ⟨t⟩)) s (.ok ()) s :=
    fun s => alone_ask.mpr ⟨nofun, rfl⟩
  unfold deliver
  refine alone_run_bind.mpr (.inl ⟨(), s, hsent s, ?_⟩)
  refine alone_run_bind.mpr (.inl ⟨some reply, s', ?_, ?_⟩)
  · refine alone_map.mpr ⟨some reply, ?_, rfl⟩
    rw [handle_request, if_pos ha]
    exact alone_map.mpr ⟨reply, handle_message_alone h, rfl⟩
  · exact alone_run_bind.mpr (.inl ⟨(), s', hsent s', alone_pure.mpr ⟨rfl, rfl⟩⟩)

/-- A request that a node refuses has no effect there. -/
def RefusedWithoutEffect (body : RequestBody) : Prop :=
  ∀ j e s s', Alone machines (handle_body j body) s (.error e) s' → s' = s

/-- After an error reply the client gives up, or goes on with another node. -/
theorem alone_redirected {fuel : Nat} {e : RemoteError} {r : Except Error Response}
    (h : Alone machines (linked (match Client.redirect e with
      | some (leader_id, leader) => do
        let conn ← ExceptT.mk (Except.mapError Error.Transport <$> ask (.connect i leader))
        Client.request_loop i fuel conn ⟨some leader_id, body⟩
      | none => throw (.Remote e))) s r s') :
    (∃ e, r = .error e ∧ e.OfTheWay) ∨
    ∃ conn t, Alone machines (linked (Client.request_loop i fuel conn ⟨some t, body⟩)) s r s' := by
  split at h
  · next leader_id leader _ =>
    rcases alone_linked_bind.mp h with ⟨conn, s₁, hconn, h₁⟩ | ⟨e, hconn, rfl⟩
    · obtain ⟨_, _, rfl, hpure⟩ := alone_call.mp hconn
      obtain ⟨_, rfl⟩ := alone_pure.mp hpure
      exact .inr ⟨conn, leader_id, h₁⟩
    · obtain ⟨answer, _, rfl, hpure⟩ := alone_call.mp hconn
      obtain ⟨heq, _⟩ := alone_pure.mp hpure
      cases answer with
      | error t =>
        cases heq
        exact .inl ⟨_, rfl, fun p hp => by cases hp⟩
      | ok conn => cases heq
  · obtain ⟨rfl, _⟩ := alone_pure.mp h
    exact .inl ⟨_, rfl, fun p hp => by cases hp⟩

/-- However often a request is redirected, it ends with an error of the way or
    with the response of the one node that carried it out. -/
theorem alone_request_loop (hbody : RefusedWithoutEffect body) {fuel : Nat} {conn : Connection}
    {r : Except Error Response}
    (h : Alone machines (linked (Client.request_loop i fuel conn ⟨some t, body⟩)) s r s') :
    (∃ e, r = .error e ∧ e.OfTheWay) ∨
    ∃ j resp, r = .ok resp ∧ accepts ⟨some j, body⟩ = true ∧
      Alone machines (handle_body j body) s (.ok resp) s' := by
  induction fuel generalizing conn t s with
  | zero =>
    obtain ⟨never, _⟩ := alone_call.mp h
    cases never
  | succ fuel ih =>
    have hexchange : linked (ExceptT.mk (ask (.exchange i conn ⟨some t, body⟩)))
        = deliver i conn ⟨some t, body⟩ := Prog.interp_perform link _
    rcases alone_linked_bind.mp h with ⟨reply, s₁, h₁, h₂⟩ | ⟨e, h₁, rfl⟩
    · rw [hexchange] at h₁
      rcases alone_deliver h₁ with ⟨_, heq, _⟩ | ⟨_, heq, ha, hmessage⟩
      · cases heq
      · cases heq
        cases reply with
        | ok resp =>
          obtain ⟨rfl, rfl⟩ := alone_pure.mp h₂
          rcases alone_handle_message hmessage with ⟨heq, _⟩ | ⟨_, hhandled⟩
          · cases heq
          · exact .inr ⟨t, resp, rfl, ha, hhandled⟩
        | error e =>
          have hsame : s₁ = s := by
            rcases alone_handle_message hmessage with ⟨_, hs⟩ | ⟨_, hhandled⟩
            · exact hs
            · exact hbody t e s s₁ hhandled
          subst hsame
          rcases alone_redirected h₂ with hway | ⟨conn', t', hrest⟩
          · exact .inl hway
          · exact ih hrest
    · rw [hexchange] at h₁
      rcases alone_deliver h₁ with ⟨_, heq, he⟩ | ⟨_, heq, _⟩
      · cases heq
        exact .inl ⟨e, rfl, he⟩
      · cases heq

section methods
variable {α β : Type} {accept : Response → Option α} {g : α → Except Error β}

/-- What a method of the client returns comes from one node. -/
theorem alone_client_call (hbody : RefusedWithoutEffect body) {fuel : Nat} {c : Client}
    (hc : c.target_id = some t) {r : Except Error α}
    (h : Alone machines (linked (c.call fuel body accept)) s r s') :
    (∃ e, r = .error e ∧ e.OfTheWay) ∨
    ∃ j resp a, r = .ok a ∧ accepts ⟨some j, body⟩ = true ∧
      Alone machines (handle_body j body) s (.ok resp) s' ∧ accept resp = some a := by
  rcases alone_linked_bind.mp h with ⟨resp, s₁, h₁, h₂⟩ | ⟨e, h₁, rfl⟩
  · rw [Client.request, hc] at h₁
    rcases alone_request_loop hbody h₁ with ⟨_, heq, _⟩ | ⟨j, _, heq, ha, hhandled⟩
    · cases heq
    · cases heq
      split at h₂
      · next a haccept =>
        obtain ⟨rfl, rfl⟩ := alone_pure.mp h₂
        exact .inr ⟨j, resp, a, rfl, ha, hhandled, haccept⟩
      · obtain ⟨rfl, _⟩ := alone_pure.mp h₂
        exact .inl ⟨_, rfl, fun p hp => by cases hp⟩
  · rw [Client.request, hc] at h₁
    rcases alone_request_loop hbody h₁ with ⟨_, heq, he⟩ | ⟨_, _, heq, _⟩
    · cases heq
      exact .inl ⟨e, rfl, he⟩
    · cases heq

/-- Every node that takes the request can be the one. -/
theorem client_call_alone (fuel : Nat) {resp : Response} {a : α}
    (ha : accepts ⟨some j, body⟩ = true)
    (hhandled : Alone machines (handle_body j body) s (.ok resp) s') (haccept : accept resp = some a) :
    Alone machines (linked (Client.call (fuel + 1) ⟨i, ⟨j⟩, some j⟩ body accept)) s (.ok a) s' := by
  have hexchange : linked (ExceptT.mk (ask (.exchange i ⟨j⟩ ⟨some j, body⟩)))
      = deliver i ⟨j⟩ ⟨some j, body⟩ := Prog.interp_perform link _
  refine alone_linked_bind.mpr (.inl ⟨resp, s', ?_, ?_⟩)
  · refine alone_linked_bind.mpr (.inl ⟨.ok resp, s', ?_, alone_pure.mpr ⟨rfl, rfl⟩⟩)
    have hdeliver := deliver_alone (i := i) ha hhandled
    rw [← hexchange] at hdeliver
    exact hdeliver
  · rw [haccept]
    exact alone_pure.mpr ⟨rfl, rfl⟩

/-- A method that asks the leader and computes its result by `g`. -/
theorem method_alone (fuel : Nat) {resp : Response} {a : α} {r : Except Error β}
    (ha : accepts ⟨some j, body⟩ = true)
    (hhandled : Alone machines (handle_body j body) s (.ok resp) s')
    (haccept : accept resp = some a) (hg : r = g a) :
    Alone machines (linked (do
      let client ← client_to_leader i
      let a ← client.call (fuel + 1) body accept
      ExceptT.mk (pure (g a)))) s r s' := by
  refine alone_linked_bind.mpr (.inl ⟨_, s, client_to_leader_alone i j s, ?_⟩)
  refine alone_linked_bind.mpr (.inl ⟨a, s', client_call_alone fuel ha hhandled haccept, ?_⟩)
  exact alone_pure.mpr ⟨hg, rfl⟩

/-- If the result is a serialization error, the answer of some node could not be
    decoded. -/
theorem alone_serialization_error (hbody : RefusedWithoutEffect body) {fuel : Nat}
    {p : Postcard.Error}
    (h : Alone machines (linked (do
      let client ← client_to_leader i
      let a ← client.call fuel body accept
      ExceptT.mk (pure (g a)))) s (.error (.Serialization p)) s') :
    ∃ j resp a, accepts ⟨some j, body⟩ = true ∧
      Alone machines (handle_body j body) s (.ok resp) s' ∧ accept resp = some a ∧
      g a = .error (.Serialization p) := by
  rcases alone_linked_bind.mp h with ⟨c, s₁, hclient, h₁⟩ | ⟨e, hclient, heq⟩
  · obtain ⟨rfl, htarget, _⟩ := alone_client_to_leader hclient
    obtain ⟨t, ht⟩ := htarget c rfl
    rcases alone_linked_bind.mp h₁ with ⟨a, s₂, hcall, h₂⟩ | ⟨e, hcall, heq⟩
    · obtain ⟨hg, rfl⟩ := alone_pure.mp h₂
      rcases alone_client_call hbody ht hcall with ⟨_, heq, _⟩ | ⟨j, resp, _, heq, ha, hresp⟩
      · cases heq
      · cases heq
        exact ⟨j, resp, a, ha, hresp.1, hresp.2, hg.symm⟩
    · -- the call itself does not fail in this way
      cases heq
      rcases alone_client_call hbody ht hcall with ⟨_, heq, he⟩ | ⟨_, _, _, heq, _⟩
      · cases heq
        exact absurd rfl (he p)
      · cases heq
  · cases heq
    exact absurd rfl ((alone_client_to_leader hclient).2.2 _ rfl p)

end methods

end way

/-! ### Insertions and removals on a node -/

section handled
variable {s s' : Machines} {j : NodeId} {map : String} {key value : Bytes}

/-- The bytes that a node stores under a key. -/
def Machines.stored (s : Machines) (map : String) (key : Bytes) (j : NodeId) : Option Bytes :=
  (s j).get_with_lock map key

theorem stored_insert (d : StateMachineData) (map : String) (key value : Bytes) :
    ((apply_request d (.Insert map key value)).1.get_with_lock map key) = some value := by
  have hset : StateMachineData.SetsMap map ((d.map map).insert key value) d
      (apply_request d (.Insert map key value)).1 := d.setsMap_insert map _
  rw [StateMachineData.get_with_lock_eq, hset.map map, if_pos rfl, Finmap.lookup_insert]

theorem stored_remove (d : StateMachineData) (map : String) (key : Bytes) :
    ((d.remove map key).2.get_with_lock map key) = none := by
  rw [StateMachineData.get_with_lock_eq, (d.setsMap_remove map key).map map, if_pos rfl,
    Finmap.lookup_erase]

theorem insert_refused : RefusedWithoutEffect (.Insert map key value) := by
  intro j e s s' h
  obtain ⟨_, _, rfl, h₁⟩ := alone_call.mp h
  obtain ⟨r, s₁, hr, h₂⟩ := alone_call.mp h₁
  obtain ⟨heq, rfl⟩ := alone_pure.mp h₂
  cases r with
  | error e => exact hr
  | ok resp => cases heq

theorem remove_refused : RefusedWithoutEffect (.Remove map key) := by
  intro j e s s' h
  obtain ⟨_, _, _, h₁⟩ := alone_call.mp h
  obtain ⟨heq, _⟩ := alone_pure.mp h₁
  cases heq

theorem alone_handle_insert {resp : Response} :
    Alone machines (handle_body j (.Insert map key value)) s (.ok resp) s' ↔
      Machines.Applied j (.Insert map key value) s s' ∧
      ∃ log_id membership, resp = .ClientWrite ⟨log_id, .Insert (s.stored map key j), membership⟩ := by
  have hold : (apply_request (s j) (.Insert map key value)).2 = .Insert (s.stored map key j) := by
    rw [Machines.stored, StateMachineData.get_with_lock_eq]
    rfl
  constructor
  · intro h
    obtain ⟨_, _, rfl, h₁⟩ := alone_call.mp h
    obtain ⟨r, s₁, hr, h₂⟩ := alone_call.mp h₁
    obtain ⟨heq, rfl⟩ := alone_pure.mp h₂
    cases r with
    | error e => cases heq
    | ok w =>
      obtain ⟨hdata, happlied⟩ := hr
      obtain ⟨log_id, data, membership⟩ := w
      cases heq
      refine ⟨happlied, log_id, membership, ?_⟩
      rw [← hold, ← hdata]
  · intro h
    obtain ⟨happlied, log_id, membership, rfl⟩ := h
    refine alone_call.mpr ⟨(), s, rfl, ?_⟩
    refine alone_call.mpr ⟨.ok ⟨log_id, .Insert (s.stored map key j), membership⟩, s',
      ⟨hold.symm, happlied⟩, alone_pure.mpr ⟨rfl, rfl⟩⟩

/-- Every node applies the insertion. -/
theorem handle_insert_alone (j : NodeId) :
    Alone machines (handle_body j (.Insert map key value)) s
      (.ok (.ClientWrite ⟨⟨⟨0, 0⟩, 0⟩, .Insert (s.stored map key j), none⟩))
      (fun i => (apply_request (s i) (.Insert map key value)).1) :=
  alone_handle_insert.mpr ⟨⟨rfl, fun _ => .inr rfl⟩, ⟨⟨0, 0⟩, 0⟩, none, rfl⟩

theorem alone_handle_remove {resp : Response} :
    Alone machines (handle_body j (.Remove map key)) s (.ok resp) s' ↔
      s' = Function.update s j ((s j).remove map key).2 ∧ resp = .Remove (s.stored map key j) := by
  have hold : ((s j).remove map key).1 = s.stored map key j := by
    rw [Machines.stored, StateMachineData.get_with_lock_eq, StateMachineData.remove_fst]
  constructor
  · intro h
    obtain ⟨r, s₁, ⟨hr, rfl⟩, h₁⟩ := alone_call.mp h
    obtain ⟨heq, rfl⟩ := alone_pure.mp h₁
    cases heq
    refine ⟨rfl, ?_⟩
    rw [hr, hold]
  · intro h
    obtain ⟨rfl, rfl⟩ := h
    exact alone_call.mpr ⟨_, _, ⟨hold.symm, rfl⟩, alone_pure.mpr ⟨rfl, rfl⟩⟩

end handled

/-! ### The two methods -/

namespace DMap

variable {K V Q : Type} [Serialize K] [Serialize V] [Deserialize V] [Serialize Q]

/-- Whatever is stored can be decoded as a value of type `V`. -/
def Decodes (V : Type) [Deserialize V] (stored : Option Bytes) : Prop :=
  ∀ old, stored = some old → ∃ v : V, Deserialize.from_bytes old = .ok v

omit [Serialize V] in
theorem decode_value_error {stored : Option Bytes} :
    (∃ p, (decode_value stored : Except Error (Option V)) = .error (.Serialization p)) ↔
      ¬ Decodes V stored := by
  unfold Decodes decode_value from_bytes
  cases stored with
  | none => simp
  | some old =>
    cases hold : (Deserialize.from_bytes old : Except Postcard.Error V) with
    | error p => simp [hold, Except.map, Except.mapError]
    | ok v => simp [hold, Except.map, Except.mapError]

/-- An insertion, once key and value have been encoded. -/
theorem insert_eq {key : K} {value : V} {kb vb : Bytes} (hk : Serialize.to_allocvec key = .ok kb)
    (hv : Serialize.to_allocvec value = .ok vb) (fuel : Nat) (m : DMap K V) :
    m.insert fuel key value = (do
      let client ← client_to_leader m.cluster
      let old ← client.call fuel (.Insert m.name kb vb) fun
        | .ClientWrite { data := .Insert value, .. } => some value
        | _ => none
      ExceptT.mk (pure (decode_value old))) := by
  unfold insert to_allocvec
  rw [hk, hv]
  rfl

omit [Serialize K] [Serialize V] in
theorem remove_eq {key : Q} {kb : Bytes} (hk : Serialize.to_allocvec key = .ok kb) (fuel : Nat)
    (m : DMap K V) :
    m.remove fuel key = (do
      let client ← client_to_leader m.cluster
      let value ← client.call fuel (.Remove m.name kb) fun
        | .Remove response => some response
        | _ => none
      ExceptT.mk (pure (decode_value value))) := by
  unfold remove to_allocvec
  rw [hk]
  rfl

/-- A failed insertion leaves the bytes under the key alone on every node,
    whatever key and value are. -/
def InsertFailsClean (m : DMap K V) (fuel : Nat) (key : K) (value : V) (s : Machines) : Prop :=
  ∀ p s', Alone machines (linked (m.insert fuel key value)) s (.error (.Serialization p)) s' →
    ∀ kb, Serialize.to_allocvec key = .ok kb → s'.stored m.name kb = s.stored m.name kb

def RemoveFailsClean (m : DMap K V) (fuel : Nat) (key : Q) (s : Machines) : Prop :=
  ∀ p s', Alone machines (linked (m.remove fuel key)) s (.error (.Serialization p)) s' →
    ∀ kb, Serialize.to_allocvec key = .ok kb → s'.stored m.name kb = s.stored m.name kb

/-- A value that cannot be encoded is not sent. -/
theorem insert_unsent {m : DMap K V} {fuel : Nat} {key : K} {value : V} {kb : Bytes}
    {e : Postcard.Error} (hk : Serialize.to_allocvec key = .ok kb)
    (hv : Serialize.to_allocvec value = .error e) {r : Except Error (Option V)} {s s' : Machines}
    (h : Alone machines (linked (m.insert fuel key value)) s r s') : s' = s := by
  unfold insert to_allocvec at h
  rw [hk, hv] at h
  rcases alone_linked_bind.mp h with ⟨c, s₁, hclient, h₁⟩ | ⟨e, hclient, _⟩
  · obtain ⟨_, rfl⟩ := alone_pure.mp h₁
    exact (alone_client_to_leader hclient).1
  · exact (alone_client_to_leader hclient).1

/-- An insertion fails cleanly if the old values can be decoded, or if it
    changes nothing in any case. -/
theorem insert_fails_clean_iff (m : DMap K V) (fuel : Nat) (key : K) (value : V) (s : Machines) :
    m.InsertFailsClean (fuel + 1) key value s ↔
      ∀ kb vb, Serialize.to_allocvec key = .ok kb → Serialize.to_allocvec value = .ok vb →
        ∀ j, accepts ⟨some j, .Insert m.name kb vb⟩ = true →
          Decodes V (s.stored m.name kb j) ∨ ∀ i, s.stored m.name kb i = some vb := by
  constructor
  · intro hclean kb vb hk hv j ha
    by_cases hdecodes : Decodes V (s.stored m.name kb j)
    · exact .inl hdecodes
    · right
      obtain ⟨p, hp⟩ := decode_value_error.mpr hdecodes
      -- the insertion goes through node `j`, and every node applies it
      have hrun : Alone machines (linked (m.insert (fuel + 1) key value)) s
          (.error (.Serialization p))
          (fun i => (apply_request (s i) (.Insert m.name kb vb)).1) := by
        rw [insert_eq hk hv]
        exact method_alone fuel ha (handle_insert_alone j) rfl hp.symm
      intro i
      rw [← hclean p _ hrun kb hk]
      exact stored_insert (s i) m.name kb vb
  · intro hcond p s' hrun kb hk
    cases hv : Serialize.to_allocvec value with
    | error e => rw [insert_unsent hk hv hrun]
    | ok vb =>
      rw [insert_eq hk hv] at hrun
      obtain ⟨j, resp, old, ha, hhandled, haccept, hp⟩ :=
        alone_serialization_error insert_refused hrun
      obtain ⟨happlied, log_id, membership, rfl⟩ := alone_handle_insert.mp hhandled
      obtain rfl : s.stored m.name kb j = old := Option.some_inj.mp haccept
      rcases hcond kb vb hk hv j ha with hdecodes | hsame
      · exact absurd hdecodes (decode_value_error.mp ⟨p, hp⟩)
      · funext i
        rcases happlied.2 i with hi | hi
        · rw [Machines.stored, hi]
          rfl
        · rw [Machines.stored, hi, stored_insert, hsame i]

omit [Serialize K] [Serialize V] in
/-- A removal fails cleanly if there is nothing that it fails to return. -/
theorem remove_fails_clean_iff (m : DMap K V) (fuel : Nat) (key : Q) (s : Machines) :
    m.RemoveFailsClean (fuel + 1) key s ↔
      ∀ kb, Serialize.to_allocvec key = .ok kb →
        ∀ j, accepts ⟨some j, .Remove m.name kb⟩ = true → Decodes V (s.stored m.name kb j) := by
  constructor
  · intro hclean kb hk j ha
    by_contra hdecodes
    obtain ⟨p, hp⟩ := decode_value_error.mpr hdecodes
    have hrun : Alone machines (linked (m.remove (fuel + 1) key)) s (.error (.Serialization p))
        (Function.update s j ((s j).remove m.name kb).2) := by
      rw [remove_eq hk]
      exact method_alone fuel ha (alone_handle_remove.mpr ⟨rfl, rfl⟩) rfl hp.symm
    -- what could not be returned is gone
    have hgone := congrFun (hclean p _ hrun kb hk) j
    rw [Machines.stored, Function.update_self, stored_remove] at hgone
    exact hdecodes fun old hold => by rw [← hgone] at hold; cases hold
  · intro hcond p s' hrun kb hk
    rw [remove_eq hk] at hrun
    obtain ⟨j, resp, old, ha, hhandled, haccept, hp⟩ :=
      alone_serialization_error remove_refused hrun
    obtain ⟨_, rfl⟩ := alone_handle_remove.mp hhandled
    obtain rfl : s.stored m.name kb j = old := Option.some_inj.mp haccept
    exact absurd (hcond kb hk j ha) (decode_value_error.mp ⟨p, hp⟩)

/-- **Serialization errors may come after the effect.** From every state of the
    cluster, an insertion that returns a serialization error has left the bytes
    under the key alone exactly if every node that can take the request stores
    nothing there or what the handle's value type decodes, or all nodes store the
    new bytes already; a removal exactly if every node that can take the request
    stores nothing or what can be decoded. -/
theorem serialization_error_clean_iff (m : DMap K V) (fuel : Nat) (key : K) (value : V) (lookup : Q)
    (s : Machines) :
    (m.InsertFailsClean (fuel + 1) key value s ↔
      ∀ kb vb, Serialize.to_allocvec key = .ok kb → Serialize.to_allocvec value = .ok vb →
        ∀ j, accepts ⟨some j, .Insert m.name kb vb⟩ = true →
          Decodes V (s.stored m.name kb j) ∨ ∀ i, s.stored m.name kb i = some vb) ∧
    (m.RemoveFailsClean (fuel + 1) lookup s ↔
      ∀ kb, Serialize.to_allocvec lookup = .ok kb →
        ∀ j, accepts ⟨some j, .Remove m.name kb⟩ = true → Decodes V (s.stored m.name kb j)) :=
  ⟨m.insert_fails_clean_iff fuel key value s, m.remove_fails_clean_iff fuel lookup s⟩

/-! ### Two handles with different value types -/

/-- Every node after a handle with numbers as values has stored the number 5. -/
def number_stored : Machines :=
  fun _ => (apply_request ⟨∅, ∅⟩ (.Insert "m" [1] [5])).1

theorem stored_number : number_stored.stored "m" [1] 0 = some [5] :=
  stored_insert ⟨∅, ∅⟩ "m" [1] [5]

theorem number_accepted (value : UInt8) : accepts ⟨some 0, .Insert "m" [1] [value]⟩ = true :=
  (short_write_accepted (by decide) (by simp) (by simp)).1

/-- A handle with byte strings as values cannot decode the number. -/
theorem number_undecodable :
    (decode_value (number_stored.stored "m" [1] 0) : Except Error (Option Bytes))
      = .error (.Serialization .DeserializeUnexpectedEnd) := by
  rw [stored_number]
  rfl

/-- Through the handle with byte strings, an insertion overwrites the number and
    a removal removes it, and both report a serialization error. -/
theorem undecodable_value_lost :
    ∃ s s' s'' : Machines,
      Alone machines (linked ((⟨"m", 0⟩ : DMap UInt8 UInt8).insert 1 1 5)) (fun _ => ⟨∅, ∅⟩)
        (.ok none) s ∧
      Alone machines (linked ((⟨"m", 0⟩ : DMap UInt8 Bytes).insert 1 1 [])) s
        (.error (.Serialization .DeserializeUnexpectedEnd)) s' ∧
      s'.stored "m" [1] 0 ≠ s.stored "m" [1] 0 ∧
      Alone machines (linked ((⟨"m", 0⟩ : DMap UInt8 Bytes).remove 1 (1 : UInt8))) s
        (.error (.Serialization .DeserializeUnexpectedEnd)) s'' ∧
      s''.stored "m" [1] 0 ≠ s.stored "m" [1] 0 := by
  have hkey : Serialize.to_allocvec (1 : UInt8) = .ok [1] := rfl
  have hnumber : Serialize.to_allocvec (5 : UInt8) = .ok [5] := rfl
  have hempty : Serialize.to_allocvec ([] : Bytes) = .ok [0] := by
    show Except.ok (Postcard.varint 0 ++ []) = _
    rw [Postcard.varint, if_pos (by omega)]
    rfl
  refine ⟨number_stored, fun i => (apply_request (number_stored i) (.Insert "m" [1] [0])).1,
    Function.update number_stored 0 ((number_stored 0).remove "m" [1]).2, ?_, ?_, ?_, ?_, ?_⟩
  · rw [insert_eq hkey hnumber]
    exact method_alone 0 (number_accepted 5) (handle_insert_alone 0) rfl rfl
  · rw [insert_eq hkey hempty]
    exact method_alone 0 (number_accepted 0) (handle_insert_alone 0) rfl number_undecodable.symm
  · rw [stored_number, Machines.stored, stored_insert]
    decide
  · rw [remove_eq hkey]
    exact method_alone 0 (lookup_accepted (number_accepted 0) .Stale).2.2
      (alone_handle_remove.mpr ⟨rfl, rfl⟩) rfl number_undecodable.symm
  · rw [stored_number, Machines.stored, Function.update_self, stored_remove]
    simp

end DMap

end Distruct

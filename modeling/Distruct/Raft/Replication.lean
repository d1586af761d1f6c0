import Distruct.Raft.Log
import Distruct.Raft.Network

/-! # Replicating to a Follower

    Which RPC a leader has to send to a follower depends on how far its own log
    has been purged and on how far the follower is behind. `required_rpc` is
    that decision of openraft; the RPC it asks for is then sent over the
    network to the follower's `handle_message`.
-/

namespace Distruct

open Prog (AnyAnswer)

/-! ### The RPC that a follower needs -/

inductive Rpc where
  | AppendEntries (rpc : AppendEntriesRequest)
  | InstallSnapshot (rpc : InstallSnapshotRequest)

/-- What comes back from an RPC. -/
inductive RpcResult where
  | AppendEntries (r : Except (RPCError Empty) AppendEntriesResponse)
  | InstallSnapshot (r : Except (RPCError InstallSnapshotError) InstallSnapshotResponse)

/-- The index of the first entry that a follower lacks. -/
def next_needed (matching : Option Nat) : Nat := (matching.map (· + 1)).getD 0

/-- The entry at this index has been purged. -/
def LogStorage.purged {E : Type} (st : LogStorage E) (index : Nat) : Prop :=
  ∃ p, st.last_purged_log_id = some p ∧ index ≤ p.index

instance {E : Type} (st : LogStorage E) (index : Nat) : Decidable (st.purged index) :=
  match h : st.last_purged_log_id with
  | none => .isFalse (by simp [LogStorage.purged, h])
  | some p => decidable_of_iff (index ≤ p.index) (by simp [LogStorage.purged, h])

/-- The RPC for a follower whose last matching index is `matching`: the next
    entries if the log still has them, the snapshot if they have been purged,
    and nothing but the header if the follower has everything. -/
def required_rpc (st : LogStorage Entry) (matching : Option Nat) (max_entries : Nat) (vote : Vote)
    (prev_log_id : Option LogId) (snapshot : StoredSnapshot) : Rpc :=
  let next := next_needed matching
  if st.log.lookup next ≠ none ∨ ¬ st.purged next then
    .AppendEntries
      { vote := vote
        prev_log_id := prev_log_id
        entries := st.try_get_log_entries next (next + max_entries)
        leader_commit := st.committed }
  else
    .InstallSnapshot
      { vote := vote
        snapshot_meta := snapshot.snapshot_meta
        offset := 0
        data := snapshot.data
        done := true }

def Rpc.send (fuel : Nat) (net : Network) : Rpc → NodeProg RpcResult
  | .AppendEntries rpc => RpcResult.AppendEntries <$> linked (net.append_entries fuel rpc)
  | .InstallSnapshot rpc => RpcResult.InstallSnapshot <$> linked (net.install_snapshot rpc)

/-! ### Calls that return -/

/-- All calls but a panic and a loop that is cut off return. -/
def Op.returns : Op → Bool
  | .panic _ | .out_of_fuel => false
  | _ => true

/-- Whoever answers its calls, the program comes to an end. -/
def ComesBack {α : Type} (p : NodeProg α) : Prop :=
  ∀ {σ : Type} (h : (o : Op) → σ → Option (o.Resp × σ)) (s : σ),
    (∀ o s, o.returns = true → ∃ x, h o s = some x) → ∃ r s', p.run h s = some (r, s')

theorem comesBack_of_uses {α : Type} {p : NodeProg α}
    (hp : p.Uses AnyAnswer fun o => o.returns = true) : ComesBack p := by
  intro σ h s hh
  obtain ⟨x, hx⟩ := Prog.run_of_uses hh hp s
  exact ⟨x.1, x.2, hx⟩

/-! ### Appending entries -/

section append
variable {rpc : AppendEntriesRequest} {target_id : Option NodeId}

theorem uses_handle_append (j : NodeId) :
    (handle_message j ⟨target_id, .Append rpc⟩).Uses AnyAnswer fun o => o.returns = true := by
  cases target_id with
  | none => exact ⟨rfl, fun _ _ => trivial⟩
  | some target =>
    refine ⟨rfl, ?_⟩
    intro metrics _
    -- the reply to a request for another node needs no further call
    show Prog.Uses _ _ (if _ then _ else _)
    split
    · trivial
    · exact ⟨rfl, fun _ _ => trivial⟩

/-- The reply to an AppendEntries request never redirects the client. -/
theorem redirect_append {j : NodeId} {e : RemoteError}
    (h : (handle_message j ⟨target_id, .Append rpc⟩).Returns AnyAnswer (.error e)) :
    Client.redirect e = none := by
  rcases handle_message_reply h with ⟨target, actual, he⟩ | h
  · cases he
    rfl
  · obtain ⟨x, _, rfl⟩ := translated_error h
    rfl

theorem uses_deliver_append (i : NodeId) (conn : Connection) :
    (deliver i conn ⟨target_id, .Append rpc⟩).Uses AnyAnswer fun o => o.returns = true := by
  refine Prog.uses_run_bind ⟨rfl, fun _ _ => trivial⟩ fun _ _ => ?_
  refine Prog.uses_run_bind (Prog.uses_map ?_) ?_
  · unfold handle_request
    split
    · exact Prog.uses_map (uses_handle_append conn.peer)
    · trivial
  · intro reply _
    cases reply with
    | none => trivial
    | some reply => exact Prog.uses_run_bind ⟨rfl, fun _ _ => trivial⟩ fun _ _ => trivial

theorem redirect_deliver_append {i : NodeId} {conn : Connection} {e : RemoteError}
    (h : (deliver i conn ⟨target_id, .Append rpc⟩).Returns AnyAnswer (.ok (.error e))) :
    Client.redirect e = none := by
  rcases Prog.returns_run_bind.mp h with ⟨_, _, h⟩ | ⟨_, _, h⟩
  · rcases Prog.returns_run_bind.mp h with ⟨reply, hreply, h⟩ | ⟨_, _, h⟩
    · -- the reply that arrives is the one that the peer has sent
      obtain ⟨reply', hreply, h'⟩ := Prog.returns_run_lift.mp hreply
      cases h'
      cases reply with
      | none => cases h
      | some reply =>
        rcases Prog.returns_run_bind.mp h with ⟨_, _, h⟩ | ⟨_, _, h⟩
        · cases h
          unfold handle_request at hreply
          split at hreply
          · obtain ⟨x, hx, h⟩ := Prog.returns_map.mp hreply
            cases h
            exact redirect_append hx
          · cases hreply
        · cases h
    · cases h
  · cases h

/-- The calls of a client, with each exchange standing for what happens on the
    peer. -/
theorem uses_request_loop_append (i : NodeId) (fuel : Nat) (conn : Connection) :
    (Client.request_loop i (fuel + 1) conn ⟨target_id, .Append rpc⟩).run.Uses
      (fun o r => (link o).Returns AnyAnswer r)
      fun o => (link o).Uses AnyAnswer fun o => o.returns = true := by
  refine Prog.uses_run_bind ⟨uses_deliver_append i conn, fun _ _ => trivial⟩ ?_
  intro reply hreply
  cases reply with
  | ok resp => trivial
  | error e =>
    obtain ⟨r, hr, h⟩ := Prog.returns_call.mp hreply
    cases h
    -- without a redirection the loop ends here
    simp only [redirect_deliver_append hr]
    trivial

theorem uses_append_entries (fuel : Nat) (client : Client) :
    (client.append_entries (fuel + 1) rpc).run.Uses
      (fun o r => (link o).Returns AnyAnswer r)
      fun o => (link o).Uses AnyAnswer fun o => o.returns = true := by
  refine Prog.uses_run_bind (uses_request_loop_append client.owner fuel client.conn) ?_
  intro resp _
  split
  · trivial
  · trivial

end append

/-- A time limit adds nothing but looks at the clock. -/
theorem uses_timeout {A : (o : Op) → o.Resp → Prop} {P : Op → Prop} {α : Type} {i : NodeId}
    (hi : P (.elapsed i)) {p : NodeProg α} (hp : p.Uses A P) : (timeout i p).Uses A P := by
  induction p with
  | pure a => trivial
  | call o k ih =>
    refine ⟨hi, fun before _ => ?_⟩
    cases before with
    | true => trivial
    | false =>
      refine ⟨hp.1, fun r hr => ⟨hi, fun after _ => ?_⟩⟩
      cases after with
      | true => trivial
      | false => exact ih r (hp.2 r hr)

theorem uses_network_append (net : Network) (fuel : Nat) (rpc : AppendEntriesRequest) :
    (linked (net.append_entries (fuel + 1) rpc)).Uses AnyAnswer fun o => o.returns = true := by
  refine Prog.uses_interp link ?_
  -- outside of an exchange, linking changes nothing
  have hcall : ∀ o : Op, link o = ask o → o.returns = true →
      (link o).Uses AnyAnswer fun o => o.returns = true := by
    intro o ho hret
    rw [ho]
    exact ⟨hret, fun _ _ => trivial⟩
  refine Prog.uses_run_bind (Prog.uses_map ?_) fun client _ => ?_
  · exact Prog.uses_run_bind (Prog.uses_map ⟨hcall _ rfl rfl, fun _ _ => trivial⟩) fun _ _ => trivial
  · refine Prog.uses_run_bind (Prog.uses_map (uses_timeout (hcall _ rfl rfl)
      (uses_append_entries fuel client))) ?_
    intro result _
    match result with
    | none => exact Prog.uses_run_bind ⟨hcall _ rfl rfl, fun _ _ => trivial⟩ fun _ _ => trivial
    | some (.ok r) => exact Prog.uses_run_bind ⟨hcall _ rfl rfl, fun _ _ => trivial⟩ fun _ _ => trivial
    | some (.error e) => trivial

/-! ### Every follower position -/

/-- Surroundings in which everything is answered and nothing works. -/
def answering : (o : Op) → Unit → Option (o.Resp × Unit)
  | .server_metrics i, _ => some (⟨i, .Follower⟩, ())
  | .metrics i, _ => some (⟨i, .Follower, none, default⟩, ())
  | .current_leader _, _ => some (none, ())
  | .add_learner .., _ | .change_membership .., _ | .await_write .., _ =>
    some (.error (.Fatal .Stopped), ())
  | .append_entries .., _ => some (.error (.Fatal .Stopped), ())
  | .vote .., _ => some (.error (.Fatal .Stopped), ())
  | .submit_write .., _ => some ((), ())
  | .begin_read _, _ => some (⟨0⟩, ())
  | .await_read .., _ => some (.error (.Fatal .Stopped), ())
  | .contains_key .., _ => some (false, ())
  | .get_with_lock .., _ => some (none, ())
  | .get_with_lock_multi .., _ => some (none, ())
  | .remove .., _ => some (none, ())
  | .remove_multi_value .., _ => some (none, ())
  | .map_len .., _ => some (none, ())
  | .connect .., _ => some (.error (.Connect "timed out"), ())
  | .force_remove .., _ | .on_heartbeat .., _ => some ((), ())
  | .elapsed _, _ => some (false, ())
  | .shutdown _, _ | .broadcast_shutdown _, _ => some (.error "stopped", ())
  | .exchange .., _ => some (.error (.Transport (.Read "connection lost")), ())
  | .transmit .., _ => some (.error (.Transport (.Write "connection lost")), ())
  | .panic _, _ => none
  | .out_of_fuel, _ => none

theorem answering_returns (o : Op) (s : Unit) (h : o.returns = true) :
    ∃ x, answering o s = some x := by
  cases o with
  | panic reason => cases h
  | out_of_fuel => cases h
  | _ => exact ⟨_, rfl⟩

/-- A snapshot is never sent: the call panics. -/
theorem not_comesBack_install_snapshot (fuel : Nat) (net : Network) (rpc : InstallSnapshotRequest) :
    ¬ ComesBack ((Rpc.InstallSnapshot rpc).send fuel net) := by
  intro h
  -- everything is answered but the panic
  obtain ⟨r, s, hrun⟩ := h answering () answering_returns
  cases hrun

/-- In a log that came about by openraft's calls, a purged entry is gone: the
    snapshot is needed. -/
theorem required_rpc_purged {st : LogStorage Entry} (hst : (log_storage Entry).Reachable st)
    (matching : Option Nat) (hp : st.purged (next_needed matching)) (max_entries : Nat)
    (vote : Vote) (prev_log_id : Option LogId) (snapshot : StoredSnapshot) :
    ∃ rpc, required_rpc st matching max_entries vote prev_log_id snapshot = .InstallSnapshot rpc := by
  have hgone : st.log.lookup (next_needed matching) = none := by
    obtain ⟨p, hpurged, hle⟩ := hp
    rw [Finmap.lookup_eq_none]
    intro hmem
    have := (LogStorage.Inv.of_reachable hst).above _ hmem p hpurged
    omega
  simp [required_rpc, hgone, hp]

/-- **Which followers can be replicated to**: the RPC that a leader has to send
    to a follower comes back, as an answer or as an error, exactly when the
    entry that the follower needs next has not been purged from the log. -/
theorem rpc_comes_back_iff {st : LogStorage Entry} (hst : (log_storage Entry).Reachable st)
    (matching : Option Nat) (max_entries : Nat) (vote : Vote) (prev_log_id : Option LogId)
    (snapshot : StoredSnapshot) (net : Network) (fuel : Nat) :
    ComesBack ((required_rpc st matching max_entries vote prev_log_id snapshot).send (fuel + 1) net) ↔
      ¬ st.purged (next_needed matching) := by
  by_cases hp : st.purged (next_needed matching)
  · obtain ⟨rpc, hrpc⟩ := required_rpc_purged hst matching hp max_entries vote prev_log_id snapshot
    rw [hrpc]
    exact iff_of_false (not_comesBack_install_snapshot _ _ _) (not_not_intro hp)
  · simp only [required_rpc, hp, not_false_eq_true, or_true, if_true, iff_true]
    exact comesBack_of_uses (Prog.uses_map (uses_network_append net fuel _))

/-- A log of two entries. -/
def two_entries : List Entry := [⟨⟨⟨1, 0⟩, 0⟩, .Blank⟩, ⟨⟨⟨1, 0⟩, 1⟩, .Normal (.Clear "m")⟩]

theorem two_entries_reachable :
    (log_storage Entry).Reachable ((default : LogStorage Entry).append two_entries) := by
  refine .step (.append two_entries) (.init rfl) ⟨?_, rfl⟩
  have hnext : (default : LogStorage Entry).next_index = 0 := by
    simp [LogStorage.next_index, LogStorage.get_log_state, default, BTreeMap.next_back]
  intro k e he
  rw [hnext]
  rcases k with _ | _ | k
  · cases he
    rfl
  · cases he
    rfl
  · cases he

/-- Nothing has been purged yet: a node that joins gets all entries. -/
theorem rpc_comes_back_two_entries :
    (log_storage Entry).Reachable ((default : LogStorage Entry).append two_entries) ∧
      ComesBack ((required_rpc ((default : LogStorage Entry).append two_entries) none 300
        ⟨⟨1, 0⟩, true⟩ none ⟨⟨none, default, ""⟩, []⟩).send 1
        ⟨0, 1, .localhost⟩) :=
  ⟨two_entries_reachable, (rpc_comes_back_iff two_entries_reachable none 300 ⟨⟨1, 0⟩, true⟩ none
    ⟨⟨none, default, ""⟩, []⟩ ⟨0, 1, .localhost⟩ 0).mpr (by decide)⟩

/-- The first entry is then purged: the RPC for a node that joins panics. -/
theorem rpc_panics_after_purge :
    ∃ st, (log_storage Entry).Reachable st ∧
      ¬ ComesBack ((required_rpc st none 300 ⟨⟨1, 0⟩, true⟩ none ⟨⟨none, default, ""⟩, []⟩).send 1
        ⟨0, 1, .localhost⟩) := by
  have hst : (log_storage Entry).Reachable
      (((default : LogStorage Entry).append two_entries).purge ⟨⟨1, 0⟩, 0⟩) := by
    refine .step (.purge ⟨⟨1, 0⟩, 0⟩) two_entries_reachable ⟨?_, rfl⟩
    intro p hp
    cases hp
  obtain ⟨rpc, hrpc⟩ := required_rpc_purged hst none ⟨_, rfl, Nat.le_refl 0⟩ 300
    ⟨⟨1, 0⟩, true⟩ none ⟨⟨none, default, ""⟩, []⟩
  refine ⟨_, hst, ?_⟩
  rw [hrpc]
  exact not_comesBack_install_snapshot _ _ _

end Distruct

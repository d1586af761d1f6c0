import Distruct.Cluster.Replicas
import Distruct.Collections.DMap

/-! # The Path of a Read

    A read with consistency `LeaseRead` or `ReadIndex` first has Raft confirm
    that the node has caught up with everything that was committed when the
    read began. From then on the node only moves forward along the log, so
    whatever else happens until the state machine is read, the value comes from
    a prefix of the log that is long enough.

    `Seen` says this of a value. The rules below carry it along the local path
    and along the remote path: through `handle_message`, over the connection,
    through `Client::request` and the method of the client that was called.
-/

namespace Distruct

open LTS (Rely)
open Postcard (Bytes)

namespace World

variable {w w' : World}

/-- Raft installs a snapshot only on a node that is behind it. -/
def forward (w : World) : RaftMove → Prop
  | .install_snapshot i snap =>
      w.applied i ≤ (snap.snapshot_meta.last_log_id.map fun id => id.index + 1).getD 0
  | _ => True

/-- The log grows, and every node moves forward along it. -/
structure Advances (w w' : World) : Prop where
  log : w.log <+: w'.log
  applied : ∀ i, w.applied i ≤ w'.applied i

theorem Advances.refl (w : World) : Advances w w := ⟨List.prefix_refl _, fun _ => Nat.le_refl _⟩

theorem Advances.trans {a b c : World} (h : Advances a b) (h' : Advances b c) : Advances a c :=
  ⟨h.log.trans h'.log, fun i => Nat.le_trans (h.applied i) (h'.applied i)⟩

theorem Advances.set_sm {i : NodeId} {sm : StateMachine}
    (h : w.applied i ≤ sm.state_machine.applied) : Advances w (w.set_sm i sm) := by
  refine ⟨List.prefix_refl _, ?_⟩
  intro j
  rw [World.applied, World.applied, set_sm_sm]
  split
  · next hj => exact hj ▸ h
  · exact Nat.le_refl _

/-- Every move of Raft goes forward. -/
theorem Inv.advances_move (h : w.Inv) {m : RaftMove} (hok : w.forward m) (hm : w.move m w') :
    Advances w w' := by
  match m with
  | .commit e =>
    obtain ⟨_, _, rfl⟩ := hm
    exact ⟨List.prefix_append _ _, fun _ => Nat.le_refl _⟩
  | .apply i n =>
    cases hm
    -- the batch adds its length to what the node has applied
    have hadv : Advances w (w.set_sm i ((w.node i).sm.apply ((w.backlog i).take n)).2) := by
      refine .set_sm ?_
      rw [h.apply_batch, applied_replay h.indexed (h.batch_le i n)]
      exact Nat.le_add_right _ _
    exact ⟨hadv.log, hadv.applied⟩
  | .build_snapshot i ord =>
    obtain ⟨snap, sm, hbuild, rfl⟩ := hm
    obtain ⟨snap', sm', hspec, _, hkeep⟩ := StateMachine.build_snapshot_spec ord (w.node i).sm
    rw [hbuild] at hspec
    cases hspec
    have hadv : Advances w (w.set_sm i sm) := .set_sm (by rw [hkeep]; exact Nat.le_refl _)
    exact ⟨hadv.log, hadv.applied⟩
  | .install_snapshot i snap =>
    obtain ⟨hmem, rfl⟩ := hm
    obtain ⟨n, hn, hcap⟩ := h.snapshot snap hmem
    obtain ⟨installed, hinstall, hstate⟩ := StateMachine.install_snapshot_spec hcap (w.node i).sm
    rw [hinstall]
    refine .set_sm ?_
    -- the snapshot is not behind the node: `forward` is the only use of this condition
    rw [hstate, StateMachineInner.applied, ← hcap.last_log_id]
    exact hok
  | .observe i m =>
    cases hm
    refine ⟨List.prefix_refl _, ?_⟩
    intro j
    rw [World.applied, World.applied, set_metrics_sm]

/-- Runs in which no removal finds anything, with the progress of the nodes. -/
def progress : Rely (world.restrict World.forward World.misses) where
  inv := World.Inv
  rel := Advances
  can := fun _ _ => True
  refl := Advances.refl
  trans := Advances.trans
  init_inv := Inv.of_init
  env_ok := fun h hm => ⟨h.move hm.2, h.advances_move hm.1 hm.2⟩

theorem progress_kept : progress.Kept where
  can := fun _ _ => trivial
  kept := by
    intro w o r w' h hc
    have hf := frame_of_call hc.1 hc.2
    refine ⟨h.frame hf, ?_, ?_⟩
    · rw [hf.log]
    · intro i
      rw [World.applied, World.applied, hf.node]

end World

/-! ### A read after its confirmation -/

open World (progress progress_kept Advances)

section reads
variable {α : Type} {s₀ s s' : World} {i : NodeId} {P : StateMachineData → α → Prop}

/-- `P` relates the value to a prefix of the log that holds everything that was
    committed in `s₀`. -/
def Seen (s₀ : World) (P : StateMachineData → α → Prop) (a : α) (s : World) : Prop :=
  ∃ n, s₀.log.length ≤ n ∧ n ≤ s.log.length ∧ P (replay s.log n).data a

theorem Seen.imp {P' : StateMachineData → α → Prop} (hp : ∀ d a, P d a → P' d a) {a : α}
    (hs : Seen s₀ P a s) : Seen s₀ P' a s := by
  obtain ⟨n, hlo, hhi, h⟩ := hs
  exact ⟨n, hlo, hhi, hp _ _ h⟩

theorem replay_of_advances (h : Advances s s') {n : Nat} (hn : n ≤ s.log.length) :
    replay s'.log n = replay s.log n := by
  obtain ⟨more, hmore⟩ := h.log
  rw [replay, ← hmore]
  exact Replay.upTo_append _ hn

/-- What was seen stays in the log. -/
theorem Seen.mono (h : Advances s s') {a : α} (hs : Seen s₀ P a s) : Seen s₀ P a s' := by
  obtain ⟨n, hlo, hhi, hp⟩ := hs
  refine ⟨n, hlo, Nat.le_trans hhi h.log.length_le, ?_⟩
  rw [replay_of_advances h hhi]
  exact hp

/-- `read i` looks at the data of node `i` once, and `P` is what it finds. -/
def Looks (read : NodeId → NodeProg α) (P : StateMachineData → α → Prop) : Prop :=
  ∀ i Q s, (∀ s', s'.Inv → Advances s s' → ∀ a, P (s'.data i) a → progress.wp Q (.pure a) s') →
    progress.wp Q (read i) s

/-- A node that has caught up shows a prefix that is long enough. -/
theorem wp_look {read : NodeId → NodeProg α} (hlook : Looks read P)
    (h : s₀.log.length ≤ s.applied i) : progress.wp (Seen s₀ P) (read i) s := by
  refine hlook i _ s ?_
  intro s₁ hi hr a ha
  refine Rely.wp_pure fun s₂ _ hr₂ => Seen.mono hr₂ ?_
  -- the node shows the prefix that it has applied by now
  exact ⟨s₁.applied i, Nat.le_trans h (hr.applied i), (hi.replica i).1, hi.data_eq i ▸ ha⟩

/-- Raft confirms a read only on a node that has caught up. -/
theorem wp_ensure_linearizable (h : s₀.log.length ≤ s.log.length) :
    progress.wp (Rely.ifOk fun _ s' => s₀.log.length ≤ s'.applied i)
      (Raft.ensure_linearizable i) s := by
  refine Rely.wp_call_kept progress_kept ?_
  intro s₁ _ hr₁ ticket s₂ hc
  obtain ⟨_, hticket, rfl⟩ := hc
  refine Rely.wp_call_kept progress_kept ?_
  intro s₃ _ _ r s₄ hc
  cases r with
  | error e => exact Rely.wp_error
  | ok l =>
    obtain ⟨_, hle, rfl⟩ := hc
    refine Rely.wp_pure fun s₅ _ hr₅ _ _ => ?_
    -- the ticket is at least as long as the log was at the start
    have := hr₁.log.length_le
    have := hr₅.applied i
    omega

theorem wp_ensure_consistency {c : ReadConsistency} (hc : c.linearizable = true) (hi : s.Inv)
    (h : s₀.log.length ≤ s.log.length) :
    progress.wp (Rely.ifOk fun _ s' => s₀.log.length ≤ s'.applied i)
      (ensure_consistency i c).run s := by
  have hlin : progress.wp (Rely.ifOk fun _ s' => s₀.log.length ≤ s'.applied i)
      (ExceptT.mk (Except.mapError RemoteError.RaftCheckIsLeader <$> Raft.ensure_linearizable i)
        >>= fun _ => pure () : NodeResult RemoteError Unit).run s := by
    refine Rely.wp_ifOk_bind hi (Rely.wp_map (Rely.wp_mono ?_ (wp_ensure_linearizable h)))
    intro r s₁ hr a ha _ _
    cases r with
    | error e => cases ha
    | ok l => exact Rely.wp_pure fun s₂ _ hr₂ _ _ => Nat.le_trans (hr l rfl) (hr₂.applied i)
  cases c with
  | Stale => cases hc
  | LeaderStale => cases hc
  | LeaseRead => exact hlin
  | ReadIndex => exact hlin

/-- What a response to a linearizable read shows. -/
def Shown (s₀ : World) (P : StateMachineData → α → Prop) (respond : α → Response)
    (resp : Response) (s : World) : Prop :=
  ∃ a, resp = respond a ∧ Seen s₀ P a s

variable {read : NodeId → NodeProg α} {respond : α → Response}

theorem wp_consistent_read (hlook : Looks read P) {c : ReadConsistency}
    (hc : c.linearizable = true) (hi : s.Inv) (h : s₀.log.length ≤ s.log.length) :
    progress.wp (Rely.ifOk (Shown s₀ P respond)) (consistent_read i c (read i) respond) s := by
  refine Rely.wp_ifOk_bind hi (Rely.wp_mono ?_ (wp_ensure_consistency hc hi h))
  intro r s₁ hr a ha hi₁ _
  refine Rely.wp_ifOk_bind hi₁ (Rely.wp_map (Rely.wp_mono ?_ (wp_look hlook (hr a ha))))
  intro v s₂ hv b hb _ _
  cases hb
  refine Rely.wp_pure fun s₃ _ hr₃ resp hresp => ?_
  cases hresp
  exact ⟨v, rfl, hv.mono hr₃⟩

/-- A request for a linearizable read, at whichever node it arrives. -/
theorem wp_handle_message (hlook : Looks read P) {c : ReadConsistency}
    (hc : c.linearizable = true) {body : RequestBody}
    (hbody : ∀ j, handle_body j body = consistent_read j c (read j) respond) (hi : s.Inv)
    (h : s₀.log.length ≤ s.log.length) (target : Option NodeId) :
    progress.wp (Rely.ifOk (Shown s₀ P respond)) (handle_message i ⟨target, body⟩) s := by
  unfold handle_message
  split
  · rw [hbody]
    exact wp_consistent_read hlook hc hi h
  · refine Rely.wp_call_kept progress_kept ?_
    intro s₁ hi₁ hr₁ metrics s₂ hcall
    obtain ⟨_, _, rfl⟩ := hcall
    -- a message for another node is refused, which is no successful read
    show progress.wp _ (if _ then _ else _) _
    split
    · exact Rely.wp_error
    · rw [hbody]
      exact wp_consistent_read hlook hc hi₁ (Nat.le_trans h hr₁.log.length_le)

/-! ### The way there and back -/

theorem wp_deliver (hlook : Looks read P) {c : ReadConsistency} (hc : c.linearizable = true)
    {body : RequestBody} (hbody : ∀ j, handle_body j body = consistent_read j c (read j) respond)
    (h : s₀.log.length ≤ s.log.length) (conn : Connection) (target : Option NodeId) :
    progress.wp (Rely.ifOk (Rely.ifOk (Shown s₀ P respond))) (deliver i conn ⟨target, body⟩) s := by
  refine Rely.wp_call_kept progress_kept ?_
  intro s₁ hi₁ hr₁ r s₂ hcall
  obtain ⟨_, rfl⟩ := hcall
  cases r with
  | error e => exact Rely.wp_error
  | ok _ =>
    have h₁ := Nat.le_trans h hr₁.log.length_le
    refine Rely.wp_ifOk_bind (x := liftM (handle_request conn.peer ⟨target, body⟩)) hi₁
      (Rely.wp_map (f := Except.ok) ?_)
    unfold handle_request
    split
    · refine Rely.wp_map (Rely.wp_mono ?_ (wp_handle_message hlook hc hbody hi₁ h₁ target))
      intro reply s₂ hreply o ho hi₂ _
      cases ho
      refine Rely.wp_call_kept progress_kept ?_
      intro s₃ _ hr₃ r s₄ hcall
      obtain ⟨_, rfl⟩ := hcall
      cases r with
      | error e => exact Rely.wp_error
      | ok _ =>
        refine Rely.wp_pure fun s₅ _ hr₅ reply' hreply' resp hresp => ?_
        cases hreply'
        obtain ⟨a, ha, hseen⟩ := hreply resp hresp
        exact ⟨a, ha, (hseen.mono hr₃).mono hr₅⟩
    · refine Rely.wp_pure fun s₂ _ _ o ho _ _ => ?_
      cases ho
      exact Rely.wp_error

/-- The rule for sequencing linked programs. -/
theorem wp_linked_bind {ε β γ : Type} {Q : γ → World → Prop} {x : NodeResult ε β}
    {f : β → NodeResult ε γ} (hi : s.Inv)
    (h : progress.wp (Rely.ifOk fun b s' => s'.Inv → Advances s s' →
      progress.wp (Rely.ifOk Q) (linked (f b)) s') (linked x) s) :
    progress.wp (Rely.ifOk Q) (linked (x >>= f)) s := by
  rw [linked_bind]
  exact Rely.wp_ifOk_bind hi h

theorem wp_request_loop (hlook : Looks read P) {c : ReadConsistency} (hc : c.linearizable = true)
    {body : RequestBody} (hbody : ∀ j, handle_body j body = consistent_read j c (read j) respond)
    (fuel : Nat) (conn : Connection) (target : Option NodeId) (hi : s.Inv)
    (h : s₀.log.length ≤ s.log.length) :
    progress.wp (Rely.ifOk (Shown s₀ P respond))
      (linked (Client.request_loop i fuel conn ⟨target, body⟩)) s := by
  induction fuel generalizing conn target s with
  | zero =>
    refine Rely.wp_call_kept progress_kept ?_
    intro _ _ _ r
    cases r
  | succ fuel ih =>
    refine wp_linked_bind hi ?_
    have hex : linked (ExceptT.mk (ask (.exchange i conn ⟨target, body⟩)))
        = deliver i conn ⟨target, body⟩ := Prog.interp_perform link _
    rw [hex]
    refine Rely.wp_mono ?_ (wp_deliver hlook hc hbody h conn target)
    intro r s₁ hr reply hreply hi₁ hadv
    -- a redirected read starts again, with the same obligation
    cases reply with
    | ok resp =>
      refine Rely.wp_pure fun s₂ _ hr₂ resp' hresp' => ?_
      cases hresp'
      obtain ⟨a, ha, hseen⟩ := hr _ hreply resp rfl
      exact ⟨a, ha, hseen.mono hr₂⟩
    | error e =>
      dsimp only
      split
      · refine wp_linked_bind hi₁ ?_
        refine Rely.wp_call_kept progress_kept ?_
        intro s₂ _ hr₂ r s₃ hcall
        obtain ⟨_, rfl⟩ := hcall
        refine Rely.wp_pure fun s₃ _ hr₃ conn' _ hi₃ hadv₃ => ?_
        exact ih conn' _ hi₃
          (Nat.le_trans h (hadv.log.length_le.trans hadv₃.log.length_le))
      · exact Rely.wp_error

/-- A method of the client that reads. -/
theorem wp_client_call (hlook : Looks read P) {c : ReadConsistency} (hc : c.linearizable = true)
    {body : RequestBody} (hbody : ∀ j, handle_body j body = consistent_read j c (read j) respond)
    {accept : Response → Option α} (haccept : ∀ a, accept (respond a) = some a)
    (fuel : Nat) (client : Client) (hi : s.Inv) (h : s₀.log.length ≤ s.log.length) :
    progress.wp (Rely.ifOk (Seen s₀ P)) (linked (client.call fuel body accept)) s := by
  refine wp_linked_bind hi
    (Rely.wp_mono ?_ (wp_request_loop hlook hc hbody fuel client.conn client.target_id hi h))
  intro r s₁ hr resp hresp _ _
  obtain ⟨a, rfl, hseen⟩ := hr resp hresp
  simp only [haccept]
  refine Rely.wp_pure fun s₂ _ hr₂ a' ha' => ?_
  cases ha'
  exact hseen.mono hr₂

/-! ### Local and remote -/

/-- Sequencing after a program of which nothing is known. -/
theorem wp_linked_then {ε β γ : Type} {Q : γ → World → Prop} {x : NodeResult ε β}
    {f : β → NodeResult ε γ} (hi : s.Inv)
    (h : ∀ b s', s'.Inv → Advances s s' → progress.wp (Rely.ifOk Q) (linked (f b)) s') :
    progress.wp (Rely.ifOk Q) (linked (x >>= f)) s := by
  refine wp_linked_bind hi (Rely.wp_mono ?_ (Rely.wp_of_forall progress_kept (fun _ _ => trivial) _ s))
  intro r s₁ _ b _
  exact h b s₁

/-- A node decides to serve a read itself only once it has caught up. -/
theorem wp_should_read_stale {c : ReadConsistency} (hc : c.linearizable = true) (hi : s.Inv)
    (h : s₀.log.length ≤ s.log.length) :
    progress.wp (Rely.ifOk fun b s' => b = true → s₀.log.length ≤ s'.applied i)
      (linked (should_read_stale i c)) s := by
  -- `LeaseRead` is treated as `ReadIndex`
  have hread : progress.wp (Rely.ifOk fun b s' => b = true → s₀.log.length ≤ s'.applied i)
      (linked (should_read_stale i .ReadIndex)) s := by
    unfold should_read_stale
    refine wp_linked_then hi ?_
    intro leader s₁ hi₁ hr₁
    split
    · refine Rely.wp_pure fun s₂ _ _ b hb hb' => ?_
      cases hb
      cases hb'
    · refine wp_linked_bind hi₁ ?_
      rw [linked_lift_of_uses (p := ensure_local_consistency i .ReadIndex)
        ⟨rfl, fun _ _ => ⟨rfl, fun _ _ => trivial⟩⟩]
      refine Rely.wp_map (Rely.wp_map (Rely.wp_mono ?_
        (wp_ensure_linearizable (Nat.le_trans h hr₁.log.length_le))))
      intro r s₂ hr r' hr' _ _
      cases hr'
      cases r with
      | ok l => exact Rely.wp_pure fun s₃ _ hr₃ _ _ _ => Nat.le_trans (hr l rfl) (hr₃.applied i)
      | error e =>
        cases e with
        | Fatal _ => exact Rely.wp_error
        | APIError e =>
          cases e with
          | QuorumNotEnough _ _ => exact Rely.wp_error
          | ForwardToLeader _ =>
            refine Rely.wp_pure fun s₃ _ _ b hb hb' => ?_
            cases hb
            cases hb'
  cases c with
  | Stale => cases hc
  | LeaderStale => cases hc
  | LeaseRead => exact hread
  | ReadIndex => exact hread

/-- A method that reads: locally if the node may, from the leader otherwise. -/
theorem wp_read_with {β : Type} {Q : β → World → Prop} {c : ReadConsistency}
    (hc : c.linearizable = true) {here : NodeResult Error β} {there : Client → NodeResult Error β}
    (hi : s.Inv)
    (hhere : ∀ s', s'.Inv → s.log.length ≤ s'.applied i →
      progress.wp (Rely.ifOk Q) (linked here) s')
    (hthere : ∀ client s', s'.Inv → s.log.length ≤ s'.log.length →
      progress.wp (Rely.ifOk Q) (linked (there client)) s') :
    progress.wp (Rely.ifOk Q) (linked (do
      if ← should_read_stale i c then here
      else
        let client ← client_to_leader i
        there client)) s := by
  refine wp_linked_bind hi (Rely.wp_mono ?_ (wp_should_read_stale hc hi (Nat.le_refl _)))
  intro r s₁ hr b hb hi₁ hr₁
  split
  · next htrue => exact hhere s₁ hi₁ (hr b hb htrue)
  · refine wp_linked_then hi₁ ?_
    intro client s₂ hi₂ hr₂
    exact hthere client s₂ hi₂ (hr₁.log.length_le.trans hr₂.log.length_le)

theorem wp_to_allocvec {β Q : Type} [Serialize Q] {key : Q} {R : β → World → Prop}
    {f : Bytes → NodeResult Error β}
    (h : ∀ bs, Serialize.to_allocvec key = .ok bs → progress.wp (Rely.ifOk R) (linked (f bs)) s) :
    progress.wp (Rely.ifOk R) (linked (to_allocvec key >>= f)) s := by
  rw [to_allocvec]
  cases hbs : Serialize.to_allocvec key with
  | ok bs => exact h bs hbs
  | error e => exact Rely.wp_error

/-- A look at the node's own state. -/
theorem wp_linked_look (hlook : Looks read P)
    (huses : (read i).Uses Prog.AnyAnswer fun o => link o = Prog.perform o) (h : s₀.log.length ≤ s.applied i) :
    progress.wp (Rely.ifOk (Seen s₀ P)) (linked (liftM (read i) : NodeResult Error α)) s := by
  rw [linked_lift_of_uses huses]
  refine Rely.wp_map (Rely.wp_mono ?_ (wp_look hlook h))
  intro a s₁ ha b hb
  cases hb
  exact ha

/-- What is computed from a value that was seen. -/
theorem wp_decode {β : Type} {x : NodeResult Error α} {g : α → Except Error β} (hi : s.Inv)
    (h : progress.wp (Rely.ifOk (Seen s₀ P)) (linked x) s) :
    progress.wp (Rely.ifOk (Seen s₀ fun d b => ∃ a, P d a ∧ g a = .ok b))
      (linked (x >>= fun a => ExceptT.mk (pure (g a)))) s := by
  refine wp_linked_bind hi (Rely.wp_mono ?_ h)
  intro r s₁ hr a ha _ _
  refine Rely.wp_pure fun s₂ _ hr₂ b hb => ?_
  obtain ⟨n, hlo, hhi, hp⟩ := (hr a ha).mono hr₂
  exact ⟨n, hlo, hhi, a, hp, hb⟩

theorem wp_seen_imp {P' : StateMachineData → α → Prop} {x : NodeProg (Except Error α)}
    (hp : ∀ d a, P d a → P' d a) (h : progress.wp (Rely.ifOk (Seen s₀ P)) x s) :
    progress.wp (Rely.ifOk (Seen s₀ P')) x s :=
  Rely.wp_mono (fun _ _ hr a ha => (hr a ha).imp hp) h

end reads

end Distruct

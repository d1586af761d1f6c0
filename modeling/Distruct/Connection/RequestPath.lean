import Distruct.Collections.Basic
import Distruct.Framework.Projection

/-! # The Path of a Request

    How a request travels, for any account of what the calls do: from the
    client over a connection to some node, through `handle_message`, back with
    the reply, and on to the next node when the reply redirects it.

    `Serves` collects what has to be known: the calls of the transport change
    nothing, and a message that is handled while `I` holds is answered by a
    response that satisfies `H`, or refused, and when it is redirected then `I`
    holds again. `Serves.call` concludes what a method of the client returns.
-/

namespace Distruct

open LTS (Rely Discipline)

variable {ι σ Env Job : Type} {site : LTS.Site ι σ Env Op Job Op.Resp} {D : Discipline site} {w : ι}
  {s : σ}

/-- A call that may be made at any time and that changes nothing. -/
structure Quiet (D : Discipline site) (o : Op) : Prop where
  can : ∀ i s, D.inv s → D.can i s o
  silent : ∀ i s r s', site.call i s o r s' → s' = s

theorem Quiet.wp {α : Type} {o : Op} (hq : Quiet D o) {Q : α → σ → Prop} {k : o.Resp → NodeProg α}
    (h : ∀ s', D.inv s' → D.rel w s s' → ∀ r, D.wp w Q (k r) s') : D.wp w Q (.call o k) s :=
  Discipline.wp_silent (fun s' hi _ => hq.can w s' hi) (hq.silent w) fun s' hi hr r _ => h s' hi hr r

/-- The calls on the way of a request. -/
def Travels : Op → Prop
  | .server_metrics _ => True
  | .metrics _ => True
  | .connect .. => True
  | .transmit .. => True
  | .out_of_fuel => True
  | _ => False

/-- What handling a message leads to: a response that satisfies `H`, or an
    error, with `I` as it was if the error redirects the request. -/
def Handled (I : σ → Prop) (H : Response → σ → Prop) :
    Except RemoteError Response → σ → Prop
  | .ok resp, s => H resp s
  | .error e, s => (Client.redirect e).isSome → I s

/-- The calls on the way change nothing, and `I` holds on for worker `w`. -/
structure Routes (D : Discipline site) (w : ι) (I : σ → Prop) : Prop where
  quiet : ∀ o, Travels o → Quiet D o
  before : ∀ s s', D.rel w s s' → I s → I s'

/-- Worker `w` may send `body` while `I` holds, and is answered by a response
    that satisfies `H`. -/
structure Serves (D : Discipline site) (w : ι) (body : RequestBody) (I : σ → Prop)
    (H : Response → σ → Prop) : Prop extends Routes D w I where
  after : ∀ resp s s', D.rel w s s' → H resp s → H resp s'
  handle : ∀ j s, D.inv s → I s → D.wp w (Handled I H) (handle_body j body) s

namespace Serves

variable {body : RequestBody} {I : σ → Prop} {H : Response → σ → Prop}

theorem handled_stable (h : Serves D w body I H) {r : Except RemoteError Response} {s' : σ}
    (hr : D.rel w s s') (hs : Handled I H r s) : Handled I H r s' := by
  cases r with
  | ok resp => exact h.after resp s s' hr hs
  | error e => exact fun he => h.before s s' hr (hs he)

theorem handle_message (h : Serves D w body I H) (j : NodeId) (target : Option NodeId)
    (hi : D.inv s) (hs : I s) :
    D.wp w (Handled I H) (Distruct.handle_message j ⟨target, body⟩) s := by
  unfold Distruct.handle_message
  split
  · exact h.handle j s hi hs
  · refine (h.quiet (.server_metrics j) trivial).wp ?_
    intro s₁ hi₁ hr₁ metrics
    -- a message for another node is refused without a redirect
    show D.wp w _ (if _ then _ else _) _
    split
    · intro s₂ _ _ he
      cases he
    · exact h.handle j s₁ hi₁ (h.before s s₁ hr₁ hs)

theorem deliver (h : Serves D w body I H) (i : NodeId) (conn : Connection)
    (target : Option NodeId) (hs : I s) :
    D.wp w (Rely.ifOk (Handled I H)) (Distruct.deliver i conn ⟨target, body⟩) s := by
  refine (h.quiet (.transmit i conn) trivial).wp ?_
  intro s₁ hi₁ hr₁ r
  cases r with
  | error e => exact Discipline.wp_error
  | ok _ =>
    have hs₁ := h.before s s₁ hr₁ hs
    refine Discipline.wp_ifOk_bind (x := liftM (handle_request conn.peer ⟨target, body⟩)) hi₁
      (Discipline.wp_map (f := Except.ok) ?_)
    unfold handle_request
    split
    · refine Discipline.wp_map (Discipline.wp_mono ?_ (h.handle_message conn.peer target hi₁ hs₁))
      intro reply s₂ _ hreply o ho _
      cases ho
      refine (h.quiet (.transmit i conn) trivial).wp ?_
      intro s₃ _ hr₃ r
      cases r with
      | error e => exact Discipline.wp_error
      | ok _ =>
        intro s₄ _ hr₄ reply' hreply'
        cases hreply'
        exact h.handled_stable (D.trans hr₃ hr₄) hreply
    · -- the stream was dropped
      intro s₂ _ _ o ho _
      cases ho
      exact Discipline.wp_error

/-- The rule for sequencing linked programs. -/
theorem wp_linked_bind {ε β γ : Type} {Q : γ → σ → Prop} {x : NodeResult ε β}
    {f : β → NodeResult ε γ} (hi : D.inv s)
    (h : D.wp w (Rely.ifOk fun b s' => D.inv s' → D.wp w (Rely.ifOk Q) (linked (f b)) s')
      (linked x) s) :
    D.wp w (Rely.ifOk Q) (linked (x >>= f)) s := by
  rw [linked_bind]
  exact Discipline.wp_ifOk_bind hi h

/-- Every round begins with `I`: the first one by assumption, the others because
    the reply before it was a redirect. -/
theorem request_loop (h : Serves D w body I H) (i : NodeId) (fuel : Nat) (conn : Connection)
    (target : Option NodeId) (hi : D.inv s) (hs : I s) :
    D.wp w (Rely.ifOk H) (linked (Client.request_loop i fuel conn ⟨target, body⟩)) s := by
  induction fuel generalizing conn target s with
  | zero =>
    refine (h.quiet .out_of_fuel trivial).wp ?_
    intro _ _ _ r
    cases r
  | succ fuel ih =>
    refine wp_linked_bind hi ?_
    have hex : linked (ExceptT.mk (ask (.exchange i conn ⟨target, body⟩)))
        = Distruct.deliver i conn ⟨target, body⟩ := Prog.interp_perform link _
    rw [hex]
    refine Discipline.wp_mono ?_ (h.deliver i conn target hs)
    intro r s₁ _ hr reply hreply hi₁
    have hhandled := hr _ hreply
    cases reply with
    | ok resp =>
      intro s₂ _ hr₂ resp' hresp'
      cases hresp'
      exact h.after _ _ _ hr₂ hhandled
    | error e =>
      dsimp only
      split
      · next leader hleader =>
        have hs₁ : I s₁ := hhandled (Option.isSome_iff_exists.mpr ⟨_, hleader⟩)
        refine wp_linked_bind hi₁ ((h.quiet (.connect i _) trivial).wp ?_)
        intro s₂ hi₂ hr₂ r s₃ hi₃ hr₃ conn' hconn' _
        exact ih conn' _ hi₃ (h.before _ _ (D.trans hr₂ hr₃) hs₁)
      · exact Discipline.wp_error

/-- What a method of the client returns. -/
theorem call (h : Serves D w body I H) {α : Type} (accept : Response → Option α) (fuel : Nat)
    (client : Client) (hi : D.inv s) (hs : I s) :
    D.wp w (Rely.ifOk fun a s' => ∃ resp, accept resp = some a ∧ H resp s')
      (linked (client.call fuel body accept)) s := by
  refine wp_linked_bind hi (Discipline.wp_mono ?_
    (h.request_loop client.owner fuel client.conn client.target_id hi hs))
  intro r s₁ _ hr resp hresp _
  have hH := hr resp hresp
  split
  · next a ha =>
    intro s₂ _ hr₂ a' ha'
    cases ha'
    exact ⟨resp, ha, h.after _ _ _ hr₂ hH⟩
  · exact Discipline.wp_error

end Serves

/-! ### Before the request is sent -/

theorem uses_client_to_leader (i : NodeId) :
    (client_to_leader i).run.Uses Prog.AnyAnswer Travels := by
  refine Prog.uses_run_lift_bind ⟨trivial, fun _ _ => trivial⟩ ?_
  intro leader
  split
  · trivial
  · exact Prog.uses_run_bind (Prog.uses_map ⟨trivial, fun _ _ => trivial⟩) fun _ _ => trivial

/-- None of the calls on the way is an exchange. -/
theorem link_of_travels {o : Op} (ho : Travels o) : link o = Prog.perform o := by
  cases o <;> first | rfl | cases ho

/-- `client_to_leader`, and then what is done with the client. -/
theorem Routes.to_leader {I : σ → Prop} (h : Routes D w I) {β : Type} {Q : β → σ → Prop} (i : NodeId)
    {f : Client → NodeResult Error β} (hi : D.inv s) (hs : I s)
    (hf : ∀ client s', D.inv s' → I s' → D.wp w (Rely.ifOk Q) (linked (f client)) s') :
    D.wp w (Rely.ifOk Q) (linked (client_to_leader i >>= f)) s := by
  have huses := uses_client_to_leader i
  have hself : linked (client_to_leader i) = (client_to_leader i).run :=
    Prog.interp_eq_self (Prog.uses_mono (fun _ _ h => h) (fun _ => link_of_travels) huses)
  refine Serves.wp_linked_bind hi ?_
  rw [hself]
  refine Discipline.wp_mono ?_ (Discipline.wp_of_uses h.before
    (fun s o hi ho _ => (h.quiet o ho).can w s hi) ?_ huses hs)
  · intro r s₁ _ hs₁ client _ hi₁
    exact hf client s₁ hi₁ hs₁
  · intro s₁ o r s₂ hi₁ ho hs₁ hc
    obtain rfl := (h.quiet o ho).silent w s₁ r s₂ hc
    exact ⟨hi₁, fun j _ => D.refl j _, hs₁⟩

/-- A value that is encoded first. -/
theorem wp_encoded {β Q : Type} [Serialize Q] {key : Q} {R : β → σ → Prop}
    {f : Postcard.Bytes → NodeResult Error β}
    (h : ∀ bs, Serialize.to_allocvec key = .ok bs → D.wp w (Rely.ifOk R) (linked (f bs)) s) :
    D.wp w (Rely.ifOk R) (linked (to_allocvec key >>= f)) s := by
  rw [to_allocvec]
  cases hbs : Serialize.to_allocvec key with
  | ok bs => exact h bs hbs
  | error e => exact Discipline.wp_error

end Distruct

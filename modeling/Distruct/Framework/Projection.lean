import Distruct.Framework.Tasks
import Distruct.Framework.Workers

/-! # Workers over an Annotated State

    The state that a crew shares may hold more than what a `Rely` speaks of:
    notes on which worker did what. What was proved of a program over the plain
    state then holds of a worker that runs it over the annotated one.

    * `Discipline.Kept`: every call respects the invariant.
    * `Discipline.wp_frame`: the frame rule.
    * `Discipline.Projects`: the annotated moves are moves of the plain state.
    * `Discipline.wp_of_rely`: the transfer of a weakest precondition.
    * `CrewInv.waits`: what a worker that has returned finds later in the run.
-/

universe w

namespace LTS

variable {ι σ τ Env Env' Op Job Out : Type*} {Resp : Op → Type*}

namespace Discipline

variable {site : Site ι σ Env Op Job Resp} {D : Discipline site} {i : ι} {α β : Type*}

/-- Every call is allowed and respects the invariant and what the other workers
    rely on, whoever makes it. -/
structure Kept (D : Discipline site) : Prop where
  can : ∀ i s o, D.can i s o
  kept : ∀ {i s o r s'}, D.inv s → site.call i s o r s' → D.inv s' ∧ ∀ j, j ≠ i → D.rel j s s'

/-- The rule for a call, when all calls respect the invariant. -/
theorem wp_call_kept (hk : D.Kept) {Q : α → σ → Prop} {o : Op} {k : Resp o → Prog Op Resp α}
    {s : σ} (h : ∀ s', D.inv s' → D.rel i s s' → ∀ r s'', site.call i s' o r s'' →
      D.wp i Q (k r) s'') : D.wp i Q (.call o k) s := by
  intro s' hi hr
  refine ⟨hk.can i s' o, ?_⟩
  intro r s'' hc
  obtain ⟨hi', hr'⟩ := hk.kept hi hc
  exact ⟨hi', hr', h s' hi hr r s'' hc⟩

/-- A postcondition that holds everywhere needs no precondition. -/
theorem wp_of_forall (hk : D.Kept) {Q : α → σ → Prop} (hq : ∀ a s, Q a s) (p : Prog Op Resp α)
    (s : σ) : D.wp i Q p s := by
  induction p generalizing s with
  | pure a =>
    intro s' _ _
    exact hq a s'
  | call o k ih => exact wp_call_kept hk fun _ _ _ r s'' _ => ih r s''

theorem wp_error {ε : Type*} {Q : α → σ → Prop} {e : ε} {s : σ} :
    D.wp i (Rely.ifOk Q) (.pure (.error e)) s := by
  intro s' _ _ a ha
  cases ha

/-- Sequencing, when only successful outcomes matter. -/
theorem wp_ifOk_bind {ε α β : Type w} {Q : β → σ → Prop}
    {x : ExceptT ε (Prog Op Resp) α} {f : α → ExceptT ε (Prog Op Resp) β} {s : σ} (hi : D.inv s)
    (h : D.wp i (Rely.ifOk fun a s' => D.inv s' → D.wp i (Rely.ifOk Q) (f a).run s') x.run s) :
    D.wp i (Rely.ifOk Q) (x >>= f).run s := by
  rw [ExceptT.run_bind]
  refine wp_bind hi (wp_mono ?_ h)
  intro r s' hi' hr
  cases r with
  | ok a => exact hr a rfl hi'
  | error e => exact wp_error

/-- The frame rule: what neither the others nor the worker itself change still
    holds at the end. -/
theorem wp_frame {R : σ → Prop} {Q : α → σ → Prop} {p : Prog Op Resp α} {s : σ}
    (hrel : ∀ s s', D.rel i s s' → R s → R s')
    (hcall : ∀ s o r s', R s → site.call i s o r s' → R s') (hs : R s) (h : D.wp i Q p s) :
    D.wp i (fun a s' => R s' ∧ Q a s') p s := by
  induction p generalizing s with
  | pure a =>
    intro s' hi hr
    exact ⟨hrel s s' hr hs, h s' hi hr⟩
  | call o k ih =>
    intro s' hi hr
    obtain ⟨hcan, hnext⟩ := h s' hi hr
    refine ⟨hcan, ?_⟩
    intro r s'' hc
    obtain ⟨hi', hr', h'⟩ := hnext r s'' hc
    exact ⟨hi', hr', ih r (hcall s' o r s'' (hrel s s' hr hs) hc) h'⟩

/-! ### The plain state -/

/-- What the workers share projects to the state of `R`: their calls are calls
    there, and what each of them relies on implies what `R` relies on. -/
structure Projects {sh : Shared τ Env' Op Resp} (D : Discipline site) (R : Rely sh) (π : σ → τ) :
    Prop where
  inv : ∀ {s}, D.inv s → R.inv (π s)
  rel : ∀ {i s s'}, D.rel i s s' → R.rel (π s) (π s')
  call : ∀ {i s o r s'}, site.call i s o r s' → sh.call (π s) o r (π s')

/-- A worker can run whatever was proved over the plain state. -/
theorem wp_of_rely {sh : Shared τ Env' Op Resp} {R : Rely sh} {π : σ → τ} (hk : D.Kept)
    (hπ : D.Projects R π) {Q : α → τ → Prop} {p : Prog Op Resp α} {s : σ}
    (h : R.wp Q p (π s)) : D.wp i (fun a s' => Q a (π s')) p s := by
  induction p generalizing s with
  | pure a =>
    intro s' hi hr
    exact h (π s') (hπ.inv hi) (hπ.rel hr)
  | call o k ih =>
    refine wp_call_kept hk ?_
    intro s' hi hr r s'' hc
    obtain ⟨_, _, hnext⟩ := (h (π s') (hπ.inv hi) (hπ.rel hr)).2 r (π s'') (hπ.call hc)
    exact ih r hnext

/-! ### Workers that have returned -/

variable [DecidableEq ι] {Post : ι → Out → σ → Prop} {prog : ι → Job → Prog Op Resp Out}
  {c c' : Crew ι σ Op Resp Out}

/-- A step that a returned worker does not take is one that it has to expect. -/
theorem CrewInv.waits_step (h : CrewInv D Post c) {m : Move ι Env Op Job}
    (hstart : ∀ j k s s', j ≠ i → D.inv s → site.start j s k s' → D.rel i s s')
    (hstep : (crew site prog).step c m c') {a : Out} (ha : c.worker i = some (.pure a))
    (hnot : ∀ j s', ¬ site.start i c.shared j s') :
    D.rel i c.shared c'.shared ∧ c'.worker i = some (.pure a) := by
  cases m with
  | env e =>
    obtain ⟨s', hs, rfl⟩ := hstep
    exact ⟨(D.env_ok h.inv hs).2 i, ha⟩
  | start j k =>
    obtain ⟨s', _, hs, rfl⟩ := hstep
    have hji : j ≠ i := by
      rintro rfl
      exact hnot k s' hs
    refine ⟨hstart j k _ s' hji h.inv hs, ?_⟩
    simp only [Function.update_of_ne hji.symm]
    exact ha
  | call j o =>
    obtain ⟨k, r, s', hw, hs, rfl⟩ := hstep
    have hji : j ≠ i := by
      rintro rfl
      rw [ha] at hw
      cases hw
    obtain ⟨_, hrel, _⟩ := (h.working j _ hw _ h.inv (D.refl j _)).2 r s' hs
    refine ⟨hrel i hji.symm, ?_⟩
    simp only [Function.update_of_ne hji.symm]
    exact ha

/-- A worker that has returned and is not started again stays as it is, and
    what it finds later is what it had to expect. -/
theorem CrewInv.waits (hinv : ∀ c, (crew site prog).Reachable c → CrewInv D Post c)
    (hstart : ∀ j k s s', j ≠ i → D.inv s → site.start j s k s' → D.rel i s s')
    (Busy : σ → Prop) (hbusy : ∀ s s', D.rel i s s' → Busy s → Busy s')
    (hnot : ∀ s j s', Busy s → ¬ site.start i s j s') (hc : (crew site prog).Reachable c)
    (hsteps : (crew site prog).Steps c c') (hs : Busy c.shared) {a : Out}
    (ha : c.worker i = some (.pure a)) :
    D.rel i c.shared c'.shared ∧ c'.worker i = some (.pure a) := by
  induction hsteps with
  | refl => exact ⟨D.refl i _, ha⟩
  | @tail c₁ c₂ hbefore hstep ih =>
    obtain ⟨hrel, ha₁⟩ := ih
    obtain ⟨m, hm⟩ := hstep
    have h₁ := hinv c₁ (System.Steps.reachable hbefore hc)
    have hs₁ := hbusy _ _ hrel hs
    obtain ⟨hrel', ha₂⟩ := h₁.waits_step hstart hm ha₁ fun j s' => hnot _ j s' hs₁
    exact ⟨D.trans hrel hrel', ha₂⟩

end Discipline

end LTS

import Distruct.Framework.Prog
import Distruct.Framework.System
import Mathlib.Logic.Function.Basic

/-! # Workers over a Shared State

    A family of workers, each of which runs one interaction program at a time,
    over one shared state. Between any two calls of a worker the surroundings
    may move and the other workers may make calls of their own.

    A worker has a name, and what it may find changed while it was not its turn
    is a relation of its own. So a worker can know something that only it can
    change, which the tasks of a pool cannot.

    * `Site`: what the surroundings, the start of a job and a single call do to
      the shared state.
    * `crew`: the transition system of all interleavings of the workers.
    * `Discipline`: an invariant of the shared state, what each worker may rely
      on, and what is known of a worker that has nothing to do.
    * `Discipline.wp`: the weakest precondition of a worker's program, with its
      proof rules.
    * `Discipline.crew_sound`: what holds of every job by `wp` holds of every
      worker in every run.
-/

universe w

namespace LTS

variable {ι σ Env Op Job Out : Type*} {Resp : Op → Type*}

/-- The moves of the shared state: `env` by the surroundings, `start` when
    worker `i` begins a job, `call` by worker `i` that makes the call `o` and is
    answered `r`. -/
structure Site (ι σ Env Op Job : Type*) (Resp : Op → Type*) where
  init : σ → Prop
  env : σ → Env → σ → Prop
  start : ι → σ → Job → σ → Prop
  call : ι → σ → (o : Op) → Resp o → σ → Prop

/-- The moves that meet a side condition on the state before them. -/
def Site.restrict (site : Site ι σ Env Op Job Resp) (ok_env : σ → Env → Prop)
    (ok_call : ι → σ → Op → Prop) : Site ι σ Env Op Job Resp where
  init := site.init
  env := fun s e s' => ok_env s e ∧ site.env s e s'
  start := site.start
  call := fun i s o r s' => ok_call i s o ∧ site.call i s o r s'

/-- The shared state, and what is left to do for each worker: nothing at all
    before its first job, `pure a` once a job has returned `a`. -/
structure Crew (ι σ Op : Type*) (Resp : Op → Type*) (Out : Type*) where
  shared : σ
  worker : ι → Option (Prog Op Resp Out)

/-- A worker without a job, or with one that has returned. -/
def Free (w : Option (Prog Op Resp Out)) : Prop :=
  w = none ∨ ∃ a, w = some (.pure a)

inductive Move (ι Env Op Job : Type*) where
  | env (e : Env)
  | start (i : ι) (j : Job)
  | call (i : ι) (o : Op)

/-- The transition system of all interleavings of workers running `prog`. -/
def crew [DecidableEq ι] (site : Site ι σ Env Op Job Resp) (prog : ι → Job → Prog Op Resp Out) :
    System (Crew ι σ Op Resp Out) (Move ι Env Op Job) where
  init := fun c => site.init c.shared ∧ ∀ i, c.worker i = none
  step := fun c m c' =>
    match m with
    | .env e =>
        ∃ s', site.env c.shared e s' ∧ c' = { c with shared := s' }
    | .start i j =>
        ∃ s', Free (c.worker i) ∧ site.start i c.shared j s' ∧
          c' = { shared := s', worker := Function.update c.worker i (some (prog i j)) }
    | .call i o =>
        ∃ k r s', c.worker i = some (.call o k) ∧ site.call i c.shared o r s' ∧
          c' = { shared := s', worker := Function.update c.worker i (some (k r)) }

/-- A step whose move meets a side condition is a step. -/
theorem step_of_restrict [DecidableEq ι] {site : Site ι σ Env Op Job Resp}
    {ok_env : σ → Env → Prop} {ok_call : ι → σ → Op → Prop} {prog : ι → Job → Prog Op Resp Out}
    {c c' : Crew ι σ Op Resp Out} {m : Move ι Env Op Job}
    (h : (crew (site.restrict ok_env ok_call) prog).step c m c') : (crew site prog).step c m c' := by
  match m, h with
  | .env e, ⟨s', hs, hc⟩ => exact ⟨s', hs.2, hc⟩
  | .start i j, h => exact h
  | .call i o, ⟨k, r, s', hw, hs, hc⟩ => exact ⟨k, r, s', hw, hs.2, hc⟩

/-- A run whose moves all meet a side condition is a run. -/
theorem crew_of_restrict [DecidableEq ι] {site : Site ι σ Env Op Job Resp}
    {ok_env : σ → Env → Prop} {ok_call : ι → σ → Op → Prop} {prog : ι → Job → Prog Op Resp Out}
    {c : Crew ι σ Op Resp Out} (hc : (crew (site.restrict ok_env ok_call) prog).Reachable c) :
    (crew site prog).Reachable c := by
  induction hc with
  | init h => exact .init h
  | step m _ h ih => exact .step m ih (step_of_restrict h)

section runs
variable [DecidableEq ι] {site : Site ι σ Env Op Job Resp} {prog : ι → Job → Prog Op Resp Out}
  {c : Crew ι σ Op Resp Out} {s' : σ}

theorem Crew.env (hc : (crew site prog).Reachable c) (e : Env) (hs : site.env c.shared e s') :
    (crew site prog).Reachable { c with shared := s' } :=
  .step (.env e) hc ⟨s', hs, rfl⟩

theorem Crew.start (hc : (crew site prog).Reachable c) (i : ι) (j : Job) (hw : Free (c.worker i))
    (hs : site.start i c.shared j s') :
    (crew site prog).Reachable
      { shared := s', worker := Function.update c.worker i (some (prog i j)) } :=
  .step (.start i j) hc ⟨s', hw, hs, rfl⟩

theorem Crew.call (hc : (crew site prog).Reachable c) (i : ι) {o : Op}
    {k : Resp o → Prog Op Resp Out} (r : Resp o) (hw : c.worker i = some (.call o k))
    (hs : site.call i c.shared o r s') :
    (crew site prog).Reachable { shared := s', worker := Function.update c.worker i (some (k r)) } :=
  .step (.call i o) hc ⟨k, r, s', hw, hs, rfl⟩

end runs

/-! ### Disciplines -/

/-- An invariant of the shared state; for each worker a preorder that the
    others and the surroundings respect, the calls it may be about to make, and
    what is known while it has nothing to do. -/
structure Discipline (site : Site ι σ Env Op Job Resp) where
  inv : σ → Prop
  rel : ι → σ → σ → Prop
  can : ι → σ → Op → Prop
  idle : ι → σ → Prop
  refl : ∀ i s, rel i s s
  trans : ∀ {i a b c}, rel i a b → rel i b c → rel i a c
  idle_stable : ∀ {i s s'}, rel i s s' → idle i s → idle i s'
  init_ok : ∀ {s}, site.init s → inv s ∧ ∀ i, idle i s
  env_ok : ∀ {s e s'}, inv s → site.env s e s' → inv s' ∧ ∀ i, rel i s s'

namespace Discipline

variable {site : Site ι σ Env Op Job Resp} (D : Discipline site) {α β : Type*}

/-- `D.wp i Q p s`: whenever worker `i` runs `p` from `s`, with any interference
    that it has to expect before every call and before the return, it makes only
    calls that `can` allows, they respect the invariant and what the others rely
    on, and a result `a` returned in state `s'` satisfies `Q a s'`. -/
def wp (i : ι) (Q : α → σ → Prop) : Prog Op Resp α → σ → Prop
  | .pure a, s => ∀ s', D.inv s' → D.rel i s s' → Q a s'
  | .call o k, s => ∀ s', D.inv s' → D.rel i s s' → D.can i s' o ∧
      ∀ r s'', site.call i s' o r s'' →
        D.inv s'' ∧ (∀ j, j ≠ i → D.rel j s' s'') ∧ wp i Q (k r) s''

variable {D} {i : ι}

/-- Interference does not invalidate a weakest precondition. -/
theorem wp_stable {Q : α → σ → Prop} {p : Prog Op Resp α} {s s' : σ}
    (hr : D.rel i s s') (h : D.wp i Q p s) : D.wp i Q p s' := by
  cases p with
  | pure a =>
    intro s₁ hi hr₁
    exact h s₁ hi (D.trans hr hr₁)
  | call o k =>
    intro s₁ hi hr₁
    exact h s₁ hi (D.trans hr hr₁)

/-- A result satisfies its postcondition in a state that satisfies the invariant. -/
theorem wp_mono {Q Q' : α → σ → Prop} {p : Prog Op Resp α} {s : σ}
    (hq : ∀ a s, D.inv s → Q a s → Q' a s) (h : D.wp i Q p s) : D.wp i Q' p s := by
  induction p generalizing s with
  | pure a =>
    intro s' hi hr
    exact hq a s' hi (h s' hi hr)
  | call o k ih =>
    intro s' hi hr
    obtain ⟨hcan, hnext⟩ := h s' hi hr
    refine ⟨hcan, ?_⟩
    intro r s'' hc
    obtain ⟨hi', hr', h'⟩ := hnext r s'' hc
    exact ⟨hi', hr', ih r h'⟩

/-- The rule for sequencing. -/
theorem wp_bind {α β : Type w} {Q : β → σ → Prop} {p : Prog Op Resp α}
    {f : α → Prog Op Resp β} {s : σ} (hi : D.inv s)
    (h : D.wp i (fun a s' => D.wp i Q (f a) s') p s) : D.wp i Q (p >>= f) s := by
  induction p generalizing s with
  | pure a => exact h s hi (D.refl i s)
  | call o k ih =>
    intro s' hi' hr
    obtain ⟨hcan, hnext⟩ := h s' hi' hr
    refine ⟨hcan, ?_⟩
    intro r s'' hc
    obtain ⟨hi'', hr'', h'⟩ := hnext r s'' hc
    exact ⟨hi'', hr'', ih r hi'' h'⟩

theorem wp_map {α β : Type w} {Q : β → σ → Prop} {p : Prog Op Resp α} {f : α → β} {s : σ}
    (h : D.wp i (fun a s' => Q (f a) s') p s) : D.wp i Q (f <$> p) s := by
  induction p generalizing s with
  | pure a => exact h
  | call o k ih =>
    intro s' hi hr
    obtain ⟨hcan, hnext⟩ := h s' hi hr
    refine ⟨hcan, ?_⟩
    intro r s'' hc
    obtain ⟨hi', hr', h'⟩ := hnext r s'' hc
    exact ⟨hi', hr', ih r h'⟩

/-- Sequencing of programs that can fail, when the first one cannot. -/
theorem wp_run_lift_bind {ε α β : Type w} {Q : Except ε β → σ → Prop} {p : Prog Op Resp α}
    {f : α → ExceptT ε (Prog Op Resp) β} {s : σ} (hi : D.inv s)
    (h : D.wp i (fun a s' => D.wp i Q (f a).run s') p s) :
    D.wp i Q ((liftM p : ExceptT ε (Prog Op Resp) α) >>= f).run s := by
  rw [ExceptT.run_bind]
  exact wp_bind hi (wp_map h)

/-- The rule for a call that changes nothing. -/
theorem wp_silent {Q : α → σ → Prop} {o : Op} {k : Resp o → Prog Op Resp α} {s : σ}
    (hcan : ∀ s', D.inv s' → D.rel i s s' → D.can i s' o)
    (hsilent : ∀ s' r s'', site.call i s' o r s'' → s'' = s')
    (h : ∀ s', D.inv s' → D.rel i s s' → ∀ r, site.call i s' o r s' → D.wp i Q (k r) s') :
    D.wp i Q (.call o k) s := by
  intro s' hi hr
  refine ⟨hcan s' hi hr, ?_⟩
  intro r s'' hc
  have heq := hsilent s' r s'' hc
  subst heq
  exact ⟨hi, fun j _ => D.refl j s'', h s'' hi hr r hc⟩

/-- A program whose calls all keep a predicate, which the others do not
    invalidate, establishes it. -/
theorem wp_of_uses {P : Op → Prop} {R : σ → Prop} {p : Prog Op Resp α} {s : σ}
    (hstable : ∀ s s', D.rel i s s' → R s → R s') (hcan : ∀ s o, D.inv s → P o → R s → D.can i s o)
    (hcall : ∀ s o r s', D.inv s → P o → R s → site.call i s o r s' →
      D.inv s' ∧ (∀ j, j ≠ i → D.rel j s s') ∧ R s')
    (hp : p.Uses Prog.AnyAnswer P) (hs : R s) : D.wp i (fun _ s' => R s') p s := by
  induction p generalizing s with
  | pure a =>
    intro s' _ hr
    exact hstable s s' hr hs
  | call o k ih =>
    intro s' hi hr
    have hs' := hstable s s' hr hs
    refine ⟨hcan s' o hi hp.1 hs', ?_⟩
    intro r s'' hc
    obtain ⟨hi', hr', hs''⟩ := hcall s' o r s'' hi hp.1 hs' hc
    exact ⟨hi', hr', ih r (hp.2 r trivial) hs''⟩

/-! ### Soundness -/

/-- What all moves of the shared state keep, whichever worker makes them, holds
    in every run. -/
theorem crew_shared [DecidableEq ι] {prog : ι → Job → Prog Op Resp Out} {c : Crew ι σ Op Resp Out}
    (P : σ → Prop) (hinit : ∀ s, site.init s → P s) (henv : ∀ s e s', P s → site.env s e s' → P s')
    (hstart : ∀ i s j s', P s → site.start i s j s' → P s')
    (hcall : ∀ i s o r s', P s → site.call i s o r s' → P s')
    (hc : (crew site prog).Reachable c) : P c.shared := by
  refine System.invariant (fun c => P c.shared) ?_ ?_ c hc
  · intro c₀ h
    exact hinit _ h.1
  · intro c₀ m c' ih hstep
    match m with
    | .env e =>
      obtain ⟨s', hs, rfl⟩ := hstep
      exact henv _ e s' ih hs
    | .start i j =>
      obtain ⟨s', _, hs, rfl⟩ := hstep
      exact hstart i _ j s' ih hs
    | .call i o =>
      obtain ⟨k, r, s', _, hs, rfl⟩ := hstep
      exact hcall i _ o r s' ih hs

/-- What a run keeps: the invariant, and for each worker that it is idle or
    that what is left of its program still establishes its postcondition. -/
structure CrewInv (D : Discipline site) (Post : ι → Out → σ → Prop) (c : Crew ι σ Op Resp Out) :
    Prop where
  inv : D.inv c.shared
  idle : ∀ i, c.worker i = none → D.idle i c.shared
  working : ∀ i p, c.worker i = some p → D.wp i (Post i) p c.shared

variable {Post : ι → Out → σ → Prop} {c : Crew ι σ Op Resp Out}

/-- The call that a worker is about to make is one it may make. -/
theorem CrewInv.can (h : CrewInv D Post c) {o : Op} {k : Resp o → Prog Op Resp Out}
    (hw : c.worker i = some (.call o k)) : D.can i c.shared o :=
  (h.working i _ hw c.shared h.inv (D.refl i _)).1

/-- A job that has returned satisfies its postcondition for as long as the
    worker starts no other one. -/
theorem CrewInv.returned (h : CrewInv D Post c) {a : Out} (hw : c.worker i = some (.pure a)) :
    Post i a c.shared :=
  h.working i _ hw c.shared h.inv (D.refl i _)

/-- Workers whose turn it is not stay as they are. -/
theorem CrewInv.others [DecidableEq ι] (h : CrewInv D Post c) {s' : σ}
    {p : Prog Op Resp Out} (hinv : D.inv s') (hrel : ∀ j, j ≠ i → D.rel j c.shared s')
    (hp : D.wp i (Post i) p s') :
    CrewInv D Post { shared := s', worker := Function.update c.worker i (some p) } where
  inv := hinv
  idle := by
    intro j hj
    by_cases hji : j = i
    · subst hji
      simp at hj
    · simp only [Function.update_of_ne hji] at hj
      exact D.idle_stable (hrel j hji) (h.idle j hj)
  working := by
    intro j q hj
    by_cases hji : j = i
    · subst hji
      simp only [Function.update_self] at hj
      cases hj
      exact hp
    · simp only [Function.update_of_ne hji] at hj
      exact wp_stable (hrel j hji) (h.working j q hj)

/-- **Soundness**: if every job establishes its postcondition from every state
    in which it can be started, and a worker that has returned is idle, then the
    invariant, and for each worker the postcondition of what it runs, hold in
    every run. -/
theorem crew_sound [DecidableEq ι] (D : Discipline site) (Post : ι → Out → σ → Prop)
    {prog : ι → Job → Prog Op Resp Out}
    (hidle : ∀ i a s, D.inv s → Post i a s → D.idle i s)
    (hstart : ∀ i j s s', D.inv s → D.idle i s → site.start i s j s' →
      D.inv s' ∧ (∀ k, k ≠ i → D.rel k s s') ∧ D.wp i (Post i) (prog i j) s')
    (hc : (crew site prog).Reachable c) : CrewInv D Post c := by
  refine System.invariant (CrewInv D Post) ?_ ?_ c hc
  · intro c₀ hinit
    obtain ⟨hs, hw⟩ := hinit
    obtain ⟨hinv, hid⟩ := D.init_ok hs
    refine ⟨hinv, fun i _ => hid i, ?_⟩
    intro i p hp
    rw [hw i] at hp
    cases hp
  · intro c₀ m c' ih hstep
    match m with
    | .env e =>
      obtain ⟨s', hs, rfl⟩ := hstep
      obtain ⟨hinv, hrel⟩ := D.env_ok ih.inv hs
      exact ⟨hinv, fun i hi => D.idle_stable (hrel i) (ih.idle i hi),
        fun i p hp => wp_stable (hrel i) (ih.working i p hp)⟩
    | .start i j =>
      obtain ⟨s', hfree, hs, rfl⟩ := hstep
      have hidle_i : D.idle i c₀.shared := by
        rcases hfree with hnone | ⟨a, ha⟩
        · exact ih.idle i hnone
        · exact hidle i a _ ih.inv (ih.returned ha)
      obtain ⟨hinv, hrel, hp⟩ := hstart i j _ s' ih.inv hidle_i hs
      exact ih.others hinv hrel hp
    | .call i o =>
      obtain ⟨k, r, s', hw, hs, rfl⟩ := hstep
      obtain ⟨hinv, hrel, hp⟩ := (ih.working i _ hw _ ih.inv (D.refl i _)).2 r s' hs
      exact ih.others hinv hrel hp

end Discipline

end LTS

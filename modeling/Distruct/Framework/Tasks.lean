import Distruct.Framework.Prog
import Distruct.Framework.System

/-! # Concurrent Tasks over a Shared State

    Any number of tasks, each an interaction program, run over one shared
    state. Between any two calls of a task the surroundings may move and the
    other tasks may make calls of their own.

    * `Shared`: what the surroundings and a single call do to the shared state.
    * `tasks`: the transition system of a growing pool of tasks. Each task
      remembers the shared state and the time at which it was started and at
      which it returned.
    * `Rely`: an invariant of the shared state together with a preorder, both
      respected by the moves of the surroundings.
    * `Rely.wp`: the weakest precondition of a program under interference
      bounded by the preorder, with its proof rules. The calls of the program
      have to respect the invariant and the preorder in turn.
    * `Rely.tasks_sound`: what holds of every job by `wp` holds of every task
      of every run, and the states in which tasks ended and started are ordered
      the way their times are.
-/

universe w

namespace LTS

variable {σ Env Op Job Out : Type*} {Resp : Op → Type*}

/-- The moves of the shared state: `env` by the surroundings, `call` by a task
    that makes the call `o` and is answered `r`. -/
structure Shared (σ Env Op : Type*) (Resp : Op → Type*) where
  init : σ → Prop
  env : σ → Env → σ → Prop
  call : σ → (o : Op) → Resp o → σ → Prop

/-- The moves that meet a side condition on the state before them. -/
def Shared.restrict (sh : Shared σ Env Op Resp) (ok_env : σ → Env → Prop)
    (ok_call : σ → Op → Prop) : Shared σ Env Op Resp where
  init := sh.init
  env := fun s e s' => ok_env s e ∧ sh.env s e s'
  call := fun s o r s' => ok_call s o ∧ sh.call s o r s'

/-- The same moves, with notes that the surroundings leave behind and that no
    move looks at. The latest notes come first. -/
def Shared.noting {Note : Type*} (sh : Shared σ Env Op Resp) (note : σ → Env → List Note) :
    Shared (σ × List Note) Env Op Resp where
  init := fun s => sh.init s.1 ∧ s.2 = []
  env := fun s e s' => sh.env s.1 e s'.1 ∧ s'.2 = note s.1 e ++ s.2
  call := fun s o r s' => sh.call s.1 o r s'.1 ∧ s'.2 = s.2

/-- A running or returned task. -/
structure Task (σ Op : Type*) (Resp : Op → Type*) (Job Out : Type*) where
  job : Job
  /-- What is left to do; `pure a` once the task has returned `a`. -/
  todo : Prog Op Resp Out
  began : Nat
  started : σ
  /-- Time and shared state at the return. -/
  ended : Option (Nat × σ)

/-- The shared state, the number of steps taken so far, and all tasks. -/
structure Pool (σ Op : Type*) (Resp : Op → Type*) (Job Out : Type*) where
  shared : σ
  clock : Nat
  tasks : List (Task σ Op Resp Job Out)

/-- The stamp of a program that is left with `p` at time `n`. -/
def stamp (p : Prog Op Resp Out) (n : Nat) (s : σ) : Option (Nat × σ) :=
  match p with
  | .pure _ => some (n, s)
  | .call _ _ => none

/-- The task of a job that starts now. -/
def Task.start (j : Job) (p : Prog Op Resp Out) (n : Nat) (s : σ) : Task σ Op Resp Job Out where
  job := j
  todo := p
  began := n
  started := s
  ended := stamp p n s

/-- The task after a call, with `p` left to do. -/
def Task.resume (t : Task σ Op Resp Job Out) (p : Prog Op Resp Out) (n : Nat) (s : σ) :
    Task σ Op Resp Job Out :=
  { t with todo := p, ended := stamp p n s }

/-- Steps of a pool: a move of the surroundings, a new task, a call of task `t`. -/
inductive Act (Env Op Job : Type*) where
  | env (e : Env)
  | spawn (j : Job)
  | call (t : Nat) (o : Op)

/-- The transition system of all interleavings of tasks running `prog`. -/
def tasks (sh : Shared σ Env Op Resp) (prog : Job → Prog Op Resp Out) :
    System (Pool σ Op Resp Job Out) (Act Env Op Job) where
  init := fun c => sh.init c.shared ∧ c.clock = 0 ∧ c.tasks = []
  step := fun c a c' =>
    match a with
    | .env e =>
        ∃ s', sh.env c.shared e s' ∧
          c' = { c with shared := s', clock := c.clock + 1 }
    | .spawn j =>
        c' = { c with
          clock := c.clock + 1
          tasks := c.tasks ++ [Task.start j (prog j) (c.clock + 1) c.shared] }
    | .call t o =>
        ∃ task k r s', c.tasks[t]? = some task ∧ task.todo = .call o k ∧
          sh.call c.shared o r s' ∧
          c' = { shared := s'
                 clock := c.clock + 1
                 tasks := c.tasks.set t (task.resume (k r) (c.clock + 1) s') }

/-- A run whose moves all meet a side condition is a run. -/
theorem tasks_of_restrict {sh : Shared σ Env Op Resp} {ok_env : σ → Env → Prop}
    {ok_call : σ → Op → Prop} {prog : Job → Prog Op Resp Out} {c : Pool σ Op Resp Job Out}
    (hc : (tasks (sh.restrict ok_env ok_call) prog).Reachable c) :
    (tasks sh prog).Reachable c := by
  induction hc with
  | init h => exact .init h
  | step a _ h ih =>
    refine .step a ih ?_
    -- only the surroundings and the calls are restricted
    match a, h with
    | .env e, ⟨s', hs, hc⟩ => exact ⟨s', hs.2, hc⟩
    | .spawn j, h => exact h
    | .call t o, ⟨task, k, r, s', ht, hk, hs, hc⟩ => exact ⟨task, k, r, s', ht, hk, hs.2, hc⟩

/-- What all moves of the shared state keep, whoever makes them, holds in every
    run. -/
theorem tasks_shared {sh : Shared σ Env Op Resp} {prog : Job → Prog Op Resp Out}
    {c : Pool σ Op Resp Job Out} (P : σ → Prop) (hinit : ∀ s, sh.init s → P s)
    (henv : ∀ s e s', P s → sh.env s e s' → P s')
    (hcall : ∀ s o r s', P s → sh.call s o r s' → P s')
    (hc : (tasks sh prog).Reachable c) : P c.shared := by
  refine System.invariant (fun c => P c.shared) ?_ ?_ c hc
  · intro c₀ h
    exact hinit _ h.1
  · intro c₀ a c' ih hstep
    match a with
    | .env e =>
      obtain ⟨s', hs, rfl⟩ := hstep
      exact henv _ e s' ih hs
    | .spawn j =>
      cases hstep
      exact ih
    | .call t o =>
      obtain ⟨task, k, r, s', _, _, hs, rfl⟩ := hstep
      exact hcall _ o r s' ih hs

/-! ### A task that runs alone -/

/-- `Alone sh p s a s'`: without interference, `p` can run from `s` and return
    `a` in `s'`. -/
inductive Alone {α : Type*} (sh : Shared σ Env Op Resp) : Prog Op Resp α → σ → α → σ → Prop where
  | pure (a : α) (s : σ) : Alone sh (.pure a) s a s
  | call {o : Op} {k : Resp o → Prog Op Resp α} {s s'' : σ} {a : α} (r : Resp o) (s' : σ) :
      sh.call s o r s' → Alone sh (k r) s' a s'' → Alone sh (.call o k) s a s''

/-- What a task can do alone it can do from any pool that it is part of. -/
theorem Alone.reachable {sh : Shared σ Env Op Resp} {prog : Job → Prog Op Resp Out}
    {p : Prog Op Resp Out} {s s' : σ} {a : Out} (h : Alone sh p s a s')
    {c : Pool σ Op Resp Job Out} (hc : (tasks sh prog).Reachable c) (hs : c.shared = s) {i : Nat}
    {t : Task σ Op Resp Job Out} (hi : c.tasks[i]? = some t) (ht : t.todo = p) :
    ∃ c', (tasks sh prog).Reachable c' ∧ c'.shared = s' ∧
      ∃ t', c'.tasks = c.tasks.set i t' ∧ t'.todo = .pure a := by
  induction h generalizing c t with
  | pure a s =>
    obtain ⟨hlt, rfl⟩ := List.getElem?_eq_some_iff.mp hi
    exact ⟨c, hc, hs, _, (List.set_getElem_self hlt).symm, ht⟩
  | @call o k s s'' a r s' hcall _ ih =>
    -- the call is a move of the pool, and the rest of the program runs in the pool after it
    have hstep : (tasks sh prog).Reachable
        { shared := s'
          clock := c.clock + 1
          tasks := c.tasks.set i (t.resume (k r) (c.clock + 1) s') } :=
      .step (.call i o) hc ⟨t, k, r, s', hi, ht, hs ▸ hcall, rfl⟩
    have hlen : i < c.tasks.length := (List.getElem?_eq_some_iff.mp hi).1
    obtain ⟨c', hc', hs', t', hset, htodo⟩ := ih hstep rfl (List.getElem?_set_self hlen) rfl
    exact ⟨c', hc', hs', t', by simpa using hset, htodo⟩

/-- A new task that runs alone. -/
theorem Alone.spawn {sh : Shared σ Env Op Resp} {prog : Job → Prog Op Resp Out} {s' : σ} {a : Out}
    {c : Pool σ Op Resp Job Out} (hc : (tasks sh prog).Reachable c) {j : Job}
    (h : Alone sh (prog j) c.shared a s') :
    ∃ c', (tasks sh prog).Reachable c' ∧ c'.shared = s' ∧ ∃ t ∈ c'.tasks, t.todo = .pure a := by
  have hstep : (tasks sh prog).Reachable
      { c with
        clock := c.clock + 1
        tasks := c.tasks ++ [Task.start j (prog j) (c.clock + 1) c.shared] } :=
    .step (.spawn j) hc rfl
  obtain ⟨c', hc', hs', t', hset, htodo⟩ :=
    h.reachable hstep rfl List.getElem?_concat_length rfl
  refine ⟨c', hc', hs', t', ?_, htodo⟩
  rw [hset]
  exact List.mem_set (by simp) t'

/-! ### What a task that runs alone has done

    Each rule reads a program backwards: how it came to its result. -/

section alone
variable {sh : Shared σ Env Op Resp} {α β : Type w} {s s' : σ}

theorem alone_pure {a b : α} : Alone sh (.pure a) s b s' ↔ b = a ∧ s' = s := by
  constructor
  · intro h
    cases h
    exact ⟨rfl, rfl⟩
  · rintro ⟨rfl, rfl⟩
    exact .pure _ _

theorem alone_call {o : Op} {k : Resp o → Prog Op Resp α} {a : α} :
    Alone sh (.call o k) s a s' ↔ ∃ r t, sh.call s o r t ∧ Alone sh (k r) t a s' := by
  constructor
  · intro h
    cases h with
    | call r t hr h => exact ⟨r, t, hr, h⟩
  · rintro ⟨r, t, hr, h⟩
    exact .call r t hr h

theorem alone_bind {p : Prog Op Resp α} {f : α → Prog Op Resp β} {b : β} :
    Alone sh (p >>= f) s b s' ↔ ∃ a t, Alone sh p s a t ∧ Alone sh (f a) t b s' := by
  induction p generalizing s with
  | pure a => simp [alone_pure, and_assoc]
  | call o k ih =>
    simp only [Prog.call_bind, alone_call, ih]
    constructor
    · rintro ⟨r, t, hr, a, u, ha, hb⟩
      exact ⟨a, u, ⟨r, t, hr, ha⟩, hb⟩
    · rintro ⟨a, u, ⟨r, t, hr, ha⟩, hb⟩
      exact ⟨r, t, hr, a, u, ha, hb⟩

theorem alone_map {p : Prog Op Resp α} {f : α → β} {b : β} :
    Alone sh (f <$> p) s b s' ↔ ∃ a, Alone sh p s a s' ∧ b = f a := by
  rw [← bind_pure_comp, alone_bind]
  simp [alone_pure]

/-- Sequencing of programs that can fail. -/
theorem alone_run_bind {ε : Type w} {x : ExceptT ε (Prog Op Resp) α}
    {f : α → ExceptT ε (Prog Op Resp) β} {r : Except ε β} :
    Alone sh (x >>= f).run s r s' ↔
      (∃ a t, Alone sh x.run s (.ok a) t ∧ Alone sh (f a).run t r s') ∨
      (∃ e, Alone sh x.run s (.error e) s' ∧ r = .error e) := by
  rw [ExceptT.run_bind, alone_bind]
  constructor
  · rintro ⟨b, t, hb, h⟩
    cases b with
    | ok a => exact .inl ⟨a, t, hb, h⟩
    | error e =>
      obtain ⟨rfl, rfl⟩ := alone_pure.mp h
      exact .inr ⟨e, hb, rfl⟩
  · rintro (⟨a, t, ha, h⟩ | ⟨e, he, rfl⟩)
    · exact ⟨.ok a, t, ha, h⟩
    · exact ⟨.error e, s', he, alone_pure.mpr ⟨rfl, rfl⟩⟩

end alone

/-! ### Rely conditions -/

/-- An invariant of the shared state and a preorder that the surroundings
    respect, and the calls that a task may be about to make in a state. -/
structure Rely (sh : Shared σ Env Op Resp) where
  inv : σ → Prop
  rel : σ → σ → Prop
  can : σ → Op → Prop
  refl : ∀ s, rel s s
  trans : ∀ {a b c}, rel a b → rel b c → rel a c
  init_inv : ∀ {s}, sh.init s → inv s
  env_ok : ∀ {s e s'}, inv s → sh.env s e s' → inv s' ∧ rel s s'

namespace Rely

variable {sh : Shared σ Env Op Resp} (R : Rely sh) {α β : Type*}

/-- `R.wp Q p s`: whenever `p` runs from `s`, with any interference that the
    preorder allows before every call and before the return, it makes only
    calls that `can` allows, they respect the invariant and the preorder, and a
    result `a` returned in state `s'` satisfies `Q a s'`. -/
def wp (Q : α → σ → Prop) : Prog Op Resp α → σ → Prop
  | .pure a, s => ∀ s', R.inv s' → R.rel s s' → Q a s'
  | .call o k, s => ∀ s', R.inv s' → R.rel s s' → R.can s' o ∧
      ∀ r s'', sh.call s' o r s'' → R.inv s'' ∧ R.rel s' s'' ∧ wp Q (k r) s''

/-- Every call is allowed and respects the invariant and the preorder, whoever
    makes it. -/
structure Kept : Prop where
  can : ∀ s o, R.can s o
  kept : ∀ {s o r s'}, R.inv s → sh.call s o r s' → R.inv s' ∧ R.rel s s'

variable {R}

/-- Interference does not invalidate a weakest precondition. -/
theorem wp_stable {Q : α → σ → Prop} {p : Prog Op Resp α} {s s' : σ}
    (hr : R.rel s s') (h : R.wp Q p s) : R.wp Q p s' := by
  cases p with
  | pure a =>
    intro s₁ hi hr₁
    exact h s₁ hi (R.trans hr hr₁)
  | call o k =>
    intro s₁ hi hr₁
    exact h s₁ hi (R.trans hr hr₁)

theorem wp_mono {Q Q' : α → σ → Prop} {p : Prog Op Resp α} {s : σ}
    (hq : ∀ a s, Q a s → Q' a s) (h : R.wp Q p s) : R.wp Q' p s := by
  induction p generalizing s with
  | pure a =>
    intro s' hi hr
    exact hq a s' (h s' hi hr)
  | call o k ih =>
    intro s' hi hr
    refine ⟨(h s' hi hr).1, fun r s'' hc => ?_⟩
    obtain ⟨hi', hr', h'⟩ := (h s' hi hr).2 r s'' hc
    exact ⟨hi', hr', ih r h'⟩

/-- A postcondition that holds everywhere needs no precondition. -/
theorem wp_of_forall (hk : R.Kept) {Q : α → σ → Prop} (hq : ∀ a s, Q a s) (p : Prog Op Resp α)
    (s : σ) : R.wp Q p s := by
  induction p generalizing s with
  | pure a => intro s' _ _; exact hq a s'
  | call o k ih =>
    intro s' hi _
    refine ⟨hk.can s' o, fun r s'' hc => ?_⟩
    exact ⟨(hk.kept hi hc).1, (hk.kept hi hc).2, ih r s''⟩

/-- The rule for returning, for a postcondition that interference preserves. -/
theorem wp_pure {Q : α → σ → Prop} {a : α} {s : σ}
    (hstable : ∀ s', R.inv s' → R.rel s s' → Q a s') : R.wp Q (.pure a) s :=
  hstable

/-- The rule for a call. -/
theorem wp_call {Q : α → σ → Prop} {o : Op} {k : Resp o → Prog Op Resp α} {s : σ}
    (hcan : ∀ s', R.inv s' → R.rel s s' → R.can s' o)
    (h : ∀ s', R.inv s' → R.rel s s' → ∀ r s'', sh.call s' o r s'' →
      R.inv s'' ∧ R.rel s' s'' ∧ R.wp Q (k r) s'') :
    R.wp Q (.call o k) s :=
  fun s' hi hr => ⟨hcan s' hi hr, h s' hi hr⟩

/-- The rule for a call, when all calls respect the invariant. -/
theorem wp_call_kept (hk : R.Kept) {Q : α → σ → Prop} {o : Op} {k : Resp o → Prog Op Resp α}
    {s : σ} (h : ∀ s', R.inv s' → R.rel s s' → ∀ r s'', sh.call s' o r s'' → R.wp Q (k r) s'') :
    R.wp Q (.call o k) s := by
  refine wp_call (fun s' _ _ => hk.can s' o) ?_
  intro s' hi hr r s'' hc
  exact ⟨(hk.kept hi hc).1, (hk.kept hi hc).2, h s' hi hr r s'' hc⟩

/-- The state in which a program returns satisfies the invariant and comes after
    the state in which it was started. -/
theorem wp_frame {Q : α → σ → Prop} {p : Prog Op Resp α} {s : σ} (h : R.wp Q p s) :
    R.wp (fun a s' => R.inv s' ∧ R.rel s s' ∧ Q a s') p s := by
  induction p generalizing s with
  | pure a =>
    intro s' hi' hr
    exact ⟨hi', hr, h s' hi' hr⟩
  | call o k ih =>
    intro s' hi' hr
    refine ⟨(h s' hi' hr).1, fun r s'' hc => ?_⟩
    obtain ⟨hi'', hr'', h'⟩ := (h s' hi' hr).2 r s'' hc
    refine ⟨hi'', hr'', wp_mono ?_ (ih r h')⟩
    -- interference before the call, the call itself and all that follows compose
    intro a t hpost
    obtain ⟨hit, hrt, hq⟩ := hpost
    exact ⟨hit, R.trans (R.trans hr hr'') hrt, hq⟩

/-- The rule for sequencing. -/
theorem wp_bind {α β : Type w} {Q : β → σ → Prop} {p : Prog Op Resp α}
    {f : α → Prog Op Resp β} {s : σ} (hi : R.inv s)
    (h : R.wp (fun a s' => R.inv s' → R.rel s s' → R.wp Q (f a) s') p s) :
    R.wp Q (p >>= f) s := by
  -- the state between the two programs satisfies the invariant, so it can be assumed there
  suffices hb : ∀ t, R.inv t → R.wp (fun a s' => R.wp Q (f a) s') p t → R.wp Q (p >>= f) t by
    refine hb s hi (wp_mono ?_ (wp_frame h))
    intro a s' hpost
    obtain ⟨hi', hr, hq⟩ := hpost
    exact hq hi' hr
  clear h hi
  intro t hi h
  induction p generalizing t with
  | pure a => exact h t hi (R.refl t)
  | call o k ih =>
    intro s' hi' hr
    refine ⟨(h s' hi' hr).1, fun r s'' hc => ?_⟩
    obtain ⟨hi'', hr'', h'⟩ := (h s' hi' hr).2 r s'' hc
    exact ⟨hi'', hr'', ih r s'' hi'' h'⟩

theorem wp_map {α β : Type w} {Q : β → σ → Prop} {p : Prog Op Resp α} {f : α → β} {s : σ}
    (h : R.wp (fun a s' => Q (f a) s') p s) : R.wp Q (f <$> p) s := by
  induction p generalizing s with
  | pure a => exact h
  | call o k ih =>
    intro s' hi' hr
    refine ⟨(h s' hi' hr).1, fun r s'' hc => ?_⟩
    obtain ⟨hi'', hr'', h'⟩ := (h s' hi' hr).2 r s'' hc
    exact ⟨hi'', hr'', ih r h'⟩

/-- What holds of every successful outcome. -/
def ifOk {ε : Type*} (Q : α → σ → Prop) (r : Except ε α) (s : σ) : Prop :=
  ∀ a, r = .ok a → Q a s

theorem wp_error {ε : Type*} {Q : α → σ → Prop} {e : ε} {s : σ} :
    R.wp (ifOk Q) (.pure (.error e)) s := by
  intro s' _ _ a ha
  cases ha

/-- Sequencing, when only successful outcomes matter. -/
theorem wp_ifOk_bind {ε α β : Type w} {Q : β → σ → Prop}
    {x : ExceptT ε (Prog Op Resp) α} {f : α → ExceptT ε (Prog Op Resp) β} {s : σ} (hi : R.inv s)
    (h : R.wp (ifOk fun a s' => R.inv s' → R.rel s s' → R.wp (ifOk Q) (f a).run s') x.run s) :
    R.wp (ifOk Q) (x >>= f).run s := by
  rw [ExceptT.run_bind]
  refine wp_bind hi (wp_mono ?_ h)
  intro r s' hr hi' hrel
  cases r with
  | ok a => exact hr a rfl hi' hrel
  | error e => exact wp_error

/-- What a run keeps about each of its tasks: the states it remembers are
    before the current one, what is left of it still establishes its
    postcondition, and if it has returned, the postcondition held then. -/
structure TaskInv (R : Rely sh) (Post : Job → σ → Out → σ → Prop) (n : Nat) (s : σ)
    (t : Task σ Op Resp Job Out) : Prop where
  began_le : t.began ≤ n
  started_inv : R.inv t.started
  started_rel : R.rel t.started s
  safe : R.wp (Post t.job t.started) t.todo s
  returned : ∀ {m e}, t.ended = some (m, e) →
    m ≤ n ∧ R.rel e s ∧ ∃ a, t.todo = .pure a ∧ Post t.job t.started a e

/-- The pool invariant behind `tasks_sound`. -/
structure PoolInv (R : Rely sh) (Post : Job → σ → Out → σ → Prop)
    (c : Pool σ Op Resp Job Out) : Prop where
  inv : R.inv c.shared
  task : ∀ t ∈ c.tasks, TaskInv R Post c.clock c.shared t
  ordered : ∀ t₁ ∈ c.tasks, ∀ t₂ ∈ c.tasks, ∀ {m e}, t₁.ended = some (m, e) →
    m ≤ t₂.began → R.rel e t₂.started

variable {Post : Job → σ → Out → σ → Prop}

/-- Time and interference pass over a task that does not move. -/
theorem TaskInv.wait {n n' : Nat} {s s' : σ} {t : Task σ Op Resp Job Out}
    (h : TaskInv R Post n s t) (hn : n ≤ n') (hr : R.rel s s') : TaskInv R Post n' s' t where
  began_le := Nat.le_trans h.began_le hn
  started_inv := h.started_inv
  started_rel := R.trans h.started_rel hr
  safe := wp_stable hr h.safe
  returned := by
    intro m e he
    obtain ⟨hm, hre, ha⟩ := h.returned he
    exact ⟨Nat.le_trans hm hn, R.trans hre hr, ha⟩

/-- The return stamp of a safe program records its postcondition. -/
theorem returned_of_stamp {Q : Out → σ → Prop} {p : Prog Op Resp Out} {n m : Nat} {s e : σ}
    (hi : R.inv s) (h : R.wp Q p s) (he : stamp p n s = some (m, e)) :
    m = n ∧ e = s ∧ ∃ a, p = .pure a ∧ Q a e := by
  cases p with
  | pure a =>
    simp only [stamp, Option.some.injEq, Prod.mk.injEq] at he
    obtain ⟨rfl, rfl⟩ := he
    exact ⟨rfl, rfl, a, rfl, h s hi (R.refl s)⟩
  | call o k => simp [stamp] at he

theorem TaskInv.of_stamp {n : Nat} {s : σ} {t : Task σ Op Resp Job Out} (hi : R.inv s)
    (hb : t.began ≤ n) (hsi : R.inv t.started) (hs : R.rel t.started s)
    (hw : R.wp (Post t.job t.started) t.todo s) (he : t.ended = stamp t.todo n s) :
    TaskInv R Post n s t where
  began_le := hb
  started_inv := hsi
  started_rel := hs
  safe := hw
  returned := by
    intro m e h
    rw [he] at h
    obtain ⟨rfl, rfl, ha⟩ := returned_of_stamp hi hw h
    exact ⟨Nat.le_refl _, R.refl _, ha⟩

theorem PoolInv.env {c : Pool σ Op Resp Job Out} {e : Env} {s' : σ} (h : PoolInv R Post c)
    (hs : sh.env c.shared e s') :
    PoolInv R Post { c with shared := s', clock := c.clock + 1 } where
  inv := (R.env_ok h.inv hs).1
  task := fun t ht => (h.task t ht).wait (Nat.le_succ _) (R.env_ok h.inv hs).2
  ordered := h.ordered

theorem PoolInv.spawn {c : Pool σ Op Resp Job Out} {j : Job} {p : Prog Op Resp Out}
    (h : PoolInv R Post c) (hp : R.wp (Post j c.shared) p c.shared) :
    PoolInv R Post { c with
      clock := c.clock + 1
      tasks := c.tasks ++ [Task.start j p (c.clock + 1) c.shared] } := by
  have hold : ∀ t ∈ c.tasks, TaskInv R Post (c.clock + 1) c.shared t := fun t ht =>
    (h.task t ht).wait (Nat.le_succ _) (R.refl _)
  have hnew : TaskInv R Post (c.clock + 1) c.shared (Task.start j p (c.clock + 1) c.shared) :=
    .of_stamp h.inv (Nat.le_refl _) h.inv (R.refl _) hp rfl
  refine ⟨h.inv, ?_, ?_⟩
  · intro t ht
    rcases List.mem_append.mp ht with ht | ht
    · exact hold t ht
    · rw [List.mem_singleton.mp ht]
      exact hnew
  · intro t₁ ht₁ t₂ ht₂ m e he hm
    -- the new task began after every old one, and nothing has moved
    rcases List.mem_append.mp ht₁ with ht₁ | ht₁ <;> rcases List.mem_append.mp ht₂ with ht₂ | ht₂
    · exact h.ordered t₁ ht₁ t₂ ht₂ he hm
    · rw [List.mem_singleton.mp ht₂]
      exact ((h.task t₁ ht₁).returned he).2.1
    · -- the new task cannot have ended before an older one began
      rw [List.mem_singleton.mp ht₁] at he
      obtain ⟨rfl, _⟩ := returned_of_stamp h.inv hp he
      have := (h.task t₂ ht₂).began_le
      omega
    · rw [List.mem_singleton.mp ht₁] at he
      rw [List.mem_singleton.mp ht₂]
      exact (hnew.returned he).2.1

theorem PoolInv.call {c : Pool σ Op Resp Job Out} {i : Nat} {t : Task σ Op Resp Job Out} {o : Op}
    {k : Resp o → Prog Op Resp Out} {r : Resp o} {s' : σ} (h : PoolInv R Post c)
    (hi : c.tasks[i]? = some t) (ht : t.todo = .call o k) (hs : sh.call c.shared o r s') :
    PoolInv R Post
      { shared := s'
        clock := c.clock + 1
        tasks := c.tasks.set i (t.resume (k r) (c.clock + 1) s') } := by
  have hmem : t ∈ c.tasks := List.mem_of_getElem? hi
  -- the task is prepared for the state in which its call happens
  obtain ⟨hinv, hrel, hw⟩ : R.inv s' ∧ R.rel c.shared s' ∧
      R.wp (Post t.job t.started) (k r) s' := by
    have := (h.task t hmem).safe
    rw [ht] at this
    exact (this _ h.inv (R.refl _)).2 r s' hs
  have hold : ∀ u ∈ c.tasks, TaskInv R Post (c.clock + 1) s' u := fun u hu =>
    (h.task u hu).wait (Nat.le_succ _) hrel
  have hnew : TaskInv R Post (c.clock + 1) s' (t.resume (k r) (c.clock + 1) s') :=
    .of_stamp hinv (hold t hmem).began_le (hold t hmem).started_inv (hold t hmem).started_rel hw rfl
  refine ⟨hinv, ?_, ?_⟩
  · intro u hu
    rcases List.mem_or_eq_of_mem_set hu with hu | rfl
    · exact hold u hu
    · exact hnew
  · intro t₁ ht₁ t₂ ht₂ m e he hm
    -- a moving task keeps the state and the time it was started with
    have h₂ : ∃ u ∈ c.tasks, u.began = t₂.began ∧ u.started = t₂.started := by
      rcases List.mem_or_eq_of_mem_set ht₂ with ht₂ | rfl
      · exact ⟨t₂, ht₂, rfl, rfl⟩
      · exact ⟨t, hmem, rfl, rfl⟩
    obtain ⟨u, hu, hub, hus⟩ := h₂
    rcases List.mem_or_eq_of_mem_set ht₁ with ht₁ | rfl
    · rw [← hus]
      exact h.ordered t₁ ht₁ u hu he (by omega)
    · obtain ⟨rfl, _⟩ := returned_of_stamp hinv hw he
      have := (h.task u hu).began_le
      omega

/-- **Soundness**: if every job establishes its postcondition from every
    state it can be started in, then in every reachable pool the invariant
    holds, every returned task satisfied its postcondition when it returned,
    and a task that returned before another one began did so in a state that
    the preorder puts before the other's start. -/
theorem tasks_sound (R : Rely sh) (Post : Job → σ → Out → σ → Prop) {prog : Job → Prog Op Resp Out}
    (hprog : ∀ j s, R.inv s → R.wp (Post j s) (prog j) s) {c : Pool σ Op Resp Job Out}
    (hc : (tasks sh prog).Reachable c) : PoolInv R Post c := by
  refine System.invariant (PoolInv R Post) ?_ ?_ c hc
  · intro s hpost
    obtain ⟨hinit, _, hnil⟩ := hpost
    refine ⟨R.init_inv hinit, ?_, ?_⟩ <;> simp [hnil]
  · intro s a s' ih hstep
    match a with
    | .env e =>
      obtain ⟨s₁, hs, rfl⟩ := hstep
      exact ih.env hs
    | .spawn j =>
      cases hstep
      exact ih.spawn (hprog j _ ih.inv)
    | .call i o =>
      obtain ⟨t, k, r, s₁, hi, ht, hs, rfl⟩ := hstep
      exact ih.call hi ht hs

end Rely

end LTS

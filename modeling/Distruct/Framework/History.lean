import Distruct.Framework.Projection
import Mathlib.Data.Nat.Find

/-! # Runs in Time

    Statements about what happens earlier and later in one run of a system, and
    what they need of the workers of a crew.

    * `System.Run`: a whole run with its time.
    * `Discipline.strengthen`: a discipline with one more invariant.
    * `CrewInv.since`: what a worker does after a state in which it had not begun.
-/

namespace LTS

/-! ### Runs -/

namespace System

variable {State : Type*} {Label : Type*} {sys : System State Label}

/-- A run in time. The system may stand still, so an endless run also stands for
    those that end. -/
structure Run (sys : System State Label) where
  state : Nat → State
  starts : sys.init (state 0)
  next : ∀ t, state (t + 1) = state t ∨ ∃ l, sys.step (state t) l (state (t + 1))

namespace Run

theorem steps (run : sys.Run) {t t' : Nat} (h : t ≤ t') : sys.Steps (run.state t) (run.state t') := by
  induction h with
  | refl => exact .refl
  | @step n _ ih =>
    rcases run.next n with heq | hstep
    · show sys.Steps (run.state t) (run.state (n + 1))
      rw [heq]
      exact ih
    · exact ih.tail hstep

theorem reachable (run : sys.Run) (t : Nat) : sys.Reachable (run.state t) :=
  (run.steps (Nat.zero_le t)).reachable (.init run.starts)

/-- A run can take other steps from some time on. -/
theorem extend (run : sys.Run) (t : Nat) {s : State} (h : sys.Steps (run.state t) s) :
    ∃ (run' : sys.Run) (t' : Nat), t ≤ t' ∧ run'.state t' = s ∧
      ∀ u ≤ t, run'.state u = run.state u := by
  induction h with
  | refl => exact ⟨run, t, Nat.le_refl t, rfl, fun _ _ => rfl⟩
  | @tail s₁ s₂ _ hstep ih =>
    obtain ⟨run₁, t₁, hle, hs₁, hsame⟩ := ih
    -- the new step is taken at time `t₁`, and then the system stands still
    refine ⟨⟨fun u => if u ≤ t₁ then run₁.state u else s₂, ?_, ?_⟩, t₁ + 1, ?_, ?_, ?_⟩
    · simp only [Nat.zero_le, if_true]
      exact run₁.starts
    · intro u
      rcases Nat.lt_trichotomy u t₁ with hlt | rfl | hlt
      · have hu : u ≤ t₁ := Nat.le_of_lt hlt
        have hu' : u + 1 ≤ t₁ := hlt
        simp only [hu, hu', if_true]
        exact run₁.next u
      · have hu : ¬ u + 1 ≤ u := by omega
        simp only [Nat.le_refl, if_true, hu, if_false, hs₁]
        exact .inr hstep
      · have hu : ¬ u ≤ t₁ := by omega
        have hu' : ¬ u + 1 ≤ t₁ := by omega
        simp only [hu, hu', if_false]
        exact .inl trivial
    · exact Nat.le_succ_of_le hle
    · have hu : ¬ t₁ + 1 ≤ t₁ := by omega
      simp only [hu, if_false]
    · intro u hu
      have hu' : u ≤ t₁ := Nat.le_trans hu hle
      simp only [hu', if_true]
      exact hsame u hu

/-- Every reachable state lies on some run. -/
theorem exists_of_reachable {s : State} (h : sys.Reachable s) :
    ∃ (run : sys.Run) (t : Nat), run.state t = s := by
  induction h with
  | @init s h => exact ⟨⟨fun _ => s, h, fun _ => .inl rfl⟩, 0, rfl⟩
  | step l _ hstep ih =>
    obtain ⟨run, t, ht⟩ := ih
    subst ht
    obtain ⟨run', t', _, ht', _⟩ := run.extend t (.tail .refl ⟨l, hstep⟩)
    exact ⟨run', t', ht'⟩

end Run

end System

/-! ### Workers -/

variable {ι σ Env Op Job Out : Type*} {Resp : Op → Type*}

namespace Discipline

variable {site : Site ι σ Env Op Job Resp} {D : Discipline site} {i : ι} {α : Type*}

/-- The discipline with one more invariant, which the surroundings keep. -/
def strengthen (D : Discipline site) (J : σ → Prop) (hinit : ∀ {s}, site.init s → J s)
    (henv : ∀ {s e s'}, D.inv s → J s → site.env s e s' → J s') : Discipline site where
  inv := fun s => D.inv s ∧ J s
  rel := D.rel
  can := D.can
  idle := D.idle
  refl := D.refl
  trans := D.trans
  idle_stable := D.idle_stable
  init_ok := fun h => ⟨⟨(D.init_ok h).1, hinit h⟩, (D.init_ok h).2⟩
  env_ok := fun h he => ⟨⟨(D.env_ok h.1 he).1, henv h.1 h.2 he⟩, (D.env_ok h.1 he).2⟩

section strengthen
variable {J : σ → Prop} (hinit : ∀ {s}, site.init s → J s)
  (henv : ∀ {s e s'}, D.inv s → J s → site.env s e s' → J s')

theorem Kept.strengthen (hk : D.Kept)
    (hcall : ∀ {i s o r s'}, D.inv s → J s → site.call i s o r s' → J s') :
    (D.strengthen J hinit henv).Kept where
  can := hk.can
  kept := by
    intro i s o r s' hi hc
    obtain ⟨hinv, hrel⟩ := hk.kept hi.1 hc
    exact ⟨⟨hinv, hcall hi.1 hi.2 hc⟩, hrel⟩

/-- What was proved with the invariant that was there before. -/
theorem wp_strengthen (hcall : ∀ {i s o r s'}, D.inv s → J s → site.call i s o r s' → J s')
    {Q : α → σ → Prop} {p : Prog Op Resp α} {s : σ} (h : D.wp i Q p s) :
    (D.strengthen J hinit henv).wp i Q p s := by
  induction p generalizing s with
  | pure a =>
    intro s' hi hr
    exact h s' hi.1 hr
  | call o k ih =>
    intro s' hi hr
    obtain ⟨hcan, hnext⟩ := h s' hi.1 hr
    refine ⟨hcan, ?_⟩
    intro r s'' hc
    obtain ⟨hi', hr', h'⟩ := hnext r s'' hc
    exact ⟨⟨hi', hcall hi.1 hi.2 hc⟩, hr', ih r h'⟩

end strengthen

/-- Two postconditions that were proved separately. -/
theorem wp_and {Q Q' : α → σ → Prop} {p : Prog Op Resp α} {s : σ} (h : D.wp i Q p s)
    (h' : D.wp i Q' p s) : D.wp i (fun a s' => Q a s' ∧ Q' a s') p s := by
  induction p generalizing s with
  | pure a =>
    intro s' hi hr
    exact ⟨h s' hi hr, h' s' hi hr⟩
  | call o k ih =>
    intro s' hi hr
    obtain ⟨hcan, hnext⟩ := h s' hi hr
    obtain ⟨_, hnext'⟩ := h' s' hi hr
    refine ⟨hcan, ?_⟩
    intro r s'' hc
    obtain ⟨hi', hr', hk⟩ := hnext r s'' hc
    obtain ⟨_, _, hk'⟩ := hnext' r s'' hc
    exact ⟨hi', hr', ih r hk hk'⟩

variable [DecidableEq ι] {Post : ι → Out → σ → Prop} {prog : ι → Job → Prog Op Resp Out}
  {c c' : Crew ι σ Op Resp Out}

/-- What a worker does that has not begun in some state: it still has not, or what
    is left of its program establishes what can be said of a program that was
    begun after that state. `Before` is what is known until it begins, `Busy`
    says that it cannot begin again. -/
theorem CrewInv.since (hinv : ∀ c, (crew site prog).Reachable c → CrewInv D Post c)
    (hother : ∀ j k s s', j ≠ i → D.inv s → site.start j s k s' → D.rel i s s')
    (Before Busy : σ → Prop) (hbefore : ∀ s s', D.inv s → D.rel i s s' → Before s → Before s')
    (hbusy : ∀ s s', D.rel i s s' → Busy s → Busy s')
    (hcall : ∀ s o r s', Busy s → site.call i s o r s' → Busy s')
    (hnot : ∀ s j s', Busy s → ¬ site.start i s j s') {Q : Out → σ → Prop}
    (hbegin : ∀ j s s', D.inv s → Before s → site.start i s j s' → Busy s' ∧ D.wp i Q (prog i j) s')
    (hc : (crew site prog).Reachable c) (hsteps : (crew site prog).Steps c c')
    (hb : Before c.shared) (hw : c.worker i = none) :
    (Before c'.shared ∧ c'.worker i = none) ∨
      (Busy c'.shared ∧ ∃ p, c'.worker i = some p ∧ D.wp i Q p c'.shared) := by
  induction hsteps with
  | refl => exact .inl ⟨hb, hw⟩
  | @tail c₁ c₂ hpre hstep ih =>
    obtain ⟨m, hm⟩ := hstep
    have h₁ := hinv c₁ (System.Steps.reachable hpre hc)
    -- a step that the worker does not take itself
    have hothers : ∀ s' worker, D.rel i c₁.shared s' → c₂ = ⟨s', worker⟩ →
        worker i = c₁.worker i → (Before c₂.shared ∧ c₂.worker i = none) ∨
          (Busy c₂.shared ∧ ∃ p, c₂.worker i = some p ∧ D.wp i Q p c₂.shared) := by
      intro s' worker hr heq hsame
      subst heq
      rcases ih with ⟨hb₁, hw₁⟩ | ⟨hbusy₁, p, hp, hwp⟩
      · exact .inl ⟨hbefore _ _ h₁.inv hr hb₁, hsame.trans hw₁⟩
      · exact .inr ⟨hbusy _ _ hr hbusy₁, p, hsame.trans hp, wp_stable hr hwp⟩
    cases m with
    | env e =>
      obtain ⟨s', hs, heq⟩ := hm
      exact hothers s' c₁.worker ((D.env_ok h₁.inv hs).2 i) heq rfl
    | start j k =>
      obtain ⟨s', _, hs, heq⟩ := hm
      by_cases hji : j = i
      · subst hji
        rcases ih with ⟨hb₁, _⟩ | ⟨hbusy₁, _⟩
        · obtain ⟨hbusy', hwp⟩ := hbegin k _ s' h₁.inv hb₁ hs
          subst heq
          exact .inr ⟨hbusy', _, Function.update_self _ _ _, hwp⟩
        · exact absurd hs (hnot _ k s' hbusy₁)
      · exact hothers s' _ (hother j k _ s' hji h₁.inv hs) heq (Function.update_of_ne (Ne.symm hji) _ _)
    | call j o =>
      obtain ⟨k, r, s', hw₁, hs, heq⟩ := hm
      by_cases hji : j = i
      · subst hji
        rcases ih with ⟨_, hnone⟩ | ⟨hbusy₁, p, hp, hwp⟩
        · rw [hnone] at hw₁
          cases hw₁
        · rw [hp] at hw₁
          cases hw₁
          obtain ⟨_, _, hnext⟩ := (hwp _ h₁.inv (D.refl j _)).2 r s' hs
          subst heq
          exact .inr ⟨hcall _ o r s' hbusy₁ hs, _, Function.update_self _ _ _, hnext⟩
      · obtain ⟨_, hrel, _⟩ := (h₁.working j _ hw₁ _ h₁.inv (D.refl j _)).2 r s' hs
        exact hothers s' _ (hrel i (Ne.symm hji)) heq (Function.update_of_ne (Ne.symm hji) _ _)

end Discipline

end LTS

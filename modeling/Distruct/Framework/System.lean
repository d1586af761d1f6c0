import Mathlib.Logic.Relation

/-! # Labelled Transition Systems

    The vocabulary for statements about whole runs:

    * `System`: initial states and a labelled step relation.
    * `System.Reachable`: the states some run of the system ends in.
    * `System.invariant`: the induction rule for safety properties.
    * `System.Trace`: the runs themselves, for statements that relate a state to
      the steps that led to it.
    * `System.Steps`: the states that come after a state.
-/

namespace LTS

variable {State : Type*} {Label : Type*}

/-- A labelled transition system. -/
structure System (State : Type*) (Label : Type*) where
  init : State → Prop
  step : State → Label → State → Prop

namespace System

/-- The states reached by some run. -/
inductive Reachable (sys : System State Label) : State → Prop where
  | init {s : State} : sys.init s → Reachable sys s
  | step {s s' : State} (l : Label) :
      Reachable sys s → sys.step s l s' → Reachable sys s'

/-- **Invariant rule**: what holds initially and is kept by every step
    holds in every reachable state. -/
theorem invariant {sys : System State Label} (P : State → Prop)
    (hinit : ∀ s, sys.init s → P s)
    (hstep : ∀ s l s', P s → sys.step s l s' → P s') :
    ∀ s, sys.Reachable s → P s := by
  intro s hs
  induction hs with
  | init h => exact hinit _ h
  | step l _ h ih => exact hstep _ l _ ih h

/-- `sys.Trace ls s`: a run with the labels `ls`, the latest one first, ends in `s`. -/
inductive Trace (sys : System State Label) : List Label → State → Prop where
  | init {s : State} : sys.init s → Trace sys [] s
  | step {ls : List Label} {s s' : State} (l : Label) :
      Trace sys ls s → sys.step s l s' → Trace sys (l :: ls) s'

/-- `sys.Steps s s'`: some steps, or none, lead from `s` to `s'`. -/
def Steps (sys : System State Label) : State → State → Prop :=
  Relation.ReflTransGen fun s s' => ∃ l, sys.step s l s'

theorem Steps.reachable {sys : System State Label} {s s' : State} (h : sys.Steps s s')
    (hs : sys.Reachable s) : sys.Reachable s' := by
  induction h with
  | refl => exact hs
  | tail _ hstep ih =>
    obtain ⟨l, hl⟩ := hstep
    exact .step l ih hl

end System

end LTS

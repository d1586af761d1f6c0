import Mathlib.Data.List.Basic

/-! # Replaying a Log

    A machine that consumes inputs one at a time and answers each. Feeding it a
    list of inputs gives a state and one answer per input; feeding the same
    list in batches, or continuing from the state of a shorter list, gives the
    same. These are the facts that make replicas of one log agree.
-/

namespace Replay

variable {σ ι ρ : Type*}

/-- Feeds the inputs one after the other and collects the answers. -/
def feed (step : σ → ι → σ × ρ) (s : σ) (inputs : List ι) : σ × List ρ :=
  inputs.foldl (fun acc i => ((step acc.1 i).1, acc.2 ++ [(step acc.1 i).2])) (s, [])

variable (step : σ → ι → σ × ρ)

@[simp] theorem feed_nil (s : σ) : feed step s [] = (s, []) := rfl

/-- The answers collected so far are only ever extended. -/
theorem foldl_answers (s : σ) (out : List ρ) (inputs : List ι) :
    inputs.foldl (fun acc i => ((step acc.1 i).1, acc.2 ++ [(step acc.1 i).2])) (s, out)
      = ((feed step s inputs).1, out ++ (feed step s inputs).2) := by
  induction inputs generalizing s out with
  | nil => simp
  | cons i is ih =>
    rw [feed, List.foldl_cons, List.foldl_cons, ih, ih (step s i).1 ([] ++ [(step s i).2])]
    simp

theorem feed_cons (s : σ) (i : ι) (is : List ι) :
    feed step s (i :: is)
      = ((feed step (step s i).1 is).1, (step s i).2 :: (feed step (step s i).1 is).2) := by
  rw [feed, List.foldl_cons, foldl_answers]
  simp

/-- Continuing is the same as having fed everything at once. -/
theorem feed_append (s : σ) (is js : List ι) :
    feed step s (is ++ js)
      = ((feed step (feed step s is).1 js).1,
          (feed step s is).2 ++ (feed step (feed step s is).1 js).2) := by
  induction is generalizing s with
  | nil => simp
  | cons i is ih => simp [feed_cons, ih]

/-- One answer per input. -/
@[simp] theorem length_feed (s : σ) (inputs : List ι) :
    (feed step s inputs).2.length = inputs.length := by
  induction inputs generalizing s with
  | nil => rfl
  | cons i is ih => simp [feed_cons, ih]

/-- Each answer is given in the state that the inputs before it lead to. -/
theorem getElem?_feed (s : σ) (inputs : List ι) (j : Nat) :
    (feed step s inputs).2[j]?
      = inputs[j]?.map fun i => (step (feed step s (inputs.take j)).1 i).2 := by
  induction inputs generalizing s j with
  | nil => simp
  | cons i is ih =>
    cases j with
    | zero => simp [feed_cons]
    | succ j => simp [feed_cons, ih]

/-- Machines that are fed the same stay related, if one input keeps them so. -/
theorem feed_related {R : σ → σ → Prop} (hstep : ∀ s s' i, R s s' → R (step s i).1 (step s' i).1)
    {s s' : σ} (h : R s s') (inputs : List ι) :
    R (feed step s inputs).1 (feed step s' inputs).1 := by
  induction inputs generalizing s s' with
  | nil => exact h
  | cons i is ih =>
    rw [feed_cons, feed_cons]
    exact ih (hstep s s' i h)

/-! ### Prefixes of a log -/

/-- The state after the first `n` inputs of `log`. -/
def upTo (step : σ → ι → σ × ρ) (s : σ) (log : List ι) (n : Nat) : σ :=
  (feed step s (log.take n)).1

theorem upTo_append {s : σ} {log more : List ι} {n : Nat} (hn : n ≤ log.length) :
    upTo step s (log ++ more) n = upTo step s log n := by
  rw [upTo, upTo, List.take_append_of_le_length hn]

/-- Feeding the inputs that follow the first `n` advances the prefix. -/
theorem feed_upTo {s : σ} {log : List ι} {n : Nat} {more : List ι}
    (hmore : more <+: log.drop n) :
    (feed step (upTo step s log n) more).1 = upTo step s log (n + more.length) := by
  have htake : log.take (n + more.length) = log.take n ++ more := by
    rw [List.take_add, List.prefix_iff_eq_take.mp hmore]
    simp
  rw [upTo, upTo, htake, feed_append]

/-- The answers to a batch are those of the prefixes that the inputs end. -/
theorem getElem?_feed_upTo {s : σ} {log more : List ι} {n j : Nat} (hmore : more <+: log.drop n)
    {r : ρ} (hr : (feed step (upTo step s log n) more).2[j]? = some r) :
    ∃ i, more[j]? = some i ∧ log[n + j]? = some i ∧ r = (step (upTo step s log (n + j)) i).2 := by
  rw [getElem?_feed] at hr
  obtain ⟨i, hi, rfl⟩ := Option.map_eq_some_iff.mp hr
  obtain ⟨hj, _⟩ := List.getElem?_eq_some_iff.mp hi
  refine ⟨i, hi, ?_, ?_⟩
  · obtain ⟨rest, hrest⟩ := hmore
    rw [← List.getElem?_drop, ← hrest, List.getElem?_append_left hj]
    exact hi
  · have hpre : more.take j <+: log.drop n := (List.take_prefix j more).trans hmore
    rw [feed_upTo step hpre, List.length_take, Nat.min_eq_left (Nat.le_of_lt hj)]

end Replay

import Mathlib.Data.List.Nodup
import Mathlib.Logic.Function.Basic

/-! # Fair Read-Write Locks

    Several readers or one writer hold the lock. Whoever asks for it joins the
    end of a queue, and the lock is granted in the order of the queue, so a
    reader does not overtake a writer that waits.

    * `RwLock`: where everybody stands with the lock, and the queue.
    * `RwLock.request`, `Grants`, `acquire`, `release`: the life of a request.
    * `RwLock.Inv`: the queue lists those who wait, and a writer is alone.
-/

/-- What the lock is wanted for. -/
inductive Access where
  | read
  | write
  deriving DecidableEq

/-- Where somebody stands with the lock. -/
inductive Stance where
  | away
  | waiting (a : Access)
  | holding (a : Access)
  deriving DecidableEq

structure RwLock (ι : Type*) where
  stance : ι → Stance
  /-- Those who wait, the first one in front. -/
  queue : List ι

namespace RwLock

variable {ι : Type*}

/-- The lock that nobody has asked for. -/
def unused : RwLock ι := ⟨fun _ => .away, []⟩

/-- It is `i`'s turn, and those who hold the lock leave room. -/
def Grants (l : RwLock ι) (i : ι) (a : Access) : Prop :=
  l.queue.head? = some i ∧ ∀ j b, l.stance j = .holding b → a = .read ∧ b = .read

variable [DecidableEq ι]

/-- `i` joins the end of the queue. -/
def request (l : RwLock ι) (i : ι) (a : Access) : RwLock ι :=
  ⟨Function.update l.stance i (.waiting a), l.queue ++ [i]⟩

/-- `i`, who is the first in the queue, gets the lock. -/
def acquire (l : RwLock ι) (i : ι) (a : Access) : RwLock ι :=
  ⟨Function.update l.stance i (.holding a), l.queue.tail⟩

/-- `i` gives the lock back. -/
def release (l : RwLock ι) (i : ι) : RwLock ι :=
  ⟨Function.update l.stance i .away, l.queue⟩

variable {l : RwLock ι} {i j : ι} {a b : Access}

@[simp] theorem request_stance : (l.request i a).stance i = .waiting a := by simp [request]

@[simp] theorem acquire_stance : (l.acquire i a).stance i = .holding a := by simp [acquire]

@[simp] theorem release_stance : (l.release i).stance i = .away := by simp [release]

theorem request_others (h : j ≠ i) : (l.request i a).stance j = l.stance j :=
  Function.update_of_ne h _ _

theorem acquire_others (h : j ≠ i) : (l.acquire i a).stance j = l.stance j :=
  Function.update_of_ne h _ _

theorem release_others (h : j ≠ i) : (l.release i).stance j = l.stance j :=
  Function.update_of_ne h _ _

/-! ### Well-formed locks -/

/-- The queue lists those who wait, each once, and whoever writes is alone. -/
structure Inv (l : RwLock ι) : Prop where
  nodup : l.queue.Nodup
  queued : ∀ i, i ∈ l.queue ↔ ∃ a, l.stance i = .waiting a
  exclusive : ∀ i j b, l.stance i = .holding .write → l.stance j = .holding b → j = i

omit [DecidableEq ι] in
theorem inv_unused : (unused : RwLock ι).Inv where
  nodup := List.nodup_nil
  queued := by simp [unused]
  exclusive := by simp [unused]

/-- Only those who stay away may ask for the lock. -/
theorem Inv.request (h : l.Inv) (hi : l.stance i = .away) (a : Access) : (l.request i a).Inv where
  nodup := by
    have hnot : i ∉ l.queue := by
      rw [h.queued, hi]
      simp
    show (l.queue ++ [i]).Nodup
    rw [← List.concat_eq_append]
    exact h.nodup.concat hnot
  queued := by
    intro j
    by_cases hj : j = i
    · subst hj
      simp [RwLock.request]
    · rw [request_others hj, ← h.queued]
      simp [RwLock.request, hj]
  exclusive := by
    intro j k b hj hk
    -- `i` waits, so it is neither of the two who hold the lock
    by_cases hji : j = i
    · subst hji
      simp at hj
    · by_cases hki : k = i
      · subst hki
        simp at hk
      · rw [request_others hji] at hj
        rw [request_others hki] at hk
        exact h.exclusive j k b hj hk

theorem Inv.acquire (h : l.Inv) (hg : l.Grants i a) : (l.acquire i a).Inv := by
  obtain ⟨hhead, hroom⟩ := hg
  obtain ⟨q, hq⟩ : ∃ q, l.queue = i :: q := by
    cases hl : l.queue with
    | nil => simp [hl] at hhead
    | cons k q =>
      rw [hl, List.head?_cons, Option.some_inj] at hhead
      exact ⟨q, by rw [hhead]⟩
  -- nobody else in the queue is `i`
  have hnd := h.nodup
  rw [hq, List.nodup_cons] at hnd
  refine ⟨?_, ?_, ?_⟩
  · simpa [RwLock.acquire, hq] using hnd.2
  · intro j
    by_cases hj : j = i
    · subst hj
      simp [RwLock.acquire, hq, hnd.1]
    · rw [acquire_others hj, ← h.queued]
      simp [RwLock.acquire, hq, hj]
  · intro j k b hj hk
    -- a writer is only let in when nobody holds the lock
    by_cases hji : j = i
    · by_cases hki : k = i
      · rw [hki, hji]
      · rw [acquire_others hki] at hk
        rw [hji, acquire_stance] at hj
        cases hj
        exact absurd (hroom k b hk).1 (by simp)
    · rw [acquire_others hji] at hj
      exact absurd (hroom j .write hj).2 (by simp)

/-- Only those who hold the lock may give it back. -/
theorem Inv.release (h : l.Inv) (hi : l.stance i = .holding a) : (l.release i).Inv where
  nodup := h.nodup
  queued := by
    intro j
    by_cases hj : j = i
    · subst hj
      -- who holds the lock is not in the queue anymore
      have hnot : j ∉ l.queue := by
        rw [h.queued, hi]
        simp
      simp [RwLock.release, hnot]
    · rw [release_others hj, ← h.queued]
      rfl
  exclusive := by
    intro j k b hj hk
    by_cases hji : j = i
    · subst hji
      simp at hj
    · by_cases hki : k = i
      · subst hki
        simp at hk
      · rw [release_others hji] at hj
        rw [release_others hki] at hk
        exact h.exclusive j k b hj hk

omit [DecidableEq ι] in
/-- When nobody holds the lock, the first in the queue gets it. -/
theorem Inv.grants_first (h : l.Inv) (hnone : ∀ j b, l.stance j ≠ .holding b) (hq : l.queue ≠ []) :
    ∃ i a, l.stance i = .waiting a ∧ l.Grants i a := by
  obtain ⟨i, q, hl⟩ := List.exists_cons_of_ne_nil hq
  have hi : i ∈ l.queue := by
    rw [hl]
    exact List.mem_cons_self
  obtain ⟨a, ha⟩ := (h.queued i).mp hi
  refine ⟨i, a, ha, ?_, ?_⟩
  · rw [hl]
    rfl
  · intro j b hj
    exact absurd hj (hnone j b)

end RwLock

import Mathlib.Data.Option.Basic

/-! # Copies with Losses

    A table holds a value in each of its slots, or none. A copy of a table may
    have lost what some slots hold, and has the rest of it right. Writing to the
    copy what is written to the original keeps it a copy, and erasing a slot of
    the copy that it may lose does too.
-/

namespace Lossy

variable {Slot Value : Type*} {kept : Slot → Prop} {t t' t'' : Slot → Option Value}

/-- `t` is `t'`, except that slots outside `kept` may have been lost. -/
def Copy (kept : Slot → Prop) (t t' : Slot → Option Value) : Prop :=
  ∀ s, t s = t' s ∨ (¬ kept s ∧ t s = none)

namespace Copy

theorem refl (t : Slot → Option Value) : Copy kept t t := fun _ => .inl rfl

theorem trans (h : Copy kept t t') (h' : Copy kept t' t'') : Copy kept t t'' := by
  intro s
  rcases h s with hs | hs
  · rw [hs]
    exact h' s
  · exact .inr hs

/-- A value that is still there is the right one. -/
theorem of_some (h : Copy kept t t') {s : Slot} {v : Value} (hs : t s = some v) : t' s = some v := by
  rcases h s with heq | ⟨_, hnone⟩
  · exact heq ▸ hs
  · rw [hnone] at hs
    cases hs

/-- What must not be lost is there. -/
theorem eq_of_kept (h : Copy kept t t') {s : Slot} (hs : kept s) : t s = t' s := by
  rcases h s with heq | ⟨hnot, _⟩
  · exact heq
  · exact absurd hs hnot

end Copy

/-- Overwrites the slots that `f` speaks of. -/
def assign (f : Slot → Option (Option Value)) (t : Slot → Option Value) : Slot → Option Value :=
  fun s => (f s).getD (t s)

/-- The same writes make a copy of the copy. -/
theorem Copy.assign (f : Slot → Option (Option Value)) (h : Copy kept t t') :
    Copy kept (assign f t) (assign f t') := by
  intro s
  unfold Lossy.assign
  cases f s with
  | none => exact h s
  | some v => exact .inl rfl

/-- A copy that has lost one more slot. -/
theorem Copy.erase (h : Copy kept t t') {t₁ : Slot → Option Value} {lost : Slot}
    (hlost : t₁ lost = none) (hsame : ∀ s, s ≠ lost → t₁ s = t s)
    (hkept : kept lost → t lost = none) : Copy kept t₁ t' := by
  refine trans ?_ h
  intro s
  by_cases hs : s = lost
  · subst hs
    by_cases hk : kept s
    · exact .inl (hlost.trans (hkept hk).symm)
    · exact .inr ⟨hk, hlost⟩
  · exact .inl (hsame s hs)

end Lossy

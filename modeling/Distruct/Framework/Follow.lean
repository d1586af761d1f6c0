import Mathlib.Data.List.Nodup
import Mathlib.Logic.Relation

/-! # Following a Partial Function

    Starting somewhere and going on to the next element for as long as there is
    one. The way is unique, and if it ends it visits nothing twice.
-/

namespace Follow

variable {α : Type*} {next : α → Option α} {a b : α} {l l' : List α}

/-- `Path next a l`: following `next` from `a` visits the elements of `l` and ends. -/
inductive Path (next : α → Option α) : α → List α → Prop where
  | stop {a : α} : next a = none → Path next a [a]
  | step {a b : α} {l : List α} : next a = some b → Path next b l → Path next a (a :: l)

theorem Path.unique (h : Path next a l) (h' : Path next a l') : l = l' := by
  induction h generalizing l' with
  | stop hn =>
    cases h' with
    | stop _ => rfl
    | step hs _ => rw [hn] at hs; cases hs
  | step hs _ ih =>
    cases h' with
    | stop hn => rw [hn] at hs; cases hs
    | step hs' hp =>
      rw [hs] at hs'
      cases hs'
      rw [ih hp]

theorem Path.eq_cons (h : Path next a l) : ∃ l', l = a :: l' := by
  cases h with
  | stop _ => exact ⟨[], rfl⟩
  | step _ _ => exact ⟨_, rfl⟩

/-- From every element on the way, what is left of the way. -/
theorem Path.of_mem (h : Path next a l) (hb : b ∈ l) :
    ∃ l', Path next b l' ∧ l'.length ≤ l.length := by
  induction h with
  | @stop a hn =>
    rw [List.mem_singleton] at hb
    subst hb
    exact ⟨[b], .stop hn, Nat.le_refl _⟩
  | @step a c l hs hp ih =>
    rcases List.mem_cons.mp hb with rfl | hb
    · exact ⟨b :: l, .step hs hp, Nat.le_refl _⟩
    · obtain ⟨l', hp', hle⟩ := ih hb
      exact ⟨l', hp', Nat.le_succ_of_le hle⟩

/-- A way that ends visits nothing twice. -/
theorem Path.nodup (h : Path next a l) : l.Nodup := by
  induction h with
  | stop _ => exact List.nodup_singleton _
  | @step a b l hs hp ih =>
    refine List.nodup_cons.mpr ⟨?_, ih⟩
    -- the rest of the way from a second visit would be shorter, but the way is unique
    intro hmem
    obtain ⟨l', hp', hle⟩ := hp.of_mem hmem
    have heq := (Path.step hs hp).unique hp'
    rw [← heq, List.length_cons] at hle
    omega

theorem Path.exists_last (h : Path next a l) :
    ∃ last, l.getLast? = some last ∧ next last = none ∧
      Relation.ReflTransGen (fun x y => next x = some y) a last := by
  induction h with
  | stop hn => exact ⟨_, rfl, hn, .refl⟩
  | @step a b l hs hp ih =>
    obtain ⟨last, hlast, hn, hreach⟩ := ih
    refine ⟨last, ?_, hn, .head hs hreach⟩
    rw [List.getLast?_cons, hlast]
    rfl

/-- The way ends exactly when an element without a successor can be reached. -/
theorem exists_path_iff :
    (∃ l, Path next a l) ↔
      ∃ last, Relation.ReflTransGen (fun x y => next x = some y) a last ∧ next last = none := by
  constructor
  · rintro ⟨l, hp⟩
    obtain ⟨last, -, hn, hreach⟩ := hp.exists_last
    exact ⟨last, hreach, hn⟩
  · rintro ⟨last, hreach, hn⟩
    induction hreach using Relation.ReflTransGen.head_induction_on with
    | refl => exact ⟨_, .stop hn⟩
    | head hs _ ih =>
      obtain ⟨l, hp⟩ := ih
      exact ⟨_, .step hs hp⟩

end Follow

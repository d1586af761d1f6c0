import Distruct.Framework.HashMap
import Mathlib.Data.Finset.Sort

/-! # Maps with Ordered Keys

    A map that is enumerated by ascending key: the same finite partial
    functions as `HashMap`, with operations that go by the order of the keys.
-/

/-- A map with ordered keys. -/
abbrev BTreeMap (K V : Type) := HashMap K V

namespace BTreeMap

variable {K V : Type} [LinearOrder K]

/-- The keys of a range, in ascending order. -/
def range (m : BTreeMap K V) (p : K → Prop) [DecidablePred p] : List K :=
  m.keys.sort.filter p

/-- The elements of an ordered set. -/
abbrev ascending (s : Finset K) : List K := s.sort

/-- The values of a range, in ascending order of the keys. -/
def values_in (m : BTreeMap K V) (p : K → Prop) [DecidablePred p] : List V :=
  (m.range p).filterMap m.lookup

/-- `iter().next_back()` -/
def next_back (m : BTreeMap K V) : Option V :=
  m.keys.sort.getLast?.bind m.lookup

/-- Removes the keys one after the other. -/
def remove_all (m : BTreeMap K V) (ks : List K) : BTreeMap K V :=
  ks.foldl (fun m k => m.erase k) m

theorem mem_range {m : BTreeMap K V} {p : K → Prop} [DecidablePred p] {k : K} :
    k ∈ m.range p ↔ k ∈ m ∧ p k := by
  simp [range, Finmap.mem_keys]

theorem lookup_remove_all (m : BTreeMap K V) (ks : List K) (k : K) :
    (m.remove_all ks).lookup k = if k ∈ ks then none else m.lookup k := by
  unfold remove_all
  induction ks generalizing m with
  | nil => simp
  | cons j ks ih =>
    rw [List.foldl_cons, ih, HashMap.lookup_erase_ite]
    by_cases hj : k = j <;> by_cases hk : k ∈ ks <;> simp [hj, hk]

/-- Removing the keys of a range leaves the values of the others. -/
theorem lookup_remove_range (m : BTreeMap K V) (p : K → Prop) [DecidablePred p] (k : K) :
    (m.remove_all (m.range p)).lookup k = if p k then none else m.lookup k := by
  rw [lookup_remove_all]
  by_cases hp : p k
  · by_cases hk : k ∈ m
    · rw [if_pos (mem_range.mpr ⟨hk, hp⟩), if_pos hp]
    · rw [if_pos hp, Finmap.lookup_eq_none.mpr hk, ite_self]
  · rw [if_neg (fun h => hp (mem_range.mp h).2), if_neg hp]

/-- The last value is one of the values, and no key is above its key. -/
theorem next_back_eq_some {m : BTreeMap K V} {v : V} (h : m.next_back = some v) :
    ∃ k, m.lookup k = some v ∧ ∀ j ∈ m, j ≤ k := by
  unfold next_back at h
  obtain ⟨k, hk, hv⟩ := Option.bind_eq_some_iff.mp h
  refine ⟨k, hv, ?_⟩
  intro j hj
  have hmem : j ∈ m.keys.sort := by
    rw [Finset.mem_sort]
    exact Finmap.mem_keys.mpr hj
  -- the keys are enumerated in ascending order
  obtain ⟨hne, rfl⟩ := List.mem_getLast?_eq_getLast hk
  exact (Finset.pairwise_sort m.keys (· ≤ ·)).rel_getLast hmem

/-- Only an empty map has no last value. -/
theorem next_back_eq_none {m : BTreeMap K V} (h : m.next_back = none) (k : K) : k ∉ m := by
  intro hk
  have hmem : k ∈ m.keys.sort := by
    rw [Finset.mem_sort]
    exact Finmap.mem_keys.mpr hk
  have hlast := List.getLast?_eq_some_getLast (List.ne_nil_of_mem hmem)
  have hin : m.keys.sort.getLast (List.ne_nil_of_mem hmem) ∈ m := by
    rw [← Finmap.mem_keys, ← Finset.mem_sort (· ≤ ·)]
    exact List.getLast_mem _
  obtain ⟨v, hv⟩ := Finmap.mem_iff.mp hin
  rw [next_back, hlast, Option.bind_some, hv] at h
  cases h

theorem mem_values_in {m : BTreeMap K V} {p : K → Prop} [DecidablePred p] {v : V} :
    v ∈ m.values_in p ↔ ∃ k, p k ∧ m.lookup k = some v := by
  simp only [values_in, List.mem_filterMap, mem_range]
  constructor
  · rintro ⟨k, ⟨_, hp⟩, hv⟩
    exact ⟨k, hp, hv⟩
  · rintro ⟨k, hp, hv⟩
    exact ⟨k, ⟨Finmap.mem_of_lookup_eq_some hv, hp⟩, hv⟩

/-- What holds between the values of ascending keys holds along the values of a range. -/
theorem pairwise_values_in {m : BTreeMap K V} {p : K → Prop} [DecidablePred p] {R : V → V → Prop}
    (hR : ∀ j k v w, j < k → m.lookup j = some v → m.lookup k = some w → R v w) :
    (m.values_in p).Pairwise R := by
  unfold values_in range
  rw [List.pairwise_filterMap]
  refine List.Pairwise.filter _ ?_
  refine (Finset.sortedLT_sort m.keys).pairwise.imp ?_
  intro j k hjk v hv w hw
  exact hR j k v w hjk hv hw

end BTreeMap

/-! ### Ranges of keys -/

/-- An end of a range. -/
inductive Bound (K : Type) where
  | Included (k : K)
  | Excluded (k : K)
  | Unbounded
  deriving DecidableEq

structure RangeBounds (K : Type) where
  start_bound : Bound K
  end_bound : Bound K
  deriving DecidableEq

namespace RangeBounds

variable {K : Type} [LinearOrder K]

def contains (r : RangeBounds K) (k : K) : Bool :=
  (match r.start_bound with
    | .Included a => decide (a ≤ k)
    | .Excluded a => decide (a < k)
    | .Unbounded => true) &&
  (match r.end_bound with
    | .Included b => decide (k ≤ b)
    | .Excluded b => decide (k < b)
    | .Unbounded => true)

/-- The ranges for which `BTreeMap::range` panics: the start lies after the end,
    or they are equal and both excluded. -/
def inverted (r : RangeBounds K) : Bool :=
  match r.start_bound, r.end_bound with
  | .Excluded a, .Excluded b => decide (b ≤ a)
  | .Excluded a, .Included b => decide (b < a)
  | .Included a, .Excluded b => decide (b < a)
  | .Included a, .Included b => decide (b < a)
  | .Unbounded, _ => false
  | _, .Unbounded => false

end RangeBounds

import Mathlib.Data.Finmap

/-! # Finite Maps and Sets as Hash Tables

    A hash map is a finite partial function and a hash set a finite set. What
    the representation adds to that, the order in which an instance happens to
    enumerate its entries, is never part of the value: it appears only as a
    list that *lists* it, and two instances with equal contents may be listed
    differently.
-/

/-- A hash map, up to iteration order. -/
abbrev HashMap (K V : Type) := Finmap (fun _ : K => V)

/-- A hash set, up to iteration order. -/
abbrev HashSet (α : Type) := Finset α

/-- The list enumerates the set. -/
def HashSet.Lists {α : Type} [DecidableEq α] (s : HashSet α) (l : List α) : Prop :=
  l.Nodup ∧ l.toFinset = s

namespace HashMap

variable {K V W : Type} [DecidableEq K]

/-- `entry(k).or_default()`. -/
def or_default (m : HashMap K V) (k : K) (d : V) : V := (m.lookup k).getD d

theorem lookup_insert_ite (m : HashMap K V) (k k' : K) (v : V) :
    (m.insert k v).lookup k' = if k' = k then some v else m.lookup k' := by
  split
  · next h => rw [h, Finmap.lookup_insert]
  · next h => rw [Finmap.lookup_insert_of_ne _ h]

theorem lookup_erase_ite (m : HashMap K V) (k k' : K) :
    (m.erase k).lookup k' = if k' = k then none else m.lookup k' := by
  split
  · next h => rw [h, Finmap.lookup_erase]
  · next h => rw [Finmap.lookup_erase_ne h]

/-- Overwriting an entry with the value it has changes nothing. -/
theorem insert_of_lookup_eq {m : HashMap K V} {k : K} {v : V} (h : m.lookup k = some v) :
    m.insert k v = m := by
  apply Finmap.ext_lookup
  intro k'
  rw [lookup_insert_ite]
  split
  · next hk => rw [hk, h]
  · rfl

/-- Erasing an absent key changes nothing. -/
theorem erase_of_lookup_eq_none {m : HashMap K V} {k : K} (h : m.lookup k = none) :
    m.erase k = m := by
  apply Finmap.ext_lookup
  intro k'
  rw [lookup_erase_ite]
  split
  · next hk => rw [hk, h]
  · rfl

/-- The map that a sequence of entries collects into; a later entry overwrites
    an earlier one with the same key. -/
def collect (l : List (K × V)) : HashMap K V :=
  l.foldl (fun m kv => m.insert kv.1 kv.2) ∅

theorem lookup_foldl_insert_of_notMem {l : List (K × V)} {k : K} (h : k ∉ l.map Prod.fst)
    (m : HashMap K V) :
    (l.foldl (fun m kv => m.insert kv.1 kv.2) m).lookup k = m.lookup k := by
  induction l generalizing m with
  | nil => rfl
  | cons kv l ih =>
    simp only [List.map_cons, List.mem_cons, not_or] at h
    rw [List.foldl_cons, ih h.2, lookup_insert_ite, if_neg h.1]

theorem lookup_foldl_insert_of_mem {l : List (K × V)} {k : K} {v : V}
    (hnd : (l.map Prod.fst).Nodup) (h : (k, v) ∈ l) (m : HashMap K V) :
    (l.foldl (fun m kv => m.insert kv.1 kv.2) m).lookup k = some v := by
  induction l generalizing m with
  | nil => simp at h
  | cons kv l ih =>
    rw [List.map_cons, List.nodup_cons] at hnd
    rw [List.foldl_cons]
    -- a key occurs once, so nothing later overwrites its entry
    rcases List.mem_cons.mp h with rfl | h
    · rw [lookup_foldl_insert_of_notMem hnd.1, Finmap.lookup_insert]
    · exact ih hnd.2 h _

/-- The entries of a map, in some order. -/
noncomputable def toPairs (m : HashMap K V) : List (K × V) :=
  m.entries.toList.map fun e => (e.1, e.2)

omit [DecidableEq K] in
theorem map_fst_toPairs (m : HashMap K V) : m.toPairs.map Prod.fst = m.entries.toList.keys := by
  simp only [toPairs, List.map_map, List.keys]
  rfl

omit [DecidableEq K] in
theorem nodup_toPairs (m : HashMap K V) : (m.toPairs.map Prod.fst).Nodup := by
  rw [map_fst_toPairs]
  have h := m.nodupKeys
  rw [← Multiset.coe_toList m.entries, Multiset.coe_nodupKeys] at h
  exact h

theorem mem_toPairs {m : HashMap K V} {k : K} {v : V} (h : m.lookup k = some v) :
    (k, v) ∈ m.toPairs := by
  have hmem : (⟨k, v⟩ : Sigma fun _ : K => V) ∈ m.entries := by
    induction m using Finmap.induction_on with
    | H a => exact AList.mem_lookup_iff.mp h
  exact List.mem_map.mpr ⟨⟨k, v⟩, Multiset.mem_toList.mpr hmem, rfl⟩

/-- A map whose values are read back by `f` is collected from its entries. -/
theorem collect_map_toPairs {m : HashMap K V} {g : V → W} {f : W → V} (hf : ∀ v, f (g v) = v) :
    collect ((m.toPairs.map fun kv => (kv.1, g kv.2)).map fun kw => (kw.1, f kw.2)) = m := by
  have hback : (m.toPairs.map fun kv => (kv.1, g kv.2)).map (fun kw => (kw.1, f kw.2))
      = m.toPairs := by
    simp [Function.comp_def, hf]
  rw [hback]
  apply Finmap.ext_lookup
  intro k
  cases hk : m.lookup k with
  | none =>
    -- what is not in the map is not among its entries
    have hnot : k ∉ m.toPairs.map Prod.fst := by
      intro hmem
      obtain ⟨⟨k', v⟩, hv, rfl⟩ := List.mem_map.mp hmem
      obtain ⟨e, he, heq⟩ := List.mem_map.mp hv
      have : e.1 ∈ m := Finmap.mem_def.mpr
        (Multiset.mem_map.mpr ⟨e, Multiset.mem_toList.mp he, rfl⟩)
      rw [show e.1 = k' from congrArg Prod.fst heq] at this
      exact Finmap.lookup_eq_none.mp hk this
    rw [collect, lookup_foldl_insert_of_notMem hnot, Finmap.lookup_empty]
  | some v => rw [collect, lookup_foldl_insert_of_mem (nodup_toPairs m) (mem_toPairs hk)]

end HashMap

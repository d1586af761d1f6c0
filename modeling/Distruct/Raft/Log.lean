import Distruct.Framework.BTreeMap
import Distruct.Framework.System
import Distruct.Raft.Types

/-! # Log Storage

    `raft/log.rs`: the Raft log of a node, kept in memory under one lock. The
    code is generic in the type of the entries; all it asks of an entry is its
    log id. None of its functions can fail.

    `log_storage` is the log under any sequence of calls that keeps to what
    openraft promises: it appends right after the last entry, truncates above
    the purged part and purges further and further.
-/

namespace Distruct

class RaftLogId (E : Type) where
  get_log_id : E → LogId

export RaftLogId (get_log_id)

instance : RaftLogId Entry := ⟨Entry.log_id⟩

structure LogState where
  last_purged_log_id : Option LogId
  last_log_id : Option LogId
  deriving DecidableEq

structure LogStorage (E : Type) where
  last_purged_log_id : Option LogId
  log : BTreeMap Nat E
  committed : Option LogId
  vote : Option Vote

instance {E : Type} : Inhabited (LogStorage E) := ⟨⟨none, ∅, none, none⟩⟩

namespace LogStorage

variable {E : Type} [RaftLogId E]

def get_log_state (st : LogStorage E) : LogState where
  last_purged_log_id := st.last_purged_log_id
  last_log_id := (st.log.next_back.map get_log_id).or st.last_purged_log_id

def save_committed (st : LogStorage E) (committed : Option LogId) : LogStorage E :=
  { st with committed := committed }

def read_committed (st : LogStorage E) : Option LogId := st.committed

def save_vote (st : LogStorage E) (vote : Vote) : LogStorage E :=
  { st with vote := some vote }

def read_vote (st : LogStorage E) : Option Vote := st.vote

def append (st : LogStorage E) (entries : List E) : LogStorage E :=
  { st with log := entries.foldl (fun log e => log.insert (get_log_id e).index e) st.log }

def truncate (st : LogStorage E) (log_id : LogId) : LogStorage E :=
  { st with log := st.log.remove_all (st.log.range (log_id.index ≤ ·)) }

def purge (st : LogStorage E) (log_id : LogId) : LogStorage E :=
  { st with
    last_purged_log_id := some log_id
    log := st.log.remove_all (st.log.range (· ≤ log_id.index)) }

def try_get_log_entries (st : LogStorage E) (lo hi : Nat) : List E :=
  st.log.values_in (fun k => lo ≤ k ∧ k < hi)

/-! ### Runs -/

inductive Call (E : Type) where
  | append (entries : List E)
  | truncate (log_id : LogId)
  | purge (log_id : LogId)
  | save_vote (vote : Vote)
  | save_committed (committed : Option LogId)

/-- The index at which the log goes on. -/
def next_index (st : LogStorage E) : Nat :=
  (st.get_log_state.last_log_id.map fun id => id.index + 1).getD 0

/-- What openraft promises about its calls. -/
def Call.allowed (st : LogStorage E) : Call E → Prop
  | .append entries =>
      ∀ (k : Nat) (e : E), entries[k]? = some e → (get_log_id e).index = st.next_index + k
  | .truncate log_id => ∀ p, st.last_purged_log_id = some p → p.index < log_id.index
  | .purge log_id => ∀ p, st.last_purged_log_id = some p → p.index ≤ log_id.index
  | .save_vote _ => True
  | .save_committed _ => True

def Call.effect (st : LogStorage E) : Call E → LogStorage E
  | .append entries => st.append entries
  | .truncate log_id => st.truncate log_id
  | .purge log_id => st.purge log_id
  | .save_vote vote => st.save_vote vote
  | .save_committed committed => st.save_committed committed

end LogStorage

open LogStorage in
/-- The log of a node from its start. -/
def log_storage (E : Type) [RaftLogId E] : LTS.System (LogStorage E) (Call E) where
  init := fun st => st = default
  step := fun st c st' => c.allowed st ∧ st' = c.effect st

/-! ### What the log holds -/

namespace LogStorage

variable {E : Type} [RaftLogId E] {st : LogStorage E}

/-- Entries are stored under their own index, above the purged part. -/
structure Inv (st : LogStorage E) : Prop where
  keyed : ∀ k e, st.log.lookup k = some e → (get_log_id e).index = k
  above : ∀ k ∈ st.log, ∀ p, st.last_purged_log_id = some p → p.index < k

/-- An entry of the longer log is one of the new entries or was there before. -/
theorem lookup_append {entries : List E} {k : Nat} {e : E}
    (h : (st.append entries).log.lookup k = some e) :
    (e ∈ entries ∧ (get_log_id e).index = k) ∨ st.log.lookup k = some e := by
  unfold append at h
  -- the induction is over the new entries, with any log before them
  generalize hm : st.log = m at h ⊢
  clear hm
  induction entries generalizing m with
  | nil => exact .inr h
  | cons e' entries ih =>
    rcases ih (m.insert (get_log_id e').index e') h with ⟨hmem, hk⟩ | h'
    · exact .inl ⟨List.mem_cons_of_mem _ hmem, hk⟩
    · rw [HashMap.lookup_insert_ite] at h'
      split at h'
      · next heq =>
        cases h'
        exact .inl ⟨List.mem_cons_self, heq.symm⟩
      · exact .inr h'

/-- The log goes on above the purged part. -/
theorem Inv.purged_lt_next_index (h : st.Inv) {p : LogId} (hp : st.last_purged_log_id = some p) :
    p.index < st.next_index := by
  cases hb : st.log.next_back with
  | none =>
    -- an empty log goes on after what was purged
    simp only [next_index, get_log_state, hb, hp, Option.map_none, Option.none_or,
      Option.map_some, Option.getD_some]
    exact Nat.lt_succ_self _
  | some e =>
    -- otherwise it goes on after its last entry, which lies above the purged part
    obtain ⟨k, hk, _⟩ := BTreeMap.next_back_eq_some hb
    have hkey := h.keyed k e hk
    have hab := h.above k (Finmap.mem_of_lookup_eq_some hk) p hp
    simp only [next_index, get_log_state, hb, Option.map_some, Option.some_or, Option.getD_some]
    omega

theorem Inv.of_shrink {st' : LogStorage E} (h : st.Inv)
    (hlog : ∀ k e, st'.log.lookup k = some e → st.log.lookup k = some e ∧
      ∀ p, st'.last_purged_log_id = some p → p.index < k) : st'.Inv where
  keyed := fun k e hk => h.keyed k e (hlog k e hk).1
  above := by
    intro k hk
    obtain ⟨e, he⟩ := Finmap.mem_iff.mp hk
    exact (hlog k e he).2

theorem Inv.step (h : st.Inv) {c : Call E} (hc : c.allowed st) : (c.effect st).Inv := by
  cases c with
  | append entries =>
    refine ⟨?_, ?_⟩
    · intro k e hk
      rcases lookup_append hk with ⟨_, hidx⟩ | hk
      · exact hidx
      · exact h.keyed k e hk
    · intro k hk p hp
      obtain ⟨e, he⟩ := Finmap.mem_iff.mp hk
      rcases lookup_append he with ⟨hmem, hidx⟩ | he
      · -- a new entry has an index at or after the one where the log goes on
        obtain ⟨n, hn⟩ := List.mem_iff_getElem?.mp hmem
        have hnext := h.purged_lt_next_index hp
        have hcont := hc n e hn
        omega
      · exact h.above k (Finmap.mem_of_lookup_eq_some he) p hp
  | truncate log_id =>
    refine h.of_shrink ?_
    intro k e hk
    simp only [Call.effect, truncate, BTreeMap.lookup_remove_range] at hk
    split at hk
    · cases hk
    · exact ⟨hk, h.above k (Finmap.mem_of_lookup_eq_some hk)⟩
  | purge log_id =>
    refine h.of_shrink ?_
    intro k e hk
    simp only [Call.effect, purge, BTreeMap.lookup_remove_range] at hk
    split at hk
    · cases hk
    · next hlt =>
      -- what is left lies above the new boundary
      refine ⟨hk, ?_⟩
      intro p hp
      cases hp
      omega
  | save_vote vote => exact h.of_shrink fun k e hk => ⟨hk, h.above k (Finmap.mem_of_lookup_eq_some hk)⟩
  | save_committed c => exact h.of_shrink fun k e hk => ⟨hk, h.above k (Finmap.mem_of_lookup_eq_some hk)⟩

theorem Inv.of_reachable (h : (log_storage E).Reachable st) : st.Inv := by
  refine LTS.System.invariant Inv ?_ ?_ st h
  · intro s hstep
    subst hstep
    refine ⟨?_, ?_⟩
    · intro k e hk
      cases hk
    · intro k hk
      exact absurd hk (Finmap.notMem_empty)
  · intro s c s' ih hstep
    obtain ⟨hc, rfl⟩ := hstep
    exact ih.step hc

end LogStorage

end Distruct

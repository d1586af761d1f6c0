import Distruct.Raft.Log

/-! # The Log as Its History

    What the log storage answers is determined by the calls that were made on
    it: an entry is there if and only if it was appended and no later call has
    replaced, truncated or purged its index. Kept as a sorted map, this is a
    contiguous piece of log right after the purged part.

    * `LogStorage.try_get_log_entries_range`: reading any kind of range.
    * `LogStorage.Stored`: which entries a history leaves.
    * `log_is_its_history`: the storage after a run answers as its history says.
-/

namespace Distruct

namespace LogStorage

variable {E : Type} [RaftLogId E] {st : LogStorage E}

/-- `try_get_log_entries` for any kind of range; a panic is `none`. -/
def try_get_log_entries_range (st : LogStorage E) (range : RangeBounds Nat) : Option (List E) :=
  if range.inverted then none else some (st.log.values_in fun k => range.contains k)

omit [RaftLogId E] in
theorem try_get_log_entries_range_half_open (st : LogStorage E) {lo hi : Nat} (h : lo ≤ hi) :
    st.try_get_log_entries_range ⟨.Included lo, .Excluded hi⟩ = some (st.try_get_log_entries lo hi) := by
  have hni : (RangeBounds.mk (Bound.Included lo) (Bound.Excluded hi)).inverted = false := by
    simp [RangeBounds.inverted, h]
  simp [try_get_log_entries_range, try_get_log_entries, hni, RangeBounds.contains]

/-! ### Histories -/

/-- The calls after which an entry at index `k` is no longer the one before. -/
def Call.touches (k : Nat) : Call E → Prop
  | .append entries => ∃ e ∈ entries, (get_log_id e).index = k
  | .truncate log_id => log_id.index ≤ k
  | .purge log_id => k ≤ log_id.index
  | .save_vote _ => False
  | .save_committed _ => False

def Call.appends (k : Nat) (e : E) : Call E → Prop
  | .append entries => e ∈ entries ∧ (get_log_id e).index = k
  | _ => False

/-- In the history `calls` (the latest call first), `e` was appended at index `k`,
    and no call after that has appended, truncated or purged at `k`. -/
def Stored (calls : List (Call E)) (k : Nat) (e : E) : Prop :=
  ∃ later c earlier, calls = later ++ c :: earlier ∧ c.appends k e ∧ ∀ c' ∈ later, ¬ c'.touches k

/-- What a call saves as the purged log id. -/
def Call.purged : Call E → Option LogId
  | .purge log_id => some log_id
  | _ => none

def Call.saved_vote : Call E → Option Vote
  | .save_vote vote => some vote
  | _ => none

def Call.saved_committed : Call E → Option (Option LogId)
  | .save_committed committed => some committed
  | _ => none

/-- The index right after the purged part. -/
def first_index (st : LogStorage E) : Nat :=
  (st.last_purged_log_id.map fun id => id.index + 1).getD 0

/-- The storage holds and answers what its history says. -/
structure Refines (calls : List (Call E)) (st : LogStorage E) : Prop where
  keyed : ∀ k e, st.log.lookup k = some e → (get_log_id e).index = k
  contiguous : ∃ n, ∀ k, k ∈ st.log ↔ st.first_index ≤ k ∧ k < st.first_index + n
  purged : st.get_log_state.last_purged_log_id = calls.findSome? Call.purged
  last_stored : ∀ k e, st.log.lookup k = some e → (∀ j ∈ st.log, j ≤ k) →
    st.get_log_state.last_log_id = some (get_log_id e)
  last_purged : st.log = ∅ → st.get_log_state.last_log_id = st.last_purged_log_id
  entries : ∀ range : RangeBounds Nat, range.inverted = false →
    ∃ es, st.try_get_log_entries_range range = some es ∧
      (∀ e, e ∈ es ↔ ∃ k, range.contains k = true ∧ Stored calls k e) ∧
      es.Pairwise fun e e' => (get_log_id e).index < (get_log_id e').index
  vote : st.read_vote = calls.findSome? Call.saved_vote
  committed : st.read_committed = (calls.findSome? Call.saved_committed).getD none

/-! ### What one call does to a history -/

theorem stored_cons {c : Call E} {calls : List (Call E)} {k : Nat} {e : E} :
    Stored (c :: calls) k e ↔ c.appends k e ∨ (¬ c.touches k ∧ Stored calls k e) := by
  constructor
  · rintro ⟨later, c', earlier, heq, happ, hlater⟩
    cases later with
    | nil =>
      cases heq
      exact .inl happ
    | cons c'' later =>
      cases heq
      refine .inr ⟨hlater c List.mem_cons_self, later, c', earlier, rfl, happ, ?_⟩
      intro d hd
      exact hlater d (List.mem_cons_of_mem _ hd)
  · rintro (happ | ⟨hc, later, c', earlier, rfl, happ, hlater⟩)
    · exact ⟨[], c, calls, rfl, happ, by simp⟩
    · refine ⟨c :: later, c', earlier, rfl, happ, ?_⟩
      intro d hd
      rcases List.mem_cons.mp hd with rfl | hd
      · exact hc
      · exact hlater d hd

/-- The indices of new entries go on where the log ends. -/
theorem map_index_of_allowed {entries : List E} (h : (Call.append entries).allowed st) :
    entries.map (fun e => (get_log_id e).index) = List.range' st.next_index entries.length := by
  apply List.ext_getElem
  · simp
  · intro n hn _
    rw [List.getElem_map, List.getElem_range', Nat.one_mul]
    exact h n _ (List.getElem?_eq_getElem _)

theorem append_log (st : LogStorage E) (entries : List E) :
    (st.append entries).log = (entries.map fun e => ((get_log_id e).index, e)).foldl
      (fun m kv => m.insert kv.1 kv.2) st.log := by
  rw [List.foldl_map]
  rfl

/-- Every new entry is found under its index. -/
theorem lookup_append_of_mem {entries : List E} (h : (Call.append entries).allowed st) {e : E}
    (he : e ∈ entries) : (st.append entries).log.lookup (get_log_id e).index = some e := by
  have hmem : ((get_log_id e).index, e) ∈ entries.map fun e => ((get_log_id e).index, e) :=
    List.mem_map.mpr ⟨e, he, rfl⟩
  have hnd : ((entries.map fun e => ((get_log_id e).index, e)).map Prod.fst).Nodup := by
    have hidx := map_index_of_allowed h
    rw [List.map_map]
    show (entries.map fun e => (get_log_id e).index).Nodup
    rw [hidx]
    exact List.nodup_range'
  rw [append_log]
  exact HashMap.lookup_foldl_insert_of_mem hnd hmem _

theorem lookup_append_of_not_touches {entries : List E} {k : Nat}
    (ht : ¬ (Call.append entries).touches k) :
    (st.append entries).log.lookup k = st.log.lookup k := by
  rw [append_log]
  apply HashMap.lookup_foldl_insert_of_notMem
  intro hk
  rw [List.map_map] at hk
  exact ht (List.mem_map.mp hk)

/-- An entry of the longer log is one of the new entries, or was there before
    and is not replaced by them. -/
theorem lookup_append_iff {entries : List E} (h : (Call.append entries).allowed st) {k : Nat} {e : E} :
    (st.append entries).log.lookup k = some e ↔
      (Call.append entries).appends k e ∨
      (¬ (Call.append entries).touches k ∧ st.log.lookup k = some e) := by
  by_cases ht : (Call.append entries).touches k
  · obtain ⟨e', he', rfl⟩ := ht
    constructor
    · intro hk
      rw [lookup_append_of_mem h he'] at hk
      cases hk
      exact .inl ⟨he', rfl⟩
    · rintro (⟨he, hidx⟩ | ⟨hnt, _⟩)
      · rw [← hidx]
        exact lookup_append_of_mem h he
      · exact absurd ⟨e', he', rfl⟩ hnt
  · rw [lookup_append_of_not_touches ht]
    constructor
    · exact fun hk => .inr ⟨ht, hk⟩
    · rintro (⟨he, hidx⟩ | ⟨_, hk⟩)
      · exact absurd ⟨e, he, hidx⟩ ht
      · exact hk

/-- Every call changes the log as it changes the history. -/
theorem lookup_effect {c : Call E} (hc : c.allowed st) {k : Nat} {e : E} :
    (c.effect st).log.lookup k = some e ↔
      c.appends k e ∨ (¬ c.touches k ∧ st.log.lookup k = some e) := by
  cases c with
  | append entries => exact lookup_append_iff hc
  | truncate log_id =>
    simp [Call.effect, truncate, BTreeMap.lookup_remove_range, Call.appends, Call.touches]
  | purge log_id =>
    simp [Call.effect, purge, BTreeMap.lookup_remove_range, Call.appends, Call.touches]
  | save_vote vote => simp [Call.effect, save_vote, Call.appends, Call.touches]
  | save_committed committed => simp [Call.effect, save_committed, Call.appends, Call.touches]

theorem mem_effect {c : Call E} (hc : c.allowed st) {k : Nat} :
    k ∈ (c.effect st).log ↔ (∃ e, c.appends k e) ∨ (¬ c.touches k ∧ k ∈ st.log) := by
  simp only [Finmap.mem_iff, lookup_effect hc]
  constructor
  · rintro ⟨e, happ | ⟨hnt, hk⟩⟩
    · exact .inl ⟨e, happ⟩
    · exact .inr ⟨hnt, e, hk⟩
  · rintro (⟨e, happ⟩ | ⟨hnt, e, hk⟩)
    · exact ⟨e, .inl happ⟩
    · exact ⟨e, .inr ⟨hnt, hk⟩⟩

/-! ### The log is contiguous -/

/-- The log starts right after the purged part and has no gap before `hi`. -/
structure Interval (st : LogStorage E) (hi : Nat) : Prop where
  le : st.first_index ≤ hi
  mem : ∀ k, k ∈ st.log ↔ st.first_index ≤ k ∧ k < hi

theorem get_log_state_of_last {k : Nat} {e : E} (hk : st.log.lookup k = some e)
    (hlast : ∀ j ∈ st.log, j ≤ k) : st.get_log_state.last_log_id = some (get_log_id e) := by
  cases hb : st.log.next_back with
  | none => exact absurd (Finmap.mem_of_lookup_eq_some hk) (BTreeMap.next_back_eq_none hb k)
  | some e' =>
    obtain ⟨k', hk', hmax⟩ := BTreeMap.next_back_eq_some hb
    -- both keys are the greatest one
    have heq : k' = k := Nat.le_antisymm (hlast k' (Finmap.mem_of_lookup_eq_some hk'))
      (hmax k (Finmap.mem_of_lookup_eq_some hk))
    rw [heq, hk] at hk'
    cases hk'
    simp [get_log_state, hb]

theorem get_log_state_of_empty (h : ∀ k, k ∉ st.log) :
    st.get_log_state.last_log_id = st.last_purged_log_id := by
  cases hb : st.log.next_back with
  | none => simp [get_log_state, hb]
  | some e =>
    obtain ⟨k, hk, _⟩ := BTreeMap.next_back_eq_some hb
    exact absurd (Finmap.mem_of_lookup_eq_some hk) (h k)

/-- The log goes on where the interval ends. -/
theorem Interval.next_index_eq {hi : Nat} (h : st.Interval hi) (hinv : st.Inv) :
    st.next_index = hi := by
  have hle := h.le
  by_cases hempty : st.first_index = hi
  · have hno : ∀ k, k ∉ st.log := by
      intro k hk
      have hb := (h.mem k).mp hk
      omega
    rw [next_index, get_log_state_of_empty hno]
    exact hempty
  · -- the last entry has the index before `hi`
    have hmem : hi - 1 ∈ st.log := by
      rw [h.mem]
      omega
    obtain ⟨e, he⟩ := Finmap.mem_iff.mp hmem
    have hlast : ∀ j ∈ st.log, j ≤ hi - 1 := by
      intro j hj
      have hb := (h.mem j).mp hj
      omega
    have hidx := hinv.keyed _ e he
    rw [next_index, get_log_state_of_last he hlast, Option.map_some, Option.getD_some, hidx]
    omega

theorem Interval.append {hi : Nat} (h : st.Interval hi) (hinv : st.Inv) {entries : List E}
    (hc : (Call.append entries).allowed st) : (st.append entries).Interval (hi + entries.length) := by
  have hfirst : (st.append entries).first_index = st.first_index := rfl
  have hnext := h.next_index_eq hinv
  have happ : ∀ k, (∃ e, (Call.append entries).appends k e) ↔ hi ≤ k ∧ k < hi + entries.length := by
    intro k
    have hmem : (∃ e, (Call.append entries).appends k e) ↔
        k ∈ entries.map fun e => (get_log_id e).index := by
      simp [Call.appends]
    rw [hmem, map_index_of_allowed hc, List.mem_range'_1, hnext]
  have hle := h.le
  refine ⟨by omega, ?_⟩
  intro k
  have hm := mem_effect hc (k := k)
  have htouch : (Call.append entries).touches k ↔ ∃ e, (Call.append entries).appends k e := Iff.rfl
  rw [show (Call.append entries).effect st = st.append entries from rfl, htouch, happ, h.mem] at hm
  rw [hm, hfirst]
  omega

theorem Interval.truncate {hi : Nat} (h : st.Interval hi) {log_id : LogId}
    (hc : (Call.truncate log_id).allowed st) : (st.truncate log_id).Interval (min hi log_id.index) := by
  have hfirst : (st.truncate log_id).first_index = st.first_index := rfl
  have hle := h.le
  have habove : st.first_index ≤ log_id.index := by
    unfold first_index
    cases hp : st.last_purged_log_id with
    | none => simp
    | some p => exact hc p hp
  refine ⟨by omega, ?_⟩
  intro k
  have hm := mem_effect hc (k := k)
  simp only [Call.effect, Call.appends, Call.touches, exists_false, false_or, h.mem] at hm
  rw [hm, hfirst]
  omega

theorem Interval.purge {hi : Nat} (h : st.Interval hi) {log_id : LogId}
    (hc : (Call.purge log_id).allowed st) :
    (st.purge log_id).Interval (max hi (log_id.index + 1)) := by
  have hfirst : (st.purge log_id).first_index = log_id.index + 1 := rfl
  have hle := h.le
  have hup : st.first_index ≤ log_id.index + 1 := by
    unfold first_index
    cases hp : st.last_purged_log_id with
    | none => simp
    | some p => exact Nat.succ_le_succ (hc p hp)
  refine ⟨by omega, ?_⟩
  intro k
  have hm := mem_effect hc (k := k)
  simp only [Call.effect, Call.appends, Call.touches, exists_false, false_or, h.mem] at hm
  rw [hm, hfirst]
  omega

/-! ### Runs -/

/-- What a run keeps about the storage and its history. -/
structure Recorded (calls : List (Call E)) (st : LogStorage E) : Prop where
  inv : st.Inv
  interval : ∃ hi, st.Interval hi
  stored : ∀ k e, st.log.lookup k = some e ↔ Stored calls k e
  purged : st.last_purged_log_id = calls.findSome? Call.purged
  vote : st.vote = calls.findSome? Call.saved_vote
  committed : st.committed = (calls.findSome? Call.saved_committed).getD none

theorem Recorded.init : Recorded [] (default : LogStorage E) where
  inv := Inv.of_reachable (.init rfl)
  interval := by
    refine ⟨0, Nat.le_refl _, ?_⟩
    intro k
    have hk : k ∉ (default : LogStorage E).log := Finmap.notMem_empty
    simp [hk]
  stored := by
    intro k e
    simp [default, Stored]
  purged := rfl
  vote := rfl
  committed := rfl

theorem Recorded.interval_step {calls : List (Call E)} (h : Recorded calls st) {c : Call E}
    (hc : c.allowed st) : ∃ hi, (c.effect st).Interval hi := by
  obtain ⟨hi, hint⟩ := h.interval
  cases c with
  | append entries => exact ⟨_, hint.append h.inv hc⟩
  | truncate log_id => exact ⟨_, hint.truncate hc⟩
  | purge log_id => exact ⟨_, hint.purge hc⟩
  | save_vote vote => exact ⟨hi, hint.le, hint.mem⟩
  | save_committed committed => exact ⟨hi, hint.le, hint.mem⟩

theorem Recorded.step {calls : List (Call E)} (h : Recorded calls st) {c : Call E}
    (hc : c.allowed st) : Recorded (c :: calls) (c.effect st) where
  inv := h.inv.step hc
  interval := h.interval_step hc
  stored := by
    intro k e
    rw [lookup_effect hc, stored_cons, h.stored]
  purged := by
    cases c <;> simp [List.findSome?_cons, Call.effect, Call.purged, h.purged, append, truncate, purge, save_vote,
      save_committed]
  vote := by
    cases c <;> simp [List.findSome?_cons, Call.effect, Call.saved_vote, h.vote, append, truncate, purge, save_vote,
      save_committed]
  committed := by
    cases c <;> simp [List.findSome?_cons, Call.effect, Call.saved_committed, h.committed, append, truncate, purge,
      save_vote, save_committed]

theorem Recorded.of_trace {calls : List (Call E)} (h : (log_storage E).Trace calls st) :
    Recorded calls st := by
  induction h with
  | init h =>
    cases h
    exact .init
  | step c _ hstep ih =>
    obtain ⟨hc, rfl⟩ := hstep
    exact ih.step hc

/-- Reading a range gives the stored entries of the range in ascending order. -/
theorem Recorded.entries {calls : List (Call E)} (h : Recorded calls st) {range : RangeBounds Nat}
    (hr : range.inverted = false) :
    ∃ es, st.try_get_log_entries_range range = some es ∧
      (∀ e, e ∈ es ↔ ∃ k, range.contains k = true ∧ Stored calls k e) ∧
      es.Pairwise fun e e' => (get_log_id e).index < (get_log_id e').index := by
  refine ⟨st.log.values_in fun k => range.contains k, ?_, ?_, ?_⟩
  · rw [try_get_log_entries_range, hr]
    rfl
  · intro e
    rw [BTreeMap.mem_values_in]
    simp only [h.stored]
  · apply BTreeMap.pairwise_values_in
    intro j k e e' hjk he he'
    rw [h.inv.keyed j e he, h.inv.keyed k e' he']
    exact hjk

/-- **The log refines its history**: after every sequence of calls that openraft
    may make, the storage is a contiguous log right after the purged part, and
    everything read from it is what the history says. -/
theorem log_refines_history {calls : List (Call E)} (h : (log_storage E).Trace calls st) :
    Refines calls st := by
  have hrec := Recorded.of_trace h
  obtain ⟨hi, hint⟩ := hrec.interval
  have hle := hint.le
  refine
    { keyed := hrec.inv.keyed
      contiguous := ⟨hi - st.first_index, ?_⟩
      purged := hrec.purged
      last_stored := fun k e hk hlast => get_log_state_of_last hk hlast
      last_purged := ?_
      entries := fun range hr => hrec.entries hr
      vote := hrec.vote
      committed := hrec.committed }
  · intro k
    rw [hint.mem]
    omega
  · intro hempty
    apply get_log_state_of_empty
    intro k
    rw [hempty]
    exact Finmap.notMem_empty

def first_two : List Entry := [⟨⟨⟨1, 0⟩, 0⟩, .Blank⟩, ⟨⟨⟨1, 0⟩, 1⟩, .Normal (.Clear "m")⟩]

/-- Two entries are appended, the second one is truncated, and then more than
    what is left is purged, as after the installation of a snapshot. -/
def purged_beyond : List (Call Entry) :=
  [.purge ⟨⟨2, 1⟩, 4⟩, .truncate ⟨⟨1, 0⟩, 1⟩, .append first_two]

theorem log_refines_history_purged_beyond :
    ∃ st, (log_storage Entry).Trace purged_beyond st ∧ Refines purged_beyond st := by
  have hallowed : (Call.append first_two).allowed (default : LogStorage Entry) := by
    have hnext : (default : LogStorage Entry).next_index = 0 := by
      rw [next_index, get_log_state_of_empty (fun k => Finmap.notMem_empty)]
      rfl
    intro k e hk
    rw [hnext]
    rcases k with _ | _ | k
    · cases hk
      rfl
    · cases hk
      rfl
    · cases hk
  have happend : (log_storage Entry).Trace [.append first_two]
      ((default : LogStorage Entry).append first_two) :=
    .step _ (.init rfl) ⟨hallowed, rfl⟩
  have hpurge : (log_storage Entry).Trace purged_beyond
      ((((default : LogStorage Entry).append first_two).truncate ⟨⟨1, 0⟩, 1⟩).purge ⟨⟨2, 1⟩, 4⟩) := by
    -- nothing has been purged before
    refine .step _ (.step _ happend ⟨?_, rfl⟩) ⟨?_, rfl⟩
    · intro p hp
      cases hp
    · intro p hp
      cases hp
  exact ⟨_, hpurge, log_refines_history hpurge⟩

end LogStorage

end Distruct

import Distruct.Collections.Refinement

/-! # Lookups by Borrowed Keys

    The lookups of `DMap` and `DMultiMap` take the key in any form `Q` with
    `K: Borrow<Q>`. An entry is found by its bytes, so the owned key and its
    borrowed form have to be encoded in the same way. `Borrow` does not promise
    that: it is about equality and hashing.

    All pairs of types that can be used are listed here, with the encodings
    that serde gives them. Sequences and strings are encoded with their length,
    fixed-size arrays without it.
-/

namespace Distruct

open Postcard (Bytes)
open StateMachineData (SetsMap SetsSet)
open StableLeader (ends_mono)

/-! ### Encodings -/

section encodings
variable {T : Type} [Serialize T]

/-- Several values, one after the other. -/
def serialize_elements (as : List T) : Except Postcard.Error Bytes :=
  (as.mapM Serialize.to_allocvec).map List.flatten

/-- `[T]` and `Vec<T>`: a sequence, which starts with its length. -/
def serialize_seq (as : List T) : Except Postcard.Error Bytes :=
  (serialize_elements as).map (Postcard.varint as.length ++ ·)

/-- `[T; N]`: a tuple, whose length is known from the type. -/
def serialize_tuple {n : Nat} (as : Vector T n) : Except Postcard.Error Bytes :=
  serialize_elements as.toList

/-- `str` and `String`. -/
def serialize_str (s : String) : Except Postcard.Error Bytes :=
  .ok (Postcard.Codec.str.encode s)

/-- The length makes a difference, whatever it is. -/
theorem serialize_seq_ne_tuple {n : Nat} {as : Vector T n} {bs : Bytes}
    (h : serialize_tuple as = .ok bs) : serialize_seq as.toList ≠ .ok bs := by
  have hseq : serialize_seq as.toList = .ok (Postcard.varint n ++ bs) := by
    unfold serialize_seq
    rw [show serialize_elements as.toList = .ok bs from h, Vector.length_toList]
    rfl
  intro heq
  rw [hseq] at heq
  have hlen : (Postcard.varint n ++ bs).length = bs.length :=
    congrArg List.length (Except.ok.inj heq)
  have hprefix : 1 ≤ (Postcard.varint n).length := Postcard.one_le_varintLen n
  rw [List.length_append] at hlen
  omega

end encodings

/-! ### Owned and borrowed keys -/

/-- A pointer that owns or borrows its target: `&T`, `&mut T`, `Box<T>`,
    `Rc<T>`, `Arc<T>`, and `Cow<T>`. So are the owned strings of the operating
    system: `CString`, `OsString`, and `PathBuf`. -/
structure Pointer (T : Type) where
  target : T

/-- The pairs of types with `K: Borrow<Q>`: those of the standard library, and
    those of a caller's own implementations. -/
inductive BorrowPair : Type 1
  | reflexive (T : Type) [Serialize T]
  | pointer (T : Type) [Serialize T]
  | string
  | vec (T : Type) [Serialize T]
  | array (T : Type) [Serialize T] (n : Nat)
  | own (K Q : Type) [Serialize K] [Serialize Q] (borrow : K → Q)

namespace BorrowPair

/-- `K` -/
def Key : BorrowPair → Type
  | reflexive T => T
  | pointer T => Pointer T
  | string => String
  | vec T => List T
  | array T n => Vector T n
  | own K _ _ => K

/-- `Q` -/
def Borrowed : BorrowPair → Type
  | reflexive T => T
  | pointer T => T
  | string => String
  | vec T => List T
  | array T _ => List T
  | own _ Q _ => Q

def borrow : (p : BorrowPair) → p.Key → p.Borrowed
  | reflexive T => fun key : T => key
  | pointer T => fun key : Pointer T => key.target
  | string => fun key : String => key
  | vec T => fun key : List T => key
  | array T n => fun key : Vector T n => key.toList
  | own _ _ borrow => borrow

def serialize_key : (p : BorrowPair) → p.Key → Except Postcard.Error Bytes
  | reflexive T => fun key : T => Serialize.to_allocvec key
  | pointer T => fun key : Pointer T => Serialize.to_allocvec key.target
  | string => serialize_str
  | vec T => serialize_seq (T := T)
  | array T n => serialize_tuple (T := T) (n := n)
  | own K _ _ => fun key : K => Serialize.to_allocvec key

def serialize_borrowed : (p : BorrowPair) → p.Borrowed → Except Postcard.Error Bytes
  | reflexive T => fun key : T => Serialize.to_allocvec key
  | pointer T => fun key : T => Serialize.to_allocvec key
  | string => serialize_str
  | vec T => serialize_seq (T := T)
  | array T _ => serialize_seq (T := T)
  | own _ Q _ => fun key : Q => Serialize.to_allocvec key

instance (p : BorrowPair) : Serialize p.Key := ⟨p.serialize_key⟩

instance (p : BorrowPair) : Serialize p.Borrowed := ⟨p.serialize_borrowed⟩

/-- No array is used through a slice, and a caller's own implementation keeps
    the encoding of the key. -/
def Agrees : (p : BorrowPair) → p.Key → Prop
  | reflexive _, _ | pointer _, _ | string, _ | vec _, _ => True
  | array _ _, _ => False
  | own K _ borrow, key => Serialize.to_allocvec (borrow key) = Serialize.to_allocvec (α := K) key

theorem agrees_iff {p : BorrowPair} {key : p.Key} {kb : Bytes}
    (hk : Serialize.to_allocvec key = .ok kb) :
    p.Agrees key ↔ Serialize.to_allocvec (p.borrow key) = .ok kb := by
  cases p with
  | reflexive T => exact iff_of_true trivial hk
  | pointer T => exact iff_of_true trivial hk
  | string => exact iff_of_true trivial hk
  | vec T => exact iff_of_true trivial hk
  | array T n => exact iff_of_false id (serialize_seq_ne_tuple hk)
  | own K Q borrow =>
    show Serialize.to_allocvec (borrow key) = Serialize.to_allocvec (α := K) key ↔ _
    rw [show Serialize.to_allocvec (α := K) key = .ok kb from hk]
    rfl

end BorrowPair

/-! ### Lookups -/

/-- With the key `q`, the methods of a map use the entry under the bytes `kb`:
    it is found with its value, and it is what is removed. -/
structure DMap.Addresses {K V Q : Type} [Serialize V] [Deserialize V] [Serialize Q]
    (L : StableLeader) (fuel : Nat) (m : DMap K V) (kb : Bytes) (value : V) (s : Leading) (q : Q) :
    Prop where
  get : ∃ s', (linked (m.get fuel q)).run L.answer s = some (.ok (some value), s') ∧
    s'.data = s.data
  contains_key : ∃ s', (linked (m.contains_key fuel q)).run L.answer s = some (.ok true, s') ∧
    s'.data = s.data
  remove : ∃ s', (linked (m.remove fuel q)).run L.answer s = some (.ok (some value), s') ∧
    SetsMap m.name ((s.data.map m.name).erase kb) s.data s'.data

/-- With the key `q` and the value `u`, the methods of a multi-map use the values
    under the bytes `kb`: all of them are looked up, and `vb` is what is removed. -/
structure DMultiMap.Addresses {K V Q U : Type} [Serialize V] [Deserialize V] [Serialize Q]
    [Serialize U] (L : StableLeader) (fuel : Nat) (m : DMultiMap K V) (kb vb : Bytes) (value : V)
    (s : Leading) (q : Q) (u : U) : Prop where
  get : ∃ l s', (linked (m.get fuel q)).run L.answer s = some (decode_values (some l), s') ∧
    HashSet.Lists ((s.data.multi_map m.name).or_default kb ∅) l ∧ s'.data = s.data
  found : ∀ values s', (linked (m.get fuel q)).run L.answer s = some (.ok values, s') →
    value ∈ values
  remove : ∃ s', (linked (m.remove fuel q u)).run L.answer s = some (.ok true, s') ∧
    SetsSet m.name kb (((s.data.multi_map m.name).or_default kb ∅).erase vb) s.data s'.data

section lookups
variable {K V Q U : Type} [Deserialize V] [Serialize Q] [Serialize U] {L : StableLeader}
  {name : String} {j : NodeId} {kb vb qb : Bytes} {value : V} {s : Leading} {q : Q} {u : U}

theorem run_get (fuel : Nat) (m : DMap K V) (hq : Serialize.to_allocvec q = .ok qb)
    (ha : accepts ⟨some L.leader, .Get m.name qb .ReadIndex⟩ = true) :
    ∃ s', (linked (m.get (fuel + 1) q)).run L.answer s
        = some (DMap.decode_value ((s.data.map m.name).lookup qb), s') ∧ s'.data = s.data := by
  obtain ⟨r, s', hrun, hsettled⟩ := ends_get (K := K) (V := V) (i := m.cluster) fuel hq s rfl
  obtain ⟨rfl, hdata⟩ := hsettled.of_reaches (by rw [ha, Bool.or_true])
  exact ⟨s', hrun, hdata⟩

omit [Deserialize V] in
theorem run_contains_key (fuel : Nat) (m : DMap K V) (hq : Serialize.to_allocvec q = .ok qb)
    (ha : accepts ⟨some L.leader, .ContainsKey m.name qb .ReadIndex⟩ = true) :
    ∃ s', (linked (m.contains_key (fuel + 1) q)).run L.answer s
        = some (.ok ((s.data.map m.name).lookup qb).isSome, s') ∧ s'.data = s.data := by
  obtain ⟨r, s', hrun, hsettled⟩ := ends_contains_key (K := K) (V := V) (i := m.cluster) fuel hq s rfl
  obtain ⟨rfl, hdata⟩ := hsettled.of_reaches (by rw [ha, Bool.or_true])
  exact ⟨s', hrun, hdata⟩

theorem run_remove (fuel : Nat) (m : DMap K V) (hq : Serialize.to_allocvec q = .ok qb)
    (ha : accepts ⟨some L.leader, .Remove m.name qb⟩ = true) :
    ∃ s', (linked (m.remove (fuel + 1) q)).run L.answer s
        = some (DMap.decode_value ((s.data.map m.name).lookup qb), s') ∧
      SetsMap m.name ((s.data.map m.name).erase qb) s.data s'.data := by
  obtain ⟨r, s', hrun, hsettled⟩ := ends_remove (K := K) (V := V) (i := m.cluster) fuel hq s rfl
  obtain ⟨rfl, hset⟩ := hsettled.of_reaches ha
  exact ⟨s', hrun, hset⟩

variable {fuel : Nat}

/-- A removal that succeeds has encoded its key. -/
theorem remove_succeeded {s' : Leading} {old : Option V}
    (hrun : (linked ((⟨name, j⟩ : DMap K V).remove (fuel + 1) q)).run L.answer s
      = some (.ok old, s')) :
    ∃ qb, Serialize.to_allocvec q = .ok qb ∧
      SetsMap name ((s.data.map name).erase qb) s.data s'.data := by
  cases hq : Serialize.to_allocvec q with
  | error e =>
    have hends : L.Ends (fun r _ => ∃ e, r = .error e)
        (linked ((⟨name, j⟩ : DMap K V).remove (fuel + 1) q)) s.data := ends_remove_unencoded hq
    obtain ⟨_, _, hrun', e', rfl⟩ := hends s rfl
    rw [hrun] at hrun'
    cases hrun'
  | ok qb =>
    obtain ⟨r, s'', hrun', hsettled⟩ := ends_remove (K := K) (V := V) (i := j) fuel hq s rfl
    rw [hrun] at hrun'
    cases hrun'
    exact ⟨qb, rfl, hsettled.of_ok.2⟩

omit [Deserialize V] in
theorem remove_multi_succeeded {s' : Leading} {present : Bool}
    (hrun : (linked ((⟨name, j⟩ : DMultiMap K V).remove (fuel + 1) q u)).run L.answer s
      = some (.ok present, s')) :
    ∃ qb ub, Serialize.to_allocvec q = .ok qb ∧ Serialize.to_allocvec u = .ok ub ∧
      SetsSet name qb (((s.data.multi_map name).or_default qb ∅).erase ub) s.data s'.data := by
  by_cases hencoded : ∃ qb ub, Serialize.to_allocvec q = .ok qb ∧ Serialize.to_allocvec u = .ok ub
  · obtain ⟨qb, ub, hq, hu⟩ := hencoded
    obtain ⟨r, s'', hrun', hsettled⟩ := ends_remove_multi (K := K) (V := V) (i := j) fuel hq hu s rfl
    rw [hrun] at hrun'
    cases hrun'
    exact ⟨qb, ub, hq, hu, hsettled.of_ok.2⟩
  · have hends : L.Ends (fun r _ => ∃ e, r = .error e)
        (linked ((⟨name, j⟩ : DMultiMap K V).remove (fuel + 1) q u)) s.data :=
      ends_remove_multi_unencoded fun qb ub h => hencoded ⟨qb, ub, h⟩
    obtain ⟨_, _, hrun', e', rfl⟩ := hends s rfl
    rw [hrun] at hrun'
    cases hrun'

/-- A value that is stored is among those that are found. -/
theorem mem_of_decode_values {l : List Bytes} {values : List V} (hvb : vb ∈ l)
    (hvalue : Deserialize.from_bytes vb = .ok value)
    (h : DMultiMap.decode_values (some l) = .ok values) : value ∈ values := by
  change l.mapM from_bytes = .ok values at h
  induction l generalizing values with
  | nil => cases hvb
  | cons b l ih =>
    rw [List.mapM_cons] at h
    cases hb : (from_bytes b : Except Error V) with
    | error e =>
      rw [hb] at h
      cases h
    | ok v =>
      cases hl : (l.mapM from_bytes : Except Error (List V)) with
      | error e =>
        rw [hb, hl] at h
        cases h
      | ok vs =>
        rw [hb, hl] at h
        cases h
        rcases List.mem_cons.mp hvb with rfl | hmem
        · rw [from_bytes, hvalue] at hb
          cases hb
          exact List.mem_cons_self
        · exact List.mem_cons_of_mem v (ih hmem hl)

variable [Serialize V]

/-- An entry is addressed by its bytes. -/
theorem addresses_iff (ha : accepts ⟨some L.leader, .Insert name kb vb⟩ = true)
    (hstored : (s.data.map name).lookup kb = some vb)
    (hvalue : Deserialize.from_bytes vb = .ok value) :
    DMap.Addresses L (fuel + 1) (⟨name, j⟩ : DMap K V) kb value s q ↔
      Serialize.to_allocvec q = .ok kb := by
  have hdecoded : DMap.decode_value ((s.data.map name).lookup kb) = .ok (some value) := by
    rw [hstored, DMap.decode_value, from_bytes, hvalue]
    rfl
  obtain ⟨haget, hacontains, haremove⟩ := lookup_accepted ha .ReadIndex
  constructor
  · intro h
    obtain ⟨s', hrun, hset⟩ := h.remove
    obtain ⟨qb, hq, hset'⟩ := remove_succeeded hrun
    -- the entry is gone, so it is what was erased
    have hgone : (s'.data.map name).lookup kb = none := by
      rw [hset.map, if_pos rfl, HashMap.lookup_erase_ite, if_pos rfl]
    by_cases hqb : kb = qb
    · rw [hqb]
      exact hq
    · rw [hset'.map, if_pos rfl, HashMap.lookup_erase_ite, if_neg hqb, hstored] at hgone
      cases hgone
  · intro hq
    constructor
    · obtain ⟨s', hrun, hdata⟩ := run_get (s := s) fuel (⟨name, j⟩ : DMap K V) hq haget
      exact ⟨s', hdecoded ▸ hrun, hdata⟩
    · obtain ⟨s', hrun, hdata⟩ := run_contains_key (s := s) fuel (⟨name, j⟩ : DMap K V) hq hacontains
      rw [hstored] at hrun
      exact ⟨s', hrun, hdata⟩
    · obtain ⟨s', hrun, hset⟩ := run_remove (s := s) fuel (⟨name, j⟩ : DMap K V) hq haremove
      exact ⟨s', hdecoded ▸ hrun, hset⟩

/-- A value of a multi-map is addressed by the bytes of its key and its own. -/
theorem addresses_multi_iff (ha : accepts ⟨some L.leader, .InsertMulti name kb vb⟩ = true)
    (hstored : vb ∈ (s.data.multi_map name).or_default kb ∅)
    (hvalue : Deserialize.from_bytes vb = .ok value) :
    DMultiMap.Addresses L (fuel + 1) (⟨name, j⟩ : DMultiMap K V) kb vb value s q u ↔
      Serialize.to_allocvec q = .ok kb ∧ Serialize.to_allocvec u = .ok vb := by
  obtain ⟨haget, haremove⟩ := lookup_multi_accepted ha .ReadIndex
  constructor
  · intro h
    obtain ⟨s', hrun, hset⟩ := h.remove
    obtain ⟨qb, ub, hq, hu, hset'⟩ := remove_multi_succeeded hrun
    -- the value is gone, so it is what was erased
    have hgone : vb ∉ (s'.data.multi_map name).or_default kb ∅ := by
      rw [hset.set, if_pos rfl]
      exact Finset.notMem_erase vb _
    rw [hset'.set] at hgone
    by_cases hqb : kb = qb
    · rw [if_pos hqb, ← hqb, Finset.mem_erase, not_and_or, not_ne_iff] at hgone
      rcases hgone with hub | hnone
      · exact ⟨hqb ▸ hq, hub ▸ hu⟩
      · exact absurd hstored hnone
    · rw [if_neg hqb] at hgone
      exact absurd hstored hgone
  · rintro ⟨hq, hu⟩
    obtain ⟨r, s', hrun, hsettled⟩ := ends_get_multi (K := K) (V := V) (i := j) fuel hq s rfl
    obtain ⟨⟨l, hl, rfl⟩, hdata⟩ := hsettled.of_reaches (by rw [haget, Bool.or_true])
    constructor
    · exact ⟨l, s', hrun, hl, hdata⟩
    · intro values s'' hrun'
      rw [hrun] at hrun'
      have hmem : vb ∈ l := by
        rw [← List.mem_toFinset, hl.2]
        exact hstored
      have hok := congrArg Prod.fst (Option.some.inj hrun')
      exact mem_of_decode_values hmem hvalue hok
    · obtain ⟨r, s'', hrun', hsettled'⟩ :=
        ends_remove_multi (K := K) (V := V) (i := j) fuel hq hu s rfl
      obtain ⟨rfl, hset⟩ := hsettled'.of_reaches haremove
      rw [decide_eq_true hstored] at hrun'
      exact ⟨s'', hrun', hset⟩

end lookups

/-! ### Lookups after an insertion -/

section insertions
variable {L : StableLeader} {i j : NodeId} {p q : BorrowPair} {kb vb : Bytes}

theorem insert_addresses_iff {V : Type} [Serialize V] [Deserialize V] (fuel : Nat) (name : String)
    {key : p.Key} {value : V} (hk : Serialize.to_allocvec key = .ok kb)
    (hv : Serialize.to_allocvec value = .ok vb) (hvalue : Deserialize.from_bytes vb = .ok value)
    (s : Leading) :
    ∃ r s₁, (linked ((⟨name, i⟩ : DMap p.Key V).insert (fuel + 1) key value)).run L.answer s
        = some (r, s₁) ∧
      (accepts ⟨some L.leader, .Insert name kb vb⟩ = true →
        (DMap.Addresses L (fuel + 1) (⟨name, j⟩ : DMap p.Key V) kb value s₁ (p.borrow key) ↔
          p.Agrees key)) := by
  obtain ⟨r, s₁, hrun, hsettled⟩ := ends_insert (i := i) fuel hk hv s rfl
  refine ⟨r, s₁, hrun, ?_⟩
  intro ha
  obtain ⟨_, hset⟩ := hsettled.of_reaches ha
  have hstored : (s₁.data.map name).lookup kb = some vb := by
    rw [hset.map, if_pos rfl, Finmap.lookup_insert]
  rw [addresses_iff ha hstored hvalue, BorrowPair.agrees_iff hk]

theorem insert_multi_addresses_iff [Deserialize q.Key] (fuel : Nat) (name : String)
    {key : p.Key} {value : q.Key} (hk : Serialize.to_allocvec key = .ok kb)
    (hv : Serialize.to_allocvec value = .ok vb) (hvalue : Deserialize.from_bytes vb = .ok value)
    (s : Leading) :
    ∃ r s₁, (linked ((⟨name, i⟩ : DMultiMap p.Key q.Key).insert (fuel + 1) key value)).run L.answer s
        = some (r, s₁) ∧
      (accepts ⟨some L.leader, .InsertMulti name kb vb⟩ = true →
        (DMultiMap.Addresses L (fuel + 1) (⟨name, j⟩ : DMultiMap p.Key q.Key) kb vb value s₁
            (p.borrow key) (q.borrow value) ↔
          p.Agrees key ∧ q.Agrees value)) := by
  obtain ⟨r, s₁, hrun, hsettled⟩ := ends_insert_multi (i := i) fuel hk hv s rfl
  refine ⟨r, s₁, hrun, ?_⟩
  intro ha
  obtain ⟨_, hset⟩ := hsettled.of_reaches ha
  have hstored : vb ∈ (s₁.data.multi_map name).or_default kb ∅ := by
    rw [hset.set, if_pos rfl]
    exact Finset.mem_insert_self vb _
  rw [addresses_multi_iff ha hstored hvalue, BorrowPair.agrees_iff hk, BorrowPair.agrees_iff hv]

end insertions

/-- **Lookups by borrowed keys**: under a stable leader, every insertion comes to
    an end, from any state and on any node. If the leader accepts its request, the
    lookups with the borrowed key, on any node, use the entry if and only if the
    borrowed key agrees with the owned one, that is, if and only if both have the
    same bytes. In a multi-map, the same holds of keys and values. -/
theorem borrowed_lookup_iff (L : StableLeader) (fuel : Nat) (name : String) (i j : NodeId)
    (p : BorrowPair) (key : p.Key) (kb : Bytes) (hk : Serialize.to_allocvec key = .ok kb) :
    (p.Agrees key ↔ Serialize.to_allocvec (p.borrow key) = .ok kb) ∧
    (∀ (V : Type) [Serialize V] [Deserialize V] (value : V) (vb : Bytes) (s : Leading),
      Serialize.to_allocvec value = .ok vb → Deserialize.from_bytes vb = .ok value →
      ∃ r s₁, (linked ((⟨name, i⟩ : DMap p.Key V).insert (fuel + 1) key value)).run L.answer s
          = some (r, s₁) ∧
        (accepts ⟨some L.leader, .Insert name kb vb⟩ = true →
          (DMap.Addresses L (fuel + 1) (⟨name, j⟩ : DMap p.Key V) kb value s₁ (p.borrow key) ↔
            p.Agrees key))) ∧
    (∀ (q : BorrowPair) [Deserialize q.Key] (value : q.Key) (vb : Bytes) (s : Leading),
      Serialize.to_allocvec value = .ok vb → Deserialize.from_bytes vb = .ok value →
      ∃ r s₁, (linked ((⟨name, i⟩ : DMultiMap p.Key q.Key).insert (fuel + 1) key value)).run
          L.answer s = some (r, s₁) ∧
        (accepts ⟨some L.leader, .InsertMulti name kb vb⟩ = true →
          (DMultiMap.Addresses L (fuel + 1) (⟨name, j⟩ : DMultiMap p.Key q.Key) kb vb value s₁
              (p.borrow key) (q.borrow value) ↔
            p.Agrees key ∧ q.Agrees value))) := by
  refine ⟨BorrowPair.agrees_iff hk, ?_, ?_⟩
  · intro V _ _ value vb s hv hvalue
    exact insert_addresses_iff fuel name hk hv hvalue s
  · intro q _ value vb s hv hvalue
    exact insert_multi_addresses_iff fuel name hk hv hvalue s

/-! ### A string and an array -/

section empty
variable {K V : Type} [Serialize K] [Serialize V] [Deserialize V] {key : K} {value : V} {kb vb : Bytes}

theorem insert_into_empty (hk : Serialize.to_allocvec key = .ok kb)
    (hv : Serialize.to_allocvec value = .ok vb) (hkb : kb.length < 128) (hvb : vb.length < 128) :
    ∃ s₁, (linked ((⟨"m", 1⟩ : DMap K V).insert 1 key value)).run node_zero_leads.answer ⟨default, 0⟩
        = some (.ok none, s₁) ∧ s₁.data.map "m" = (∅ : HashMap Bytes Bytes).insert kb vb := by
  have ha : accepts ⟨some 0, .Insert "m" kb vb⟩ = true := (short_write_accepted (by decide) hkb hvb).1
  obtain ⟨r, s₁, hrun, hsettled⟩ := ends_insert (L := node_zero_leads) (i := 1) 0 hk hv ⟨default, 0⟩ rfl
  obtain ⟨rfl, hset⟩ := hsettled.of_reaches ha
  exact ⟨s₁, hrun, (hset.map "m").trans (if_pos rfl)⟩

omit [Deserialize V] in
theorem insert_into_empty_multi (hk : Serialize.to_allocvec key = .ok kb)
    (hv : Serialize.to_allocvec value = .ok vb) (hkb : kb.length < 128) (hvb : vb.length < 128) :
    ∃ s₁, (linked ((⟨"m", 1⟩ : DMultiMap K V).insert 1 key value)).run node_zero_leads.answer
      ⟨default, 0⟩ = some (.ok true, s₁) := by
  have ha : accepts ⟨some 0, .InsertMulti "m" kb vb⟩ = true :=
    (short_write_accepted (by decide) hkb hvb).2
  obtain ⟨r, s₁, hrun, hsettled⟩ :=
    ends_insert_multi (L := node_zero_leads) (i := 1) 0 hk hv ⟨default, 0⟩ rfl
  obtain ⟨rfl, _⟩ := hsettled.of_reaches ha
  exact ⟨s₁, hrun⟩

end empty

theorem length_two : (Postcard.Codec.bytes.encode [2]).length < 128 := by
  rw [Postcard.length_bytes, Postcard.varintLen_lt (by decide)]
  decide

instance : Deserialize BorrowPair.string.Key := ⟨Postcard.Codec.str.from_bytes⟩

/-- A `String` is looked up as a `str`, in a map and in a multi-map of strings. -/
theorem string_found_by_str :
    (∃ s₁, (linked ((⟨"m", 1⟩ : DMap BorrowPair.string.Key Bytes).insert 1 "k" [2])).run
        node_zero_leads.answer ⟨default, 0⟩ = some (.ok none, s₁) ∧
      DMap.Addresses node_zero_leads 1 (⟨"m", 2⟩ : DMap BorrowPair.string.Key Bytes)
        (Postcard.Codec.str.encode "k") [2] s₁ (BorrowPair.string.borrow "k")) ∧
    ∃ s₁, (linked ((⟨"m", 1⟩ : DMultiMap BorrowPair.string.Key BorrowPair.string.Key).insert
        1 "k" "v")).run node_zero_leads.answer ⟨default, 0⟩ = some (.ok true, s₁) ∧
      DMultiMap.Addresses node_zero_leads 1
        (⟨"m", 2⟩ : DMultiMap BorrowPair.string.Key BorrowPair.string.Key)
        (Postcard.Codec.str.encode "k") (Postcard.Codec.str.encode "v") "v" s₁
        (BorrowPair.string.borrow "k") (BorrowPair.string.borrow "v") := by
  have hk : Serialize.to_allocvec (α := BorrowPair.string.Key) "k"
      = .ok (Postcard.Codec.str.encode "k") := rfl
  have hu : Serialize.to_allocvec (α := BorrowPair.string.Key) "v"
      = .ok (Postcard.Codec.str.encode "v") := rfl
  have hv : Serialize.to_allocvec ([2] : Bytes) = .ok (Postcard.Codec.bytes.encode [2]) := rfl
  have hkb : (Postcard.Codec.str.encode "k").length < 128 := by
    rw [Postcard.length_str, Postcard.varintLen_lt (by decide)]
    decide
  have hub : (Postcard.Codec.str.encode "v").length < 128 := by
    rw [Postcard.length_str, Postcard.varintLen_lt (by decide)]
    decide
  obtain ⟨_, hmap, hmulti⟩ := borrowed_lookup_iff node_zero_leads 0 "m" 1 2 .string "k" _ hk
  constructor
  · obtain ⟨s₁, hrun, _⟩ := insert_into_empty hk hv hkb length_two
    obtain ⟨r, s₂, hrun', hiff⟩ := hmap Bytes [2] _ ⟨default, 0⟩ hv (Postcard.Codec.from_bytes_encode _ _)
    rw [hrun] at hrun'
    cases hrun'
    have ha : accepts ⟨some 0, .Insert "m" (Postcard.Codec.str.encode "k")
        (Postcard.Codec.bytes.encode [2])⟩ = true :=
      (short_write_accepted (by decide) hkb length_two).1
    exact ⟨s₁, hrun, (hiff ha).mpr trivial⟩
  · obtain ⟨s₁, hrun⟩ := insert_into_empty_multi hk hu hkb hub
    obtain ⟨r, s₂, hrun', hiff⟩ :=
      hmulti .string "v" _ ⟨default, 0⟩ hu (Postcard.Codec.from_bytes_encode _ _)
    rw [hrun] at hrun'
    cases hrun'
    have ha : accepts ⟨some 0, .InsertMulti "m" (Postcard.Codec.str.encode "k")
        (Postcard.Codec.str.encode "v")⟩ = true :=
      (short_write_accepted (by decide) hkb hub).2
    exact ⟨s₁, hrun, (hiff ha).mpr ⟨trivial, trivial⟩⟩

/-- Keys that are arrays of four bytes, looked up as slices. -/
def four_bytes : BorrowPair := .array UInt8 4

def four_ones : four_bytes.Key := Vector.replicate 4 1

/-- A key that is an array is stored without its length and looked up with it:
    it is not found, and cannot be removed. -/
theorem array_not_found_by_slice :
    ∃ s₁, (linked ((⟨"m", 1⟩ : DMap four_bytes.Key Bytes).insert 1 four_ones [2])).run
        node_zero_leads.answer ⟨default, 0⟩ = some (.ok none, s₁) ∧
      (∃ s₂, (linked ((⟨"m", 2⟩ : DMap four_bytes.Key Bytes).get 1 (four_bytes.borrow four_ones))).run
        node_zero_leads.answer s₁ = some (.ok none, s₂)) ∧
      (∃ s₂, (linked ((⟨"m", 2⟩ : DMap four_bytes.Key Bytes).contains_key 1
        (four_bytes.borrow four_ones))).run node_zero_leads.answer s₁ = some (.ok false, s₂)) ∧
      ∃ s₂, (linked ((⟨"m", 2⟩ : DMap four_bytes.Key Bytes).remove 1
          (four_bytes.borrow four_ones))).run node_zero_leads.answer s₁ = some (.ok none, s₂) ∧
        (s₂.data.map "m").lookup [1, 1, 1, 1] = some (Postcard.Codec.bytes.encode [2]) := by
  have hk : Serialize.to_allocvec four_ones = .ok [1, 1, 1, 1] := rfl
  have hq : Serialize.to_allocvec (four_bytes.borrow four_ones) = .ok [4, 1, 1, 1, 1] := by
    show Except.ok (Postcard.varint 4 ++ [1, 1, 1, 1]) = _
    rw [Postcard.varint, if_pos (by omega)]
    rfl
  have hv : Serialize.to_allocvec ([2] : Bytes) = .ok (Postcard.Codec.bytes.encode [2]) := rfl
  obtain ⟨s₁, hrun, hdata⟩ := insert_into_empty hk hv (by decide) length_two
  -- under the bytes of the slice there is nothing
  have hnone : (s₁.data.map "m").lookup [4, 1, 1, 1, 1] = none := by
    rw [hdata, Finmap.lookup_insert_of_ne _ (by decide)]
    rfl
  have ha : accepts ⟨some 0, .Insert "m" [4, 1, 1, 1, 1] (Postcard.Codec.bytes.encode [2])⟩ = true :=
    (short_write_accepted (by decide) (by decide) length_two).1
  obtain ⟨haget, hacontains, haremove⟩ := lookup_accepted ha .ReadIndex
  obtain ⟨s₂, hget, _⟩ := run_get (L := node_zero_leads) (s := s₁) 0
    (⟨"m", 2⟩ : DMap four_bytes.Key Bytes) hq haget
  obtain ⟨s₃, hcontains, _⟩ := run_contains_key (L := node_zero_leads) (s := s₁) 0
    (⟨"m", 2⟩ : DMap four_bytes.Key Bytes) hq hacontains
  obtain ⟨s₄, hremove, hset⟩ := run_remove (L := node_zero_leads) (s := s₁) 0
    (⟨"m", 2⟩ : DMap four_bytes.Key Bytes) hq haremove
  rw [hnone] at hget hcontains hremove
  refine ⟨s₁, hrun, ⟨s₂, hget⟩, ⟨s₃, hcontains⟩, s₄, hremove, ?_⟩
  rw [hset.map, if_pos rfl, HashMap.lookup_erase_ite, if_neg (by decide), hdata, Finmap.lookup_insert]

end Distruct

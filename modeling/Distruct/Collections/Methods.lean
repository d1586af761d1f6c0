import Distruct.Collections.StableLeader

/-! # The Methods of the Collections under a Stable Leader

    What each method of `collections/dmap.rs` and `collections/dmultimap.rs`
    does to the data of the leader, in terms of the bytes that its key and its
    value are encoded as. Nothing is assumed of the encodings: two keys may have
    the same bytes, and stored bytes need not decode.
-/

namespace Distruct

open Postcard (Bytes)
open StateMachineData (SetsMap SetsSet)
open StableLeader (taken ends_pure ends_mono ends_call ends_map ends_linked_bind ends_write
  ends_consistent_read ends_read_with ends_remote ends_client_to_leader)

/-! ### Which operations reach the leader -/

/-- What an operation does if it reaches the leader; if its request is too
    long, it fails and has no effect. -/
def Settled {α : Type} (reaches : Bool) (Served : Except Error α → StateMachineData → Prop)
    (d : StateMachineData) (r : Except Error α) (d' : StateMachineData) : Prop :=
  if reaches then Served r d' else (∃ e, r = .error e) ∧ d' = d

section settled
variable {L : StableLeader} {α β : Type} {d : StateMachineData} {i : NodeId} {body : RequestBody}
  {accept : Response → Option α} {g : α → Except Error β}
  {Served : Except Error β → StateMachineData → Prop}

theorem ends_settled_remote (fuel : Nat)
    (hbody : L.Ends (fun reply d' => ∃ resp, reply = .ok resp ∧ Served ((taken accept resp).bind g) d')
      (handle_body L.leader body) d) :
    L.Ends (Settled (accepts ⟨some L.leader, body⟩) Served d) (linked (do
      let client ← client_to_leader i
      let a ← client.call (fuel + 1) body accept
      ExceptT.mk (pure (g a)))) d := by
  refine ends_remote fuel ?_ ?_
  · intro ha
    refine ends_mono ?_ hbody
    intro reply d' h
    obtain ⟨resp, rfl, hserved⟩ := h
    refine ⟨resp, rfl, ?_⟩
    unfold Settled
    rw [if_pos ha]
    exact hserved
  · intro ha e
    unfold Settled
    rw [ha]
    exact ⟨⟨e, rfl⟩, rfl⟩

/-- The same for a method that returns what the client returns. -/
theorem ends_settled_call {Served : Except Error α → StateMachineData → Prop} (fuel : Nat)
    (hbody : L.Ends (fun reply d' => ∃ resp, reply = .ok resp ∧ Served (taken accept resp) d')
      (handle_body L.leader body) d) :
    L.Ends (Settled (accepts ⟨some L.leader, body⟩) Served d) (linked (do
      let client ← client_to_leader i
      client.call (fuel + 1) body accept)) d := by
  have hok : ∀ client : Client, client.call (fuel + 1) body accept
      = client.call (fuel + 1) body accept >>= fun a => ExceptT.mk (pure (.ok a)) :=
    fun client => (bind_pure _).symm
  rw [funext hok]
  refine ends_settled_remote fuel (ends_mono ?_ hbody)
  intro reply d' h
  obtain ⟨resp, rfl, hserved⟩ := h
  refine ⟨resp, rfl, ?_⟩
  cases htaken : taken accept resp <;> rwa [htaken] at hserved

/-- A read is served locally on the leader, and by the leader elsewhere. -/
theorem ends_settled_read {here there : NodeResult Error β}
    (hhere : i = L.leader → L.Ends Served (linked here) d)
    (hthere : L.Ends (Settled (accepts ⟨some L.leader, body⟩) Served d) (linked there) d) :
    L.Ends (Settled (i == L.leader || accepts ⟨some L.leader, body⟩) Served d)
      (linked (do if ← should_read_stale i .ReadIndex then here else there)) d := by
  refine ends_read_with ?_ ?_
  · intro hi
    refine ends_mono ?_ (hhere hi)
    intro r d' h
    simpa [Settled, hi] using h
  · intro hi
    -- elsewhere the read is a request like any other
    have hbeq : (i == L.leader) = false := beq_false_of_ne hi
    rw [hbeq, Bool.false_or]
    exact hthere

/-- What is computed from the result of a method. -/
theorem ends_settled_then {x : NodeResult Error α} {f : α → β} {reaches : Bool}
    {Served' : Except Error α → StateMachineData → Prop}
    (h : L.Ends (Settled reaches Served' d) (linked x) d)
    (hf : ∀ r d', Served' r d' → Served (r.map f) d') :
    L.Ends (Settled reaches Served d) (linked (do return f (← x))) d := by
  refine ends_linked_bind (ends_mono ?_ h)
  intro r d' hr
  cases reaches with
  | true =>
    have hserved : Served (r.map f) d' := hf r d' hr
    cases r with
    | ok a => exact ends_pure hserved
    | error e => exact hserved
  | false =>
    obtain ⟨⟨e, rfl⟩, hd⟩ := hr
    exact ⟨⟨e, rfl⟩, hd⟩

end settled

/-- A weaker account of what is done. -/
theorem Settled.mono {α : Type} {reaches : Bool} {d d' : StateMachineData} {r : Except Error α}
    {Served Served' : Except Error α → StateMachineData → Prop}
    (h : Settled reaches Served d r d') (hmono : Served r d' → Served' r d') :
    Settled reaches Served' d r d' := by
  unfold Settled at h ⊢
  split
  · next hreaches =>
    rw [if_pos hreaches] at h
    exact hmono h
  · next hreaches =>
    rw [if_neg hreaches] at h
    exact h

/-- A method that succeeds has reached the leader. -/
theorem Settled.of_ok {α : Type} {reaches : Bool} {d d' : StateMachineData} {a : α}
    {Served : Except Error α → StateMachineData → Prop}
    (h : Settled reaches Served d (.ok a) d') : Served (.ok a) d' := by
  unfold Settled at h
  split at h
  · exact h
  · obtain ⟨⟨e, he⟩, _⟩ := h
    cases he

theorem Settled.of_reaches {α : Type} {reaches : Bool} {d d' : StateMachineData} {r : Except Error α}
    {Served : Except Error α → StateMachineData → Prop} (h : Settled reaches Served d r d')
    (hreaches : reaches = true) : Served r d' := by
  unfold Settled at h
  rw [if_pos hreaches] at h
  exact h

theorem to_allocvec_eq_pure {α : Type} [Serialize α] {a : α} {bs : Bytes}
    (h : Serialize.to_allocvec a = .ok bs) : to_allocvec a = pure bs := by
  unfold to_allocvec
  rw [h]
  rfl

theorem to_allocvec_eq_throw {α : Type} [Serialize α] {a : α} {e : Postcard.Error}
    (h : Serialize.to_allocvec a = .error e) : to_allocvec a = throw (.Serialization e) := by
  unfold to_allocvec
  rw [h]
  rfl

section methods
variable {K V Q U : Type} {L : StableLeader} {i : NodeId} {name : String} {d : StateMachineData}
  {kb vb : Bytes}

/-! ### Maps -/

theorem ends_insert [Serialize K] [Serialize V] [Deserialize V] (fuel : Nat) {key : K} {value : V}
    (hk : Serialize.to_allocvec key = .ok kb) (hv : Serialize.to_allocvec value = .ok vb) :
    L.Ends (Settled (accepts ⟨some L.leader, .Insert name kb vb⟩)
        (fun r d' => r = DMap.decode_value ((d.map name).lookup kb) ∧
          SetsMap name ((d.map name).insert kb vb) d d') d)
      (linked ((⟨name, i⟩ : DMap K V).insert (fuel + 1) key value)) d := by
  unfold DMap.insert Client.insert
  simp only [to_allocvec_eq_pure hk, to_allocvec_eq_pure hv, pure_bind]
  refine ends_settled_remote fuel (ends_write (.Insert name kb vb) ?_)
  intro log_id membership
  exact ⟨_, rfl, rfl, d.setsMap_insert name _⟩

theorem ends_contains_key [Serialize Q] (fuel : Nat) {key : Q}
    (hk : Serialize.to_allocvec key = .ok kb) :
    L.Ends (Settled (i == L.leader || accepts ⟨some L.leader, .ContainsKey name kb .ReadIndex⟩)
        (fun r d' => r = .ok ((d.map name).lookup kb).isSome ∧ d' = d) d)
      (linked ((⟨name, i⟩ : DMap K V).contains_key (fuel + 1) key)) d := by
  unfold DMap.contains_key DMap.contains_key_with DMap.contains_key_stale Client.contains_key
  simp only [to_allocvec_eq_pure hk, pure_bind]
  refine ends_settled_read ?_ (ends_settled_call fuel (ends_consistent_read ?_))
  · intro hi
    refine ends_call fun s hs => ⟨_, _, if_pos hi, ends_pure ?_⟩
    subst hs
    exact ⟨congrArg Except.ok (s.data.contains_key_eq name kb), rfl⟩
  · refine ends_call fun s hs => ⟨_, _, if_pos rfl, ends_pure ?_⟩
    subst hs
    exact ⟨_, rfl, congrArg Except.ok (s.data.contains_key_eq name kb), rfl⟩

theorem ends_get [Serialize Q] [Deserialize V] (fuel : Nat) {key : Q}
    (hk : Serialize.to_allocvec key = .ok kb) :
    L.Ends (Settled (i == L.leader || accepts ⟨some L.leader, .Get name kb .ReadIndex⟩)
        (fun r d' => r = DMap.decode_value ((d.map name).lookup kb) ∧ d' = d) d)
      (linked ((⟨name, i⟩ : DMap K V).get (fuel + 1) key)) d := by
  unfold DMap.get DMap.get_with DMap.get_stale Client.get
  simp only [to_allocvec_eq_pure hk, pure_bind]
  -- the same bytes are found locally and by the leader
  refine ends_settled_read ?_ (ends_settled_remote fuel (ends_consistent_read ?_))
  · intro hi
    refine ends_call fun s hs => ⟨_, _, if_pos hi, ends_pure ?_⟩
    subst hs
    exact ⟨congrArg DMap.decode_value (s.data.get_with_lock_eq name kb), rfl⟩
  · refine ends_call fun s hs => ⟨_, _, if_pos rfl, ends_pure ?_⟩
    subst hs
    exact ⟨_, rfl, congrArg DMap.decode_value (s.data.get_with_lock_eq name kb), rfl⟩

theorem ends_remove [Serialize Q] [Deserialize V] (fuel : Nat) {key : Q}
    (hk : Serialize.to_allocvec key = .ok kb) :
    L.Ends (Settled (accepts ⟨some L.leader, .Remove name kb⟩)
        (fun r d' => r = DMap.decode_value ((d.map name).lookup kb) ∧
          SetsMap name ((d.map name).erase kb) d d') d)
      (linked ((⟨name, i⟩ : DMap K V).remove (fuel + 1) key)) d := by
  unfold DMap.remove Client.remove
  simp only [to_allocvec_eq_pure hk, pure_bind]
  refine ends_settled_remote fuel (ends_call fun s hs => ⟨_, _, if_pos rfl, ends_pure ?_⟩)
  subst hs
  exact ⟨_, rfl, congrArg DMap.decode_value (s.data.remove_fst name kb), s.data.setsMap_remove name kb⟩

/-- A key that cannot be encoded ends a removal early. -/
theorem ends_remove_unencoded [Serialize Q] [Deserialize V] {fuel : Nat} {key : Q}
    {e : Postcard.Error} (hk : Serialize.to_allocvec key = .error e) :
    L.Ends (fun r _ => ∃ e, r = .error e)
      (linked ((⟨name, i⟩ : DMap K V).remove fuel key)) d := by
  unfold DMap.remove
  refine ends_linked_bind (ends_mono ?_ ends_client_to_leader)
  rintro _ _ ⟨rfl, rfl⟩
  rw [to_allocvec_eq_throw hk]
  exact ends_pure ⟨_, rfl⟩

/-! ### Multi-maps -/

theorem ends_insert_multi [Serialize K] [Serialize V] (fuel : Nat) {key : K} {value : V}
    (hk : Serialize.to_allocvec key = .ok kb) (hv : Serialize.to_allocvec value = .ok vb) :
    L.Ends (Settled (accepts ⟨some L.leader, .InsertMulti name kb vb⟩)
        (fun r d' => r = .ok (decide (vb ∉ (d.multi_map name).or_default kb ∅)) ∧
          SetsSet name kb (insert vb ((d.multi_map name).or_default kb ∅)) d d') d)
      (linked ((⟨name, i⟩ : DMultiMap K V).insert (fuel + 1) key value)) d := by
  unfold DMultiMap.insert Client.insert_multi
  simp only [to_allocvec_eq_pure hk, to_allocvec_eq_pure hv, pure_bind]
  refine ends_settled_call fuel (ends_write (.InsertMulti name kb vb) ?_)
  intro log_id membership
  exact ⟨_, rfl, rfl, d.setsSet_insert name kb _⟩

/-- The values come in some order. -/
theorem ends_get_multi [Serialize Q] [Deserialize V] (fuel : Nat) {key : Q}
    (hk : Serialize.to_allocvec key = .ok kb) :
    L.Ends (Settled (i == L.leader || accepts ⟨some L.leader, .GetMulti name kb .ReadIndex⟩)
        (fun r d' => (∃ l, HashSet.Lists ((d.multi_map name).or_default kb ∅) l ∧
          r = DMultiMap.decode_values (some l)) ∧ d' = d) d)
      (linked ((⟨name, i⟩ : DMultiMap K V).get (fuel + 1) key)) d := by
  -- a missing set is an empty one
  have hlisted : ∀ t, ∃ l, HashSet.Lists ((d.multi_map name).or_default kb ∅) l ∧
      (DMultiMap.decode_values ((d.get_with_lock_multi name kb).map (L.iter t)) : Except Error (List V))
        = DMultiMap.decode_values (some l) := by
    intro t
    rw [← d.get_with_lock_multi_eq name kb]
    cases d.get_with_lock_multi name kb with
    | none => exact ⟨[], ⟨List.nodup_nil, rfl⟩, rfl⟩
    | some set => exact ⟨L.iter t set, L.lists t set, rfl⟩
  unfold DMultiMap.get DMultiMap.get_with DMultiMap.get_stale Client.get_multi
  simp only [to_allocvec_eq_pure hk, pure_bind]
  refine ends_settled_read ?_ (ends_settled_remote fuel (ends_consistent_read ?_))
  · intro hi
    refine ends_call fun s hs => ⟨_, _, if_pos hi, ends_pure ?_⟩
    subst hs
    exact ⟨hlisted s.clock, rfl⟩
  · refine ends_call fun s hs => ⟨_, _, if_pos rfl, ends_pure ?_⟩
    subst hs
    exact ⟨_, rfl, hlisted s.clock, rfl⟩

theorem ends_remove_multi [Serialize Q] [Serialize U] (fuel : Nat) {key : Q} {value : U}
    (hk : Serialize.to_allocvec key = .ok kb) (hv : Serialize.to_allocvec value = .ok vb) :
    L.Ends (Settled (accepts ⟨some L.leader, .RemoveMulti name kb vb⟩)
        (fun r d' => r = .ok (decide (vb ∈ (d.multi_map name).or_default kb ∅)) ∧
          SetsSet name kb (((d.multi_map name).or_default kb ∅).erase vb) d d') d)
      (linked ((⟨name, i⟩ : DMultiMap K V).remove (fuel + 1) key value)) d := by
  unfold DMultiMap.remove Client.remove_multi
  simp only [to_allocvec_eq_pure hk, to_allocvec_eq_pure hv, pure_bind]
  refine ends_settled_call fuel (ends_call fun s hs => ⟨_, _, if_pos rfl, ends_pure ?_⟩)
  subst hs
  exact ⟨_, rfl, congrArg Except.ok (s.data.remove_multi_value_fst name kb vb),
    s.data.setsSet_remove_multi_value name kb vb⟩

/-- Neither the key nor the value may be missing. -/
theorem ends_remove_multi_unencoded [Serialize Q] [Serialize U] {fuel : Nat} {key : Q} {value : U}
    (h : ∀ kb vb, ¬ (Serialize.to_allocvec key = .ok kb ∧ Serialize.to_allocvec value = .ok vb)) :
    L.Ends (fun r _ => ∃ e, r = .error e)
      (linked ((⟨name, i⟩ : DMultiMap K V).remove fuel key value)) d := by
  unfold DMultiMap.remove
  refine ends_linked_bind (ends_mono ?_ ends_client_to_leader)
  rintro _ _ ⟨rfl, rfl⟩
  cases hk : Serialize.to_allocvec key with
  | error e =>
    rw [to_allocvec_eq_throw hk]
    exact ends_pure ⟨_, rfl⟩
  | ok kb =>
    cases hv : Serialize.to_allocvec value with
    | error e =>
      simp only [to_allocvec_eq_pure hk, to_allocvec_eq_throw hv, pure_bind]
      exact ends_pure ⟨_, rfl⟩
    | ok vb => exact absurd ⟨hk, hv⟩ (h kb vb)

end methods

end Distruct

import Distruct.Collections.Methods
import Distruct.Connection.MessageSize

/-! # The Collections Refine the Reference

    Each method is compared with the reference on the map, or the multi-map,
    that the data of the leader stands for. A simulation then carries this over
    to all sequences of operations.
-/

namespace Distruct

open Postcard (Bytes)
open Serialize.Lawful (bytes bytes_injective)
open StateMachineData (SetsMap SetsSet)
open StableLeader (ends_pure ends_mono ends_call ends_write ends_consistent_read)

/-! ### Encoding and decoding -/

section encoding
variable {K V : Type} [Serialize K] [Serialize.Lawful K]
  [Serialize V] [Serialize.Lawful V] [Deserialize V] [Deserialize.Lawful V]

theorem from_bytes_bytes (value : V) : from_bytes (bytes value) = .ok value := by
  unfold from_bytes
  rw [Deserialize.Lawful.from_bytes_bytes]
  rfl

theorem decode_value_bytes (value : Option V) : DMap.decode_value (value.map bytes) = .ok value := by
  cases value with
  | none => rfl
  | some v =>
    show (from_bytes (bytes v)).map some = .ok (some v)
    rw [from_bytes_bytes]
    rfl

theorem mapM_from_bytes (values : List V) :
    (values.map bytes).mapM from_bytes = .ok values := by
  induction values with
  | nil => rfl
  | cons v values ih =>
    rw [List.map_cons, List.mapM_cons, from_bytes_bytes, ih]
    rfl

/-- A list of the encoded elements of a set is decoded to a list of its
    elements. -/
theorem decode_values_bytes [DecidableEq V] {s : HashSet V} {l : List Bytes}
    (h : HashSet.Lists (s.image bytes) l) :
    ∃ values, DMultiMap.decode_values (some l) = .ok values ∧ s.Lists values := by
  obtain ⟨hnodup, himage⟩ := h
  -- every listed element is the encoding of some value
  have hencoded : l ∈ Set.range (List.map (bytes (α := V))) := by
    rw [Set.range_list_map]
    intro bs hbs
    have hmem : bs ∈ s.image bytes := by
      rw [← himage]
      exact List.mem_toFinset.mpr hbs
    obtain ⟨v, _, hv⟩ := Finset.mem_image.mp hmem
    exact ⟨v, hv⟩
  obtain ⟨values, rfl⟩ := hencoded
  refine ⟨values, mapM_from_bytes values, hnodup.of_map bytes, ?_⟩
  apply Finset.image_injective (bytes_injective (α := V))
  rw [← himage]
  ext bs
  simp

end encoding

/-! ### Maps -/

namespace MapMethod

variable {K V : Type} [DecidableEq K] [Serialize K] [Serialize.Lawful K]
  [Serialize V] [Serialize.Lawful V]

/-- The request that a method sends to the leader. -/
def request (name : String) : MapMethod K V → RequestBody
  | .insert key value => .Insert name (bytes key) (bytes value)
  | .get key => .Get name (bytes key) .ReadIndex
  | .contains_key key => .ContainsKey name (bytes key) .ReadIndex
  | .remove key => .Remove name (bytes key)
  | .len | .is_empty => .Len name .ReadIndex
  | .clear => .Clear name

/-- The leader serves its own reads without a request. -/
def reads : MapMethod K V → Bool
  | .get _ | .contains_key _ | .len | .is_empty => true
  | .insert .. | .remove _ | .clear => false

def reaches (L : StableLeader) (i : NodeId) (name : String) (o : MapMethod K V) : Bool :=
  o.reads && i == L.leader || accepts ⟨some L.leader, o.request name⟩

/-- The method has done on the map `name` of `d` what it does on `m`. -/
def Served (name : String) (m : HashMap K V) (d : StateMachineData) (o : MapMethod K V)
    (r : Except Error o.Result) (d' : StateMachineData) : Prop :=
  o.Agrees r (o.reference m).1 ∧
    ∃ m', SetsMap name m' d d' ∧ HashMap.Encodes bytes bytes m' (o.reference m).2

variable [Deserialize V]

/-- Called on node `i`, the method does what the reference does. -/
def Refines (L : StableLeader) (fuel : Nat) (i : NodeId) (name : String) (m : HashMap K V)
    (d : StateMachineData) (o : MapMethod K V) : Prop :=
  L.Ends (Settled (o.reaches L i name) (o.Served name m d) d)
    (linked (o.call (fuel + 1) ⟨name, i⟩)) d

variable {L : StableLeader} {fuel : Nat} {i : NodeId} {name : String} {m : HashMap K V}
  {d : StateMachineData}

theorem refines_clear : Refines L fuel i name m d .clear := by
  unfold Refines call DMap.clear Client.clear
  refine ends_settled_call fuel (ends_write (.Clear name) ?_)
  intro log_id membership
  exact ⟨_, rfl, trivial, _, d.setsMap_insert name ∅, .empty⟩

theorem refines_contains_key (h : HashMap.Encodes bytes bytes (d.map name) m) (key : K) :
    Refines L fuel i name m d (.contains_key key) := by
  refine ends_mono ?_ (ends_contains_key fuel (Serialize.Lawful.to_allocvec_eq key))
  intro r d' hr
  refine hr.mono ?_
  rintro ⟨rfl, rfl⟩
  refine ⟨?_, _, d'.setsMap_self name, h⟩
  show Except.ok ((d'.map name).lookup (bytes key)).isSome = .ok (m.lookup key).isSome
  rw [h.lookup, Option.isSome_map]

theorem refines_len (h : HashMap.Encodes bytes bytes (d.map name) m) :
    Refines L fuel i name m d .len := by
  have hvalue : (d.map_len name).getD 0 = m.keys.card := by
    rw [StateMachineData.map_len_eq, h.keys_card bytes_injective]
  unfold Refines call DMap.len DMap.len_with DMap.len_stale Client.len
  refine ends_settled_read ?_ (ends_settled_remote fuel (ends_consistent_read ?_))
  · intro hi
    refine ends_call fun s hs => ⟨_, _, if_pos hi, ends_pure ?_⟩
    subst hs
    exact ⟨congrArg Except.ok hvalue, _, s.data.setsMap_self name, h⟩
  · refine ends_call fun s hs => ⟨_, _, if_pos rfl, ends_pure ?_⟩
    subst hs
    exact ⟨_, rfl, congrArg Except.ok hvalue, _, s.data.setsMap_self name, h⟩

theorem refines_is_empty (h : HashMap.Encodes bytes bytes (d.map name) m) :
    Refines L fuel i name m d .is_empty := by
  refine ends_settled_then (refines_len h) ?_
  intro r d' hr
  obtain ⟨hlen, hdata⟩ := hr
  refine ⟨?_, hdata⟩
  show r.map (· == 0) = .ok (m.keys.card == 0)
  rw [show r = .ok m.keys.card from hlen]
  rfl

variable [Deserialize.Lawful V]

theorem refines_insert (h : HashMap.Encodes bytes bytes (d.map name) m) (key : K) (value : V) :
    Refines L fuel i name m d (.insert key value) := by
  refine ends_mono ?_ (ends_insert fuel (Serialize.Lawful.to_allocvec_eq key)
    (Serialize.Lawful.to_allocvec_eq value))
  intro r d' hr
  refine hr.mono ?_
  rintro ⟨rfl, hset⟩
  refine ⟨?_, _, hset, h.insert bytes_injective key value⟩
  show DMap.decode_value ((d.map name).lookup (bytes key)) = .ok (m.lookup key)
  rw [h.lookup, decode_value_bytes]

theorem refines_remove (h : HashMap.Encodes bytes bytes (d.map name) m) (key : K) :
    Refines L fuel i name m d (.remove key) := by
  refine ends_mono ?_ (ends_remove fuel (Serialize.Lawful.to_allocvec_eq key))
  intro r d' hr
  refine hr.mono ?_
  rintro ⟨rfl, hset⟩
  refine ⟨?_, _, hset, h.erase bytes_injective key⟩
  show DMap.decode_value ((d.map name).lookup (bytes key)) = .ok (m.lookup key)
  rw [h.lookup, decode_value_bytes]

theorem refines_get (h : HashMap.Encodes bytes bytes (d.map name) m) (key : K) :
    Refines L fuel i name m d (.get key) := by
  refine ends_mono ?_ (ends_get fuel (Serialize.Lawful.to_allocvec_eq key))
  intro r d' hr
  refine hr.mono ?_
  rintro ⟨rfl, rfl⟩
  refine ⟨?_, _, d'.setsMap_self name, h⟩
  show DMap.decode_value ((d'.map name).lookup (bytes key)) = .ok (m.lookup key)
  rw [h.lookup, decode_value_bytes]

/-- All methods of a map. -/
theorem refines (h : HashMap.Encodes bytes bytes (d.map name) m) (o : MapMethod K V) :
    Refines L fuel i name m d o := by
  cases o with
  | insert key value => exact refines_insert h key value
  | get key => exact refines_get h key
  | contains_key key => exact refines_contains_key h key
  | remove key => exact refines_remove h key
  | len => exact refines_len h
  | is_empty => exact refines_is_empty h
  | clear => exact refines_clear

end MapMethod

/-! ### Multi-maps -/

namespace MultiMapMethod

variable {K V : Type} [DecidableEq K] [Serialize K] [Serialize.Lawful K]
  [DecidableEq V] [Serialize V] [Serialize.Lawful V]

def request (name : String) : MultiMapMethod K V → RequestBody
  | .insert key value => .InsertMulti name (bytes key) (bytes value)
  | .get key => .GetMulti name (bytes key) .ReadIndex
  | .remove key value => .RemoveMulti name (bytes key) (bytes value)

def reads : MultiMapMethod K V → Bool
  | .get _ => true
  | .insert .. | .remove .. => false

def reaches (L : StableLeader) (i : NodeId) (name : String) (o : MultiMapMethod K V) : Bool :=
  o.reads && i == L.leader || accepts ⟨some L.leader, o.request name⟩

/-- The method has done on the multi-map `name` of `d` what it does on `m`. -/
structure Served (name : String) (m : HashMap K (HashSet V)) (d : StateMachineData)
    (o : MultiMapMethod K V) (r : Except Error o.Result) (d' : StateMachineData) : Prop where
  agrees : o.Agrees r (o.reference m).1
  maps : d'.maps = d.maps
  others : ∀ n, n ≠ name → d'.multi_map n = d.multi_map n
  encodes : HashMap.EncodesSets bytes bytes (d'.multi_map name) (o.reference m).2

variable [Deserialize V]

def Refines (L : StableLeader) (fuel : Nat) (i : NodeId) (name : String)
    (m : HashMap K (HashSet V)) (d : StateMachineData) (o : MultiMapMethod K V) : Prop :=
  L.Ends (Settled (o.reaches L i name) (o.Served name m d) d)
    (linked (o.call (fuel + 1) ⟨name, i⟩)) d

variable {L : StableLeader} {fuel : Nat} {i : NodeId} {name : String} {m : HashMap K (HashSet V)}
  {d : StateMachineData}

theorem refines_insert (h : HashMap.EncodesSets bytes bytes (d.multi_map name) m) (key : K)
    (value : V) : Refines L fuel i name m d (.insert key value) := by
  have hset : Insert.insert (bytes value) ((d.multi_map name).or_default (bytes key) ∅)
      = (Insert.insert value (m.or_default key ∅)).image bytes := by
    rw [h key, Finset.image_insert]
  have hmem : bytes value ∈ (d.multi_map name).or_default (bytes key) ∅
      ↔ value ∈ m.or_default key ∅ := by
    rw [h key, bytes_injective.mem_finset_image]
  refine ends_mono ?_ (ends_insert_multi fuel (Serialize.Lawful.to_allocvec_eq key)
    (Serialize.Lawful.to_allocvec_eq value))
  intro r d' hr
  refine hr.mono ?_
  rintro ⟨rfl, hsets⟩
  refine ⟨?_, hsets.maps, hsets.others, h.replace bytes_injective (hset ▸ hsets.set)⟩
  exact congrArg Except.ok (decide_eq_decide.mpr (not_congr hmem))

theorem refines_remove (h : HashMap.EncodesSets bytes bytes (d.multi_map name) m) (key : K)
    (value : V) : Refines L fuel i name m d (.remove key value) := by
  have hset : ((d.multi_map name).or_default (bytes key) ∅).erase (bytes value)
      = ((m.or_default key ∅).erase value).image bytes := by
    rw [h key, Finset.image_erase bytes_injective]
  have hmem : bytes value ∈ (d.multi_map name).or_default (bytes key) ∅
      ↔ value ∈ m.or_default key ∅ := by
    rw [h key, bytes_injective.mem_finset_image]
  refine ends_mono ?_ (ends_remove_multi fuel (Serialize.Lawful.to_allocvec_eq key)
    (Serialize.Lawful.to_allocvec_eq value))
  intro r d' hr
  refine hr.mono ?_
  rintro ⟨rfl, hsets⟩
  refine ⟨?_, hsets.maps, hsets.others, h.replace bytes_injective (hset ▸ hsets.set)⟩
  exact congrArg Except.ok (decide_eq_decide.mpr hmem)

theorem refines_get [Deserialize.Lawful V]
    (h : HashMap.EncodesSets bytes bytes (d.multi_map name) m) (key : K) :
    Refines L fuel i name m d (.get key) := by
  refine ends_mono ?_ (ends_get_multi fuel (Serialize.Lawful.to_allocvec_eq key))
  intro r d' hr
  refine hr.mono ?_
  rintro ⟨⟨l, hl, rfl⟩, rfl⟩
  rw [h key] at hl
  exact ⟨decode_values_bytes hl, rfl, fun _ _ => rfl, h⟩

/-- All methods of a multi-map. -/
theorem refines [Deserialize.Lawful V]
    (h : HashMap.EncodesSets bytes bytes (d.multi_map name) m) (o : MultiMapMethod K V) :
    Refines L fuel i name m d o := by
  cases o with
  | insert key value => exact refines_insert h key value
  | get key => exact refines_get h key
  | remove key value => exact refines_remove h key value

end MultiMapMethod

/-! ### Sequences of operations -/

section operations
variable {S : Schema}

namespace Operation

def reaches (L : StableLeader) : Operation S → Bool
  | .map i name method => method.reaches L i name
  | .multi_map i name method => method.reaches L i name

/-- What the reference says about an operation; nothing is expected of one that
    does not reach the leader. -/
def reference (L : StableLeader) (o : Operation S) (ref : Reference S) :
    Option o.Expected × Reference S :=
  if o.reaches L then (some (ref.step o).1, (ref.step o).2) else (none, ref)

/-- A result is the expected one, or an error if the request does not reach the
    leader. -/
def Agrees : (o : Operation S) → Except Error o.Result → Option o.Expected → Prop
  | _, r, none => ∃ e, r = .error e
  | .map _ _ method, r, some expected => method.Agrees r expected
  | .multi_map _ _ method, r, some expected => method.Agrees r expected

end Operation

/-- An operation that is served agrees with the reference; one that is not
    changes nothing. -/
theorem Settled.agrees {L : StableLeader} {o : Operation S} {d d' : StateMachineData}
    {ref : Reference S} {r : Except Error o.Result}
    {Served : Except Error o.Result → StateMachineData → Prop}
    (hsettled : Settled (o.reaches L) Served d r d') (h : Represents d ref)
    (hserved : Served r d' →
      o.Agrees r (some (ref.step o).1) ∧ Represents d' (ref.step o).2) :
    o.Agrees r (o.reference L ref).1 ∧ Represents d' (o.reference L ref).2 := by
  unfold Settled at hsettled
  unfold Operation.reference
  split at hsettled
  · next hreaches =>
    rw [if_pos hreaches]
    exact hserved hsettled
  · next hreaches =>
    obtain ⟨herror, rfl⟩ := hsettled
    rw [if_neg hreaches]
    cases o <;> exact ⟨herror, h⟩

/-- The simulation step: whatever the data stands for, an operation comes to an
    end with the result that the reference says, and the data then stands for
    what the reference has become. -/
theorem operation_refines (L : StableLeader) (fuel : Nat) (o : Operation S) {s : Leading}
    {ref : Reference S} (h : Represents s.data ref) :
    ∃ r s', (linked (o.call (fuel + 1))).run L.answer s = some (r, s') ∧
      o.Agrees r (o.reference L ref).1 ∧ Represents s'.data (o.reference L ref).2 := by
  cases o with
  | map i name method =>
    obtain ⟨r, s', hrun, hsettled⟩ := method.refines (L := L) (i := i) (h.maps name) s rfl
    refine ⟨r, s', hrun, Settled.agrees hsettled h ?_⟩
    intro hserved
    obtain ⟨hagrees, m', hset, henc⟩ := hserved
    exact ⟨hagrees, h.set_map henc hset⟩
  | multi_map i name method =>
    obtain ⟨r, s', hrun, hsettled⟩ := method.refines (L := L) (i := i) (h.multi_maps name) s rfl
    refine ⟨r, s', hrun, Settled.agrees hsettled h ?_⟩
    intro hserved
    exact ⟨hserved.agrees, h.set_multi_map hserved.maps hserved.others hserved.encodes⟩

/-- **Refinement of the reference collections**: as long as one leader stays
    the leader, every sequence of operations on any collections, called on any
    nodes, returns what the reference collections return, starting with empty
    ones. An operation on one name changes neither a collection under another
    name nor the collection of the other kind under the same name. -/
theorem collections_refine_reference (L : StableLeader) (fuel : Nat) (ops : List (Operation S))
    (s : Leading) (hs : s.data = default) :
    Refinement.Follows (fun o s => (linked (Operation.call (fuel + 1) o)).run L.answer s)
      (fun o ref => o.reference L ref) Operation.Agrees ops s Reference.initial ∧
    ∀ (o : Operation S) (ref : Reference S) (name : String),
      (¬ o.OnMap name → (o.reference L ref).2.maps name = ref.maps name) ∧
      (¬ o.OnMultiMap name → (o.reference L ref).2.multi_maps name = ref.multi_maps name) := by
  constructor
  · -- the relation between the two states is the representation
    refine Refinement.follows_of_simulation (fun s ref => Represents s.data ref) ?_ ops ?_
    · intro o s ref h
      exact operation_refines L fuel o h
    · rw [hs]
      exact .initial
  · intro o ref name
    unfold Operation.reference
    split
    · exact ⟨ref.step_maps, ref.step_multi_maps⟩
    · exact ⟨fun _ => rfl, fun _ => rfl⟩

end operations

/-! ### An insertion and a lookup -/

/-- Maps and multi-maps of bytes. -/
def bytes_schema : Schema where
  maps := fun _ => { Key := Bytes, Value := Bytes }
  multi_maps := fun _ => { Key := Bytes, Value := Bytes }

/-- Node 0 leads, and every node knows it. -/
noncomputable def node_zero_leads : StableLeader where
  leader := 0
  node := .localhost
  metrics := fun _ i => ⟨i, if i = 0 then .Leader else .Follower, some 0,
    ⟨none, ⟨[{0}], (∅ : HashMap NodeId Node).insert 0 .localhost⟩⟩⟩
  own_id := fun _ _ => rfl
  known := fun _ _ => rfl
  reachable := fun _ _ => Finmap.lookup_insert ∅
  log_id := fun t => ⟨⟨1, 0⟩, t⟩
  membership := fun _ => none
  read_log_id := fun _ => none
  iter := fun _ s => s.toList
  lists := fun _ s => ⟨s.nodup_toList, s.toList_toFinset⟩

def insert_on_node_one : Operation bytes_schema := .map 1 "m" (.insert [1] [2])

def get_on_node_zero : Operation bytes_schema := .map 0 "m" (.get [1])

/-- Node 1 inserts an entry into a map, and the leader then looks it up. -/
theorem collections_refine_reference_insert_get :
    ∃ s₁ s₂,
      (linked (insert_on_node_one.call 1)).run node_zero_leads.answer ⟨default, 0⟩
        = some (.ok none, s₁) ∧
      (linked (get_on_node_zero.call 1)).run node_zero_leads.answer s₁
        = some (.ok (some [2]), s₂) := by
  have hlen : ∀ b : UInt8, (Postcard.Codec.bytes.encode [b]).length < 128 := by
    intro b
    rw [Postcard.length_bytes, List.length_singleton, Postcard.varintLen_lt (by decide)]
    decide
  have hreaches : insert_on_node_one.reaches node_zero_leads = true :=
    (short_write_accepted (by decide) (hlen 1) (hlen 2)).1
  obtain ⟨r₁, s₁, hrun₁, hr₁, r₂, s₂, hrun₂, hr₂, _⟩ := (collections_refine_reference
    node_zero_leads 0 [insert_on_node_one, get_on_node_zero] ⟨default, 0⟩ rfl).1
  simp only [Operation.reference, if_pos hreaches] at hr₁ hr₂
  cases hr₁
  cases hr₂
  exact ⟨s₁, s₂, hrun₁, hrun₂⟩

end Distruct

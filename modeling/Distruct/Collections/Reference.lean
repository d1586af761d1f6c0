import Distruct.Collections.DMap
import Distruct.Framework.Refinement

/-! # The Reference Collections

    What the distributed collections are for: under every name there is a map,
    and separately a multi-map, both empty at first. An operation acts on the
    collection it names as it would on an ordinary one in memory.

    Keys and values are encoded on their way into the cluster. The methods are
    compared with the reference for types that postcard encodes faithfully.
-/

namespace Distruct

open Postcard (Bytes)

/-! ### Faithful encodings -/

/-- Postcard encodes every value of the type, and different values differently. -/
class Serialize.Lawful (α : Type) [Serialize α] where
  bytes : α → Bytes
  to_allocvec_eq : ∀ a : α, Serialize.to_allocvec a = .ok (bytes a)
  bytes_injective : Function.Injective bytes

/-- Postcard decodes what it has encoded. -/
class Deserialize.Lawful (α : Type) [Serialize α] [Serialize.Lawful α] [Deserialize α] : Prop where
  from_bytes_bytes : ∀ a : α, Deserialize.from_bytes (Serialize.Lawful.bytes a) = .ok a

open Serialize.Lawful (bytes bytes_injective)

instance : Serialize.Lawful Bytes where
  bytes := Postcard.Codec.bytes.encode
  to_allocvec_eq := fun _ => rfl
  bytes_injective := by
    intro a b h
    have hround := congrArg Postcard.Codec.bytes.from_bytes h
    rw [Postcard.Codec.from_bytes_encode, Postcard.Codec.from_bytes_encode] at hround
    exact Except.ok.inj hround

instance : Deserialize.Lawful Bytes where
  from_bytes_bytes := Postcard.Codec.bytes.from_bytes_encode

/-! ### Methods -/

/-- The methods of `DMap`, with their arguments. -/
inductive MapMethod (K V : Type) where
  | insert (key : K) (value : V)
  | get (key : K)
  | contains_key (key : K)
  | remove (key : K)
  | len
  | is_empty
  | clear

/-- The methods of `DMultiMap`, with their arguments. -/
inductive MultiMapMethod (K V : Type) where
  | insert (key : K) (value : V)
  | get (key : K)
  | remove (key : K) (value : V)

namespace MapMethod

variable {K V : Type}

@[reducible] def Result : MapMethod K V → Type
  | .insert .. | .get _ | .remove _ => Option V
  | .contains_key _ | .is_empty => Bool
  | .len => Nat
  | .clear => Unit

/-- The method of a handle. -/
def call [Serialize K] [Serialize V] [Deserialize V] (fuel : Nat) (m : DMap K V) :
    (o : MapMethod K V) → NodeResult Error o.Result
  | .insert key value => m.insert fuel key value
  | .get key => m.get fuel key
  | .contains_key key => m.contains_key fuel key
  | .remove key => m.remove fuel key
  | .len => m.len fuel
  | .is_empty => m.is_empty fuel
  | .clear => m.clear fuel

/-- The method on a map in memory. -/
def reference [DecidableEq K] (m : HashMap K V) : (o : MapMethod K V) → o.Result × HashMap K V
  | .insert key value => (m.lookup key, m.insert key value)
  | .get key => (m.lookup key, m)
  | .contains_key key => ((m.lookup key).isSome, m)
  | .remove key => (m.lookup key, m.erase key)
  | .len => (m.keys.card, m)
  | .is_empty => (m.keys.card == 0, m)
  | .clear => ((), ∅)

/-- A result is the expected one. What `clear` returns is left open. -/
def Agrees : (o : MapMethod K V) → Except Error o.Result → o.Result → Prop
  | .clear, _, _ => True
  | .insert .., r, expected => r = .ok expected
  | .get _, r, expected => r = .ok expected
  | .contains_key _, r, expected => r = .ok expected
  | .remove _, r, expected => r = .ok expected
  | .len, r, expected => r = .ok expected
  | .is_empty, r, expected => r = .ok expected

end MapMethod

namespace MultiMapMethod

variable {K V : Type}

@[reducible] def Result : MultiMapMethod K V → Type
  | .insert .. | .remove .. => Bool
  | .get _ => List V

/-- The reference has a set where the code returns a list. -/
@[reducible] def Expected : MultiMapMethod K V → Type
  | .insert .. | .remove .. => Bool
  | .get _ => HashSet V

def call [Serialize K] [Serialize V] [Deserialize V] (fuel : Nat) (m : DMultiMap K V) :
    (o : MultiMapMethod K V) → NodeResult Error o.Result
  | .insert key value => m.insert fuel key value
  | .get key => m.get fuel key
  | .remove key value => m.remove fuel key value

/-- The method on a multi-map in memory, where an absent key has no values. -/
def reference [DecidableEq K] [DecidableEq V] (m : HashMap K (HashSet V)) :
    (o : MultiMapMethod K V) → o.Expected × HashMap K (HashSet V)
  | .insert key value =>
    (decide (value ∉ m.or_default key ∅), m.insert key (Insert.insert value (m.or_default key ∅)))
  | .get key => (m.or_default key ∅, m)
  | .remove key value =>
    (decide (value ∈ m.or_default key ∅), m.insert key ((m.or_default key ∅).erase value))

/-- A list agrees with a set if it has every element of it exactly once. -/
def Agrees [DecidableEq V] : (o : MultiMapMethod K V) → Except Error o.Result → o.Expected → Prop
  | .insert .., r, expected => r = .ok expected
  | .get _, r, expected => ∃ l, r = .ok l ∧ expected.Lists l
  | .remove .., r, expected => r = .ok expected

end MultiMapMethod

/-! ### Operations

    Every map and every multi-map has its own types of keys and values. -/

/-- The types of the keys and the values of a collection. -/
structure Elements where
  Key : Type
  Value : Type
  [key_eq : DecidableEq Key]
  [key : Serialize Key]
  [key_lawful : Serialize.Lawful Key]
  [value_eq : DecidableEq Value]
  [value : Serialize Value]
  [value_lawful : Serialize.Lawful Value]
  [decode_value : Deserialize Value]
  [decode_value_lawful : Deserialize.Lawful Value]

attribute [instance] Elements.key_eq Elements.key Elements.key_lawful Elements.value_eq
  Elements.value Elements.value_lawful Elements.decode_value Elements.decode_value_lawful

/-- The types of the collections, by name. -/
structure Schema where
  maps : String → Elements
  multi_maps : String → Elements

/-- A method of the collection `name`, called on the node `cluster`. -/
inductive Operation (S : Schema) where
  | map (cluster : NodeId) (name : String)
      (method : MapMethod (S.maps name).Key (S.maps name).Value)
  | multi_map (cluster : NodeId) (name : String)
      (method : MultiMapMethod (S.multi_maps name).Key (S.multi_maps name).Value)

variable {S : Schema}

namespace Operation

@[reducible] def Result : Operation S → Type
  | .map _ _ method => method.Result
  | .multi_map _ _ method => method.Result

@[reducible] def Expected : Operation S → Type
  | .map _ _ method => method.Result
  | .multi_map _ _ method => method.Expected

def call (fuel : Nat) : (o : Operation S) → NodeResult Error o.Result
  | .map cluster name method => method.call fuel ⟨name, cluster⟩
  | .multi_map cluster name method => method.call fuel ⟨name, cluster⟩

/-- The operation is on the map `name`. -/
def OnMap (name : String) : Operation S → Prop
  | .map _ name' _ => name' = name
  | .multi_map .. => False

/-- The operation is on the multi-map `name`. -/
def OnMultiMap (name : String) : Operation S → Prop
  | .map .. => False
  | .multi_map _ name' _ => name' = name

end Operation

/-! ### The reference state -/

/-- A map and a multi-map for every name. -/
structure Reference (S : Schema) where
  maps : (name : String) → HashMap (S.maps name).Key (S.maps name).Value
  multi_maps : (name : String) →
    HashMap (S.multi_maps name).Key (HashSet (S.multi_maps name).Value)

namespace Reference

def initial : Reference S := ⟨fun _ => ∅, fun _ => ∅⟩

def step (ref : Reference S) : (o : Operation S) → o.Expected × Reference S
  | .map _ name method =>
    let r := method.reference (ref.maps name)
    (r.1, { ref with maps := Function.update ref.maps name r.2 })
  | .multi_map _ name method =>
    let r := method.reference (ref.multi_maps name)
    (r.1, { ref with multi_maps := Function.update ref.multi_maps name r.2 })

/-- An operation leaves the maps under other names alone, and all maps if it is
    on a multi-map. -/
theorem step_maps (ref : Reference S) {o : Operation S} {name : String} (h : ¬ o.OnMap name) :
    (ref.step o).2.maps name = ref.maps name := by
  cases o with
  | map cluster name' method => exact Function.update_of_ne (fun he => h he.symm) _ _
  | multi_map cluster name' method => rfl

theorem step_multi_maps (ref : Reference S) {o : Operation S} {name : String}
    (h : ¬ o.OnMultiMap name) : (ref.step o).2.multi_maps name = ref.multi_maps name := by
  cases o with
  | map cluster name' method => rfl
  | multi_map cluster name' method => exact Function.update_of_ne (fun he => h he.symm) _ _

end Reference

/-! ### The data of the state machine by name

    A name without a collection and a name with an empty one cannot be told
    apart. -/

namespace StateMachineData

/-- The map under a name; empty if there is none. -/
def map (d : StateMachineData) (name : String) : HashMap Bytes Bytes := d.maps.or_default name ∅

/-- The multi-map under a name; empty if there is none. -/
def multi_map (d : StateMachineData) (name : String) : HashMap Bytes (HashSet Bytes) :=
  d.multi_maps.or_default name ∅

variable (d : StateMachineData) (name : String) (key value : Bytes)

theorem get_with_lock_eq : d.get_with_lock name key = (d.map name).lookup key := by
  unfold get_with_lock map HashMap.or_default
  cases d.maps.lookup name <;> rfl

theorem contains_key_eq : d.contains_key name key = ((d.map name).lookup key).isSome := by
  unfold contains_key map HashMap.or_default
  cases d.maps.lookup name <;> rfl

theorem map_len_eq : (d.map_len name).getD 0 = (d.map name).keys.card := by
  unfold map_len map HashMap.or_default
  cases d.maps.lookup name <;> rfl

theorem get_with_lock_multi_eq :
    (d.get_with_lock_multi name key).getD ∅ = (d.multi_map name).or_default key ∅ := by
  unfold get_with_lock_multi multi_map HashMap.or_default
  cases d.multi_maps.lookup name <;> rfl

theorem remove_fst : (d.remove name key).1 = (d.map name).lookup key := by
  unfold remove map HashMap.or_default
  cases d.maps.lookup name <;> rfl

theorem remove_multi_value_fst :
    (d.remove_multi_value name key value).1.getD false
      = decide (value ∈ (d.multi_map name).or_default key ∅) := by
  unfold remove_multi_value multi_map HashMap.or_default
  cases d.multi_maps.lookup name with
  | none => rfl
  | some mm => cases hm : mm.lookup key <;> simp [hm]

/-- `d'` is `d` with the map under `name` replaced by `m`. -/
structure SetsMap (name : String) (m : HashMap Bytes Bytes) (d d' : StateMachineData) : Prop where
  map : ∀ n, d'.map n = if n = name then m else d.map n
  multi_maps : d'.multi_maps = d.multi_maps

/-- `d'` is `d` with the set under a key of the multi-map `name` replaced by
    `s`. -/
structure SetsSet (name : String) (key : Bytes) (s : HashSet Bytes) (d d' : StateMachineData) :
    Prop where
  maps : d'.maps = d.maps
  others : ∀ n, n ≠ name → d'.multi_map n = d.multi_map n
  set : ∀ k, (d'.multi_map name).or_default k ∅ =
    if k = key then s else (d.multi_map name).or_default k ∅

theorem setsMap_self : SetsMap name (d.map name) d d where
  map := by
    intro n
    by_cases hn : n = name
    · rw [if_pos hn, hn]
    · rw [if_neg hn]
  multi_maps := rfl

theorem setsMap_insert (m : HashMap Bytes Bytes) :
    SetsMap name m d { d with maps := d.maps.insert name m } where
  map := fun n => HashMap.or_default_insert d.maps name n m ∅
  multi_maps := rfl

theorem setsMap_remove :
    SetsMap name ((d.map name).erase key) d (d.remove name key).2 := by
  unfold remove
  cases hm : d.maps.lookup name with
  | none =>
    -- there is nothing to remove, neither from the absent map nor from an empty one
    have hempty : d.map name = ∅ := by rw [map, HashMap.or_default, hm]; rfl
    have hself := d.setsMap_self name
    rw [hempty] at hself ⊢
    rw [HashMap.erase_of_lookup_eq_none (Finmap.lookup_empty key)]
    exact hself
  | some m =>
    have hmap : d.map name = m := by rw [map, HashMap.or_default, hm]; rfl
    rw [hmap]
    exact d.setsMap_insert name (m.erase key)

theorem setsSet_self : SetsSet name key ((d.multi_map name).or_default key ∅) d d where
  maps := rfl
  others := fun _ _ => rfl
  set := by
    intro k
    by_cases hk : k = key
    · rw [if_pos hk, hk]
    · rw [if_neg hk]

theorem setsSet_insert (s : HashSet Bytes) :
    SetsSet name key s d
      { d with multi_maps := d.multi_maps.insert name ((d.multi_map name).insert key s) } where
  maps := rfl
  others := by
    intro n hn
    unfold multi_map
    rw [HashMap.or_default_insert, if_neg hn]
  set := by
    intro k
    have hname : multi_map
        { d with multi_maps := d.multi_maps.insert name ((d.multi_map name).insert key s) } name
        = (d.multi_map name).insert key s := by
      rw [multi_map, HashMap.or_default_insert, if_pos rfl]
    rw [hname, HashMap.or_default_insert]

theorem setsSet_remove_multi_value :
    SetsSet name key (((d.multi_map name).or_default key ∅).erase value) d
      (d.remove_multi_value name key value).2 := by
  -- without a set under the key there is nothing to remove
  have hsame : (d.multi_map name).or_default key ∅ = ∅ →
      SetsSet name key (((d.multi_map name).or_default key ∅).erase value) d d := by
    intro hempty
    have hself := d.setsSet_self name key
    rw [hempty] at hself ⊢
    rw [Finset.erase_empty]
    exact hself
  unfold remove_multi_value
  cases hmm : d.multi_maps.lookup name with
  | none =>
    have hmap : d.multi_map name = ∅ := by rw [multi_map, HashMap.or_default, hmm]; rfl
    exact hsame (by rw [hmap]; rfl)
  | some mm =>
    have hmap : d.multi_map name = mm := by rw [multi_map, HashMap.or_default, hmm]; rfl
    cases hs : mm.lookup key with
    | none =>
      simp only [hs]
      refine hsame ?_
      rw [hmap, HashMap.or_default, hs]
      rfl
    | some s =>
      have hset : (d.multi_map name).or_default key ∅ = s := by rw [hmap, HashMap.or_default, hs]; rfl
      simp only [hs]
      rw [hset, ← hmap]
      exact d.setsSet_insert name key (s.erase value)

end StateMachineData

/-! ### The representation -/

open StateMachineData (SetsMap)

/-- The data stands for a reference state. -/
structure Represents (d : StateMachineData) (ref : Reference S) : Prop where
  maps : ∀ name, HashMap.Encodes bytes bytes (d.map name) (ref.maps name)
  multi_maps : ∀ name, HashMap.EncodesSets bytes bytes (d.multi_map name) (ref.multi_maps name)

namespace Represents

variable {d d' : StateMachineData} {ref : Reference S}

theorem initial : Represents default (Reference.initial (S := S)) where
  maps := fun _ => .empty
  multi_maps := fun _ => .empty

theorem set_map {name : String} {m' : HashMap Bytes Bytes}
    {m : HashMap (S.maps name).Key (S.maps name).Value} (h : Represents d ref)
    (hm : HashMap.Encodes bytes bytes m' m) (hset : SetsMap name m' d d') :
    Represents d' { ref with maps := Function.update ref.maps name m } where
  maps := by
    intro n
    rw [hset.map]
    by_cases hn : n = name
    · subst hn
      simpa using hm
    · simpa [hn] using h.maps n
  multi_maps := by
    intro n
    have hsame : d'.multi_map n = d.multi_map n := by
      rw [StateMachineData.multi_map, hset.multi_maps, StateMachineData.multi_map]
    rw [hsame]
    exact h.multi_maps n

theorem set_multi_map {name : String}
    {m : HashMap (S.multi_maps name).Key (HashSet (S.multi_maps name).Value)} (h : Represents d ref)
    (hmaps : d'.maps = d.maps) (hothers : ∀ n, n ≠ name → d'.multi_map n = d.multi_map n)
    (hm : HashMap.EncodesSets bytes bytes (d'.multi_map name) m) :
    Represents d' { ref with multi_maps := Function.update ref.multi_maps name m } where
  maps := by
    intro n
    have hsame : d'.map n = d.map n := by
      rw [StateMachineData.map, hmaps, StateMachineData.map]
    rw [hsame]
    exact h.maps n
  multi_maps := by
    intro n
    by_cases hn : n = name
    · subst hn
      simpa using hm
    · simpa [hn, hothers n hn] using h.multi_maps n

end Represents

end Distruct

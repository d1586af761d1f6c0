import Mathlib.Data.Finmap
import Distruct.Framework.HashMap

/-! # Refinement of a Reference Model

    An implementation executes operations one after the other. A reference
    model says what each of them should return and what it does to an abstract
    state. `Follows` compares the two along a whole sequence of operations;
    `follows_of_simulation` reduces that to single operations and a relation
    between the two states.

    The second part has the relations that a store needs which keeps keys and
    values in encoded form: the encoded map stands for the map before encoding,
    however the former was built. For a map of sets an absent key and a key
    with an empty set stand for the same.
-/

/-! ### Sequences of operations -/

namespace Refinement

variable {Op : Type} {Res Exp : Op → Type} {σ τ : Type}

/-- Every operation of the sequence comes to an end, its result agrees with
    what the reference expects in its state, and so on from the two states
    after it. -/
def Follows (step : (o : Op) → σ → Option (Res o × σ)) (reference : (o : Op) → τ → Exp o × τ)
    (Agrees : (o : Op) → Res o → Exp o → Prop) : List Op → σ → τ → Prop
  | [], _, _ => True
  | o :: ops, s, t =>
      ∃ r s', step o s = some (r, s') ∧ Agrees o r (reference o t).1 ∧
        Follows step reference Agrees ops s' (reference o t).2

/-- A relation that every operation keeps, and that makes its result agree,
    carries over to all sequences. -/
theorem follows_of_simulation {step : (o : Op) → σ → Option (Res o × σ)}
    {reference : (o : Op) → τ → Exp o × τ} {Agrees : (o : Op) → Res o → Exp o → Prop}
    (R : σ → τ → Prop)
    (hstep : ∀ o s t, R s t → ∃ r s', step o s = some (r, s') ∧
      Agrees o r (reference o t).1 ∧ R s' (reference o t).2)
    (ops : List Op) {s : σ} {t : τ} (h : R s t) : Follows step reference Agrees ops s t := by
  induction ops generalizing s t with
  | nil => trivial
  | cons o ops ih =>
    obtain ⟨r, s', hrun, hagree, h'⟩ := hstep o s t h
    exact ⟨r, s', hrun, hagree, ih h'⟩

end Refinement

/-! ### Encoded maps -/

namespace HashMap

variable {K V K' V' : Type} [DecidableEq K] [DecidableEq K'] {f : K → K'} {g : V → V'}

/-- `m'` is `m` with keys encoded by `f` and values by `g`. -/
structure Encodes (f : K → K') (g : V → V') (m' : HashMap K' V') (m : HashMap K V) : Prop where
  lookup : ∀ k, m'.lookup (f k) = (m.lookup k).map g
  keys : ∀ k', k' ∈ m' → ∃ k, f k = k'

namespace Encodes

variable {m' : HashMap K' V'} {m : HashMap K V}

theorem empty : Encodes f g ∅ ∅ where
  lookup := fun _ => rfl
  keys := fun _ h => absurd h Finmap.notMem_empty

theorem insert (hf : Function.Injective f) (h : Encodes f g m' m) (k : K) (v : V) :
    Encodes f g (m'.insert (f k) (g v)) (m.insert k v) where
  lookup := by
    intro k₁
    rw [lookup_insert_ite, lookup_insert_ite]
    by_cases hk : k₁ = k
    · rw [if_pos (congrArg f hk), if_pos hk]
      rfl
    · rw [if_neg fun he => hk (hf he), if_neg hk]
      exact h.lookup k₁
  keys := by
    intro k' hk'
    rcases Finmap.mem_insert.mp hk' with heq | hmem
    · exact ⟨k, heq.symm⟩
    · exact h.keys k' hmem

theorem erase (hf : Function.Injective f) (h : Encodes f g m' m) (k : K) :
    Encodes f g (m'.erase (f k)) (m.erase k) where
  lookup := by
    intro k₁
    rw [lookup_erase_ite, lookup_erase_ite]
    by_cases hk : k₁ = k
    · rw [if_pos (congrArg f hk), if_pos hk]
      rfl
    · rw [if_neg fun he => hk (hf he), if_neg hk]
      exact h.lookup k₁
  keys := fun k' hk' => h.keys k' (Finmap.mem_erase.mp hk').2

/-- A key is present encoded if and only if it is present. -/
theorem mem_iff (h : Encodes f g m' m) (k : K) : f k ∈ m' ↔ k ∈ m := by
  rw [← Finmap.lookup_isSome, ← Finmap.lookup_isSome, h.lookup]
  simp

theorem keys_card (hf : Function.Injective f) (h : Encodes f g m' m) :
    m'.keys.card = m.keys.card := by
  have himage : m'.keys = m.keys.image f := by
    ext k'
    rw [Finmap.mem_keys, Finset.mem_image]
    constructor
    · intro hk'
      obtain ⟨k, rfl⟩ := h.keys k' hk'
      exact ⟨k, Finmap.mem_keys.mpr ((h.mem_iff k).mp hk'), rfl⟩
    · intro hk
      obtain ⟨k, hmem, rfl⟩ := hk
      exact (h.mem_iff k).mpr (Finmap.mem_keys.mp hmem)
  rw [himage, Finset.card_image_of_injective _ hf]

end Encodes

/-! ### Encoded maps of sets -/

section sets
variable [DecidableEq V']

/-- Under every encoded key, `m'` has the encoded values that `m` has. -/
def EncodesSets (f : K → K') (g : V → V') (m' : HashMap K' (HashSet V'))
    (m : HashMap K (HashSet V)) : Prop :=
  ∀ k, m'.or_default (f k) ∅ = (m.or_default k ∅).image g

omit [DecidableEq K'] [DecidableEq V'] in
theorem or_default_insert (m : HashMap K V) (k k' : K) (v d : V) :
    or_default (m.insert k v) k' d = if k' = k then v else m.or_default k' d := by
  rw [or_default, lookup_insert_ite]
  split <;> rfl

namespace EncodesSets

variable {m' : HashMap K' (HashSet V')} {m : HashMap K (HashSet V)}

theorem empty : EncodesSets f g ∅ ∅ := fun _ => rfl

/-- Replacing the set under one key by the encoding of its replacement. -/
theorem replace {m'' : HashMap K' (HashSet V')} {k : K} {s : HashSet V} (hf : Function.Injective f)
    (h : EncodesSets f g m' m)
    (hset : ∀ k', m''.or_default k' ∅ = if k' = f k then s.image g else m'.or_default k' ∅) :
    EncodesSets f g m'' (m.insert k s) := by
  intro k₁
  rw [hset, or_default_insert]
  by_cases hk : k₁ = k
  · rw [if_pos (congrArg f hk), if_pos hk]
  · rw [if_neg fun he => hk (hf he), if_neg hk]
    exact h k₁

end EncodesSets

end sets

end HashMap

import Distruct.Framework.BTreeMap
import Distruct.Framework.Postcard

/-! # Formats

    A `Codec` reads back every value. The types of a program are narrower: an
    integer has a width, a length fits a machine word, a text may have to be of
    a certain form. A `Format` says which values fit, reads back those, and
    never reads anything that does not fit.

    The formats below are those that postcard derives for the serde data model,
    with the limits that its reader checks. `Format.variants` is the derived
    format of an enumeration: the number of the variant, then its fields.
-/

namespace Postcard

/-! ### Formats -/

structure Format (α : Type) where
  encode : α → Bytes
  decode : Bytes → Except Error (α × Bytes)
  fits : α → Prop
  decode_encode : ∀ a rest, fits a → decode (encode a ++ rest) = .ok (a, rest)
  decode_ok : ∀ bs a rest, decode bs = .ok (a, rest) → fits a ∧ rest <:+ bs

namespace Format

variable {α β : Type}

/-- Integers below `128 ^ n * (top + 1)`. -/
def varintMax (top n : Nat) (htop : top < 128) : Format Nat where
  encode := varint
  decode := readVarintMax top n
  fits := fun v => v < 128 ^ n * (top + 1)
  decode_encode := fun _ rest hv => readVarintMax_varint htop n hv rest
  decode_ok := fun _ _ _ h => readVarintMax_ok htop h

def u16 : Format Nat := varintMax 3 2 (by omega)

def u32 : Format Nat := varintMax 15 4 (by omega)

/-- `u64`, and `usize` where it has 64 bits. -/
def u64 : Format Nat := varintMax 1 9 (by omega)

theorem fits_u16 {v : Nat} : u16.fits v ↔ v < 2 ^ 16 := by
  show v < 128 ^ 2 * (3 + 1) ↔ _
  norm_num

theorem fits_u32 {v : Nat} : u32.fits v ↔ v < 2 ^ 32 := by
  show v < 128 ^ 4 * (15 + 1) ↔ _
  norm_num

theorem fits_u64 {v : Nat} : u64.fits v ↔ v < 2 ^ 64 := by
  show v < 128 ^ 9 * (1 + 1) ↔ _
  norm_num

/-- A single raw byte. -/
def u8 : Format UInt8 where
  encode := fun b => [b]
  decode := fun
    | [] => .error .DeserializeUnexpectedEnd
    | b :: rest => .ok (b, rest)
  fits := fun _ => True
  decode_encode := fun _ _ _ => rfl
  decode_ok := by
    intro bs a rest h
    cases bs with
    | nil => cases h
    | cons b bs =>
      cases h
      exact ⟨trivial, List.suffix_cons _ _⟩

/-- Fields one after the other. -/
def pair (f : Format α) (g : Format β) : Format (α × β) where
  encode := fun x => f.encode x.1 ++ g.encode x.2
  decode := fun bs =>
    match f.decode bs with
    | .error e => .error e
    | .ok (a, bs) =>
      match g.decode bs with
      | .error e => .error e
      | .ok (b, bs) => .ok ((a, b), bs)
  fits := fun x => f.fits x.1 ∧ g.fits x.2
  decode_encode := by
    intro x rest hx
    have hf := f.decode_encode x.1 (g.encode x.2 ++ rest) hx.1
    have hg := g.decode_encode x.2 rest hx.2
    simp only [List.append_assoc, hf, hg]
  decode_ok := by
    intro bs x rest h
    split at h
    · cases h
    · next a bs₁ ha =>
      obtain ⟨hfit, hsuf⟩ := f.decode_ok _ _ _ ha
      split at h
      · cases h
      · next b bs₂ hb =>
        cases h
        obtain ⟨hfit', hsuf'⟩ := g.decode_ok _ _ _ hb
        exact ⟨⟨hfit, hfit'⟩, hsuf'.trans hsuf⟩

/-- A type `β` that is written as an `α`. Not every `α` needs to be one of its
    values. -/
def refine (f : Format α) (write : β → α) (read : α → Except Error β) (ok : β → Prop)
    (hwrite : ∀ b, ok b → f.fits (write b) ∧ read (write b) = .ok b)
    (hread : ∀ a b, f.fits a → read a = .ok b → ok b) : Format β where
  encode := fun b => f.encode (write b)
  decode := fun bs =>
    match f.decode bs with
    | .error e => .error e
    | .ok (a, rest) =>
      match read a with
      | .error e => .error e
      | .ok b => .ok (b, rest)
  fits := ok
  decode_encode := by
    intro b rest hb
    obtain ⟨hfit, hback⟩ := hwrite b hb
    simp only [f.decode_encode _ rest hfit, hback]
  decode_ok := by
    intro bs b rest h
    split at h
    · cases h
    · next a bs₁ ha =>
      obtain ⟨hfit, hsuf⟩ := f.decode_ok _ _ _ ha
      split at h
      · cases h
      · next b' hb =>
        cases h
        exact ⟨hread a b hfit hb, hsuf⟩

/-- A structure, written as the tuple of its fields. -/
def record (f : Format α) (write : β → α) (read : α → β) (hwrite : ∀ b, read (write b) = b)
    (hread : ∀ a, write (read a) = a) : Format β :=
  f.refine write (fun a => .ok (read a)) (fun b => f.fits (write b))
    (fun b hb => ⟨hb, by rw [hwrite]⟩)
    (fun a b ha h => by cases h; rw [hread]; exact ha)

/-! ### Sequences -/

/-- Reads `n` elements. -/
def readSeq (f : Format α) : Nat → Bytes → Except Error (List α × Bytes)
  | 0, bs => .ok ([], bs)
  | n + 1, bs =>
    match f.decode bs with
    | .error e => .error e
    | .ok (a, bs) =>
      match readSeq f n bs with
      | .error e => .error e
      | .ok (as, bs) => .ok (a :: as, bs)

theorem readSeq_flatMap (f : Format α) (as : List α) (has : ∀ a ∈ as, f.fits a) (rest : Bytes) :
    f.readSeq as.length (as.flatMap f.encode ++ rest) = .ok (as, rest) := by
  induction as with
  | nil => rfl
  | cons a as ih =>
    have ha := f.decode_encode a (as.flatMap f.encode ++ rest) (has a List.mem_cons_self)
    have htail := ih fun b hb => has b (List.mem_cons_of_mem a hb)
    simp only [List.length_cons, readSeq, List.flatMap_cons, List.append_assoc, ha, htail]

theorem readSeq_ok (f : Format α) {n : Nat} {bs rest : Bytes} {as : List α}
    (h : f.readSeq n bs = .ok (as, rest)) :
    as.length = n ∧ (∀ a ∈ as, f.fits a) ∧ rest <:+ bs := by
  induction n generalizing bs as with
  | zero =>
    cases h
    exact ⟨rfl, by simp, List.suffix_refl _⟩
  | succ n ih =>
    unfold readSeq at h
    split at h
    · cases h
    · next a bs₁ ha =>
      obtain ⟨hfit, hsuf⟩ := f.decode_ok _ _ _ ha
      split at h
      · cases h
      · next as' bs₂ has =>
        cases h
        obtain ⟨hlen, hall, hsuf'⟩ := ih has
        refine ⟨congrArg (· + 1) hlen, ?_, hsuf'.trans hsuf⟩
        intro b hb
        rcases List.mem_cons.mp hb with rfl | hb
        · exact hfit
        · exact hall b hb

/-- Sequences: the number of elements, then the elements. -/
def seq (f : Format α) : Format (List α) where
  encode := fun as => varint as.length ++ as.flatMap f.encode
  decode := fun bs =>
    match u64.decode bs with
    | .error e => .error e
    | .ok (n, bs) => f.readSeq n bs
  fits := fun as => as.length < 2 ^ 64 ∧ ∀ a ∈ as, f.fits a
  decode_encode := by
    intro as rest has
    have hlen := u64.decode_encode as.length (as.flatMap f.encode ++ rest) (fits_u64.mpr has.1)
    show (match u64.decode (varint as.length ++ as.flatMap f.encode ++ rest) with
      | .error e => Except.error e
      | .ok (n, bs) => f.readSeq n bs) = _
    rw [List.append_assoc]
    change u64.decode (varint as.length ++ _) = _ at hlen
    simp only [hlen]
    exact f.readSeq_flatMap as has.2 rest
  decode_ok := by
    intro bs as rest h
    split at h
    · cases h
    · next n bs₁ hn =>
      obtain ⟨hfit, hsuf⟩ := u64.decode_ok _ _ _ hn
      obtain ⟨hlen, hall, hsuf'⟩ := f.readSeq_ok h
      exact ⟨⟨hlen ▸ fits_u64.mp hfit, hall⟩, hsuf'.trans hsuf⟩

/-- Byte strings. -/
def bytes : Format Bytes := seq u8

/-- `n` elements, without their number before them. -/
def tuple (f : Format α) (n : Nat) : Format (List α) where
  encode := fun as => as.flatMap f.encode
  decode := f.readSeq n
  fits := fun as => as.length = n ∧ ∀ a ∈ as, f.fits a
  decode_encode := by
    intro as rest has
    obtain ⟨rfl, hall⟩ := has
    exact f.readSeq_flatMap as hall rest
  decode_ok := by
    intro bs as rest h
    obtain ⟨hlen, hall, hsuf⟩ := f.readSeq_ok h
    exact ⟨⟨hlen, hall⟩, hsuf⟩

/-- Arrays. -/
def array (f : Format α) (n : Nat) : Format (Vector α n) :=
  (f.tuple n).refine Vector.toList
    (fun as =>
      if h : as.length = n then .ok ⟨as.toArray, by rw [List.size_toArray, h]⟩
      else .error .SerdeDeCustom)
    (fun v => ∀ a ∈ v.toList, f.fits a)
    (by
      intro v hv
      refine ⟨⟨v.length_toList, hv⟩, ?_⟩
      rw [dif_pos v.length_toList]
      simp [Vector.toList])
    (by
      intro as v has h
      rw [dif_pos has.1] at h
      cases h
      simpa [Vector.toList] using has.2)

/-- UTF-8 strings. -/
def str : Format String :=
  bytes.refine (fun s => s.toUTF8.data.toList)
    (fun b =>
      match String.fromUTF8? ⟨b.toArray⟩ with
      | some s => .ok s
      | none => .error .DeserializeBadUtf8)
    (fun s => s.utf8ByteSize < 2 ^ 64)
    (by
      intro s hs
      have hback : String.fromUTF8? ⟨s.toUTF8.data.toList.toArray⟩ = some s := by
        simp only [Array.toArray_toList, String.fromUTF8?]
        exact dif_pos s.isValidUTF8
      refine ⟨⟨hs, fun _ _ => trivial⟩, ?_⟩
      simp only [hback])
    (by
      intro b s hb h
      unfold String.fromUTF8? at h
      split at h
      · next s' hs =>
        split at hs
        · cases hs
          cases h
          -- the bytes of the string are those that were read
          have hlen : b.length < 2 ^ 64 := hb.1
          exact hlen
        · cases hs
      · cases h)

/-! ### Options and booleans -/

/-- A tag byte, then the value if there is one. -/
def option (f : Format α) : Format (Option α) where
  encode := Postcard.option f.encode
  decode := fun
    | [] => .error .DeserializeUnexpectedEnd
    | b :: bs =>
      if b = 0 then .ok (none, bs)
      else if b = 1 then
        match f.decode bs with
        | .error e => .error e
        | .ok (a, rest) => .ok (some a, rest)
      else .error .DeserializeBadOption
  fits := fun x => ∀ a, x = some a → f.fits a
  decode_encode := by
    intro x rest hx
    cases x with
    | none => rfl
    | some a =>
      have h := f.decode_encode a rest (hx a rfl)
      simp only [Postcard.option, List.cons_append, h]
      rfl
  decode_ok := by
    intro bs x rest h
    cases bs with
    | nil => cases h
    | cons b bs =>
      simp only at h
      split at h
      · cases h
        exact ⟨nofun, List.suffix_cons b _⟩
      · split at h
        · split at h
          · cases h
          · next a rest' ha =>
            cases h
            obtain ⟨hfit, hsuf⟩ := f.decode_ok _ _ _ ha
            refine ⟨?_, hsuf.trans (List.suffix_cons b _)⟩
            intro a' ha'
            cases ha'
            exact hfit
        · cases h

/-- One byte. -/
def bool : Format Bool :=
  u8.refine (fun b => if b then 1 else 0)
    (fun n =>
      if n = 0 then .ok false
      else if n = 1 then .ok true
      else .error .DeserializeBadBool)
    (fun _ => True) (fun b _ => ⟨trivial, by cases b <;> rfl⟩) (fun _ _ _ _ => trivial)

/-! ### Sets and maps -/

section sorted
variable {K V : Type} [LinearOrder K]

/-- A sorted set. What is read may be in any order and repeat itself. -/
def set (f : Format K) : Format (Finset K) :=
  (seq f).refine BTreeMap.ascending (fun l => .ok l.toFinset)
    (fun s => s.card < 2 ^ 64 ∧ ∀ k ∈ s, f.fits k)
    (by
      intro s hs
      refine ⟨⟨?_, ?_⟩, ?_⟩
      · exact (Finset.length_sort _).trans_lt hs.1
      · intro k hk
        exact hs.2 k ((Finset.mem_sort _).mp hk)
      · exact congrArg Except.ok (Finset.sort_toFinset _ _))
    (by
      intro l s hl h
      cases h
      refine ⟨Nat.lt_of_le_of_lt l.toFinset_card_le hl.1, ?_⟩
      intro k hk
      exact hl.2 k (List.mem_toFinset.mp hk))

/-- The entries of a map, sorted by key. -/
def entries (m : HashMap K V) : List (K × V) :=
  (BTreeMap.ascending m.keys).filterMap fun k => (m.lookup k).map fun v => (k, v)

theorem mem_entries {m : HashMap K V} {k : K} {v : V} :
    (k, v) ∈ entries m ↔ m.lookup k = some v := by
  simp only [entries, List.mem_filterMap, Finset.mem_sort, Option.map_eq_some_iff, Prod.mk.injEq]
  constructor
  · rintro ⟨k', _, v', hv, rfl, rfl⟩
    exact hv
  · intro h
    exact ⟨k, Finmap.mem_keys.mpr (Finmap.mem_of_lookup_eq_some h), v, h, rfl, rfl⟩

theorem map_fst_entries (m : HashMap K V) : (entries m).map Prod.fst = m.keys.sort := by
  rw [entries, List.map_filterMap]
  have hsome : ∀ k ∈ m.keys.sort, ((m.lookup k).map fun v => (k, v)).map Prod.fst = some k := by
    intro k hk
    -- every key has a value
    obtain ⟨v, hv⟩ := Finmap.mem_iff.mp (Finmap.mem_keys.mp ((Finset.mem_sort _).mp hk))
    rw [hv]
    rfl
  rw [List.filterMap_congr hsome, List.filterMap_some]

theorem collect_entries (m : HashMap K V) : HashMap.collect (entries m) = m := by
  have hnodup : ((entries m).map Prod.fst).Nodup := by
    rw [map_fst_entries]
    exact Finset.sort_nodup _ _
  apply Finmap.ext_lookup
  intro k
  cases hk : m.lookup k with
  | none =>
    have hnot : k ∉ (entries m).map Prod.fst := by
      rw [map_fst_entries, Finset.mem_sort, Finmap.mem_keys, ← Finmap.lookup_eq_none]
      exact hk
    rw [HashMap.collect, HashMap.lookup_foldl_insert_of_notMem hnot, Finmap.lookup_empty]
  | some v =>
    rw [HashMap.collect, HashMap.lookup_foldl_insert_of_mem hnodup (mem_entries.mpr hk)]

theorem mem_of_lookup_collect {l : List (K × V)} {k : K} {v : V}
    (h : (HashMap.collect l).lookup k = some v) : (k, v) ∈ l := by
  have hfold : ∀ (l : List (K × V)) (m : HashMap K V),
      (l.foldl (fun m kv => m.insert kv.1 kv.2) m).lookup k = some v →
        (k, v) ∈ l ∨ m.lookup k = some v := by
    intro l
    induction l with
    | nil => exact fun m h => .inr h
    | cons kv l ih =>
      intro m h
      rcases ih _ h with h | h
      · exact .inl (List.mem_cons_of_mem _ h)
      · rw [HashMap.lookup_insert_ite] at h
        split at h
        · next hk =>
          cases h
          exact .inl (by rw [hk]; exact List.mem_cons_self)
        · exact .inr h
  rcases hfold l ∅ h with h | h
  · exact h
  · rw [Finmap.lookup_empty] at h
    cases h

/-- A map sorted by key. -/
def map (f : Format K) (g : Format V) : Format (HashMap K V) :=
  (seq (pair f g)).refine entries (fun l => .ok (HashMap.collect l))
    (fun m => m.keys.card < 2 ^ 64 ∧ ∀ k v, m.lookup k = some v → f.fits k ∧ g.fits v)
    (by
      intro m hm
      refine ⟨⟨?_, ?_⟩, ?_⟩
      · have hlen : (entries m).length = m.keys.card := by
          rw [← List.length_map (f := Prod.fst), map_fst_entries, Finset.length_sort]
        rw [hlen]
        exact hm.1
      · intro kv hkv
        exact hm.2 kv.1 kv.2 (mem_entries.mp hkv)
      · rw [collect_entries])
    (by
      intro l m hl h
      cases h
      refine ⟨?_, ?_⟩
      · have hsub : (HashMap.collect l).keys ⊆ (l.map Prod.fst).toFinset := by
          intro k hk
          obtain ⟨v, hv⟩ := Finmap.mem_iff.mp (Finmap.mem_keys.mp hk)
          exact List.mem_toFinset.mpr (List.mem_map_of_mem (mem_of_lookup_collect hv))
        have hcard := (Finset.card_le_card hsub).trans (List.toFinset_card_le _)
        rw [List.length_map] at hcard
        exact Nat.lt_of_le_of_lt hcard hl.1
      · intro k v hv
        exact hl.2 (k, v) (mem_of_lookup_collect hv))

end sorted

/-! ### Enumerations -/

/-- No bytes at all. -/
def unit : Format Unit where
  encode := fun _ => []
  decode := fun bs => .ok ((), bs)
  fits := fun _ => True
  decode_encode := fun _ _ _ => rfl
  decode_ok := fun _ _ _ h => by cases h; exact ⟨trivial, List.suffix_refl _⟩

/-- The fields of one variant; `get` takes them out of a value of that variant. -/
def variant (f : Format α) (mk : α → β) (get : β → Option α)
    (h : ∀ b a, get b = some a ↔ mk a = b) : Format β where
  encode := fun b => ((get b).map f.encode).getD []
  decode := fun bs =>
    match f.decode bs with
    | .error e => .error e
    | .ok (a, rest) => .ok (mk a, rest)
  fits := fun b => ∃ a, mk a = b ∧ f.fits a
  decode_encode := by
    intro b rest hb
    obtain ⟨a, rfl, ha⟩ := hb
    have hget : get (mk a) = some a := (h _ _).mpr rfl
    simp only [hget, Option.map_some, Option.getD_some, f.decode_encode a rest ha]
  decode_ok := by
    intro bs b rest hdec
    split at hdec
    · cases hdec
    · next a rest' ha =>
      cases hdec
      obtain ⟨hfit, hsuf⟩ := f.decode_ok _ _ _ ha
      exact ⟨⟨a, rfl, hfit⟩, hsuf⟩

/-- The variants are numbered from `i` on. -/
def Numbered (number : β → Nat) : Nat → List (Format β) → Prop
  | _, [] => True
  | i, v :: vs => (∀ b, v.fits b → number b = i) ∧ Numbered number (i + 1) vs

theorem Numbered.getElem {number : β → Nat} {i j : Nat} {vs : List (Format β)} {v : Format β}
    (h : Numbered number i vs) (hv : vs[j]? = some v) {b : β} (hb : v.fits b) :
    number b = i + j := by
  induction vs generalizing i j with
  | nil => cases hv
  | cons u us ih =>
    cases j with
    | zero =>
      cases hv
      exact h.1 b hb
    | succ j =>
      rw [ih h.2 hv]
      omega

theorem numbered_variant {f : Format α} {mk : α → β} {get : β → Option α}
    {h : ∀ b a, get b = some a ↔ mk a = b} {number : β → Nat} {i : Nat}
    (hnumber : ∀ a, number (mk a) = i) : ∀ b, (variant f mk get h).fits b → number b = i := by
  rintro b ⟨a, rfl, _⟩
  exact hnumber a

/-- The number of the variant, then its fields. -/
def variants (number : β → Nat) (vs : List (Format β)) (h : Numbered number 0 vs)
    (hlen : vs.length < 2 ^ 32) : Format β where
  encode := fun b => varint (number b) ++ ((vs[number b]?).map fun v => v.encode b).getD []
  decode := fun bs =>
    match u32.decode bs with
    | .error e => .error e
    | .ok (n, bs) =>
      match vs[n]? with
      | none => .error .SerdeDeCustom
      | some v => v.decode bs
  fits := fun b => ∃ v, vs[number b]? = some v ∧ v.fits b
  decode_encode := by
    intro b rest hb
    obtain ⟨v, hv, hfit⟩ := hb
    obtain ⟨hlt, _⟩ := List.getElem?_eq_some_iff.mp hv
    have hnum := u32.decode_encode (number b) (v.encode b ++ rest) (fits_u32.mpr (by omega))
    change u32.decode (varint (number b) ++ _) = _ at hnum
    simp only [hv, Option.map_some, Option.getD_some, List.append_assoc, hnum]
    exact v.decode_encode b rest hfit
  decode_ok := by
    intro bs b rest hdec
    split at hdec
    · cases hdec
    · next n bs' hn =>
      obtain ⟨_, hsuf⟩ := u32.decode_ok _ _ _ hn
      split at hdec
      · cases hdec
      · next v hv =>
        obtain ⟨hfit, hsuf'⟩ := v.decode_ok _ _ _ hdec
        have hnum := h.getElem hv hfit
        rw [Nat.zero_add] at hnum
        exact ⟨⟨v, hnum ▸ hv, hfit⟩, hsuf'.trans hsuf⟩

/-! ### Messages -/

/-- Decodes a whole message; bytes after the value are ignored. -/
def from_bytes (f : Format α) (bs : Bytes) : Except Error α := (f.decode bs).map Prod.fst

theorem from_bytes_encode (f : Format α) {a : α} (ha : f.fits a) (more : Bytes) :
    f.from_bytes (f.encode a ++ more) = .ok a := by
  rw [from_bytes, f.decode_encode a more ha]
  rfl

theorem fits_of_from_bytes (f : Format α) {a : α} {bs : Bytes} (h : f.from_bytes bs = .ok a) :
    f.fits a := by
  unfold from_bytes at h
  cases hd : f.decode bs with
  | error e =>
    rw [hd] at h
    cases h
  | ok x =>
    rw [hd] at h
    cases h
    exact (f.decode_ok bs x.1 x.2 hd).1

/-- No encoding is the beginning of another one. -/
theorem encode_prefix (f : Format α) {a b : α} (ha : f.fits a) (hb : f.fits b)
    (h : f.encode a <+: f.encode b) : a = b := by
  obtain ⟨more, hmore⟩ := h
  have h₁ := f.decode_encode a more ha
  have h₂ := f.decode_encode b [] hb
  rw [List.append_nil, ← hmore, h₁] at h₂
  exact (Prod.mk.inj (Except.ok.inj h₂)).1

end Format

end Postcard

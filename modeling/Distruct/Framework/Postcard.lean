import Mathlib.Data.List.Basic
import Mathlib.Tactic.NormNum
import Mathlib.Tactic.Ring

/-! # The Postcard Wire Format

    The encodings that postcard gives to the serde data model, as far as the
    program's types use it: integers as base-128 varints, byte strings and
    UTF-8 strings with a length, sequences with a length, options with a tag
    byte, enum variants with a varint tag, structs and tuples as the plain
    concatenation of their fields.

    A `Codec` carries its own round trip: a decoder that reads back what the
    encoder wrote and leaves the bytes after it. Lengths are natural numbers. The
    reader gives up on a length that is too long for a machine word, which no
    length of anything in memory is (`readLength`).
-/

namespace Postcard

abbrev Bytes := List UInt8

/-- The errors that reading can end in, named as in the crate. -/
inductive Error where
  | DeserializeUnexpectedEnd
  | DeserializeBadVarint
  | DeserializeBadBool
  | DeserializeBadChar
  | DeserializeBadUtf8
  | DeserializeBadOption
  | DeserializeBadEnum
  | SerializeBufferFull
  | SerializeSeqLengthUnknown
  | SerdeSerCustom
  | SerdeDeCustom
  deriving DecidableEq, Repr

/-! ### Varints -/

/-- Seven bits a byte, the low ones first, the high bit set on all but the last. -/
def varint (n : Nat) : Bytes :=
  if n < 128 then [n.toUInt8] else (n % 128 + 128).toUInt8 :: varint (n / 128)
termination_by n
decreasing_by omega

theorem toNat_toUInt8 {n : Nat} (h : n < 256) : n.toUInt8.toNat = n := by
  simp [Nat.mod_eq_of_lt h]

/-- Reads a varint of at most `n + 1` bytes, the last of which is at most `top`
    if all of them are used. -/
def readVarintMax (top : Nat) : Nat → Bytes → Except Error (Nat × Bytes)
  | _, [] => .error .DeserializeUnexpectedEnd
  | 0, b :: rest =>
    if b.toNat < 128 then
      if b.toNat ≤ top then .ok (b.toNat, rest) else .error .DeserializeBadVarint
    else .error .DeserializeBadVarint
  | n + 1, b :: rest =>
    if b.toNat < 128 then .ok (b.toNat, rest)
    else
      match readVarintMax top n rest with
      | .ok (m, r) => .ok (b.toNat - 128 + 128 * m, r)
      | .error e => .error e

theorem readVarintMax_varint {top : Nat} (htop : top < 128) (n : Nat) {v : Nat}
    (hv : v < 128 ^ n * (top + 1)) (rest : Bytes) :
    readVarintMax top n (varint v ++ rest) = .ok (v, rest) := by
  induction n generalizing v with
  | zero =>
    have hsmall : v < 128 := by omega
    have hbyte := toNat_toUInt8 (show v < 256 by omega)
    rw [varint, if_pos hsmall]
    simp only [List.cons_append, List.nil_append, readVarintMax, hbyte, hsmall, if_true]
    rw [if_pos (by omega)]
  | succ n ih =>
    rw [varint]
    split
    · next h =>
      have hbyte := toNat_toUInt8 (show v < 256 by omega)
      simp only [List.cons_append, List.nil_append, readVarintMax, hbyte, h, if_true]
    · next h =>
      have hbyte := toNat_toUInt8 (show v % 128 + 128 < 256 by omega)
      have hdiv : v / 128 < 128 ^ n * (top + 1) := by
        rw [Nat.div_lt_iff_lt_mul (by omega)]
        calc v < 128 ^ (n + 1) * (top + 1) := hv
          _ = 128 ^ n * (top + 1) * 128 := by ring
      have hval : v % 128 + 128 - 128 + 128 * (v / 128) = v := by omega
      simp only [List.cons_append, readVarintMax, hbyte, ih hdiv, hval]
      rw [if_neg (by omega)]

/-- What is read has the width, and was at the front. -/
theorem readVarintMax_ok {top n : Nat} (htop : top < 128) {bs rest : Bytes} {v : Nat}
    (h : readVarintMax top n bs = .ok (v, rest)) :
    v < 128 ^ n * (top + 1) ∧ rest <:+ bs := by
  induction n generalizing bs v with
  | zero =>
    cases bs with
    | nil => cases h
    | cons b bs =>
      unfold readVarintMax at h
      split at h
      · split at h
        · cases h
          exact ⟨by omega, List.suffix_cons b _⟩
        · cases h
      · cases h
  | succ n ih =>
    cases bs with
    | nil => cases h
    | cons b bs =>
      unfold readVarintMax at h
      have hpow : 128 ≤ 128 ^ (n + 1) * (top + 1) := by
        calc 128 = 128 ^ 1 * 1 := rfl
          _ ≤ 128 ^ (n + 1) * (top + 1) :=
            Nat.mul_le_mul (Nat.pow_le_pow_right (by omega) (by omega)) (by omega)
      split at h
      · next hb =>
        cases h
        exact ⟨by omega, List.suffix_cons b _⟩
      · split at h
        · next m r hm =>
          cases h
          obtain ⟨hlt, hsuf⟩ := ih hm
          have hbyte : b.toNat < 256 := b.toNat_lt
          have hsucc : 128 ^ (n + 1) * (top + 1) = 128 * (128 ^ n * (top + 1)) := by ring
          exact ⟨by omega, hsuf.trans (List.suffix_cons b _)⟩
        · cases h

/-- Reads a length, a `usize` of 64 bits. Bytes that no machine of this kind can
    hold may have a length to match. -/
def readLength (bs : Bytes) : Except Error (Nat × Bytes) :=
  if bs.length < 2 ^ 64 then readVarintMax 1 9 bs else readVarintMax 127 bs.length bs

/-- A length is read if there are as many bytes after it. -/
theorem readLength_varint {n : Nat} {rest : Bytes} (h : n ≤ rest.length) :
    readLength (varint n ++ rest) = .ok (n, rest) := by
  have hle : n ≤ (varint n ++ rest).length := by
    rw [List.length_append]
    omega
  unfold readLength
  split
  · next hshort =>
    refine readVarintMax_varint (by omega) 9 ?_ rest
    calc n < 2 ^ 64 := by omega
      _ = 128 ^ 9 * (1 + 1) := by norm_num
  · -- as many bytes as the length says are more than enough for writing it
    refine readVarintMax_varint (by omega) _ ?_ rest
    calc n < 2 ^ n := Nat.lt_two_pow_self
      _ ≤ 2 ^ (varint n ++ rest).length := Nat.pow_le_pow_right (by omega) hle
      _ ≤ 128 ^ (varint n ++ rest).length := Nat.pow_le_pow_left (by omega) _
      _ ≤ 128 ^ (varint n ++ rest).length * (127 + 1) := Nat.le_mul_of_pos_right _ (by omega)

/-- The number of bytes of a varint. -/
def varintLen (n : Nat) : Nat := (varint n).length

theorem varintLen_lt {n : Nat} (h : n < 128) : varintLen n = 1 := by
  rw [varintLen, varint, if_pos h]
  rfl

theorem varintLen_ge {n : Nat} (h : 128 ≤ n) : varintLen n = varintLen (n / 128) + 1 := by
  rw [varintLen, varint, if_neg (by omega)]
  rfl

theorem one_le_varintLen (n : Nat) : 1 ≤ varintLen n := by
  by_cases hn : n < 128
  · rw [varintLen_lt hn]
  · rw [varintLen_ge (by omega)]
    omega

/-! ### Codecs -/

/-- An encoding together with a decoder that inverts it. Nothing is encoded as no
    bytes at all. -/
structure Codec (α : Type) where
  encode : α → Bytes
  decode : Bytes → Except Error (α × Bytes)
  decode_encode : ∀ a rest, decode (encode a ++ rest) = .ok (a, rest)
  one_le_length : ∀ a, 1 ≤ (encode a).length

namespace Codec

variable {α β : Type}

/-- A single raw byte. -/
def u8 : Codec UInt8 where
  encode := fun b => [b]
  decode := fun
    | [] => .error .DeserializeUnexpectedEnd
    | b :: rest => .ok (b, rest)
  decode_encode := fun _ _ => rfl
  one_le_length := fun _ => Nat.le_refl 1

/-- Fields one after the other. -/
def pair (c : Codec α) (d : Codec β) : Codec (α × β) where
  encode := fun x => c.encode x.1 ++ d.encode x.2
  decode := fun bs => do
    let (a, bs) ← c.decode bs
    let (b, bs) ← d.decode bs
    return ((a, b), bs)
  decode_encode := by
    rintro ⟨a, b⟩ rest
    have hc := c.decode_encode a (d.encode b ++ rest)
    have hd := d.decode_encode b rest
    simp [hc, hd, Except.bind, bind, pure, Except.pure]
  one_le_length := by
    intro x
    rw [List.length_append]
    have := c.one_le_length x.1
    omega

/-- Reads `n` elements. -/
def readSeq (c : Codec α) : Nat → Bytes → Except Error (List α × Bytes)
  | 0, bs => .ok ([], bs)
  | n + 1, bs => do
    let (a, bs) ← c.decode bs
    let (as, bs) ← readSeq c n bs
    return (a :: as, bs)

theorem readSeq_flatMap (c : Codec α) (as : List α) (rest : Bytes) :
    c.readSeq as.length (as.flatMap c.encode ++ rest) = .ok (as, rest) := by
  induction as with
  | nil => rfl
  | cons a as ih =>
    simp only [List.length_cons, readSeq, List.flatMap_cons, List.append_assoc, c.decode_encode]
    show (do let (as, bs) ← c.readSeq as.length (as.flatMap c.encode ++ rest)
               return (a :: as, bs)) = _
    rw [ih]
    rfl

/-- There are at least as many bytes as elements. -/
theorem length_le_flatMap (c : Codec α) (as : List α) :
    as.length ≤ (as.flatMap c.encode).length := by
  induction as with
  | nil => exact Nat.le_refl 0
  | cons a as ih =>
    rw [List.flatMap_cons, List.length_append, List.length_cons]
    have := c.one_le_length a
    omega

/-- Sequences, sets and maps: the number of elements, then the elements. -/
def seq (c : Codec α) : Codec (List α) where
  encode := fun as => varint as.length ++ as.flatMap c.encode
  decode := fun bs => do
    let (n, bs) ← readLength bs
    c.readSeq n bs
  decode_encode := by
    intro as rest
    have hle : as.length ≤ (as.flatMap c.encode ++ rest).length := by
      rw [List.length_append]
      have := c.length_le_flatMap as
      omega
    simp only [List.append_assoc, readLength_varint hle]
    exact readSeq_flatMap c as rest
  one_le_length := by
    intro as
    rw [List.length_append]
    have : 1 ≤ (varint as.length).length := one_le_varintLen as.length
    omega

/-- Byte strings. -/
def bytes : Codec Bytes := seq u8

/-- UTF-8 strings. -/
def str : Codec String where
  encode := fun s => bytes.encode s.toUTF8.data.toList
  decode := fun bs => do
    let (b, bs) ← bytes.decode bs
    match String.fromUTF8? ⟨b.toArray⟩ with
    | some s => return (s, bs)
    | none => throw Error.DeserializeBadUtf8
  decode_encode := by
    intro s rest
    -- a string is valid UTF-8 by its type
    have hs : String.fromUTF8? ⟨s.toUTF8.data.toList.toArray⟩ = some s := by
      simp only [Array.toArray_toList, String.fromUTF8?]
      exact dif_pos s.isValidUTF8
    rw [bytes.decode_encode]
    show (match String.fromUTF8? ⟨s.toUTF8.data.toList.toArray⟩ with
      | some s => pure (s, rest)
      | none => throw Error.DeserializeBadUtf8) = Except.ok (s, rest)
    rw [hs]
    rfl
  one_le_length := fun s => bytes.one_le_length s.toUTF8.data.toList

/-- Decodes a whole message; bytes after the value are ignored. -/
def from_bytes (c : Codec α) (bs : Bytes) : Except Error α :=
  (c.decode bs).map Prod.fst

theorem from_bytes_encode (c : Codec α) (a : α) : c.from_bytes (c.encode a) = .ok a := by
  have h := c.decode_encode a []
  rw [List.append_nil] at h
  rw [from_bytes, h]
  rfl

end Codec

/-! ### Lengths -/

theorem length_bytes (b : Bytes) : (Codec.bytes.encode b).length = varintLen b.length + b.length := by
  simp [Codec.bytes, Codec.seq, Codec.u8, varintLen]

theorem length_str (s : String) :
    (Codec.str.encode s).length = varintLen s.utf8ByteSize + s.utf8ByteSize := by
  have hlen : s.toUTF8.data.toList.length = s.utf8ByteSize := rfl
  rw [Codec.str, length_bytes, hlen]

/-- An option: a tag byte, then the value if there is one. -/
def option {α : Type} (enc : α → Bytes) : Option α → Bytes
  | none => [0]
  | some a => 1 :: enc a

/-- A boolean: one byte. -/
def bool (b : Bool) : Bytes := [if b then 1 else 0]

/-- The sequence of the encodings of `as`, with its length before it. -/
def seq {α : Type} (enc : α → Bytes) (as : List α) : Bytes :=
  varint as.length ++ as.flatMap enc

theorem length_seq {α : Type} (enc : α → Bytes) (as : List α) :
    (seq enc as).length = varintLen as.length + (as.map fun a => (enc a).length).sum := by
  rw [seq, List.length_append, List.length_flatMap]
  rfl

end Postcard

import Mathlib.Algebra.Ring.Nat
import Mathlib.Data.List.Basic

/-!
# Little-endian numbers

`littleEndian` is the number that bytes stand for, the first one being the lowest. Code that merges the bytes into a
word, each shifted to its place, computes this number if the word has room for all of them (`toNat_merge`). `toBytes`
are the bytes of a word, and `splice` puts them into the data. `load` and `store` are the words of a storage.
-/

namespace Bytes

/-- The number that bytes stand for. -/
def littleEndian : List (BitVec 8) → Nat
  | [] => 0
  | byte :: bytes => byte.toNat + 2 ^ 8 * littleEndian bytes

/-- The bytes from the lowest on, each shifted to its place in a word. -/
def merge (w : Nat) (byte : Nat → BitVec 8) (length : Nat) : BitVec w :=
  (List.range length).foldl (fun value i => value ||| (byte i).setWidth w <<< (i * 8)) 0#w

variable {byte : Nat → BitVec 8} {bytes : List (BitVec 8)} {w length : Nat}

theorem littleEndian_concat (bytes : List (BitVec 8)) (byte : BitVec 8) :
    littleEndian (bytes ++ [byte]) = littleEndian bytes + byte.toNat * 2 ^ (bytes.length * 8) := by
  induction bytes with
  | nil => simp [littleEndian]
  | cons first bytes ih =>
    have hpow : 2 ^ ((first :: bytes).length * 8) = 2 ^ 8 * 2 ^ (bytes.length * 8) := by
      rw [List.length_cons, Nat.succ_mul, Nat.pow_add, Nat.mul_comm]
    rw [List.cons_append, littleEndian, ih, littleEndian, hpow, Nat.mul_add, Nat.add_assoc, Nat.mul_left_comm]

theorem littleEndian_lt (bytes : List (BitVec 8)) : littleEndian bytes < 2 ^ (bytes.length * 8) := by
  induction bytes with
  | nil => decide
  | cons byte bytes ih =>
    have hpow : 2 ^ ((byte :: bytes).length * 8) = 2 ^ 8 * 2 ^ (bytes.length * 8) := by
      rw [List.length_cons, Nat.succ_mul, Nat.pow_add, Nat.mul_comm]
    have hbyte := byte.isLt
    rw [littleEndian, hpow]
    omega

/-- Only zeros stand for 0. -/
theorem littleEndian_eq_zero_iff : littleEndian bytes = 0 ↔ ∀ byte ∈ bytes, byte = 0#8 := by
  induction bytes with
  | nil => simp [littleEndian]
  | cons byte bytes ih =>
    rw [littleEndian, List.forall_mem_cons, ← ih, ← BitVec.toNat_inj, BitVec.toNat_ofNat]
    omega

theorem merge_succ (w : Nat) (byte : Nat → BitVec 8) (length : Nat) :
    merge w byte (length + 1) = merge w byte length ||| (byte length).setWidth w <<< (length * 8) := by
  rw [merge, List.range_succ, List.foldl_append]
  rfl

theorem getLsbD_merge (w : Nat) (byte : Nat → BitVec 8) (length k : Nat) :
    (merge w byte length).getLsbD k = (decide (k < w ∧ k / 8 < length) && (byte (k / 8)).getLsbD (k % 8)) := by
  induction length with
  | zero => simp [merge]
  | succ length ih =>
    rw [merge_succ, BitVec.getLsbD_or, ih, BitVec.getLsbD_shiftLeft, BitVec.getLsbD_setWidth]
    by_cases hw : k < w
    · rcases Nat.lt_trichotomy (k / 8) length with hlt | heq | hgt
      · simp [hw, hlt, Nat.lt_succ_of_lt hlt, show k < length * 8 by omega]
      · have hsub : k - length * 8 = k % 8 := by omega
        have hwide : k % 8 < w := by omega
        simp [hw, heq, hsub, hwide, show ¬k < length * 8 by omega]
      · have hge : 8 ≤ k - length * 8 := by omega
        simp [show ¬k / 8 < length by omega, show ¬k / 8 < length + 1 by omega, BitVec.getLsbD_of_ge _ _ hge]
    · simp [hw]

/-- **What is merged is the number that the bytes stand for.** -/
theorem toNat_merge (hroom : length * 8 ≤ w) :
    (merge w byte length).toNat = littleEndian ((List.range length).map byte) := by
  induction length with
  | zero => simp [merge, littleEndian]
  | succ length ih =>
    have hlow := ih (by omega)
    have hlt : (merge w byte length).toNat < 2 ^ (length * 8) := by
      have hbound := littleEndian_lt ((List.range length).map byte)
      rwa [List.length_map, List.length_range, ← hlow] at hbound
    have hbyte : (byte length).toNat < 2 ^ 8 := (byte length).isLt
    have hhigh : (byte length).toNat * 2 ^ (length * 8) < 2 ^ w := by
      refine Nat.lt_of_lt_of_le ((Nat.mul_lt_mul_right (Nat.two_pow_pos _)).2 hbyte) ?_
      rw [← Nat.pow_add]
      exact Nat.pow_le_pow_right (by decide) (by omega)
    have hshift : ((byte length).setWidth w <<< (length * 8)).toNat = (byte length).toNat <<< (length * 8) := by
      have hwidth : (byte length).toNat < 2 ^ w :=
        Nat.lt_of_lt_of_le hbyte (Nat.pow_le_pow_right (by decide) (by omega))
      rw [BitVec.toNat_shiftLeft, BitVec.toNat_setWidth, Nat.mod_eq_of_lt hwidth, Nat.shiftLeft_eq,
        Nat.mod_eq_of_lt hhigh]
    rw [merge_succ, BitVec.toNat_or, hshift, Nat.or_comm, ← Nat.shiftLeft_add_eq_or_of_lt hlt, Nat.shiftLeft_eq,
      List.range_succ, List.map_append, List.map_singleton, littleEndian_concat, hlow, List.length_map,
      List.length_range, Nat.add_comm]

/-- The bytes of a part of the data. -/
theorem map_getD_eq {data : List (BitVec 8)} {offset : Nat} (h : offset + length ≤ data.length) :
    (List.range length).map (fun i => data[offset + i]?.getD 0) = (data.drop offset).take length := by
  refine List.ext_getElem (by rw [List.length_map, List.length_range, List.length_take, List.length_drop]; omega)
    fun i hi _ => ?_
  rw [List.length_map, List.length_range] at hi
  have hlt : offset + i < data.length := by omega
  simp [List.getElem?_eq_getElem hlt]

/-! ## Writing a number -/

/-- The lowest bytes of a word, the first one being the lowest. -/
def toBytes {w : Nat} (length : Nat) (value : BitVec w) : List (BitVec 8) :=
  (List.range length).map fun i => (value >>> (i * 8)).setWidth 8

@[simp] theorem length_toBytes (length : Nat) (value : BitVec w) : (toBytes length value).length = length := by
  simp [toBytes]

theorem littleEndian_toBytes (length : Nat) (value : BitVec w) :
    littleEndian (toBytes length value) = value.toNat % 2 ^ (length * 8) := by
  induction length with
  | zero => simp [toBytes, littleEndian, Nat.mod_one]
  | succ length ih =>
    have hbyte : ((value >>> (length * 8)).setWidth 8).toNat = value.toNat / 2 ^ (length * 8) % 2 ^ 8 := by
      rw [BitVec.toNat_setWidth, BitVec.toNat_ushiftRight, Nat.shiftRight_eq_div_pow]
    have hconcat : toBytes (length + 1) value = toBytes length value ++ [(value >>> (length * 8)).setWidth 8] := by
      rw [toBytes, List.range_succ, List.map_append, List.map_singleton, toBytes]
    rw [hconcat, littleEndian_concat, ih, hbyte, length_toBytes, Nat.succ_mul, Nat.pow_add, Nat.mod_mul]
    exact congrArg _ (Nat.mul_comm _ _)

/-! ## Storage -/

section Storage

/-- The bytes of a storage from an offset on, as a word. -/
def load (w : Nat) (mem : Nat → BitVec 8) (offset nBytes : Nat) : BitVec w := merge w (fun i => mem (offset + i)) nBytes

/-- The lowest bytes of a word replace those of a storage from an offset on. -/
def store (mem : Nat → BitVec 8) (offset nBytes : Nat) (value : BitVec w) (a : Nat) : BitVec 8 :=
  if offset ≤ a ∧ a < offset + nBytes then value.extractLsb' ((a - offset) * 8) 8 else mem a

theorem getLsbD_load (w : Nat) (mem : Nat → BitVec 8) (offset nBytes i : Nat) :
    (load w mem offset nBytes).getLsbD i =
      (decide (i < w ∧ i / 8 < nBytes) && (mem (offset + i / 8)).getLsbD (i % 8)) :=
  getLsbD_merge w _ nBytes i

/-- **What has been stored is loaded.** -/
theorem getLsbD_load_store (mem : Nat → BitVec 8) (offset nBytes : Nat) (value : BitVec w) (i : Nat) :
    (load w (store mem offset nBytes value) offset nBytes).getLsbD i =
      (decide (i < w ∧ i / 8 < nBytes) && value.getLsbD i) := by
  rw [getLsbD_load]
  by_cases hi : i < w ∧ i / 8 < nBytes
  · have hin : offset ≤ offset + i / 8 ∧ offset + i / 8 < offset + nBytes := by omega
    have hbit : (offset + i / 8 - offset) * 8 + i % 8 = i := by omega
    rw [store, if_pos hin, BitVec.getLsbD_extractLsb', hbit, decide_eq_true (Nat.mod_lt i (by decide)), Bool.true_and]
  · rw [decide_eq_false hi, Bool.false_and, Bool.false_and]

end Storage

/-! ## A part of the data replaced -/

section Splice

variable {α : Type*} {data part : List α} {offset : Nat}

def splice (data : List α) (offset : Nat) (part : List α) : List α :=
  data.take offset ++ part ++ data.drop (offset + part.length)

theorem splice_nil (data : List α) (offset : Nat) : splice data offset [] = data := by
  simp [splice]

theorem length_splice (h : offset + part.length ≤ data.length) : (splice data offset part).length = data.length := by
  simp only [splice, List.length_append, List.length_take, List.length_drop]
  omega

theorem splice_splice (h : offset ≤ data.length) (part part' : List α) :
    splice (splice data offset part) (offset + part.length) part' = splice data offset (part ++ part') := by
  have htake : (data.take offset).length = offset := List.length_take_of_le h
  have hfirst : (splice data offset part).take (offset + part.length) = data.take offset ++ part := by
    rw [splice, List.take_left' (by rw [List.length_append, htake])]
  have hrest : (splice data offset part).drop (offset + part.length + part'.length) =
      data.drop (offset + (part ++ part').length) := by
    rw [← List.drop_drop, splice, List.drop_left' (by rw [List.length_append, htake]), List.drop_drop,
      List.length_append, Nat.add_assoc]
  rw [splice, hfirst, hrest, splice, ← List.append_assoc (data.take offset)]

/-- What is read from the part. -/
theorem take_drop_splice (h : offset ≤ data.length) {i n : Nat} (hin : i + n ≤ part.length) :
    ((splice data offset part).drop (offset + i)).take n = (part.drop i).take n := by
  have htake : (data.take offset).length = offset := List.length_take_of_le h
  rw [splice, ← List.drop_drop, List.append_assoc, List.drop_left' htake, List.drop_append_of_le_length (by omega),
    List.take_append_of_le_length (by rw [List.length_drop]; omega)]

/-- **Outside the part nothing changes.** -/
theorem getElem?_splice_of_not (h : offset + part.length ≤ data.length) {i : Nat}
    (hout : ¬(offset ≤ i ∧ i < offset + part.length)) : (splice data offset part)[i]? = data[i]? := by
  have htake : (data.take offset).length = offset := List.length_take_of_le (by omega)
  rw [splice]
  by_cases hlow : i < offset
  · rw [List.append_assoc, List.getElem?_append_left (by omega), List.getElem?_take_of_lt hlow]
  · have hlen : (data.take offset ++ part).length = offset + part.length := by rw [List.length_append, htake]
    rw [List.getElem?_append_right (by omega), hlen, List.getElem?_drop]
    exact congrArg (data[·]?) (by omega)

end Splice

end Bytes

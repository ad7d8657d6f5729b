import Mathlib

/-!
# Byte strings and machine words

Checked slices of a byte string, the numbers that its bytes spell, and sums of
machine words against the sums of the numbers they stand for.
-/

set_option autoImplicit false

namespace EthgasReth.Lib

/-- The bytes from `start` up to `stop`, when both are in bounds. -/
def slice (bytes : List UInt8) (start stop : Nat) : Option (List UInt8) :=
  if start ≤ stop ∧ stop ≤ bytes.length then some ((bytes.drop start).take (stop - start)) else none

def field (bytes : List UInt8) (start width : Nat) : List UInt8 :=
  (bytes.drop start).take width

def beValue (bytes : List UInt8) : Nat :=
  bytes.foldl (fun value byte => value * 256 + byte.toNat) 0

/-- The `width` big-endian bytes of a number, its high bytes cut off. -/
def bigEndian : Nat → Nat → List UInt8
  | 0, _ => []
  | width + 1, value => bigEndian width (value / 256) ++ [UInt8.ofNat value]

section Bytes

variable {bytes : List UInt8} {start width : Nat}

theorem slice_field (within : start + width ≤ bytes.length) :
    slice bytes start (start + width) = some (field bytes start width) := by
  rw [slice, if_pos ⟨Nat.le_add_right .., within⟩, Nat.add_sub_cancel_left, field]

theorem field_length (within : start + width ≤ bytes.length) :
    (field bytes start width).length = width := by
  rw [field, List.length_take, List.length_drop]
  omega

theorem beValue_concat (bytes : List UInt8) (byte : UInt8) :
    beValue (bytes ++ [byte]) = beValue bytes * 256 + byte.toNat := by
  rw [beValue, List.foldl_append]
  rfl

theorem beValue_lt (bytes : List UInt8) : beValue bytes < 256 ^ bytes.length := by
  induction bytes using List.reverseRecOn with
  | nil => decide
  | append_singleton bytes byte ih =>
      have small := byte.toNat_lt
      rw [beValue_concat, List.length_append, List.length_singleton, Nat.pow_succ]
      omega

theorem field_drop (bytes : List UInt8) (offset start width : Nat) :
    field (bytes.drop offset) start width = field bytes (offset + start) width := by
  rw [field, List.drop_drop, field]

theorem field_append (before middle after : List UInt8) :
    field (before ++ (middle ++ after)) before.length middle.length = middle := by
  rw [field, List.drop_left, List.take_left]

theorem bigEndian_length (width value : Nat) : (bigEndian width value).length = width := by
  induction width generalizing value with
  | zero => rfl
  | succ width ih =>
      rw [bigEndian, List.length_append, ih]
      rfl

theorem beValue_bigEndian (width value : Nat) :
    beValue (bigEndian width value) = value % 256 ^ width := by
  induction width generalizing value with
  | zero => simp [bigEndian, beValue, Nat.mod_one]
  | succ width ih =>
      calc beValue (bigEndian (width + 1) value)
          = value / 256 % 256 ^ width * 256 + value % 256 := by
            rw [bigEndian, beValue_concat, ih, UInt8.toNat_ofNat']
        _ = value % (256 * 256 ^ width) := by
            rw [Nat.mod_mul, Nat.mul_comm, Nat.add_comm]
        _ = value % 256 ^ (width + 1) := by
            rw [Nat.pow_succ, Nat.mul_comm]

theorem bigEndian_beValue (bytes : List UInt8) : bigEndian bytes.length (beValue bytes) = bytes := by
  induction bytes using List.reverseRecOn with
  | nil => rfl
  | append_singleton bytes byte ih =>
      have small := byte.toNat_lt
      have high : (beValue bytes * 256 + byte.toNat) / 256 = beValue bytes := by omega
      have low : UInt8.ofNat (beValue bytes * 256 + byte.toNat) = byte := by
        apply UInt8.toNat_inj.mp
        rw [UInt8.toNat_ofNat']
        omega
      rw [List.length_append, List.length_singleton, bigEndian, beValue_concat, high, low, ih]

theorem bigEndian_toNat_ofNat {w : Nat} (bytes : List UInt8)
    (wide : 256 ^ bytes.length = 2 ^ w) :
    bigEndian bytes.length (BitVec.ofNat w (beValue bytes)).toNat = bytes := by
  have bound := beValue_lt bytes
  rw [wide] at bound
  rw [BitVec.toNat_ofNat, Nat.mod_eq_of_lt bound, bigEndian_beValue]

theorem ofNat_beValue_bigEndian {w : Nat} (width value : Nat) (wide : 256 ^ width = 2 ^ w) :
    BitVec.ofNat w (beValue (bigEndian width value)) = BitVec.ofNat w value := by
  apply BitVec.eq_of_toNat_eq
  rw [beValue_bigEndian, wide, BitVec.toNat_ofNat, BitVec.toNat_ofNat, Nat.mod_mod]

end Bytes

section Sums

variable {α : Type} {w : Nat}

theorem foldl_add_eq {word : α → BitVec w} {amount : α → Nat}
    (stands : ∀ item, word item = BitVec.ofNat w (amount item)) (items : List α) (start : Nat) :
    items.foldl (fun total item => total + word item) (BitVec.ofNat w start) =
      BitVec.ofNat w (start + (items.map amount).sum) := by
  induction items generalizing start with
  | nil => rfl
  | cons item rest ih =>
      rw [List.foldl_cons, stands, ← BitVec.ofNat_add, ih, List.map_cons, List.sum_cons,
        Nat.add_assoc]

theorem ofNat_toNat_self (word : BitVec w) : word = BitVec.ofNat w word.toNat := by
  rw [BitVec.ofNat_toNat, BitVec.setWidth_eq]

end Sums

end EthgasReth.Lib

import EthgasReth.Lib.Json
import EthgasReth.Lib.Words

/-!
# Hexadecimal text

Bytes as two digits each and numbers without leading zeros, both behind a `0x`.
-/

set_option autoImplicit false

namespace EthgasReth.Lib.Hex

def hexDigits : List Char :=
  ['0', '1', '2', '3', '4', '5', '6', '7', '8', '9', 'a', 'b', 'c', 'd', 'e', 'f']

def hexDigit (digit : Nat) : Char := hexDigits.getD digit '0'

def digitOf (char : Char) : Option Nat := hexDigits.findIdx? fun digit => digit = char

theorem digitOf_hexDigit {digit : Nat} (small : digit < 16) :
    digitOf (hexDigit digit) = some digit := by
  interval_cases digit <;> decide

def unprefixed (text : String) : Option (List Char) :=
  match text.toList with
  | '0' :: 'x' :: rest => some rest
  | _ => none

theorem unprefixed_prefixed (chars : List Char) :
    unprefixed (String.ofList ('0' :: 'x' :: chars)) = some chars := by
  simp [unprefixed]

/-! ## Bytes -/

def byteDigits (byte : UInt8) : List Char :=
  [hexDigit (byte.toNat / 16), hexDigit (byte.toNat % 16)]

def encodeBytes (bytes : List UInt8) : String :=
  String.ofList ('0' :: 'x' :: bytes.flatMap byteDigits)

def pairs : List Char → Option (List UInt8)
  | [] => some []
  | high :: low :: rest => do
      let high ← digitOf high
      let low ← digitOf low
      let bytes ← pairs rest
      return UInt8.ofNat (high * 16 + low) :: bytes
  | [_] => none

def decodeBytes (text : String) : Option (List UInt8) := (unprefixed text).bind pairs

theorem decodeBytes_encodeBytes (bytes : List UInt8) :
    decodeBytes (encodeBytes bytes) = some bytes := by
  rw [decodeBytes, encodeBytes, unprefixed_prefixed, Option.bind_some]
  induction bytes with
  | nil => rfl
  | cons byte rest ih =>
      have bound := byte.toNat_lt
      have whole : byte.toNat / 16 * 16 + byte.toNat % 16 = byte.toNat := by omega
      have isByte : UInt8.ofNat (byte.toNat / 16 * 16 + byte.toNat % 16) = byte := by
        rw [whole, UInt8.ofNat_toNat]
      have high := digitOf_hexDigit (show byte.toNat / 16 < 16 by omega)
      have low := digitOf_hexDigit (show byte.toNat % 16 < 16 by omega)
      simp only [List.flatMap_cons, byteDigits, List.cons_append, List.nil_append, pairs, high,
        low, ih, isByte, Option.bind_eq_bind, Option.bind_some, Option.pure_def]

def wordCodec (width w : Nat) : Json.Codec (BitVec w) where
  encode := fun word => .string (encodeBytes (bigEndian width word.toNat))
  decode
    | .string text => (decodeBytes text).bind fun bytes =>
        if bytes.length = width then some (BitVec.ofNat w (beValue bytes)) else none
    | _ => none

theorem wordCodec_lawful {width w : Nat} (bits : w = 8 * width) :
    (wordCodec width w).Lawful fun _ => True where
  round := by
    intro word _
    have wide : 256 ^ width = 2 ^ w := by
      rw [bits, pow_mul]
      rfl
    simp only [wordCodec, decodeBytes_encodeBytes, Option.bind_some, bigEndian_length, if_true]
    rw [ofNat_beValue_bigEndian width word.toNat wide, ← ofNat_toNat_self]
  notNull := by
    intro word isNull
    cases isNull

def bytesCodec : Json.Codec (List UInt8) where
  encode := fun bytes => .string (encodeBytes bytes)
  decode
    | .string text => decodeBytes text
    | _ => none

theorem bytesCodec_lawful : bytesCodec.Lawful fun _ => True where
  round := fun bytes _ => decodeBytes_encodeBytes bytes
  notNull := by
    intro bytes isNull
    cases isNull

/-! ## Quantities -/

def quantityDigits (value : Nat) : List Nat :=
  if value = 0 then [0] else (Nat.digits 16 value).reverse

def encodeQuantity (value : Nat) : String :=
  String.ofList ('0' :: 'x' :: (quantityDigits value).map hexDigit)

def decodeQuantity (text : String) : Option Nat := do
  let chars ← unprefixed text
  let digits ← chars.mapM digitOf
  if digits = [] then none
  else some (digits.foldl (fun value digit => value * 16 + digit) 0)

theorem mapM_hexDigit {digits : List Nat} (small : ∀ digit ∈ digits, digit < 16) :
    (digits.map hexDigit).mapM digitOf = some digits := by
  induction digits with
  | nil => rfl
  | cons digit rest ih =>
      have head := digitOf_hexDigit (small digit List.mem_cons_self)
      have tail := ih fun other member => small other (List.mem_cons_of_mem _ member)
      simp [head, tail]

theorem quantityDigits_small (value : Nat) : ∀ digit ∈ quantityDigits value, digit < 16 := by
  intro digit member
  unfold quantityDigits at member
  split at member
  · simp at member
    omega
  · exact Nat.digits_lt_base (by decide) (List.mem_reverse.mp member)

theorem quantityDigits_value (value : Nat) :
    (quantityDigits value).foldl (fun value digit => value * 16 + digit) 0 = value := by
  unfold quantityDigits
  split
  · rename_i isZero
    simp [isZero]
  · rw [List.foldl_reverse]
    have whole := Nat.ofDigits_digits 16 value
    rw [Nat.ofDigits_eq_foldr] at whole
    calc (Nat.digits 16 value).foldr (fun digit value => value * 16 + digit) 0
        = (Nat.digits 16 value).foldr (fun digit value => digit + 16 * value) 0 := by
          congr 1
          funext digit value
          omega
      _ = value := by simpa using whole

theorem decodeQuantity_encodeQuantity (value : Nat) :
    decodeQuantity (encodeQuantity value) = some value := by
  have nonempty : quantityDigits value ≠ [] := by
    unfold quantityDigits
    split
    · simp
    · rename_i positive
      simpa using Nat.digits_ne_nil_iff_ne_zero.mpr positive
  rw [decodeQuantity, encodeQuantity, unprefixed_prefixed]
  simp only [Option.bind_eq_bind, Option.bind_some, mapM_hexDigit (quantityDigits_small value),
    nonempty, if_false, quantityDigits_value]

def quantityCodec (bound : Nat) : Json.Codec Nat where
  encode := fun value => .string (encodeQuantity value)
  decode
    | .string text => (decodeQuantity text).bind fun value =>
        if value < bound then some value else none
    | _ => none

theorem quantityCodec_lawful (bound : Nat) :
    (quantityCodec bound).Lawful fun value => value < bound where
  round := by
    intro value small
    simp only [quantityCodec, decodeQuantity_encodeQuantity, Option.bind_some, small, if_true]
  notNull := by
    intro value isNull
    cases isNull

end EthgasReth.Lib.Hex

import EthgasReth.Simulator.Payment

/-!
# The packed entries of a Safe batch

`multisend_entries` walks over `[1B operation][20B to][32B value][32B dataLength][data]`
with a cursor.  The format is written down here on its own, as an encoder, and the walk is
compared with it: on every byte string the cursor stays within the string, and what is
yielded are the entries of the longest prefix that is a concatenation of encoded ones.
-/

set_option autoImplicit false

namespace EthgasReth.Simulator.Multisend

open EthgasReth.Primitives
open EthgasReth.Lib
open EthgasReth.Simulator.Payment

/-! ## The format -/

structure PackedEntry where
  operation : UInt8
  recipient : Address
  value : U256
  data : Bytes
  deriving DecidableEq

namespace PackedEntry

def encode (entry : PackedEntry) : Bytes :=
  [entry.operation] ++ (bigEndian 20 entry.recipient.toNat ++
    (bigEndian 32 entry.value.toNat ++ (bigEndian 32 entry.data.length ++ entry.data)))

def paid (entry : PackedEntry) : Address × U256 :=
  (entry.recipient, entry.value)

theorem encode_length (entry : PackedEntry) :
    entry.encode.length = entryHeaderLen + entry.data.length := by
  simp only [encode, List.length_append, bigEndian_length, List.length_singleton, entryHeaderLen]
  omega

end PackedEntry

def encodeAll (entries : List PackedEntry) : Bytes :=
  entries.flatMap PackedEntry.encode

/-- No longer prefix of the bytes is a concatenation of entries: those of any other are
among the first of these. -/
structure LongestPacked (bytes : Bytes) (entries : List PackedEntry) : Prop where
  packed : encodeAll entries <+: bytes
  longest : ∀ others, encodeAll others <+: bytes → others <+: entries

/-! ## Reading one entry back -/

def dataLenAt (bytes : Bytes) : Nat :=
  (u256At bytes 53).toNat

/-- The entry that the first bytes spell, whether or not they are all there. -/
def entryAt (bytes : Bytes) : PackedEntry where
  operation := bytes.headD 0
  recipient := addressAt bytes 1
  value := u256At bytes 21
  data := field bytes entryHeaderLen (dataLenAt bytes)

theorem bigEndian_addressAt {bytes : Bytes} {start : Nat} (within : start + 20 ≤ bytes.length) :
    bigEndian 20 (addressAt bytes start).toNat = field bytes start 20 := by
  have wide : 256 ^ (field bytes start 20).length = 2 ^ 160 := by
    rw [field_length within]
    rfl
  have back := bigEndian_toNat_ofNat _ wide
  rwa [field_length within] at back

theorem bigEndian_u256At {bytes : Bytes} {start : Nat} (within : start + 32 ≤ bytes.length) :
    bigEndian 32 (u256At bytes start).toNat = field bytes start 32 := by
  have wide : 256 ^ (field bytes start 32).length = 2 ^ 256 := by
    rw [field_length within]
    rfl
  have back := bigEndian_toNat_ofNat _ wide
  rwa [field_length within] at back

theorem addressAt_encoded {bytes : Bytes} {start : Nat} {address : Address}
    (encoded : field bytes start 20 = bigEndian 20 address.toNat) :
    addressAt bytes start = address := by
  rw [addressAt, encoded, ofNat_beValue_bigEndian 20 _ rfl]
  exact (ofNat_toNat_self address).symm

theorem u256At_encoded {bytes : Bytes} {start value : Nat}
    (encoded : field bytes start 32 = bigEndian 32 value) :
    u256At bytes start = BitVec.ofNat 256 value := by
  rw [u256At, encoded, ofNat_beValue_bigEndian 32 _ rfl]

theorem entryAt_encode (entry : PackedEntry) (small : entry.data.length < 2 ^ 64)
    (rest : Bytes) :
    entryAt (entry.encode ++ rest) = entry ∧
      dataLenAt (entry.encode ++ rest) = entry.data.length := by
  have recipient : field (entry.encode ++ rest) 1 20 = bigEndian 20 entry.recipient.toNat := by
    have read := field_append [entry.operation] (bigEndian 20 entry.recipient.toNat)
      (bigEndian 32 entry.value.toNat ++ (bigEndian 32 entry.data.length ++ entry.data) ++ rest)
    rw [bigEndian_length] at read
    simpa [PackedEntry.encode] using read
  have value : field (entry.encode ++ rest) 21 32 = bigEndian 32 entry.value.toNat := by
    have read := field_append ([entry.operation] ++ bigEndian 20 entry.recipient.toNat)
      (bigEndian 32 entry.value.toNat) ((bigEndian 32 entry.data.length ++ entry.data) ++ rest)
    rw [List.length_append, bigEndian_length, bigEndian_length] at read
    simpa [PackedEntry.encode] using read
  have dataLen : field (entry.encode ++ rest) 53 32 = bigEndian 32 entry.data.length := by
    have read := field_append ([entry.operation] ++ bigEndian 20 entry.recipient.toNat ++
      bigEndian 32 entry.value.toNat) (bigEndian 32 entry.data.length) (entry.data ++ rest)
    rw [List.length_append, List.length_append, bigEndian_length, bigEndian_length,
      bigEndian_length] at read
    simpa [PackedEntry.encode] using read
  have data : field (entry.encode ++ rest) entryHeaderLen entry.data.length = entry.data := by
    have read := field_append ([entry.operation] ++ bigEndian 20 entry.recipient.toNat ++
      bigEndian 32 entry.value.toNat ++ bigEndian 32 entry.data.length) entry.data rest
    rw [List.length_append, List.length_append, List.length_append, bigEndian_length,
      bigEndian_length, bigEndian_length] at read
    simpa [PackedEntry.encode, entryHeaderLen] using read
  have length : dataLenAt (entry.encode ++ rest) = entry.data.length := by
    rw [dataLenAt, u256At_encoded dataLen, BitVec.toNat_ofNat]
    exact Nat.mod_eq_of_lt (by omega)
  refine ⟨?_, length⟩
  rw [entryAt, addressAt_encoded recipient, u256At_encoded value, length, data,
    ← ofNat_toNat_self]
  rfl

theorem take_append_field (bytes : Bytes) (start width : Nat) :
    bytes.take start ++ field bytes start width = bytes.take (start + width) := by
  rw [List.take_add, field]

theorem encode_entryAt {bytes : Bytes} (fits : entryHeaderLen + dataLenAt bytes ≤ bytes.length) :
    (entryAt bytes).encode = bytes.take (entryHeaderLen + dataLenAt bytes) := by
  change 85 + dataLenAt bytes ≤ bytes.length at fits
  have operation : [bytes.headD 0] = bytes.take 1 := by
    cases bytes with
    | nil => simp at fits
    | cons byte rest => rfl
  have dataLen : (field bytes entryHeaderLen (dataLenAt bytes)).length = (u256At bytes 53).toNat :=
    field_length fits
  have recipient := @bigEndian_addressAt bytes 1 (by omega)
  have value := @bigEndian_u256At bytes 21 (by omega)
  have header := @bigEndian_u256At bytes 53 (by omega)
  simp only [PackedEntry.encode, entryAt]
  rw [dataLen, recipient, value, header, operation]
  simp only [← List.append_assoc]
  rw [take_append_field, take_append_field, take_append_field]
  exact take_append_field ..

/-! ## One call of the iterator -/

theorem u256At_drop (bytes : Bytes) (offset start : Nat) :
    u256At (bytes.drop offset) start = u256At bytes (offset + start) := by
  rw [u256At, field_drop, u256At]

theorem addressAt_drop (bytes : Bytes) (offset start : Nat) :
    addressAt (bytes.drop offset) start = addressAt bytes (offset + start) := by
  rw [addressAt, field_drop, addressAt]

/-- The cursor is at an encoded entry: it is yielded, and the cursor moves behind it. -/
theorem nextEntry_encoded {bytes : Bytes} {offset : Nat} {entry : PackedEntry}
    (slice : bytes.length < 2 ^ 64) (found : entry.encode <+: bytes.drop offset) :
    nextEntry bytes offset = .ok (some entry.paid, offset + entry.encode.length) := by
  obtain ⟨rest, whole⟩ := found
  have lengths := congrArg List.length whole
  rw [List.length_append, List.length_drop, PackedEntry.encode_length] at lengths
  change 85 + entry.data.length + rest.length = bytes.length - offset at lengths
  have long : offset + entryHeaderLen ≤ bytes.length := by
    change offset + 85 ≤ bytes.length
    omega
  obtain ⟨read, dataLen⟩ := entryAt_encode entry (by omega) rest
  rw [whole] at read dataLen
  have recipient := congrArg PackedEntry.recipient read
  have value := congrArg PackedEntry.value read
  simp only [entryAt, addressAt_drop, u256At_drop] at recipient value
  rw [dataLenAt, u256At_drop] at dataLen
  have size : toUsize (u256At bytes (offset + 53)) = some entry.data.length := by
    rw [toUsize, dataLen, if_pos (by omega)]
  have enough : ¬ bytes.length - (offset + entryHeaderLen) < entry.data.length := by
    change ¬ bytes.length - (offset + 85) < entry.data.length
    omega
  rw [nextEntry_long long, size]
  simp only [if_neg enough]
  rw [recipient, value, PackedEntry.encode_length, Nat.add_assoc, PackedEntry.paid]

theorem nextEntry_yields {bytes : Bytes} {offset after : Nat} {pair : Address × U256}
    (yields : nextEntry bytes offset = .ok (some pair, after)) :
    ∃ entry : PackedEntry, entry.encode <+: bytes.drop offset ∧ entry.paid = pair ∧
      after = offset + entry.encode.length := by
  have long : offset + entryHeaderLen ≤ bytes.length := by
    by_contra short
    rw [nextEntry_short (by omega)] at yields
    cases yields
  rw [nextEntry_long long] at yields
  split at yields
  · cases yields
  · rename_i dataLen size
    have announced : dataLenAt (bytes.drop offset) = dataLen := by
      rw [toUsize] at size
      split at size
      · cases size
        rw [dataLenAt, u256At_drop]
      · cases size
    split at yields
    · cases yields
    · rename_i enough
      cases yields
      have fits : entryHeaderLen + dataLenAt (bytes.drop offset) ≤ (bytes.drop offset).length := by
        rw [announced, List.length_drop]
        omega
      have encoded := encode_entryAt fits
      refine ⟨entryAt (bytes.drop offset), ?_, ?_, ?_⟩
      · rw [encoded]
        exact List.take_prefix _ _
      · simp only [PackedEntry.paid, entryAt, addressAt_drop, u256At_drop]
      · rw [encoded, List.length_take, Nat.min_eq_left fits, announced, Nat.add_assoc]

theorem nextEntry_within {bytes : Bytes} {offset : Nat} (within : offset ≤ bytes.length) :
    ∃ yielded after, nextEntry bytes offset = .ok (yielded, after) ∧
      offset ≤ after ∧ after ≤ bytes.length := by
  by_cases long : offset + entryHeaderLen ≤ bytes.length
  · have header : entryHeaderLen = 85 := rfl
    rw [nextEntry_long long]
    split
    · exact ⟨none, offset + 53, rfl, by omega, by omega⟩
    · rename_i dataLen _
      split
      · exact ⟨none, offset + entryHeaderLen, rfl, by omega, long⟩
      · exact ⟨_, offset + entryHeaderLen + dataLen, rfl, by omega, by omega⟩
  · exact ⟨none, offset, nextEntry_short (by omega), le_rfl, within⟩

/-! ## The whole iteration -/

theorem encodeAll_cons (entry : PackedEntry) (entries : List PackedEntry) :
    encodeAll (entry :: entries) = entry.encode ++ encodeAll entries :=
  List.flatMap_cons

theorem encoded_unique {bytes : Bytes} {first second : PackedEntry}
    (slice : bytes.length < 2 ^ 64) (one : first.encode <+: bytes)
    (two : second.encode <+: bytes) : first = second := by
  have read {entry : PackedEntry} (found : entry.encode <+: bytes) : entryAt bytes = entry := by
    have length := found.length_le
    rw [PackedEntry.encode_length] at length
    obtain ⟨rest, whole⟩ := found
    rw [← whole]
    exact (entryAt_encode entry (by omega) rest).1
  rw [← read one, read two]

theorem encodeAll_cons_packed {bytes : Bytes} {entry : PackedEntry} {entries : List PackedEntry}
    (found : entry.encode <+: bytes) :
    encodeAll (entry :: entries) <+: bytes ↔
      encodeAll entries <+: bytes.drop entry.encode.length := by
  obtain ⟨rest, rfl⟩ := found
  rw [encodeAll_cons, List.prefix_append_right_inj, List.drop_left]

theorem longestPacked_nil {bytes : Bytes}
    (none : ∀ entry : PackedEntry, ¬ entry.encode <+: bytes) : LongestPacked bytes [] := by
  refine ⟨List.nil_prefix, ?_⟩
  intro others found
  cases others with
  | nil => exact List.nil_prefix
  | cons entry others =>
      rw [encodeAll_cons] at found
      exact absurd ((List.prefix_append _ _).trans found) (none entry)

theorem LongestPacked.cons {bytes : Bytes} {entry : PackedEntry} {entries : List PackedEntry}
    (slice : bytes.length < 2 ^ 64) (found : entry.encode <+: bytes)
    (rest : LongestPacked (bytes.drop entry.encode.length) entries) :
    LongestPacked bytes (entry :: entries) := by
  refine ⟨(encodeAll_cons_packed found).mpr rest.packed, ?_⟩
  intro others packed
  cases others with
  | nil => exact List.nil_prefix
  | cons other others =>
      have head : other.encode <+: bytes := by
        rw [encodeAll_cons] at packed
        exact (List.prefix_append _ _).trans packed
      obtain rfl := encoded_unique slice head found
      exact (List.prefix_cons_inj other).mpr
        (rest.longest others ((encodeAll_cons_packed head).mp packed))

theorem entriesFrom_longest {bytes : Bytes} (slice : bytes.length < 2 ^ 64) (offset : Nat) :
    ∃ entries, LongestPacked (bytes.drop offset) entries ∧
      entriesFrom bytes offset = .ok (entries.map PackedEntry.paid) := by
  have shorter (offset : Nat) : (bytes.drop offset).length < 2 ^ 64 := by
    rw [List.length_drop]
    omega
  -- The calls of the iterator, one after another, up to the first that yields nothing.
  induction offset using entriesFrom.induct bytes with
  | case1 offset stop step =>
      obtain ⟨result, returns⟩ := nextEntry_returns bytes offset
      rw [returns] at step
      cases step
  | case2 offset after step =>
      refine ⟨[], longestPacked_nil ?_, entriesFrom_end step⟩
      intro entry found
      rw [nextEntry_encoded slice found] at step
      cases step
  | case3 offset pair after step ih =>
      obtain ⟨entry, found, rfl, rfl⟩ := nextEntry_yields step
      obtain ⟨entries, longest, rest⟩ := ih
      rw [← List.drop_drop] at longest
      refine ⟨entry :: entries, longest.cons (shorter offset) found, ?_⟩
      rw [entriesFrom_entry step, rest]
      rfl

theorem LongestPacked.eq_of_tail {entries packed : List PackedEntry} {tail : Bytes}
    (longest : LongestPacked (encodeAll packed ++ tail) entries)
    (ends : ∀ entry : PackedEntry, ¬ entry.encode <+: tail) : entries = packed := by
  obtain ⟨more, rfl⟩ := longest.longest packed (List.prefix_append _ _)
  cases more with
  | nil => rw [List.append_nil]
  | cons entry more =>
      have whole := longest.packed
      rw [encodeAll, List.flatMap_append, ← encodeAll, List.prefix_append_right_inj, ← encodeAll,
        encodeAll_cons] at whole
      exact absurd ((List.prefix_append _ _).trans whole) (ends entry)

/-- The iteration over any slice, whose length is a `usize`. -/
theorem multisendEntries_decodes_packed (bytes : Bytes) (slice : bytes.length < 2 ^ 64) :
    (∀ offset ≤ bytes.length, ∃ yielded after, nextEntry bytes offset = .ok (yielded, after) ∧
      offset ≤ after ∧ after ≤ bytes.length) ∧
    (∃ entries, LongestPacked bytes entries ∧
      multisendEntries bytes = .ok (entries.map PackedEntry.paid)) ∧
    (∀ packed tail, bytes = encodeAll packed ++ tail →
      (∀ entry : PackedEntry, ¬ entry.encode <+: tail) →
        multisendEntries bytes = .ok (packed.map PackedEntry.paid)) := by
  obtain ⟨entries, longest, decoded⟩ := entriesFrom_longest slice 0
  refine ⟨?_, ⟨entries, longest, decoded⟩, ?_⟩
  · intro offset within
    exact nextEntry_within within
  · intro packed tail whole ends
    rw [List.drop_zero, whole] at longest
    rw [← longest.eq_of_tail ends]
    exact decoded

/-- Two transfers, the second with three bytes of data, and the beginning of a third. -/
theorem multisendEntries_decodes_packed_cut_off :
    multisendEntries (encodeAll [⟨0, 0x22, 42, []⟩, ⟨1, 0x33, 8, [1, 2, 3]⟩] ++ [0, 0]) =
      .ok [(0x22, 42), (0x33, 8)] := by
  have slice : (encodeAll [⟨0, 0x22, 42, []⟩, ⟨1, 0x33, 8, [1, 2, 3]⟩] ++ [0, 0]).length <
      2 ^ 64 := by
    simp [encodeAll, PackedEntry.encode_length, entryHeaderLen]
  refine (multisendEntries_decodes_packed _ slice).2.2 _ [0, 0] rfl ?_
  intro entry found
  have length := found.length_le
  rw [PackedEntry.encode_length] at length
  change 85 + entry.data.length ≤ 2 at length
  omega

end EthgasReth.Simulator.Multisend

import EthgasReth.Lib.Hex
import EthgasReth.Reference
import EthgasReth.Wire

/-!
# What the wire format keeps

A flashblock that a producer writes is the flashblock that the node decodes, and a producer
that adds keys ahead of the node changes nothing but the report of unknown keys.
-/

set_option autoImplicit false

namespace EthgasReth.Wire

open EthgasReth.Primitives
open EthgasReth.Lib

/-! ## Round trip -/

structure Fits (flashblock : WireFlashBlock) : Prop where
  index : U64 flashblock.index
  base : ∀ base ∈ flashblock.base, U64 base.blockNumber ∧ U64 base.gasLimit ∧
    U64 base.timestamp ∧ ∀ slotNumber ∈ base.slotNumber, U64 slotNumber
  gasUsed : U64 flashblock.diff.gasUsed
  blobGas : U64 flashblock.diff.blobGasUsed ∧ U64 flashblock.diff.excessBlobGas
  withdrawals : ∀ withdrawal ∈ flashblock.diff.withdrawals, WithdrawalFits withdrawal
  blockNumber : U64 flashblock.metadata.blockNumber
  receipts : ∀ entry ∈ flashblock.metadata.receipts.entries, U64 entry.2.cumulativeGasUsed

/-- Equal up to the iteration order of the two hash maps. -/
structure SameFlashblock (left right : WireFlashBlock) : Prop where
  payloadId : left.payloadId = right.payloadId
  index : left.index = right.index
  base : left.base = right.base
  diff : left.diff = right.diff
  blockNumber : left.metadata.blockNumber = right.metadata.blockNumber
  balances : ∀ address, left.metadata.newAccountBalances.lookup address =
    right.metadata.newAccountBalances.lookup address
  receipts : ∀ hash, left.metadata.receipts.lookup hash = right.metadata.receipts.lookup hash
  inclusionFee : left.inclusionFee = right.inclusionFee

section RoundTrip

variable {codecs : Codecs}

theorem required_encoded {α : Type} {codec : Json.Codec α} {valid : α → Prop}
    (lawful : codec.Lawful valid) {fields : Json.Fields} {name : String} {position : Nat}
    {value : α} (isValid : valid value)
    (found : fields.value name position = some (codec.encode value)) :
    fields.required codec.decode name position = some value := by
  rw [Json.Fields.required, found]
  exact lawful.round value isValid

theorem inclusionFeeCodec_lawful (lawful : codecs.Lawful) :
    (inclusionFeeCodec codecs).Lawful fun _ => True where
  round := by
    intro fee _
    have priorityFee := lawful.u256.round fee.priorityFee trivial
    simp [inclusionFeeCodec, encodeInclusionFee, readInclusionFee, Json.fields,
      Json.Fields.required, Json.Fields.value, priorityFee]
  notNull := by
    intro fee isNull
    cases isNull

theorem baseCodec_lawful (lawful : codecs.Lawful) :
    (baseCodec codecs).Lawful fun base => U64 base.blockNumber ∧ U64 base.gasLimit ∧
      U64 base.timestamp ∧ ∀ slotNumber ∈ base.slotNumber, U64 slotNumber where
  round := by
    intro base fits
    obtain ⟨blockNumber, gasLimit, timestamp, slotNumber⟩ := fits
    obtain ⟨fields, isFields⟩ : ∃ fields, (encodeBase codecs base).fields 10 = some fields :=
      ⟨_, rfl⟩
    have members : ∀ name position, fields.value name position =
        (encodeBase codecs base).get name := by
      cases isFields
      intro name position
      rfl
    have beaconRoot := required_encoded lawful.b256 trivial (members "parent_beacon_block_root" 0)
    have parentHash := required_encoded lawful.b256 trivial (members "parent_hash" 1)
    have feeRecipient := required_encoded lawful.address trivial (members "fee_recipient" 2)
    have prevRandao := required_encoded lawful.b256 trivial (members "prev_randao" 3)
    have number := required_encoded lawful.quantity blockNumber (members "block_number" 4)
    have gas := required_encoded lawful.quantity gasLimit (members "gas_limit" 5)
    have time := required_encoded lawful.quantity timestamp (members "timestamp" 6)
    have extraData := required_encoded lawful.bytes trivial (members "extra_data" 7)
    have baseFee := required_encoded lawful.u256 trivial (members "base_fee_per_gas" 8)
    have slot : fields.defaulted codecs.quantity.decode "slot_number" 9 = some base.slotNumber := by
      rw [Json.Fields.defaulted, members "slot_number" 9]
      exact Json.nullable_encodeOption lawful.quantity slotNumber
    simp only [baseCodec, isFields, Option.bind_some, readBase, beaconRoot, parentHash,
      feeRecipient, prevRandao, number, gas, time, extraData, baseFee, slot,
      Option.bind_eq_bind, Option.pure_def]
  notNull := by
    intro base isNull
    cases isNull

theorem diffCodec_lawful (lawful : codecs.Lawful) :
    (diffCodec codecs).Lawful fun diff => U64 diff.gasUsed ∧ U64 diff.blobGasUsed ∧
      U64 diff.excessBlobGas ∧ ∀ withdrawal ∈ diff.withdrawals, WithdrawalFits withdrawal where
  round := by
    intro diff fits
    obtain ⟨gasUsed, blobGasUsed, excessBlobGas, withdrawals⟩ := fits
    obtain ⟨fields, isFields⟩ : ∃ fields, (encodeDiff codecs diff).fields 10 = some fields :=
      ⟨_, rfl⟩
    have members : ∀ name position, fields.value name position =
        (encodeDiff codecs diff).get name := by
      cases isFields
      intro name position
      rfl
    have stateRoot := required_encoded lawful.b256 trivial (members "state_root" 0)
    have receiptsRoot := required_encoded lawful.b256 trivial (members "receipts_root" 1)
    have logsBloom := required_encoded lawful.bloom trivial (members "logs_bloom" 2)
    have gas := required_encoded lawful.quantity gasUsed (members "gas_used" 3)
    have blockHash := required_encoded lawful.b256 trivial (members "block_hash" 4)
    have transactions := required_encoded lawful.bytes.list (fun _ _ => trivial)
      (members "transactions" 5)
    have credits := required_encoded lawful.withdrawal.list withdrawals (members "withdrawals" 6)
    have blobGas := required_encoded lawful.quantity blobGasUsed (members "blob_gas_used" 7)
    have excess := required_encoded lawful.quantity excessBlobGas (members "excess_blob_gas" 8)
    have requests : fields.optional codecs.requests.decode "requests" 9 = some diff.requests := by
      unfold Json.Fields.optional
      rw [members]
      exact Json.nullable_encodeOption lawful.requests fun _ _ => trivial
    simp only [diffCodec, isFields, Option.bind_some, readDiff, stateRoot, receiptsRoot, logsBloom,
      gas, blockHash, transactions, credits, blobGas, excess, requests, Option.bind_eq_bind,
      Option.pure_def]
  notNull := by
    intro diff isNull
    cases isNull

theorem decodeMetadata_encodeMetadata (lawful : codecs.Lawful) {flashblock : WireFlashBlock}
    (fits : Fits flashblock) :
    ∃ metadata, decodeMetadata codecs (encodeMetadata codecs flashblock) =
        some (metadata, flashblock.inclusionFee) ∧
      metadata.blockNumber = flashblock.metadata.blockNumber ∧
      (∀ address, metadata.newAccountBalances.lookup address =
        flashblock.metadata.newAccountBalances.lookup address) ∧
      ∀ hash, metadata.receipts.lookup hash = flashblock.metadata.receipts.lookup hash := by
  obtain ⟨balances, balancesRead, sameBalances⟩ := decodeMap_encodeMap lawful.addressKey
    lawful.u256 fun entry (_ : entry ∈ flashblock.metadata.newAccountBalances.entries) => trivial
  obtain ⟨receipts, receiptsRead, sameReceipts⟩ := decodeMap_encodeMap lawful.hashKey
    lawful.receipt fits.receipts
  obtain ⟨fields, isFields⟩ : ∃ fields,
      (encodeMetadata codecs flashblock).fields 4 = some fields := ⟨_, rfl⟩
  have members : ∀ name position, fields.value name position =
      (encodeMetadata codecs flashblock).get name := by
    cases isFields
    intro name position
    rfl
  have number := required_encoded u64Codec_lawful fits.blockNumber (members "block_number" 0)
  have balancesField : fields.required (decodeMap codecs.addressKey codecs.u256)
      "new_account_balances" 1 = some balances := by
    rw [Json.Fields.required, members]
    exact balancesRead
  have receiptsField : fields.required (decodeMap codecs.hashKey codecs.receipt) "receipts" 2 =
      some receipts := by
    rw [Json.Fields.required, members]
    exact receiptsRead
  have fee : fields.defaulted (inclusionFeeCodec codecs).decode "inclusion_fee" 3 =
      some flashblock.inclusionFee := by
    rw [Json.Fields.defaulted, members]
    unfold encodeMetadata
    cases flashblock.inclusionFee with
    | none => rfl
    | some fee => exact (inclusionFeeCodec_lawful lawful).nullable trivial
  refine ⟨⟨flashblock.metadata.blockNumber, balances, receipts⟩, ?_, rfl, sameBalances,
    sameReceipts⟩
  simp only [decodeMetadata, isFields, Option.bind_some, readMetadata, number, balancesField,
    receiptsField, fee, Option.bind_eq_bind, Option.pure_def]

theorem get_encodePayload (payload : FlashblocksPayloadV1) :
    (encodePayload codecs payload).get "base" = payload.base.map (encodeBase codecs) ∧
      (encodePayload codecs payload).get "diff" = some (encodeDiff codecs payload.diff) ∧
      (encodePayload codecs payload).get "metadata" = some payload.metadata ∧
      Json.unknownMembers envelopeKeys (encodePayload codecs payload) = [] := by
  unfold encodePayload
  cases payload.base with
  | none => exact ⟨rfl, rfl, rfl, rfl⟩
  | some base => exact ⟨rfl, rfl, rfl, rfl⟩

theorem decodePayload_encodePayload (lawful : codecs.Lawful) {payload : FlashblocksPayloadV1}
    (index : U64 payload.index)
    (base : ∀ base ∈ payload.base, U64 base.blockNumber ∧ U64 base.gasLimit ∧
      U64 base.timestamp ∧ ∀ slotNumber ∈ base.slotNumber, U64 slotNumber)
    (diff : U64 payload.diff.gasUsed ∧ U64 payload.diff.blobGasUsed ∧
      U64 payload.diff.excessBlobGas ∧
      ∀ withdrawal ∈ payload.diff.withdrawals, WithdrawalFits withdrawal) :
    decodePayload codecs (encodePayload codecs payload) = some payload := by
  obtain ⟨fields, isFields⟩ : ∃ fields, (encodePayload codecs payload).fields 5 = some fields :=
    ⟨_, rfl⟩
  have members : ∀ name position, fields.value name position =
      (encodePayload codecs payload).get name := by
    cases isFields
    intro name position
    rfl
  have payloadId := required_encoded lawful.payloadId trivial (members "payload_id" 0)
  have indexField := required_encoded u64Codec_lawful index (members "index" 1)
  obtain ⟨baseValue, diffValue, metadataValue, -⟩ := @get_encodePayload codecs payload
  have baseField : fields.optional (baseCodec codecs).decode "base" 2 = some payload.base := by
    cases isFields
    unfold Json.Fields.optional
    rw [members, baseValue]
    cases isBase : payload.base with
    | none => rfl
    | some inner => exact (baseCodec_lawful lawful).nullable (base inner isBase)
  have diffField := required_encoded (diffCodec_lawful lawful) diff
    ((members "diff" 3).trans diffValue)
  have metadataField : fields.required some "metadata" 4 = some payload.metadata := by
    rw [Json.Fields.required, members, metadataValue]
    rfl
  simp only [decodePayload, isFields, Option.bind_some, readPayload, payloadId, indexField,
    baseField, diffField, metadataField, Option.bind_eq_bind, Option.pure_def]

theorem shape_encodePayload (lawful : codecs.Lawful) {payload : FlashblocksPayloadV1}
    (metadata : Json.unknownMembers metadataKeys payload.metadata = []) :
    WireShape.of (encodePayload codecs payload) = {
      unknownKeys := []
      baseWithoutSlotNumber := payload.base.any fun base => base.slotNumber.isNone
      diffWithoutRequests := payload.diff.requests.isNone } := by
  have requests : present ((encodeDiff codecs payload.diff).get "requests") =
      payload.diff.requests.isSome := by
    have isNull := Json.isNull_encodeOption lawful.requests payload.diff.requests
    change (!(Json.encodeOption codecs.requests payload.diff.requests).isNull) = _
    rw [isNull]
    cases payload.diff.requests <;> rfl
  have diffMembers : Json.unknownMembers diffKeys (encodeDiff codecs payload.diff) = [] := rfl
  obtain ⟨baseValue, diffValue, metadataValue, envelope⟩ := @get_encodePayload codecs payload
  unfold WireShape.of
  rw [baseValue, diffValue, metadataValue]
  cases payload.base with
  | none =>
      simp [unknownKeysOf, envelope, metadata, diffMembers, requests, Option.not_isSome]
  | some base =>
      have baseMembers : Json.unknownMembers baseKeys (encodeBase codecs base) = [] := rfl
      have notNull : (encodeBase codecs base).isNull = false := rfl
      have slot : present ((encodeBase codecs base).get "slot_number") =
          base.slotNumber.isSome := by
        have isNull := Json.isNull_encodeOption lawful.quantity base.slotNumber
        change (!(Json.encodeOption codecs.quantity base.slotNumber).isNull) = _
        rw [isNull]
        cases base.slotNumber <;> rfl
      simp [unknownKeysOf, envelope, metadata, diffMembers, baseMembers, requests, slot, notNull,
        Option.not_isSome]

theorem unknownMembers_encodeMetadata (flashblock : WireFlashBlock) :
    Json.unknownMembers metadataKeys (encodeMetadata codecs flashblock) = [] := by
  unfold encodeMetadata
  cases flashblock.inclusionFee <;> rfl

theorem decodeFlashblock_encodeFlashblock (lawful : codecs.Lawful) (serde : Serde)
    {flashblock : WireFlashBlock} (fits : Fits flashblock) :
    ∃ decoded, decodeFlashblock codecs serde (encodeFlashblock codecs flashblock) =
        .ok (decoded, {
          unknownKeys := []
          baseWithoutSlotNumber := flashblock.base.any fun base => base.slotNumber.isNone
          diffWithoutRequests := flashblock.diff.requests.isNone }) ∧
      SameFlashblock decoded flashblock := by
  obtain ⟨metadata, metadataRead, number, balances, receipts⟩ :=
    decodeMetadata_encodeMetadata lawful fits
  have payload := @decodePayload_encodePayload codecs lawful {
    payloadId := flashblock.payloadId
    index := flashblock.index
    base := flashblock.base
    diff := flashblock.diff
    metadata := encodeMetadata codecs flashblock } fits.index fits.base
    ⟨fits.gasUsed, fits.blobGas.1, fits.blobGas.2, fits.withdrawals⟩
  have shape := @shape_encodePayload codecs lawful {
    payloadId := flashblock.payloadId
    index := flashblock.index
    base := flashblock.base
    diff := flashblock.diff
    metadata := encodeMetadata codecs flashblock } (unknownMembers_encodeMetadata flashblock)
  refine ⟨{ flashblock with metadata := metadata }, ?_, ?_⟩
  · simp only [decodeFlashblock, encodeFlashblock, payload, metadataRead, shape]
  · exact ⟨rfl, rfl, rfl, rfl, number, balances, receipts, rfl⟩

/-- Whatever flashblock a producer writes, the node decodes that flashblock and reports no key
it does not read; what it says of the two late fields is whether they are absent. -/
theorem parse_encoded (lawful : codecs.Lawful) {serde : Serde} {flashblock : WireFlashBlock}
    (fits : Fits flashblock) {text : String}
    (reads : serde.fromStr text = .ok (encodeFlashblock codecs flashblock)) :
    ∃ decoded, parseFlashblockJson codecs serde text = .ok (decoded, {
        unknownKeys := []
        baseWithoutSlotNumber := flashblock.base.any fun base => base.slotNumber.isNone
        diffWithoutRequests := flashblock.diff.requests.isNone }) ∧
      SameFlashblock decoded flashblock := by
  rw [parseFlashblockJson, reads]
  exact decodeFlashblock_encodeFlashblock lawful serde fits

end RoundTrip

/-! ## Formats to run it on -/

def u64QuantityCodec : Json.Codec Nat := Hex.quantityCodec (2 ^ 64)

theorem u64QuantityCodec_lawful : u64QuantityCodec.Lawful U64 := Hex.quantityCodec_lawful (2 ^ 64)

def u256Codec : Json.Codec U256 where
  encode := fun value => (Hex.quantityCodec (2 ^ 256)).encode value.toNat
  decode := fun value => ((Hex.quantityCodec (2 ^ 256)).decode value).map (BitVec.ofNat 256)

theorem u256Codec_lawful : u256Codec.Lawful fun _ => True where
  round := by
    intro value _
    have round := (Hex.quantityCodec_lawful (2 ^ 256)).round value.toNat value.isLt
    simp only [u256Codec, round, Option.map_some]
    rw [← ofNat_toNat_self]
  notNull := by
    intro value isNull
    cases isNull

def addressCodec : Json.Codec Address := Hex.wordCodec 20 160

theorem addressCodec_lawful : addressCodec.Lawful fun _ => True := Hex.wordCodec_lawful rfl

def b256Codec : Json.Codec B256 := Hex.wordCodec 32 256

theorem b256Codec_lawful : b256Codec.Lawful fun _ => True := Hex.wordCodec_lawful rfl

def withdrawalCodec : Json.Codec Withdrawal where
  encode := fun withdrawal => .object [
    ("index", u64QuantityCodec.encode withdrawal.index),
    ("validatorIndex", u64QuantityCodec.encode withdrawal.validatorIndex),
    ("address", addressCodec.encode withdrawal.address),
    ("amount", u64QuantityCodec.encode withdrawal.amount)]
  decode := fun value => (value.fields 4).bind fun fields => do
    let index ← fields.required u64QuantityCodec.decode "index" 0
    let validatorIndex ← fields.required u64QuantityCodec.decode "validatorIndex" 1
    let address ← fields.required addressCodec.decode "address" 2
    let amount ← fields.required u64QuantityCodec.decode "amount" 3
    return { index := index, validatorIndex := validatorIndex, address := address, amount := amount }

theorem withdrawalCodec_lawful : withdrawalCodec.Lawful WithdrawalFits where
  round := by
    intro withdrawal fits
    have address := addressCodec_lawful.round withdrawal.address trivial
    have index := u64QuantityCodec_lawful.round withdrawal.index fits.index
    have validator := u64QuantityCodec_lawful.round withdrawal.validatorIndex fits.validatorIndex
    have amount := u64QuantityCodec_lawful.round withdrawal.amount fits.amount
    simp [withdrawalCodec, Json.fields, Json.Fields.required, Json.Fields.value, List.lookup,
      address, index, validator, amount]
  notNull := by
    intro withdrawal isNull
    cases isNull

def logCodec : Json.Codec LogData where
  encode := fun log => .object [
    ("address", addressCodec.encode log.address),
    ("topics", b256Codec.list.encode log.topics),
    ("data", Hex.bytesCodec.encode log.data)]
  decode := fun value => (value.fields 3).bind fun fields => do
    let address ← fields.required addressCodec.decode "address" 0
    let topics ← fields.required b256Codec.list.decode "topics" 1
    let data ← fields.required Hex.bytesCodec.decode "data" 2
    return { address := address, topics := topics, data := data }

theorem logCodec_lawful : logCodec.Lawful fun _ => True where
  round := by
    intro log _
    have address := addressCodec_lawful.round log.address trivial
    have topics := b256Codec_lawful.list.round log.topics fun _ _ => trivial
    have data := Hex.bytesCodec_lawful.round log.data trivial
    simp [logCodec, Json.fields, Json.Fields.required, Json.Fields.value, List.lookup,
      address, topics, data]
  notNull := by
    intro log isNull
    cases isNull

def boolCodec : Json.Codec Bool where
  encode := .bool
  decode
    | .bool value => some value
    | _ => none

def receiptCodec : Json.Codec Receipt where
  encode := fun receipt => .object [
    ("success", boolCodec.encode receipt.success),
    ("cumulativeGasUsed", u64Codec.encode receipt.cumulativeGasUsed),
    ("logs", logCodec.list.encode receipt.logs)]
  decode := fun value => (value.fields 3).bind fun fields => do
    let success ← fields.required boolCodec.decode "success" 0
    let cumulativeGasUsed ← fields.required u64Codec.decode "cumulativeGasUsed" 1
    let logs ← fields.required logCodec.list.decode "logs" 2
    return { success := success, cumulativeGasUsed := cumulativeGasUsed, logs := logs }

theorem receiptCodec_lawful :
    receiptCodec.Lawful fun receipt => U64 receipt.cumulativeGasUsed where
  round := by
    intro receipt fits
    obtain ⟨fields, isFields⟩ : ∃ fields, (receiptCodec.encode receipt).fields 3 = some fields :=
      ⟨_, rfl⟩
    have members : ∀ name position, fields.value name position =
        (receiptCodec.encode receipt).get name := by
      cases isFields
      intro name position
      rfl
    have success : fields.required boolCodec.decode "success" 0 = some receipt.success := by
      rw [Json.Fields.required, members]
      rfl
    have gas := required_encoded u64Codec_lawful fits (members "cumulativeGasUsed" 1)
    have logs := required_encoded logCodec_lawful.list (fun _ _ => trivial) (members "logs" 2)
    unfold receiptCodec at isFields ⊢
    simp only at isFields
    simp only [isFields, Option.bind_some, success, gas, logs, Option.bind_eq_bind, Option.pure_def]
  notNull := by
    intro receipt isNull
    cases isNull

def wordKey (width w : Nat) : KeyCodec (BitVec w) where
  encode := fun word => Hex.encodeBytes (bigEndian width word.toNat)
  decode := fun text => (Hex.wordCodec width w).decode (.string text)

def hexCodecs : Codecs where
  payloadId := Hex.wordCodec 8 64
  b256 := b256Codec
  address := addressCodec
  u256 := u256Codec
  bloom := Hex.wordCodec 256 2048
  bytes := Hex.bytesCodec
  quantity := u64QuantityCodec
  withdrawal := withdrawalCodec
  requests := Hex.bytesCodec.list
  receipt := receiptCodec
  addressKey := wordKey 20 160
  hashKey := wordKey 32 256

theorem wordKey_lawful {width w : Nat} (bits : w = 8 * width) (word : BitVec w) :
    (wordKey width w).decode ((wordKey width w).encode word) = some word :=
  (Hex.wordCodec_lawful bits).round word trivial

theorem requestsCodec_lawful : Hex.bytesCodec.list.Lawful fun _ => True where
  round := fun requests _ => Hex.bytesCodec_lawful.list.round requests fun _ _ => trivial
  notNull := Hex.bytesCodec_lawful.list.notNull

theorem hexCodecs_lawful : hexCodecs.Lawful where
  payloadId := Hex.wordCodec_lawful rfl
  b256 := b256Codec_lawful
  address := addressCodec_lawful
  u256 := u256Codec_lawful
  bloom := Hex.wordCodec_lawful rfl
  bytes := Hex.bytesCodec_lawful
  quantity := u64QuantityCodec_lawful
  withdrawal := withdrawalCodec_lawful
  requests := requestsCodec_lawful
  receipt := receiptCodec_lawful
  addressKey := wordKey_lawful rfl
  hashKey := wordKey_lawful rfl

def sampleFlashblock : WireFlashBlock where
  toFlashBlock := Reference.flashblock 7 1 0 [(1, 0), (2, 1)] [(1, true), (2, false)]
  inclusionFee := some { priorityFee := 11 }

def sampleSerde : Serde where
  fromStr := fun _ => .ok (encodeFlashblock hexCodecs sampleFlashblock)
  payloadError := fun _ => ""
  metadataError := fun _ => ""

theorem sampleFlashblock_fits : Fits sampleFlashblock where
  index := by decide
  base := by
    intro base isBase
    cases isBase
    exact ⟨by decide, by decide, by decide, by simp [Reference.payloadBase]⟩
  gasUsed := by decide
  blobGas := ⟨by decide, by decide⟩
  withdrawals := by simp [sampleFlashblock, Reference.flashblock]
  blockNumber := by decide
  receipts := by
    have noGas : ∀ entry ∈ sampleFlashblock.metadata.receipts.entries,
        entry.2.cumulativeGasUsed = 0 := by decide
    intro entry member
    rw [noGas entry member]
    decide

theorem sampleSerde_parse (text : String) :
    ∃ decoded, parseFlashblockJson hexCodecs sampleSerde text = .ok decoded := by
  obtain ⟨decoded, isOk, -⟩ :=
    decodeFlashblock_encodeFlashblock hexCodecs_lawful sampleSerde sampleFlashblock_fits
  exact ⟨_, isOk⟩

theorem parse_encoded_sample :
    ∃ decoded, parseFlashblockJson hexCodecs sampleSerde "" = .ok (decoded, {
          unknownKeys := []
          baseWithoutSlotNumber := true
          diffWithoutRequests := true }) ∧
      SameFlashblock decoded sampleFlashblock :=
  @parse_encoded hexCodecs hexCodecs_lawful sampleSerde sampleFlashblock sampleFlashblock_fits "" rfl

/-! ## Keys the node does not read -/

def strip (payload : Json) : Json :=
  Json.mapMember "metadata" (Json.prune metadataKeys)
    (Json.mapMember "diff" (Json.prune diffKeys)
      (Json.mapMember "base" (Json.prune baseKeys) (Json.prune envelopeKeys payload)))

def stripMember (name : String) : Json → Json :=
  if name = "base" then Json.prune baseKeys
  else if name = "diff" then Json.prune diffKeys
  else if name = "metadata" then Json.prune metadataKeys
  else id

section Strip

theorem strip_object (members : List (String × Json)) :
    ∃ stripped, strip (.object members) = .object stripped ∧
      ∀ name ∈ envelopeKeys,
        stripped.lookup name = (members.lookup name).map (stripMember name) := by
  refine ⟨_, rfl, ?_⟩
  intro name isKnown
  rw [Json.lookup_mapMember, Json.lookup_mapMember, Json.lookup_mapMember,
    Json.lookup_filter isKnown]
  unfold stripMember
  by_cases isMetadata : name = "metadata"
  · subst isMetadata
    simp
  · by_cases isDiff : name = "diff"
    · subst isDiff
      simp
    · by_cases isBase : name = "base"
      · subst isBase
        simp
      · simp [isMetadata, isDiff, isBase]

theorem strip_other {payload : Json} (other : payload.asObject = none) : strip payload = payload := by
  cases payload with
  | object members => cases other
  | null | bool | unsigned | signed | float | string | array => rfl

variable {codecs : Codecs}

theorem readBase_blind (left right : Json.Fields) (agree : Json.Agree baseKeys left right) :
    readBase codecs left = readBase codecs right := by
  unfold readBase
  simp (disch := decide) only [agree.required, agree.defaulted]

theorem readDiff_blind (left right : Json.Fields) (agree : Json.Agree diffKeys left right) :
    readDiff codecs left = readDiff codecs right := by
  unfold readDiff
  simp (disch := decide) only [agree.required, agree.optional]

theorem readMetadata_blind (left right : Json.Fields)
    (agree : Json.Agree metadataKeys left right) :
    readMetadata codecs left = readMetadata codecs right := by
  unfold readMetadata
  simp (disch := decide) only [agree.required, agree.defaulted]

theorem nullable_prune {α : Type} (decode : Json → Option α) (known : List String)
    (blind : ∀ value, decode (Json.prune known value) = decode value) (value : Json) :
    Json.nullable decode (Json.prune known value) = Json.nullable decode value := by
  cases value with
  | object members =>
      have same := blind (.object members)
      simp only [Json.prune] at same ⊢
      simp only [Json.nullable, same]
  | null | bool | unsigned | signed | float | string | array => rfl

theorem decodePayload_strip (members : List (String × Json)) :
    decodePayload codecs (strip (.object members)) =
      (decodePayload codecs (.object members)).map fun decoded =>
        { decoded with metadata := Json.prune metadataKeys decoded.metadata } := by
  obtain ⟨stripped, isStripped, lookups⟩ := strip_object members
  rw [isStripped]
  simp only [decodePayload, Json.fields, Option.bind_some]
  have payloadId : (Json.Fields.byName stripped).required codecs.payloadId.decode "payload_id" 0 =
      (Json.Fields.byName members).required codecs.payloadId.decode "payload_id" 0 := by
    simp only [Json.Fields.required, Json.Fields.value, lookups "payload_id" (by decide)]
    cases members.lookup "payload_id" <;> rfl
  have index : (Json.Fields.byName stripped).required u64Codec.decode "index" 1 =
      (Json.Fields.byName members).required u64Codec.decode "index" 1 := by
    simp only [Json.Fields.required, Json.Fields.value, lookups "index" (by decide)]
    cases members.lookup "index" <;> rfl
  have base : (Json.Fields.byName stripped).optional (baseCodec codecs).decode "base" 2 =
      (Json.Fields.byName members).optional (baseCodec codecs).decode "base" 2 := by
    unfold Json.Fields.optional
    simp only [Json.Fields.value, lookups "base" (by decide)]
    cases members.lookup "base" with
    | none => rfl
    | some value =>
        exact nullable_prune (baseCodec codecs).decode baseKeys
          (Json.bind_fields_prune 10 (readBase codecs) readBase_blind) value
  have diff : (Json.Fields.byName stripped).required (diffCodec codecs).decode "diff" 3 =
      (Json.Fields.byName members).required (diffCodec codecs).decode "diff" 3 := by
    simp only [Json.Fields.required, Json.Fields.value, lookups "diff" (by decide)]
    cases members.lookup "diff" with
    | none => rfl
    | some value => exact Json.bind_fields_prune 10 (readDiff codecs) readDiff_blind value
  have metadata : (Json.Fields.byName stripped).required some "metadata" 4 =
      ((Json.Fields.byName members).required some "metadata" 4).map
        (Json.prune metadataKeys) := by
    simp only [Json.Fields.required, Json.Fields.value, lookups "metadata" (by decide)]
    cases members.lookup "metadata" <;> rfl
  unfold readPayload
  rw [payloadId, index, base, diff, metadata]
  cases (Json.Fields.byName members).required codecs.payloadId.decode "payload_id" 0 with
  | none => rfl
  | some payloadId =>
      cases (Json.Fields.byName members).required u64Codec.decode "index" 1 with
      | none => rfl
      | some index =>
          cases (Json.Fields.byName members).optional (baseCodec codecs).decode "base" 2 with
          | none => rfl
          | some base =>
              cases (Json.Fields.byName members).required (diffCodec codecs).decode "diff" 3 with
              | none => rfl
              | some diff =>
                  cases (Json.Fields.byName members).required some "metadata" 4 <;> rfl

theorem get_strip (payload : Json) {name : String} (isKnown : name ∈ envelopeKeys) :
    (strip payload).get name = (payload.get name).map (stripMember name) := by
  cases payload with
  | object members =>
      obtain ⟨stripped, isStripped, lookups⟩ := strip_object members
      rw [isStripped]
      exact lookups name isKnown
  | null | bool | unsigned | signed | float | string | array => rfl

theorem get_prune {known : List String} {name : String} (isKnown : name ∈ known) (value : Json) :
    (Json.prune known value).get name = value.get name := by
  cases value with
  | object members => exact Json.lookup_filter isKnown members
  | null | bool | unsigned | signed | float | string | array => rfl

theorem isNull_prune (known : List String) (value : Json) :
    (Json.prune known value).isNull = value.isNull := by
  cases value <;> rfl

theorem unknownMembers_strip (payload : Json) :
    Json.unknownMembers envelopeKeys (strip payload) = [] := by
  simp [strip]

theorem unknownKeysOf_stripped (object : String) (value : Option Json) (known : List String) :
    unknownKeysOf object (value.map (Json.prune known)) known = [] := by
  cases value with
  | none => rfl
  | some value => simp [unknownKeysOf]

theorem shape_strip (payload : Json) :
    WireShape.of (strip payload) = { WireShape.of payload with unknownKeys := [] } := by
  have base : (strip payload).get "base" = (payload.get "base").map (Json.prune baseKeys) :=
    get_strip payload (by decide)
  have diff : (strip payload).get "diff" = (payload.get "diff").map (Json.prune diffKeys) :=
    get_strip payload (by decide)
  have metadata : (strip payload).get "metadata" =
      (payload.get "metadata").map (Json.prune metadataKeys) := get_strip payload (by decide)
  unfold WireShape.of
  rw [base, diff, metadata, unknownKeysOf_stripped, unknownKeysOf_stripped,
    unknownKeysOf_stripped]
  congr 1
  · simp [unknownKeysOf, unknownMembers_strip]
  · cases payload.get "base" with
    | none => rfl
    | some base =>
        have slot := @get_prune baseKeys "slot_number" (by decide) base
        cases isNull : base.isNull <;>
          simp [Option.filter, isNull_prune, isNull, slot]
  · cases payload.get "diff" with
    | none => rfl
    | some diff =>
        simp only [Option.map_some, Option.bind_some, @get_prune diffKeys "requests" (by decide)]

/-- What the node decodes does not depend on the keys it does not read, in the envelope or in
any of its three objects. -/
theorem decode_strip (serde : Serde) (payload : Json) :
    (decodeFlashblock codecs serde (strip payload)).toOption =
      (decodeFlashblock codecs serde payload).toOption.map fun decoded =>
        (decoded.1, { decoded.2 with unknownKeys := [] }) := by
  unfold decodeFlashblock
  simp only [shape_strip]
  cases isObject : payload.asObject with
  | none =>
      rw [strip_other isObject]
      cases decodePayload codecs payload with
      | none => rfl
      | some decoded =>
          cases metadata : decodeMetadata codecs decoded.metadata <;> simp only [metadata] <;> rfl
  | some members =>
      have same : payload = .object members := by
        cases payload <;> cases isObject
        rfl
      subst same
      rw [decodePayload_strip]
      cases decodePayload codecs (.object members) with
      | none => rfl
      | some decoded =>
          have metadata : decodeMetadata codecs (Json.prune metadataKeys decoded.metadata) =
              decodeMetadata codecs decoded.metadata :=
            Json.bind_fields_prune 4 (readMetadata codecs) readMetadata_blind decoded.metadata
          simp only [Option.map_some, metadata]
          cases decodeMetadata codecs decoded.metadata <;> simp only <;> rfl

end Strip

/-! ## The report -/

/-- The object that a level of the report is about, and the keys the node reads of it. -/
def levelOf (payload : Json) : String → Option Json × List String
  | "envelope" => (some payload, envelopeKeys)
  | "base" => (payload.get "base", baseKeys)
  | "diff" => (payload.get "diff", diffKeys)
  | "metadata" => (payload.get "metadata", metadataKeys)
  | _ => (none, [])

def levels : List String := ["envelope", "base", "diff", "metadata"]

theorem path_injective {level other name key : String} (isLevel : level ∈ levels)
    (isOther : other ∈ levels) (same : level ++ "." ++ name = other ++ "." ++ key) :
    level = other ∧ name = key := by
  have chars := congrArg String.toList same
  simp only [String.toList_append] at chars
  simp only [levels, List.mem_cons, List.not_mem_nil, or_false] at isLevel isOther
  rcases isLevel with rfl | rfl | rfl | rfl <;> rcases isOther with rfl | rfl | rfl | rfl <;>
    simp at chars ⊢ <;> exact String.toList_inj.mp chars

theorem unknownKeys_levels (payload : Json) :
    (WireShape.of payload).unknownKeys = levels.flatMap fun level =>
      unknownKeysOf level (levelOf payload level).1 (levelOf payload level).2 := by
  simp [WireShape.of, levels, levelOf]

/-- The report names exactly the keys that are not read, each under its object. -/
theorem mem_unknownKeys (payload : Json) {level : String} (isLevel : level ∈ levels)
    (name : String) :
    level ++ "." ++ name ∈ (WireShape.of payload).unknownKeys ↔
      ∃ members, (levelOf payload level).1 = some (.object members) ∧
        name ∈ members.map Prod.fst ∧ name ∉ (levelOf payload level).2 := by
  rw [unknownKeys_levels, List.mem_flatMap]
  constructor
  · intro reported
    obtain ⟨other, isOther, member⟩ := reported
    unfold unknownKeysOf at member
    split at member
    · rename_i value found
      obtain ⟨key, unknown, same⟩ := List.mem_map.mp member
      obtain ⟨sameLevel, sameName⟩ := path_injective isLevel isOther same.symm
      subst sameLevel sameName
      obtain ⟨members, isObject, isMember, notKnown⟩ := Json.mem_unknownMembers.mp unknown
      exact ⟨members, by rw [found, isObject], isMember, notKnown⟩
    · cases member
  · intro unknown
    obtain ⟨members, found, isMember, notKnown⟩ := unknown
    refine ⟨level, isLevel, ?_⟩
    unfold unknownKeysOf
    rw [found]
    exact List.mem_map.mpr
      ⟨name, Json.mem_unknownMembers.mpr ⟨members, rfl, isMember, notKnown⟩, rfl⟩

/-- A producer may add any key ahead of the node: none changes what is decoded, whether it
decodes, or what is said of the two late fields, and the report lists exactly these keys, level
by level. -/
theorem unread_keys (codecs : Codecs) (serde : Serde) (payload : Json) :
    (decodeFlashblock codecs serde (strip payload)).toOption =
        ((decodeFlashblock codecs serde payload).toOption.map fun decoded =>
          (decoded.1, { decoded.2 with unknownKeys := [] })) ∧
      (∀ level ∈ levels, ∀ name,
        level ++ "." ++ name ∈ (WireShape.of payload).unknownKeys ↔
          ∃ members, (levelOf payload level).1 = some (.object members) ∧
            name ∈ members.map Prod.fst ∧ name ∉ (levelOf payload level).2) ∧
      (WireShape.of payload).unknownKeys = levels.flatMap fun level =>
        unknownKeysOf level (levelOf payload level).1 (levelOf payload level).2 :=
  ⟨decode_strip serde payload, fun _ isLevel name => mem_unknownKeys payload isLevel name,
    unknownKeys_levels payload⟩

end EthgasReth.Wire

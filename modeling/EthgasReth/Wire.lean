import EthgasReth.Lib.Json
import EthgasReth.Primitives

/-!
# The wire format of a flashblock

The serde formats of `payload.rs` and the decoder of `subscription.rs`.  The formats of
single values (hex strings, quantities, withdrawals, receipts) belong to alloy and reth and
are parameters; what a struct reads of which key, in which place, is this repository's.
-/

set_option autoImplicit false

namespace EthgasReth.Wire

open EthgasReth.Primitives
open EthgasReth.Lib

structure InclusionFee where
  priorityFee : U256
  deriving DecidableEq

/-- A flashblock with the one field of its metadata that the processor does not read. -/
structure WireFlashBlock extends FlashBlock where
  inclusionFee : Option InclusionFee

/-- The helper that decodes the envelope and leaves the metadata as it is. -/
structure FlashblocksPayloadV1 where
  payloadId : PayloadId
  index : Nat
  base : Option ExecutionPayloadBaseV1
  diff : ExecutionPayloadFlashblockDeltaV1
  metadata : Json

/-! ## Formats of single values -/

structure KeyCodec (α : Type) where
  encode : α → String
  decode : String → Option α

structure Codecs where
  payloadId : Json.Codec PayloadId
  b256 : Json.Codec B256
  address : Json.Codec Address
  u256 : Json.Codec U256
  bloom : Json.Codec Bloom
  bytes : Json.Codec Bytes
  quantity : Json.Codec Nat
  withdrawal : Json.Codec Withdrawal
  requests : Json.Codec (List Bytes)
  receipt : Json.Codec Receipt
  addressKey : KeyCodec Address
  hashKey : KeyCodec B256

def U64 (value : Nat) : Prop := value < 2 ^ 64

instance : DecidablePred U64 := fun value => Nat.decLt value (2 ^ 64)

structure WithdrawalFits (withdrawal : Withdrawal) : Prop where
  index : U64 withdrawal.index
  validatorIndex : U64 withdrawal.validatorIndex
  amount : U64 withdrawal.amount

/-- The formats write every value of their type so that it is read back. -/
structure Codecs.Lawful (codecs : Codecs) : Prop where
  payloadId : codecs.payloadId.Lawful fun _ => True
  b256 : codecs.b256.Lawful fun _ => True
  address : codecs.address.Lawful fun _ => True
  u256 : codecs.u256.Lawful fun _ => True
  bloom : codecs.bloom.Lawful fun _ => True
  bytes : codecs.bytes.Lawful fun _ => True
  quantity : codecs.quantity.Lawful U64
  withdrawal : codecs.withdrawal.Lawful WithdrawalFits
  requests : codecs.requests.Lawful fun _ => True
  receipt : codecs.receipt.Lawful fun receipt => U64 receipt.cumulativeGasUsed
  addressKey : ∀ address, codecs.addressKey.decode (codecs.addressKey.encode address) = some address
  hashKey : ∀ hash, codecs.hashKey.decode (codecs.hashKey.encode hash) = some hash

def u64Codec : Json.Codec Nat where
  encode := .unsigned
  decode
    | .unsigned value => if value < 2 ^ 64 then some value else none
    | _ => none

theorem u64Codec_lawful : u64Codec.Lawful U64 where
  round := by
    intro value fits
    exact if_pos fits
  notNull := by
    intro value isNull
    cases isNull

section HashMap

variable {Key Value : Type} [DecidableEq Key] (keys : KeyCodec Key) (values : Json.Codec Value)

def encodeMap (map : HashMap Key Value) : Json :=
  .object (map.entries.map fun entry => (keys.encode entry.1, values.encode entry.2))

def decodeMap : Json → Option (HashMap Key Value)
  | .object members => members.foldlM (fun map member => do
      let key ← keys.decode member.1
      let value ← values.decode member.2
      return map.insert key value) ∅
  | _ => none

variable {keys values} {valid : Value → Prop}

theorem decodeMap_encodeMap (sameKey : ∀ key, keys.decode (keys.encode key) = some key)
    (lawful : values.Lawful valid) {map : HashMap Key Value}
    (areValid : ∀ entry ∈ map.entries, valid entry.2) :
    ∃ decoded, decodeMap keys values (encodeMap keys values map) = some decoded ∧
      ∀ key, decoded.lookup key = map.lookup key := by
  have folds : ∀ (entries : List (Sigma fun _ : Key => Value)) (start : HashMap Key Value),
      (∀ entry ∈ entries, valid entry.2) →
      (entries.map fun entry => (keys.encode entry.1, values.encode entry.2)).foldlM
        (fun map member => do
          let key ← keys.decode member.1
          let value ← values.decode member.2
          return map.insert key value) start =
        some (entries.foldl (fun map entry => map.insert entry.1 entry.2) start) := by
    intro entries
    induction entries with
    | nil => exact fun _ _ => rfl
    | cons entry rest ih =>
        intro start areValid
        have head := lawful.round entry.2 (areValid entry List.mem_cons_self)
        simp only [List.map_cons, List.foldlM_cons, List.foldl_cons, sameKey, head,
          Option.bind_eq_bind, Option.bind_some, Option.pure_def]
        exact ih _ fun other member => areValid other (List.mem_cons_of_mem _ member)
  refine ⟨HashMap.extend ∅ map, folds map.entries ∅ areValid, ?_⟩
  intro key
  rw [HashMap.lookup_extend]
  cases map.lookup key <;> simp

end HashMap

/-! ## The structs -/

def envelopeKeys : List String := ["payload_id", "index", "base", "diff", "metadata"]

def baseKeys : List String :=
  ["parent_beacon_block_root", "parent_hash", "fee_recipient", "prev_randao", "block_number",
    "gas_limit", "timestamp", "extra_data", "base_fee_per_gas", "slot_number"]

def diffKeys : List String :=
  ["state_root", "receipts_root", "logs_bloom", "gas_used", "block_hash", "transactions",
    "withdrawals", "blob_gas_used", "excess_blob_gas", "requests"]

def metadataKeys : List String :=
  ["block_number", "new_account_balances", "receipts", "inclusion_fee"]

section Structs

variable (codecs : Codecs)

def encodeInclusionFee (fee : InclusionFee) : Json :=
  .object [("priority_fee", codecs.u256.encode fee.priorityFee)]

def readInclusionFee (fields : Json.Fields) : Option InclusionFee := do
  let priorityFee ← fields.required codecs.u256.decode "priority_fee" 0
  return { priorityFee := priorityFee }

def inclusionFeeCodec : Json.Codec InclusionFee where
  encode := encodeInclusionFee codecs
  decode := fun value => (value.fields 1).bind (readInclusionFee codecs)

def encodeBase (base : ExecutionPayloadBaseV1) : Json :=
  .object [("parent_beacon_block_root", codecs.b256.encode base.parentBeaconBlockRoot),
    ("parent_hash", codecs.b256.encode base.parentHash),
    ("fee_recipient", codecs.address.encode base.feeRecipient),
    ("prev_randao", codecs.b256.encode base.prevRandao),
    ("block_number", codecs.quantity.encode base.blockNumber),
    ("gas_limit", codecs.quantity.encode base.gasLimit),
    ("timestamp", codecs.quantity.encode base.timestamp),
    ("extra_data", codecs.bytes.encode base.extraData),
    ("base_fee_per_gas", codecs.u256.encode base.baseFeePerGas),
    ("slot_number", Json.encodeOption codecs.quantity base.slotNumber)]

def readBase (fields : Json.Fields) : Option ExecutionPayloadBaseV1 := do
  let parentBeaconBlockRoot ← fields.required codecs.b256.decode "parent_beacon_block_root" 0
  let parentHash ← fields.required codecs.b256.decode "parent_hash" 1
  let feeRecipient ← fields.required codecs.address.decode "fee_recipient" 2
  let prevRandao ← fields.required codecs.b256.decode "prev_randao" 3
  let blockNumber ← fields.required codecs.quantity.decode "block_number" 4
  let gasLimit ← fields.required codecs.quantity.decode "gas_limit" 5
  let timestamp ← fields.required codecs.quantity.decode "timestamp" 6
  let extraData ← fields.required codecs.bytes.decode "extra_data" 7
  let baseFeePerGas ← fields.required codecs.u256.decode "base_fee_per_gas" 8
  let slotNumber ← fields.defaulted codecs.quantity.decode "slot_number" 9
  return {
    parentBeaconBlockRoot := parentBeaconBlockRoot
    parentHash := parentHash
    feeRecipient := feeRecipient
    prevRandao := prevRandao
    blockNumber := blockNumber
    gasLimit := gasLimit
    timestamp := timestamp
    extraData := extraData
    baseFeePerGas := baseFeePerGas
    slotNumber := slotNumber }

def baseCodec : Json.Codec ExecutionPayloadBaseV1 where
  encode := encodeBase codecs
  decode := fun value => (value.fields 10).bind (readBase codecs)

def encodeDiff (diff : ExecutionPayloadFlashblockDeltaV1) : Json :=
  .object [("state_root", codecs.b256.encode diff.stateRoot),
    ("receipts_root", codecs.b256.encode diff.receiptsRoot),
    ("logs_bloom", codecs.bloom.encode diff.logsBloom),
    ("gas_used", codecs.quantity.encode diff.gasUsed),
    ("block_hash", codecs.b256.encode diff.blockHash),
    ("transactions", codecs.bytes.list.encode diff.transactions),
    ("withdrawals", codecs.withdrawal.list.encode diff.withdrawals),
    ("blob_gas_used", codecs.quantity.encode diff.blobGasUsed),
    ("excess_blob_gas", codecs.quantity.encode diff.excessBlobGas),
    ("requests", Json.encodeOption codecs.requests diff.requests)]

def readDiff (fields : Json.Fields) : Option ExecutionPayloadFlashblockDeltaV1 := do
  let stateRoot ← fields.required codecs.b256.decode "state_root" 0
  let receiptsRoot ← fields.required codecs.b256.decode "receipts_root" 1
  let logsBloom ← fields.required codecs.bloom.decode "logs_bloom" 2
  let gasUsed ← fields.required codecs.quantity.decode "gas_used" 3
  let blockHash ← fields.required codecs.b256.decode "block_hash" 4
  let transactions ← fields.required codecs.bytes.list.decode "transactions" 5
  let withdrawals ← fields.required codecs.withdrawal.list.decode "withdrawals" 6
  let blobGasUsed ← fields.required codecs.quantity.decode "blob_gas_used" 7
  let excessBlobGas ← fields.required codecs.quantity.decode "excess_blob_gas" 8
  let requests ← fields.optional codecs.requests.decode "requests" 9
  return {
    stateRoot := stateRoot
    receiptsRoot := receiptsRoot
    logsBloom := logsBloom
    gasUsed := gasUsed
    blockHash := blockHash
    transactions := transactions
    withdrawals := withdrawals
    blobGasUsed := blobGasUsed
    excessBlobGas := excessBlobGas
    requests := requests }

def diffCodec : Json.Codec ExecutionPayloadFlashblockDeltaV1 where
  encode := encodeDiff codecs
  decode := fun value => (value.fields 10).bind (readDiff codecs)

def encodeMetadata (flashblock : WireFlashBlock) : Json :=
  .object ([("block_number", u64Codec.encode flashblock.metadata.blockNumber),
    ("new_account_balances",
      encodeMap codecs.addressKey codecs.u256 flashblock.metadata.newAccountBalances),
    ("receipts", encodeMap codecs.hashKey codecs.receipt flashblock.metadata.receipts)] ++
    (flashblock.inclusionFee.map fun fee => ("inclusion_fee", encodeInclusionFee codecs fee)).toList)

def readMetadata (fields : Json.Fields) : Option (Metadata × Option InclusionFee) := do
  let blockNumber ← fields.required u64Codec.decode "block_number" 0
  let newAccountBalances ← fields.required (decodeMap codecs.addressKey codecs.u256)
    "new_account_balances" 1
  let receipts ← fields.required (decodeMap codecs.hashKey codecs.receipt) "receipts" 2
  let inclusionFee ← fields.defaulted (inclusionFeeCodec codecs).decode "inclusion_fee" 3
  return ({
    blockNumber := blockNumber
    newAccountBalances := newAccountBalances
    receipts := receipts }, inclusionFee)

def decodeMetadata (value : Json) : Option (Metadata × Option InclusionFee) :=
  (value.fields 4).bind (readMetadata codecs)

def encodePayload (payload : FlashblocksPayloadV1) : Json :=
  .object ([("payload_id", codecs.payloadId.encode payload.payloadId),
    ("index", u64Codec.encode payload.index)] ++
    (payload.base.map fun base => ("base", encodeBase codecs base)).toList ++
    [("diff", encodeDiff codecs payload.diff), ("metadata", payload.metadata)])

def readPayload (fields : Json.Fields) : Option FlashblocksPayloadV1 := do
  let payloadId ← fields.required codecs.payloadId.decode "payload_id" 0
  let index ← fields.required u64Codec.decode "index" 1
  let base ← fields.optional (baseCodec codecs).decode "base" 2
  let diff ← fields.required (diffCodec codecs).decode "diff" 3
  let metadata ← fields.required some "metadata" 4
  return {
    payloadId := payloadId
    index := index
    base := base
    diff := diff
    metadata := metadata }

def decodePayload (value : Json) : Option FlashblocksPayloadV1 :=
  (value.fields 5).bind (readPayload codecs)

def encodeFlashblock (flashblock : WireFlashBlock) : Json :=
  encodePayload codecs {
    payloadId := flashblock.payloadId
    index := flashblock.index
    base := flashblock.base
    diff := flashblock.diff
    metadata := encodeMetadata codecs flashblock }

end Structs

/-! ## The decoder -/

/-- What a flashblock carries beyond, or short of, what the node reads. -/
structure WireShape where
  unknownKeys : List String
  baseWithoutSlotNumber : Bool
  diffWithoutRequests : Bool
  deriving DecidableEq

def present (value : Option Json) : Bool := value.any fun value => !value.isNull

def unknownKeysOf (object : String) (value : Option Json) (known : List String) : List String :=
  match value with
  | some value => (Json.unknownMembers known value).map fun key => object ++ "." ++ key
  | none => []

def WireShape.of (payload : Json) : WireShape where
  unknownKeys := unknownKeysOf "envelope" (some payload) envelopeKeys ++
    unknownKeysOf "base" (payload.get "base") baseKeys ++
    unknownKeysOf "diff" (payload.get "diff") diffKeys ++
    unknownKeysOf "metadata" (payload.get "metadata") metadataKeys
  baseWithoutSlotNumber := ((payload.get "base").filter fun base => !base.isNull).any fun base =>
    !present (base.get "slot_number")
  diffWithoutRequests := !present ((payload.get "diff").bind fun diff => diff.get "requests")

inductive DecodeError where
  | flashblockJson (detail : String)
  | flashblockMetadata (detail : String)
  | tooLarge (len : Nat)
  | decompression (detail : String)
  | utf8
  deriving DecidableEq

/-- serde's reader of a text and its words for a value that does not decode. -/
structure Serde where
  fromStr : String → Except String Json
  payloadError : Json → String
  metadataError : Json → String

section Decoder

variable (codecs : Codecs) (serde : Serde)

def decodeFlashblock (value : Json) : Except DecodeError (WireFlashBlock × WireShape) :=
  let shape := WireShape.of value
  match decodePayload codecs value with
  | none => .error (.flashblockJson (serde.payloadError value))
  | some payload =>
      match decodeMetadata codecs payload.metadata with
      | none => .error (.flashblockMetadata (serde.metadataError payload.metadata))
      | some (metadata, inclusionFee) => .ok ({
          payloadId := payload.payloadId
          index := payload.index
          base := payload.base
          diff := payload.diff
          metadata := metadata
          inclusionFee := inclusionFee }, shape)

def parseFlashblockJson (text : String) : Except DecodeError (WireFlashBlock × WireShape) :=
  match serde.fromStr text with
  | .error detail => .error (.flashblockJson detail)
  | .ok value => decodeFlashblock codecs serde value

end Decoder

end EthgasReth.Wire

import Mathlib

/-!
# Wire and chain types

The payload types of `payload.rs` and the alloy and reth types the flashblocks
node builds on, with the fields that the modelled functions read or write.
Block numbers, indices, gas and timestamps are natural numbers: no modelled run
reaches the end of `u64`.  A hash map is an association list with distinct
keys, in iteration order.
-/

set_option autoImplicit false

namespace EthgasReth.Primitives

abbrev B256 := BitVec 256
abbrev U256 := BitVec 256
abbrev Address := BitVec 160
abbrev PayloadId := BitVec 64
abbrev Bloom := BitVec 2048
abbrev Bytes := List UInt8

abbrev HashMap (Key Value : Type) := AList fun _ : Key => Value

section HashMap

variable {Key Value : Type} [DecidableEq Key]

/-- `extend` inserts the other map's entries one after another, in its
iteration order. -/
def HashMap.extend (map other : HashMap Key Value) : HashMap Key Value :=
  other.entries.foldl (fun map entry => map.insert entry.1 entry.2) map

def HashMap.retain (keep : Key → Bool) (map : HashMap Key Value) : HashMap Key Value :=
  ⟨map.entries.filter fun entry => keep entry.1,
    List.Nodup.sublist (List.Sublist.map _ List.filter_sublist) map.nodupKeys⟩

def HashMap.values (map : HashMap Key Value) : List Value :=
  map.entries.map fun entry => entry.2

theorem HashMap.lookup_retain (keep : Key → Bool) (map : HashMap Key Value) (key : Key) :
    (map.retain keep).lookup key = if keep key then map.lookup key else none := by
  apply Option.ext
  intro value
  have member : (map.retain keep).lookup key = some value ↔
      (⟨key, value⟩ : Sigma fun _ : Key => Value) ∈ map.entries ∧ keep key = true := by
    rw [← Option.mem_def, AList.mem_lookup_iff]
    simp [HashMap.retain]
  rw [member, ← AList.mem_lookup_iff, Option.mem_def]
  by_cases kept : keep key = true <;> simp [kept]

/-- The extending map's entries win. -/
theorem HashMap.lookup_extend (map other : HashMap Key Value) (key : Key) :
    (map.extend other).lookup key = (other.lookup key).or (map.lookup key) := by
  obtain ⟨entries, nodup⟩ := other
  simp only [HashMap.extend, AList.lookup]
  induction entries generalizing map with
  | nil => rfl
  | cons entry rest ih =>
      obtain ⟨name, value⟩ := entry
      rw [List.nodupKeys_cons] at nodup
      have later := ih (map.insert name value) nodup.2
      rw [List.foldl_cons, later]
      by_cases same : key = name
      · subst same
        have absent : List.dlookup key rest = none := List.dlookup_eq_none.mpr nodup.1
        rw [absent, List.dlookup_cons_eq]
        exact AList.lookup_insert map
      · rw [List.dlookup_cons_ne _ _ same]
        congr 1
        exact AList.lookup_insert_ne same

theorem HashMap.mem_values (map : HashMap Key Value) (value : Value) :
    value ∈ map.values ↔ ∃ key, map.lookup key = some value := by
  simp only [HashMap.values, List.mem_map]
  constructor
  · rintro ⟨⟨key, stored⟩, member, rfl⟩
    exact ⟨key, AList.mem_lookup_iff.mpr member⟩
  · rintro ⟨key, found⟩
    exact ⟨⟨key, value⟩, AList.mem_lookup_iff.mp found, rfl⟩

end HashMap

/-! ## Transactions, receipts and headers -/

structure TransactionSigned where
  txHash : B256
  chainId : Option Nat
  nonce : Nat
  toAddress : Option Address
  value : U256
  input : Bytes
  maxFeePerGas : Nat
  maxPriorityFeePerGas : Option Nat
  deriving DecidableEq

/-- The tip over `baseFee`, absent when the fee cap does not reach it. -/
def TransactionSigned.effectiveTipPerGas (tx : TransactionSigned) (baseFee : Nat) : Option Nat :=
  if tx.maxFeePerGas < baseFee then none
  else match tx.maxPriorityFeePerGas with
    | none => some (tx.maxFeePerGas - baseFee)
    | some priorityFee => some (min (tx.maxFeePerGas - baseFee) priorityFee)

structure LogData where
  address : Address
  topics : List B256
  data : Bytes
  deriving DecidableEq

structure Receipt where
  success : Bool
  cumulativeGasUsed : Nat
  logs : List LogData
  deriving DecidableEq

structure Withdrawal where
  index : Nat
  validatorIndex : Nat
  address : Address
  amount : Nat
  deriving DecidableEq

structure Header where
  parentHash : B256
  beneficiary : Address
  stateRoot : B256
  transactionsRoot : B256
  receiptsRoot : B256
  logsBloom : Bloom
  number : Nat
  gasLimit : Nat
  gasUsed : Nat
  timestamp : Nat
  extraData : Bytes
  mixHash : B256
  baseFeePerGas : Option Nat
  withdrawalsRoot : Option B256
  blobGasUsed : Option Nat
  excessBlobGas : Option Nat
  parentBeaconBlockRoot : Option B256
  requestsHash : Option B256
  slotNumber : Option Nat
  deriving DecidableEq

structure SealedHeader where
  header : Header
  hash : B256
  deriving DecidableEq

structure Block where
  header : Header
  transactions : List TransactionSigned
  withdrawals : Option (List Withdrawal)

def Block.number (block : Block) : Nat := block.header.number

def Block.txHashes (block : Block) : List B256 := block.transactions.map (·.txHash)

/-! ## Flashblock payloads -/

structure ExecutionPayloadBaseV1 where
  parentBeaconBlockRoot : B256
  parentHash : B256
  feeRecipient : Address
  prevRandao : B256
  blockNumber : Nat
  gasLimit : Nat
  timestamp : Nat
  extraData : Bytes
  baseFeePerGas : U256
  slotNumber : Option Nat

structure ExecutionPayloadFlashblockDeltaV1 where
  stateRoot : B256
  receiptsRoot : B256
  logsBloom : Bloom
  gasUsed : Nat
  blockHash : B256
  transactions : List Bytes
  withdrawals : List Withdrawal
  blobGasUsed : Nat
  excessBlobGas : Nat
  requests : Option (List Bytes)

structure Metadata where
  blockNumber : Nat
  newAccountBalances : HashMap Address U256
  receipts : HashMap B256 Receipt

structure FlashBlock where
  payloadId : PayloadId
  index : Nat
  base : Option ExecutionPayloadBaseV1
  diff : ExecutionPayloadFlashblockDeltaV1
  metadata : Metadata

namespace FlashBlock

def blockNumber (flashblock : FlashBlock) : Nat := flashblock.metadata.blockNumber

/-- The base payload, when present, names the block number of the metadata. -/
def NumbersAgree (flashblock : FlashBlock) : Prop :=
  ∀ base, flashblock.base = some base → base.blockNumber = flashblock.metadata.blockNumber

end FlashBlock

/-! ## Errors of the state processor -/

inductive ProtocolError where
  | invalidSequence
  | missingBase
  | emptyFlashblocks
  | genesisFlashblock
  | missingSlotNumber (blockNumber : Nat)
  deriving DecidableEq

inductive ProviderError where
  | missingCanonicalHeader (blockNumber : Nat)
  | stateProvider (message : String)
  deriving DecidableEq

inductive ExecutionError where
  | transactionFailed (txHash : B256) (sender : Address) (reason : String)
  | missingReceipt (txHash : B256)
  | statusMismatch (txHash : B256) (producerSuccess : Bool)
  | senderRecovery (message : String)
  | evmEnv (message : String)
  | blockConversion (message : String)
  deriving DecidableEq

inductive BuildError where
  | missingHeaders
  | noFlashblocks
  | duplicateTransaction (txHash : B256)
  deriving DecidableEq

inductive StateProcessorError where
  | protocol (error : ProtocolError)
  | provider (error : ProviderError)
  | execution (error : ExecutionError)
  | build (error : BuildError)
  | missingFirstFlashblock
  deriving DecidableEq

abbrev Result (α : Type) := Except StateProcessorError α

/-! ## Third-party functions over these types -/

structure ChainSpec where
  chainId : Nat
  isPragueActiveAtTimestamp : Nat → Bool
  isAmsterdamActiveAtTimestamp : Nat → Bool

structure TransactionMeta where
  txHash : B256
  index : Nat
  blockHash : B256
  blockNumber : Nat
  baseFee : Option Nat
  excessBlobGas : Option Nat
  timestamp : Nat

/-- The fee fields of an RPC receipt, computed from the transaction, the block's
meta fields and the chain's blob parameters at its timestamp. -/
structure ReceiptFees where
  effectiveGasPrice : Nat
  blobGasUsed : Option Nat
  blobGasPrice : Option Nat
  deriving DecidableEq

structure ExecutionPayloadV3 where
  blobGasUsed : Nat
  excessBlobGas : Nat
  withdrawals : List Withdrawal
  parentHash : B256
  feeRecipient : Address
  stateRoot : B256
  receiptsRoot : B256
  logsBloom : Bloom
  prevRandao : B256
  blockNumber : Nat
  gasLimit : Nat
  gasUsed : Nat
  timestamp : Nat
  extraData : Bytes
  baseFeePerGas : U256
  blockHash : B256
  transactions : List Bytes

/-- The alloy and reth functions the flashblocks crate calls: payload checks,
codecs, hashes, trie roots, signature recovery, and the derived fields of a
receipt. -/
structure Alloy where
  checkPayload : ExecutionPayloadV3 → Except String Unit
  decode2718 : Bytes → Except String TransactionSigned
  recoverSigner : TransactionSigned → Except String Address
  hashSlow : Header → B256
  transactionsRoot : List Bytes → B256
  withdrawalsRoot : List Withdrawal → B256
  requestsHash : List Bytes → B256
  parseDepositsFromReceipts : ChainSpec → List Receipt → Except String Bytes
  logsBloom : List LogData → Bloom
  createAddress : Address → Nat → Address
  receiptFees : ChainSpec → TransactionSigned → TransactionMeta → ReceiptFees

end EthgasReth.Primitives

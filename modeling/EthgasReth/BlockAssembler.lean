import EthgasReth.Lib.Result
import EthgasReth.Primitives

/-!
# Block assembly

`block_assembler.rs`: the block that a list of flashblocks of one block number
describes.  The base comes from the first flashblock, the cumulative fields
from the last, the transactions from all of them in order.
-/

set_option autoImplicit false

namespace EthgasReth.BlockAssembler

open EthgasReth.Primitives
open EthgasReth.Lib

structure AssembledBlock where
  block : Block
  header : SealedHeader

/-- `ExecutionPayloadV3::try_into_block`: the payload's own checks, then every
transaction decoded in order under a header with the payload's fields. -/
def tryIntoBlock (alloy : Alloy) (payload : ExecutionPayloadV3) : Except String Block := do
  alloy.checkPayload payload
  let transactions ← payload.transactions.mapM alloy.decode2718
  return {
    header := {
      parentHash := payload.parentHash
      beneficiary := payload.feeRecipient
      stateRoot := payload.stateRoot
      transactionsRoot := alloy.transactionsRoot payload.transactions
      receiptsRoot := payload.receiptsRoot
      logsBloom := payload.logsBloom
      number := payload.blockNumber
      gasLimit := payload.gasLimit
      gasUsed := payload.gasUsed
      timestamp := payload.timestamp
      extraData := payload.extraData
      mixHash := payload.prevRandao
      baseFeePerGas := some payload.baseFeePerGas.toNat
      withdrawalsRoot := some (alloy.withdrawalsRoot payload.withdrawals)
      blobGasUsed := some payload.blobGasUsed
      excessBlobGas := some payload.excessBlobGas
      parentBeaconBlockRoot := none
      requestsHash := none
      slotNumber := none }
    transactions := transactions
    withdrawals := some payload.withdrawals }

/-- The receipts of a list of flashblocks, a later flashblock's entry replacing
an earlier one for the same hash. -/
def collectReceipts (flashblocks : List FlashBlock) : HashMap B256 Receipt :=
  flashblocks.foldl (fun acc flashblock => HashMap.extend acc flashblock.metadata.receipts) ∅

theorem collectReceipts_append (flashblocks : List FlashBlock) (flashblock : FlashBlock)
    (hash : B256) :
    (collectReceipts (flashblocks ++ [flashblock])).lookup hash =
      (flashblock.metadata.receipts.lookup hash).or ((collectReceipts flashblocks).lookup hash) := by
  rw [collectReceipts, List.foldl_concat]
  exact HashMap.lookup_extend _ _ hash

def depositRequestType : UInt8 := 0

/-- `push_request_with_type` skips a type without data. -/
def depositRequests (deposits : Bytes) : List Bytes :=
  if deposits.isEmpty then [] else [depositRequestType :: deposits]

def requestsHash (alloy : Alloy) (spec : ChainSpec) (block : Block)
    (flashblocks : List FlashBlock) : Result (Option B256) :=
  if ¬ spec.isPragueActiveAtTimestamp block.header.timestamp then .ok none
  else
    match flashblocks.getLast?.bind fun flashblock => flashblock.diff.requests with
    | some requests => .ok (some (alloy.requestsHash requests))
    | none => do
        let receipts := collectReceipts flashblocks
        -- Block order, not map order.
        let ordered ← block.transactions.mapM fun transaction =>
          match receipts.lookup transaction.txHash with
          | some receipt => .ok receipt
          | none => .error (.execution (.missingReceipt transaction.txHash))
        let deposits ← (alloy.parseDepositsFromReceipts spec ordered).mapError fun message =>
          .execution (.blockConversion message)
        return some (alloy.requestsHash (depositRequests deposits))

def rawTransactions (flashblocks : List FlashBlock) : List Bytes :=
  flashblocks.flatMap fun flashblock => flashblock.diff.transactions

def assemble (alloy : Alloy) (spec : ChainSpec) (flashblocks : List FlashBlock) :
    Result AssembledBlock :=
  match flashblocks.head?, flashblocks.getLast? with
  | some first, some latest =>
      match first.base with
      | none => .error (.protocol .missingBase)
      | some base =>
          if base.blockNumber = 0 then .error (.protocol .genesisFlashblock)
          else if spec.isAmsterdamActiveAtTimestamp base.timestamp ∧ base.slotNumber = none then
            .error (.protocol (.missingSlotNumber base.blockNumber))
          else do
            let block ← (tryIntoBlock alloy {
              blobGasUsed := latest.diff.blobGasUsed
              excessBlobGas := latest.diff.excessBlobGas
              withdrawals := latest.diff.withdrawals
              parentHash := base.parentHash
              feeRecipient := base.feeRecipient
              stateRoot := latest.diff.stateRoot
              receiptsRoot := latest.diff.receiptsRoot
              logsBloom := latest.diff.logsBloom
              prevRandao := base.prevRandao
              blockNumber := base.blockNumber
              gasLimit := base.gasLimit
              gasUsed := latest.diff.gasUsed
              timestamp := base.timestamp
              extraData := base.extraData
              baseFeePerGas := base.baseFeePerGas
              blockHash := latest.diff.blockHash
              transactions := rawTransactions flashblocks
            }).mapError fun message => .execution (.blockConversion message)
            let requestsHash ← requestsHash alloy spec block flashblocks
            let header := { block.header with
              parentBeaconBlockRoot := some base.parentBeaconBlockRoot
              requestsHash := requestsHash
              slotNumber := if spec.isAmsterdamActiveAtTimestamp base.timestamp
                then base.slotNumber else block.header.slotNumber }
            return { block := { block with header := header }
                     header := { header := header, hash := 0 } }
  | _, _ => .error (.protocol .emptyFlashblocks)

/-! ## What an assembled block says -/

structure Assembled (alloy : Alloy) (spec : ChainSpec) (flashblocks : List FlashBlock)
    (base : ExecutionPayloadBaseV1) (assembled : AssembledBlock) : Prop where
  baseOf : flashblocks.head?.bind (·.base) = some base
  notGenesis : base.blockNumber ≠ 0
  sealed : assembled.header.header = assembled.block.header
  number : assembled.block.header.number = base.blockNumber
  transactions : (rawTransactions flashblocks).mapM alloy.decode2718 =
    .ok assembled.block.transactions
  slot : assembled.block.header.slotNumber =
    if spec.isAmsterdamActiveAtTimestamp base.timestamp then base.slotNumber else none

theorem assemble_ok {alloy : Alloy} {spec : ChainSpec} {flashblocks : List FlashBlock}
    {assembled : AssembledBlock} (success : assemble alloy spec flashblocks = .ok assembled) :
    ∃ base, Assembled alloy spec flashblocks base assembled := by
  unfold assemble at success
  split at success
  · rename_i first latest firstEq latestEq
    split at success
    · cases success
    · rename_i base baseEq
      split at success
      · cases success
      · rename_i notGenesis
        split at success
        · cases success
        · obtain ⟨block, blockRun, success⟩ := bind_eq_ok success
          obtain ⟨requests, -, success⟩ := bind_eq_ok success
          have converted := mapError_eq_ok blockRun
          obtain ⟨-, -, converted⟩ := bind_eq_ok converted
          obtain ⟨transactions, decoded, converted⟩ := bind_eq_ok converted
          cases converted
          cases success
          exact ⟨base, by simp [firstEq, baseEq], notGenesis, rfl, rfl, decoded, rfl⟩
  · cases success

theorem rawTransactions_append (xs ys : List FlashBlock) :
    rawTransactions (xs ++ ys) = rawTransactions xs ++ rawTransactions ys := by
  simp [rawTransactions]

end EthgasReth.BlockAssembler

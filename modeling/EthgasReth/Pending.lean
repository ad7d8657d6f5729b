import EthgasReth.Lib.Result
import EthgasReth.Execution

/-!
# Pending blocks

`pending_blocks.rs`: the builder that a rebuild fills, the snapshot it yields,
and the reads that the RPC methods and subscriptions make of a snapshot.
-/

set_option autoImplicit false

namespace EthgasReth.Pending

open EthgasReth.Primitives
open EthgasReth.Execution

/-! ## RPC types -/

structure RpcTransaction where
  inner : TransactionSigned
  signer : Address
  blockHash : Option B256
  blockNumber : Option Nat
  transactionIndex : Option Nat
  effectiveGasPrice : Option Nat
  blockTimestamp : Option Nat
  deriving DecidableEq

def RpcTransaction.txHash (transaction : RpcTransaction) : B256 := transaction.inner.txHash

structure RpcLog where
  inner : LogData
  blockHash : Option B256
  blockNumber : Option Nat
  blockTimestamp : Option Nat
  transactionHash : Option B256
  transactionIndex : Option Nat
  logIndex : Option Nat
  removed : Bool
  deriving DecidableEq

structure TransactionReceipt where
  status : Bool
  cumulativeGasUsed : Nat
  logs : List RpcLog
  logsBloom : Bloom
  transactionHash : B256
  transactionIndex : Option Nat
  blockHash : Option B256
  blockNumber : Option Nat
  gasUsed : Nat
  fees : ReceiptFees
  sender : Address
  toAddress : Option Address
  contractAddress : Option Address
  deriving DecidableEq

structure TransactionWithLogs where
  transaction : RpcTransaction
  logs : List RpcLog
  gasUsed : Nat
  status : Bool
  cumulativeGasUsed : Nat
  contractAddress : Option Address
  logsBloom : Bloom
  deriving DecidableEq

structure FlashblockBatch where
  blockNumber : Nat
  flashblockIndex : Nat
  transactions : List TransactionWithLogs
  deriving DecidableEq

/-- `Filter::matches` looks at a log's address and topics. -/
abbrev Filter := LogData → Bool

/-! ## The snapshot -/

structure PendingBlocks where
  earliestHeader : SealedHeader
  latestHeader : SealedHeader
  headers : List SealedHeader
  latestFlashblockIndex : Nat
  flashblocks : List FlashBlock
  transactions : List RpcTransaction
  accountBalances : HashMap Address U256
  transactionReceipts : HashMap B256 TransactionReceipt
  transactionsByHash : HashMap B256 RpcTransaction
  transactionState : HashMap B256 EvmState
  transactionSenders : HashMap B256 Address
  bundleState : BundleState
  anchor : Option SealedHeader

/-! ## The builder -/

structure PendingBlocksBuilder where
  flashblocks : List FlashBlock
  headers : List SealedHeader
  transactions : List RpcTransaction
  accountBalances : HashMap Address U256
  transactionReceipts : HashMap B256 TransactionReceipt
  transactionsByHash : HashMap B256 RpcTransaction
  transactionState : HashMap B256 EvmState
  transactionSenders : HashMap B256 Address
  bundleState : BundleState
  anchor : Option SealedHeader
  deferredError : Option BuildError

namespace PendingBlocksBuilder

def new : PendingBlocksBuilder where
  flashblocks := []
  headers := []
  transactions := []
  accountBalances := ∅
  transactionReceipts := ∅
  transactionsByHash := ∅
  transactionState := ∅
  transactionSenders := ∅
  bundleState := BundleState.empty
  anchor := none
  deferredError := none

def withFlashblocks (builder : PendingBlocksBuilder) (flashblocks : List FlashBlock) :
    PendingBlocksBuilder :=
  { builder with flashblocks := builder.flashblocks ++ flashblocks }

def withHeader (builder : PendingBlocksBuilder) (header : SealedHeader) : PendingBlocksBuilder :=
  { builder with headers := builder.headers ++ [header] }

/-- A repeated hash leaves the lists alone and makes `build` fail; the first
such error is kept. -/
def withTransaction (builder : PendingBlocksBuilder) (transaction : RpcTransaction) :
    PendingBlocksBuilder :=
  if (builder.transactionsByHash.lookup transaction.txHash).isSome then
    { builder with deferredError :=
        builder.deferredError.or (some (.duplicateTransaction transaction.txHash)) }
  else
    { builder with
      transactionsByHash := builder.transactionsByHash.insert transaction.txHash transaction
      transactions := builder.transactions ++ [transaction] }

def withTransactionState (builder : PendingBlocksBuilder) (hash : B256) (state : EvmState) :
    PendingBlocksBuilder :=
  { builder with transactionState := builder.transactionState.insert hash state }

def withTransactionSender (builder : PendingBlocksBuilder) (hash : B256) (sender : Address) :
    PendingBlocksBuilder :=
  { builder with transactionSenders := builder.transactionSenders.insert hash sender }

def withReceipt (builder : PendingBlocksBuilder) (hash : B256) (receipt : TransactionReceipt) :
    PendingBlocksBuilder :=
  { builder with transactionReceipts := builder.transactionReceipts.insert hash receipt }

def withAccountBalance (builder : PendingBlocksBuilder) (address : Address) (balance : U256) :
    PendingBlocksBuilder :=
  { builder with accountBalances := builder.accountBalances.insert address balance }

def withBundleState (builder : PendingBlocksBuilder) (bundleState : BundleState) :
    PendingBlocksBuilder :=
  { builder with bundleState := bundleState }

def withAnchor (builder : PendingBlocksBuilder) (anchor : SealedHeader) : PendingBlocksBuilder :=
  { builder with anchor := some anchor }

def snapshot (builder : PendingBlocksBuilder) (earliestHeader latestHeader : SealedHeader)
    (latestFlashblockIndex : Nat) : PendingBlocks where
  earliestHeader := earliestHeader
  latestHeader := latestHeader
  headers := builder.headers
  latestFlashblockIndex := latestFlashblockIndex
  flashblocks := builder.flashblocks
  transactions := builder.transactions
  accountBalances := builder.accountBalances
  transactionReceipts := builder.transactionReceipts
  transactionsByHash := builder.transactionsByHash
  transactionState := builder.transactionState
  transactionSenders := builder.transactionSenders
  bundleState := builder.bundleState
  anchor := builder.anchor

def build (builder : PendingBlocksBuilder) : Result PendingBlocks :=
  match builder.deferredError with
  | some error => .error (.build error)
  | none =>
      match builder.headers.head?, builder.headers.getLast? with
      | some earliestHeader, some latestHeader =>
          match builder.flashblocks.getLast? with
          | some latest => .ok (builder.snapshot earliestHeader latestHeader latest.index)
          | none => .error (.build .noFlashblocks)
      | _, _ => .error (.build .missingHeaders)

theorem withTransaction_known {builder : PendingBlocksBuilder} {transaction : RpcTransaction}
    (known : (builder.transactionsByHash.lookup transaction.txHash).isSome) :
    builder.withTransaction transaction = { builder with
      deferredError := builder.deferredError.or
        (some (.duplicateTransaction transaction.txHash)) } :=
  if_pos known

theorem withTransaction_fresh {builder : PendingBlocksBuilder} {transaction : RpcTransaction}
    (fresh : ¬ (builder.transactionsByHash.lookup transaction.txHash).isSome) :
    builder.withTransaction transaction = { builder with
      transactionsByHash := builder.transactionsByHash.insert transaction.txHash transaction
      transactions := builder.transactions ++ [transaction] } :=
  if_neg fresh

theorem build_ok {builder : PendingBlocksBuilder} {pending : PendingBlocks}
    (success : builder.build = .ok pending) :
    ∃ earliestHeader latestHeader latest,
      builder.deferredError = none ∧
      builder.headers.head? = some earliestHeader ∧
      builder.headers.getLast? = some latestHeader ∧
      builder.flashblocks.getLast? = some latest ∧
      pending = builder.snapshot earliestHeader latestHeader latest.index := by
  unfold build at success
  split at success
  · cases success
  · rename_i noError
    split at success
    · rename_i earliest latest headEq lastEq
      split at success
      · rename_i last lastFlashblock
        cases success
        exact ⟨earliest, latest, last, noError, headEq, lastEq, lastFlashblock, rfl⟩
      · cases success
    · cases success

theorem build_withBundleState {builder : PendingBlocksBuilder} {bundle other : BundleState}
    {anchor : SealedHeader} {pending : PendingBlocks}
    (success : ((builder.withBundleState bundle).withAnchor anchor).build = .ok pending) :
    ((builder.withBundleState other).withAnchor anchor).build =
      .ok { pending with bundleState := other } := by
  obtain ⟨earliest, latest, last, clean, isEarliest, isLatest, isLast, rfl⟩ :=
    build_ok success
  change builder.deferredError = none at clean
  change builder.headers.head? = some earliest at isEarliest
  change builder.headers.getLast? = some latest at isLatest
  change builder.flashblocks.getLast? = some last at isLast
  unfold build
  simp only [withBundleState, withAnchor, clean,
    isEarliest, isLatest, isLast]
  rfl

end PendingBlocksBuilder

/-! ## Reads of a snapshot -/

namespace PendingBlocks

variable (pending : PendingBlocks)

def latestBlockNumber : Nat := pending.latestHeader.header.number

def earliestBlockNumber : Nat := pending.earliestHeader.header.number

def payloadId : PayloadId :=
  match pending.flashblocks.getLast? with
  | some flashblock => flashblock.payloadId
  | none => 0

def headerForBlock (blockNumber : Nat) : Option SealedHeader :=
  pending.headers.find? fun header => header.header.number = blockNumber

def getTransactionState (hash : B256) : Option EvmState := pending.transactionState.lookup hash

def getTransactionSender (hash : B256) : Option Address := pending.transactionSenders.lookup hash

def getTransactionsForBlock (blockNumber : Nat) : List RpcTransaction :=
  pending.transactions.filter fun transaction => transaction.blockNumber.getD 0 = blockNumber

def previousFlashblocksTxCount : Nat :=
  if pending.flashblocks.length ≤ 1 then 0
  else (pending.flashblocks.dropLast.map fun flashblock => flashblock.diff.transactions.length).sum

def latestFlashblockTransactions : List RpcTransaction :=
  pending.transactions.drop pending.previousFlashblocksTxCount

def getLatestFlashblockLogs (filter : Filter) : List RpcLog :=
  pending.latestFlashblockTransactions.flatMap fun transaction =>
    match pending.transactionReceipts.lookup transaction.txHash with
    | some receipt => receipt.logs.filter fun log => filter log.inner
    | none => []

def transactionWithLogs (transaction : RpcTransaction) (receipt : TransactionReceipt) :
    TransactionWithLogs where
  transaction := transaction
  logs := receipt.logs
  gasUsed := receipt.gasUsed
  status := receipt.status
  cumulativeGasUsed := receipt.cumulativeGasUsed
  contractAddress := receipt.contractAddress
  logsBloom := receipt.logsBloom

def getLatestFlashblockTransactionsWithLogs : List TransactionWithLogs :=
  pending.latestFlashblockTransactions.filterMap fun transaction =>
    match pending.transactionReceipts.lookup transaction.txHash with
    | some receipt => some (transactionWithLogs transaction receipt)
    | none => none

def getLatestFlashblockTransactionsWithLogsFiltered (filter : Filter) :
    List TransactionWithLogs :=
  pending.latestFlashblockTransactions.filterMap fun transaction =>
    match pending.transactionReceipts.lookup transaction.txHash with
    | some receipt =>
        if receipt.logs.any fun log => filter log.inner then
          some (transactionWithLogs transaction receipt)
        else none
    | none => none

def getLatestFlashblockBatch (filter : Option Filter) : FlashblockBatch where
  blockNumber := pending.latestBlockNumber
  flashblockIndex := pending.latestFlashblockIndex
  transactions :=
    match filter with
    | some filter => pending.getLatestFlashblockTransactionsWithLogsFiltered filter
    | none => pending.getLatestFlashblockTransactionsWithLogs

def getLatestFlashblockTransactionHashes : List B256 :=
  pending.latestFlashblockTransactions.map (·.txHash)

end PendingBlocks

end EthgasReth.Pending

import EthgasReth.Lib.OrderedGroups
import EthgasReth.BlockAssembler
import EthgasReth.Pending

/-!
# Building the pending state

`StateProcessor::build_pending_state`: group the flashblocks by block number,
anchor the first block on the canonical block below it, and for every block in
order run the two system calls and the transactions, reusing the sender and the
state of every transaction the previous snapshot knows.
-/

set_option autoImplicit false

namespace EthgasReth.Build

open EthgasReth.Primitives
open EthgasReth.Lib
open EthgasReth.Execution
open EthgasReth.Pending
open EthgasReth.BlockAssembler

structure Client where
  bestBlockNumber : Except String Nat
  headerByNumber : Nat → Except String (Option Header)
  stateByBlockNumber : Nat → Except String View

structure StateProcessor where
  maxDepth : Nat
  chainSpec : ChainSpec
  alloy : Alloy
  evm : Evm

namespace StateProcessor

variable (processor : StateProcessor)

def recoverSenders (transactions : List TransactionSigned) (cached : B256 → Option Address) :
    Result (List Address) :=
  transactions.mapM fun transaction =>
    match cached transaction.txHash with
    | some sender => .ok sender
    | none => (processor.alloy.recoverSigner transaction).mapError fun message =>
        .execution (.senderRecovery message)

/-! ## One transaction -/

structure BlockContext where
  block : Block
  base : ExecutionPayloadBaseV1
  receiptByHash : HashMap B256 Receipt
  env : processor.evm.Env

/-- The builder and the two counters that restart with every block. -/
structure Tally where
  builder : PendingBlocksBuilder
  gasUsed : Nat
  nextLogIndex : Nat

structure LoopState where
  tally : Tally
  db : processor.evm.Db

variable {processor}

def BlockContext.rpcTransaction (context : BlockContext processor) (index : Nat)
    (transaction : TransactionSigned) (sender : Address) : RpcTransaction where
  inner := transaction
  signer := sender
  blockHash := none
  blockNumber := some context.base.blockNumber
  transactionIndex := some index
  effectiveGasPrice := some <|
    match context.block.header.baseFeePerGas with
    | some baseFee => (transaction.effectiveTipPerGas baseFee).getD 0 + baseFee
    | none => transaction.maxFeePerGas
  blockTimestamp := some context.base.timestamp

def BlockContext.transactionMeta (context : BlockContext processor) (index : Nat)
    (transaction : TransactionSigned) : TransactionMeta where
  txHash := transaction.txHash
  index := index
  blockHash := 0
  blockNumber := context.block.header.number
  baseFee := context.block.header.baseFeePerGas
  excessBlobGas := context.block.header.excessBlobGas
  timestamp := context.block.header.timestamp

def mapLogs (info : TransactionMeta) : Nat → List LogData → List RpcLog
  | _, [] => []
  | logIndex, log :: rest =>
      { inner := log
        blockHash := some info.blockHash
        blockNumber := some info.blockNumber
        blockTimestamp := some info.timestamp
        transactionHash := some info.txHash
        transactionIndex := some info.index
        logIndex := some logIndex
        removed := false } :: mapLogs info (logIndex + 1) rest

variable (processor) in
/-- `build_receipt` copies the gas, the meta fields and the mapped logs. -/
def buildReceipt (info : TransactionMeta) (transaction : TransactionSigned) (sender : Address)
    (receipt : Receipt) (gasUsed nextLogIndex : Nat) : TransactionReceipt where
  status := receipt.success
  cumulativeGasUsed := receipt.cumulativeGasUsed
  logs := mapLogs info nextLogIndex receipt.logs
  logsBloom := processor.alloy.logsBloom receipt.logs
  transactionHash := info.txHash
  transactionIndex := some info.index
  blockHash := some info.blockHash
  blockNumber := some info.blockNumber
  gasUsed := gasUsed
  fees := processor.alloy.receiptFees processor.chainSpec transaction info
  sender := sender
  toAddress := transaction.toAddress
  contractAddress :=
    match transaction.toAddress with
    | some _ => none
    | none => some (processor.alloy.createAddress sender transaction.nonce)

/-- The tally once the sender, the RPC transaction and the producer's receipt are
in the builder and the counters have moved on. -/
def recorded (context : BlockContext processor) (index : Nat) (transaction : TransactionSigned)
    (sender : Address) (receipt : Receipt) (tally : Tally) : Tally where
  builder := ((tally.builder.withTransactionSender transaction.txHash sender
    ).withTransaction (context.rpcTransaction index transaction sender)
    ).withReceipt transaction.txHash
      (processor.buildReceipt (context.transactionMeta index transaction) transaction sender
        receipt (receipt.cumulativeGasUsed - tally.gasUsed) tally.nextLogIndex)
  gasUsed := receipt.cumulativeGasUsed
  nextLogIndex := tally.nextLogIndex + receipt.logs.length

/-- The part of an iteration before the execution. -/
def recordTransaction (context : BlockContext processor) (index : Nat)
    (transaction : TransactionSigned) (sender : Address) (tally : Tally) :
    Result (Receipt × Tally) :=
  match context.receiptByHash.lookup transaction.txHash with
  | none => .error (.execution (.transactionFailed transaction.txHash sender "missing receipt"))
  | some receipt =>
      if receipt.cumulativeGasUsed < tally.gasUsed then
        .error (.execution
          (.transactionFailed transaction.txHash sender "cumulative gas decreased"))
      else .ok (receipt, recorded context index transaction sender receipt tally)

def Tally.withTransactionState (tally : Tally) (hash : B256) (state : EvmState) : Tally :=
  { tally with builder := tally.builder.withTransactionState hash state }

/-- The part of an iteration from the lookup in the previous snapshot on: a
known transaction's state is reused, any other one is executed and committed. -/
def executeTransaction (prev : Option PendingBlocks) (context : BlockContext processor)
    (transaction : TransactionSigned) (sender : Address) (receipt : Receipt)
    (tally : Tally) (db : processor.evm.Db) : Result (LoopState processor) :=
  match prev.bind fun pending => pending.getTransactionState transaction.txHash with
  | some known => .ok { tally := tally.withTransactionState transaction.txHash known, db := db }
  | none =>
      match processor.evm.transact context.env (processor.evm.view db) transaction sender with
      | .error reason => .error (.execution
          (.transactionFailed transaction.txHash sender reason))
      | .ok result =>
          if result.success ≠ receipt.success then
            .error (.execution (.statusMismatch transaction.txHash receipt.success))
          else .ok {
            tally := tally.withTransactionState transaction.txHash result.state
            db := processor.evm.commit db result.state }

def buildTransaction (prev : Option PendingBlocks) (context : BlockContext processor)
    (index : Nat) (transaction : TransactionSigned) (sender : Address)
    (state : LoopState processor) : Result (LoopState processor) := do
  let (receipt, tally) ← recordTransaction context index transaction sender state.tally
  executeTransaction prev context transaction sender receipt tally state.db

def buildTransactions (prev : Option PendingBlocks) (context : BlockContext processor) :
    Nat → List (TransactionSigned × Address) → LoopState processor →
      Result (LoopState processor)
  | _, [], state => .ok state
  | index, (transaction, sender) :: rest, state => do
      let next ← buildTransaction prev context index transaction sender state
      buildTransactions prev context (index + 1) rest next

/-! ## One block -/

variable (processor)

/-- What the block loop carries: `header` is the parent of the next block. -/
structure BuildState where
  builder : PendingBlocksBuilder
  db : processor.evm.Db
  header : Header

def blockEnvAttributes (base : ExecutionPayloadBaseV1) (header : Header) :
    NextBlockEnvAttributes where
  timestamp := base.timestamp
  suggestedFeeRecipient := base.feeRecipient
  prevRandao := base.prevRandao
  gasLimit := base.gasLimit
  parentBeaconBlockRoot := some base.parentBeaconBlockRoot
  withdrawals := none
  extraData := base.extraData
  slotNumber := header.slotNumber

def applySystemCall (env : processor.evm.Env) (call : SystemCall) (db : processor.evm.Db) :
    Result processor.evm.Db :=
  match processor.evm.systemCall env call (processor.evm.view db) with
  | .ok changes => .ok (processor.evm.commit db changes)
  | .error message => .error (.execution (.evmEnv message))

/-- The balances of a list of flashblocks, later entries replacing earlier ones. -/
def collectBalances (flashblocks : List FlashBlock) : HashMap Address U256 :=
  flashblocks.foldl (fun acc flashblock => HashMap.extend acc flashblock.metadata.newAccountBalances) ∅

def recordBalances (balances : HashMap Address U256) (builder : PendingBlocksBuilder) :
    PendingBlocksBuilder :=
  balances.entries.foldl (fun builder entry => builder.withAccountBalance entry.1 entry.2) builder

def firstBase (flashblocks : List FlashBlock) : Result ExecutionPayloadBaseV1 :=
  match flashblocks.head? with
  | none => .error (.protocol .emptyFlashblocks)
  | some first =>
      match first.base with
      | none => .error (.protocol .missingBase)
      | some base => .ok base

theorem firstBase_eq_ok {flashblocks : List FlashBlock} {base : ExecutionPayloadBaseV1} :
    firstBase flashblocks = .ok base ↔ flashblocks.head?.bind (·.base) = some base := by
  unfold firstBase
  cases flashblocks.head? with
  | none => simp
  | some first => cases present : first.base <;> simp [present]

def buildBlock (prev : Option PendingBlocks) (flashblocks : List FlashBlock)
    (state : BuildState processor) : Result (BuildState processor) := do
  let base ← firstBase flashblocks
  let assembled ← assemble processor.alloy processor.chainSpec flashblocks
  let builder := (state.builder.withFlashblocks flashblocks).withHeader assembled.header
  let db := processor.evm.insertBlockHash state.db (base.blockNumber - 1) base.parentHash
  let env ← (processor.evm.nextEvmEnv state.header
    (blockEnvAttributes base assembled.header.header)).mapError fun message =>
      .execution (.evmEnv message)
  let db ← processor.applySystemCall env (.blockhashes base.parentHash) db
  let db ← processor.applySystemCall env (.beaconRoot (some base.parentBeaconBlockRoot)) db
  let senders ← processor.recoverSenders assembled.block.transactions fun hash =>
    prev.bind fun pending => pending.getTransactionSender hash
  let context : BlockContext processor :=
    { block := assembled.block, base := base
      receiptByHash := collectReceipts flashblocks, env := env }
  let loop ← buildTransactions prev context 0 (assembled.block.transactions.zip senders)
    { tally := { builder := builder, gasUsed := 0, nextLogIndex := 0 }, db := db }
  return {
    builder := recordBalances (collectBalances flashblocks) loop.tally.builder
    db := loop.db
    header := assembled.block.header }

def buildBlocks (prev : Option PendingBlocks) :
    List (Nat × List FlashBlock) → BuildState processor → Result (BuildState processor)
  | [], state => .ok state
  | (_, flashblocks) :: rest, state => do
      let next ← processor.buildBlock prev flashblocks state
      buildBlocks prev rest next

/-! ## The whole build -/

def flashblocksPerBlock (flashblocks : List FlashBlock) : List (Nat × List FlashBlock) :=
  groupEntries FlashBlock.blockNumber flashblocks

def readAnchor (client : Client) (canonicalBlock : Nat) : Result (Header × View) :=
  match client.headerByNumber canonicalBlock with
  | .error message => .error (.provider (.stateProvider message))
  | .ok none => .error (.provider (.missingCanonicalHeader canonicalBlock))
  | .ok (some header) =>
      match client.stateByBlockNumber canonicalBlock with
      | .error message => .error (.provider (.stateProvider message))
      | .ok view => .ok (header, view)

def buildPendingState (client : Client) (prev : Option PendingBlocks)
    (flashblocks : List FlashBlock) : Result (Option PendingBlocks) :=
  match flashblocksPerBlock flashblocks with
  | [] => .ok none
  | (earliestBlockNumber, first) :: rest =>
      if earliestBlockNumber = 0 then .error (.protocol .genesisFlashblock)
      else do
        let (header, view) ← readAnchor client (earliestBlockNumber - 1)
        let db := processor.evm.build view (prev.map fun pending => pending.bundleState)
        let built ← processor.buildBlocks prev ((earliestBlockNumber, first) :: rest)
          { builder := PendingBlocksBuilder.new, db := db, header := header }
        let pending ← ((built.builder.withBundleState (processor.evm.takeBundle built.db)
          ).withAnchor { header := header, hash := processor.alloy.hashSlow header }).build
        return some pending

end StateProcessor

end EthgasReth.Build

import EthgasReth.Contiguous

/-!
# The views of the pending block

A build fills one list and four maps while it walks over the blocks, with a gas counter
and a log counter that start again in each.  The RPC methods read the latest block off
different ones of them: the block itself and the count of its transactions off the list,
its receipts off the list and one map, a transaction by hash off another.  In a snapshot
that a build returns they all show the same transactions in the same order.
-/

set_option autoImplicit false

namespace EthgasReth.Rpc.BlockViews

open EthgasReth.Primitives
open EthgasReth.Lib
open EthgasReth.Pending
open EthgasReth.BlockAssembler
open EthgasReth.Build
open EthgasReth.Build.StateProcessor
open EthgasReth.Ledger
open EthgasReth.BuildSpec

/-! ## The reads -/

inductive BlockTransactions where
  | full (transactions : List RpcTransaction)
  | hashes (txHashes : List B256)

def BlockTransactions.len : BlockTransactions → Nat
  | .full transactions => transactions.length
  | .hashes txHashes => txHashes.length

structure RpcBlock where
  header : SealedHeader
  transactions : BlockTransactions
  uncles : List B256
  withdrawals : Option (List Withdrawal)

/-- The latest block's last flashblock has the withdrawals of the block. -/
def getWithdrawals (pending : PendingBlocks) : List Withdrawal :=
  let blockNumber := pending.latestHeader.header.number
  match pending.flashblocks.reverse.find? fun flashblock =>
      flashblock.metadata.blockNumber = blockNumber with
  | some flashblock => flashblock.diff.withdrawals
  | none => []

def getLatestBlock (pending : PendingBlocks) (full : Bool) : RpcBlock where
  header := pending.latestHeader
  transactions :=
    let blockTransactions :=
      pending.getTransactionsForBlock pending.latestHeader.header.number
    if full then .full blockTransactions
    else .hashes (blockTransactions.map (·.txHash))
  uncles := []
  withdrawals := some (getWithdrawals pending)

def blockReceipts (pending : PendingBlocks) (blockNumber : Nat) : List TransactionReceipt :=
  (pending.getTransactionsForBlock blockNumber).filterMap fun transaction =>
    pending.transactionReceipts.lookup transaction.txHash

def getLatestBlockReceipts (pending : PendingBlocks) : List TransactionReceipt :=
  blockReceipts pending pending.latestHeader.header.number

def getLatestBlockTransaction (pending : PendingBlocks) (index : Nat) : Option RpcTransaction :=
  (pending.getTransactionsForBlock pending.latestHeader.header.number)[index]?

def getTransactionByHash (pending : PendingBlocks) (txHash : B256) : Option RpcTransaction :=
  pending.transactionsByHash.lookup txHash

/-- `get_block_transaction_count_by_number` for `pending`; without a snapshot the node's own
`eth` API answers. -/
def getBlockTransactionCountByNumber (blockTransactionCount : Except String (Option U256))
    (pendingBlocks : Option PendingBlocks) : Except String (Option U256) :=
  match pendingBlocks.map fun pending => getLatestBlock pending false with
  | some block => .ok (some (BitVec.ofNat 256 block.transactions.len))
  | none => blockTransactionCount

/-! ## What it means that they agree -/

def wireReceipts (flashblocks : List FlashBlock) (blockNumber : Nat) : HashMap B256 Receipt :=
  collectReceipts (flashblocks.filter fun flashblock => flashblock.blockNumber = blockNumber)

/-- One block: its transactions and receipts side by side, the gas and the logs of the
receipts added up from the first on. -/
structure BlockAgrees (flashblocks : List FlashBlock) (pending : PendingBlocks)
    (blockNumber : Nat) : Prop where
  indices : (pending.getTransactionsForBlock blockNumber).map (·.transactionIndex) =
    (List.range (pending.getTransactionsForBlock blockNumber).length).map some
  receiptHashes : (blockReceipts pending blockNumber).map (·.transactionHash) =
    (pending.getTransactionsForBlock blockNumber).map (·.txHash)
  receiptIndices : (blockReceipts pending blockNumber).map (·.transactionIndex) =
    (pending.getTransactionsForBlock blockNumber).map (·.transactionIndex)
  gas : ∀ position receipt, (blockReceipts pending blockNumber)[position]? = some receipt →
    ∃ produced,
      (wireReceipts flashblocks blockNumber).lookup receipt.transactionHash = some produced ∧
      receipt.cumulativeGasUsed = produced.cumulativeGasUsed ∧
      (((blockReceipts pending blockNumber).take (position + 1)).map (·.gasUsed)).sum =
        produced.cumulativeGasUsed
  logs : ((blockReceipts pending blockNumber).flatMap (·.logs)).map (·.logIndex) =
    (List.range ((blockReceipts pending blockNumber).flatMap (·.logs)).length).map some

structure LatestShows (pending : PendingBlocks) (transactions : List RpcTransaction) : Prop where
  full : (getLatestBlock pending true).transactions = .full transactions
  hashes : (getLatestBlock pending false).transactions = .hashes (transactions.map (·.txHash))
  receipts : (getLatestBlockReceipts pending).map (·.transactionHash) =
    transactions.map (·.txHash)
  byIndex : ∀ index, getLatestBlockTransaction pending index = transactions[index]?
  count : ∀ blockTransactionCount,
    getBlockTransactionCountByNumber blockTransactionCount (some pending) =
      .ok (some (BitVec.ofNat 256 transactions.length))

structure ViewsAgree (flashblocks : List FlashBlock) (pending : PendingBlocks) : Prop where
  distinct : (pending.transactions.map (·.txHash)).Nodup
  byHash : ∀ hash transaction, getTransactionByHash pending hash = some transaction ↔
    transaction ∈ pending.transactions ∧ transaction.txHash = hash
  receiptKeys : ∀ hash, hash ∈ pending.transactionReceipts ↔
    hash ∈ pending.transactions.map (·.txHash)
  senderKeys : ∀ hash, hash ∈ pending.transactionSenders ↔
    hash ∈ pending.transactions.map (·.txHash)
  stateKeys : ∀ hash, hash ∈ pending.transactionState ↔
    hash ∈ pending.transactions.map (·.txHash)
  blocks : ∀ header ∈ pending.headers, BlockAgrees flashblocks pending header.header.number
  whole : pending.transactions = pending.headers.flatMap fun header =>
    pending.getTransactionsForBlock header.header.number
  listed : pending.latestHeader ∈ pending.headers
  latest : ∃ transactions, LatestShows pending transactions

/-! ## The blocks behind a snapshot -/

variable {processor : StateProcessor}

def recordNumber (record : BlockRun processor × List Entry) : Nat :=
  record.1.assembled.header.header.number

/-- The snapshot holds the entries of these blocks, one block after another. -/
structure BuiltFrom (flashblocks : List FlashBlock) (pending : PendingBlocks)
    (records : List (BlockRun processor × List Entry)) : Prop where
  tracks : Tracks pending (records.flatMap Prod.snd)
  byHash : Indexes pending.transactionsByHash Entry.rpc (records.flatMap Prod.snd)
  headers : pending.headers = records.map fun record => record.1.assembled.header
  latest : pending.latestHeader ∈ pending.headers
  chronicle : ∀ record ∈ records, ChronicleOf record.1 record.2
  based : ∀ record ∈ records, record.1.base.blockNumber = recordNumber record
  flashblocks : ∀ record ∈ records, record.1.flashblocks =
    flashblocks.filter fun flashblock => flashblock.blockNumber = recordNumber record
  sorted : records.Pairwise fun record other => recordNumber record < recordNumber other

theorem records_numbered {flashblocks : List FlashBlock} {blocks : List (BlockRun processor)}
    {perBlock : List (List Entry)}
    (numbered : List.Forall₂ NumberedFrom (flashblocksPerBlock flashblocks) blocks) :
    ∀ record ∈ blocks.zip perBlock,
      record.1.base.blockNumber = recordNumber record ∧
      record.1.flashblocks =
        flashblocks.filter fun flashblock => flashblock.blockNumber = recordNumber record := by
  intro record member
  obtain ⟨group, inGroups, ⟨same, -⟩, base, header⟩ :=
    forall₂_mem_right numbered (List.of_mem_zip member).1
  refine ⟨by rw [base, recordNumber, header], ?_⟩
  rw [same, recordNumber, header]
  exact groupEntries_filter inGroups

theorem records_sorted {flashblocks : List FlashBlock} {blocks : List (BlockRun processor)}
    {perBlock : List (List Entry)} (paired : (blocks.zip perBlock).map Prod.fst = blocks)
    (numbered : List.Forall₂ NumberedFrom (flashblocksPerBlock flashblocks) blocks) :
    (blocks.zip perBlock).Pairwise fun record other => recordNumber record < recordNumber other := by
  have keys := numbered_keys numbered
  have sorted := groupEntries_sorted FlashBlock.blockNumber flashblocks
  rw [← paired, List.map_map] at keys
  rw [← List.pairwise_map, ← flashblocksPerBlock, ← keys] at sorted
  exact List.pairwise_map.mp sorted

theorem buildPendingState_builtFrom {client : Client} {prev : Option PendingBlocks}
    {flashblocks : List FlashBlock} {pending : PendingBlocks}
    (agree : ∀ flashblock ∈ flashblocks, flashblock.NumbersAgree)
    (success : processor.buildPendingState client prev flashblocks = .ok (some pending)) :
    ∃ records : List (BlockRun processor × List Entry), BuiltFrom flashblocks pending records := by
  obtain ⟨run, returns⟩ := buildPendingState_ok success
  obtain ⟨earliest, latest, last, clean, -, isLatest, -, rfl⟩ :=
    PendingBlocksBuilder.build_ok returns.finishes
  obtain ⟨⟨perBlock, chronicles, holds⟩, -, headers⟩ :=
    recordBlocks_chronicle holds_new returns.records clean
  change run.builder.headers.getLast? = some latest at isLatest
  have lengths : run.blocks.length = perBlock.length := chronicles.length_eq
  have paired : (run.blocks.zip perBlock).map Prod.fst = run.blocks :=
    List.map_fst_zip (by omega)
  have together : (run.blocks.zip perBlock).flatMap Prod.snd = perBlock.flatten := by
    rw [List.flatMap_def, List.map_snd_zip (by omega)]
  have numbered := blocks_numbered (groupEntries_keyed _ _)
    (fun group inGroups flashblock inGroup =>
      agree flashblock (mem_of_mem_group inGroups inGroup)) returns.grouped returns.prepares
  have finished : Holds
      ((run.builder.withBundleState (processor.evm.takeBundle run.db)).withAnchor
        { header := run.anchor, hash := processor.alloy.hashSlow run.anchor })
      perBlock.flatten := { holds with }
  refine ⟨run.blocks.zip perBlock, ?_⟩
  constructor
  case tracks =>
    rw [together]
    exact finished.tracks _ _ _
  case byHash =>
    rw [together]
    exact finished.byHash
  case headers =>
    rw [← paired, List.map_map] at headers
    exact headers
  case latest => exact List.mem_of_getLast? isLatest
  case chronicle => exact fun record member => List.forall₂_zip chronicles member
  case based => exact fun record member => (records_numbered numbered record member).1
  case flashblocks => exact fun record member => (records_numbered numbered record member).2
  case sorted => exact records_sorted paired numbered

section Records

variable {flashblocks : List FlashBlock} {pending : PendingBlocks}
  {records : List (BlockRun processor × List Entry)} {record : BlockRun processor × List Entry}

theorem BuiltFrom.entry_number (built : BuiltFrom flashblocks pending records)
    (member : record ∈ records) {entry : Entry} (inside : entry ∈ record.2) :
    entry.rpc.blockNumber = some (recordNumber record) := by
  obtain ⟨run, -, of⟩ := forall₂_mem_right (built.chronicle record member).entriesOf inside
  obtain ⟨index, rpc⟩ := of.rpc
  rw [rpc, ← built.based record member]
  rfl

theorem BuiltFrom.transactionsForBlock (built : BuiltFrom flashblocks pending records)
    (member : record ∈ records) :
    pending.getTransactionsForBlock (recordNumber record) = record.2.map Entry.rpc := by
  let groups := records.map fun record => (recordNumber record, record.2)
  have together : ungroup groups = records.flatMap Prod.snd := by
    simp [groups, ungroup, List.flatMap_map]
  have ofKeys : ∀ group ∈ groups, ∀ entry ∈ group.2, entry.rpc.blockNumber.getD 0 = group.1 := by
    intro group inGroups entry inside
    obtain ⟨other, inRecords, rfl⟩ := List.mem_map.mp inGroups
    rw [built.entry_number inRecords inside]
    rfl
  have sorted : groups.Pairwise fun group other => group.1 < other.1 :=
    List.pairwise_map.mpr built.sorted
  have selected := filter_ungroup (fun entry : Entry => entry.rpc.blockNumber.getD 0) groups ofKeys
    sorted (recordNumber record, record.2) (List.mem_map_of_mem member)
  rw [together] at selected
  rw [PendingBlocks.getTransactionsForBlock, built.tracks.transactions, List.filter_map]
  exact congrArg (List.map Entry.rpc) selected

theorem BuiltFrom.receiptsForBlock (built : BuiltFrom flashblocks pending records)
    (member : record ∈ records) :
    blockReceipts pending (recordNumber record) = record.2.map Entry.receipt := by
  have found : ∀ entry ∈ record.2,
      pending.transactionReceipts.lookup entry.rpc.txHash = some entry.receipt := by
    intro entry inside
    have isFound := find_of_mem built.tracks.distinct (List.mem_flatMap.mpr ⟨record, member, inside⟩)
    rw [built.tracks.receipts]
    exact congrArg (Option.map Entry.receipt) isFound
  rw [blockReceipts, built.transactionsForBlock member, List.filterMap_map,
    ← List.filterMap_eq_map]
  exact List.filterMap_congr found

theorem BuiltFrom.blockAgrees (built : BuiltFrom flashblocks pending records)
    (member : record ∈ records) : BlockAgrees flashblocks pending (recordNumber record) := by
  have transactions := built.transactionsForBlock member
  have receipts := built.receiptsForBlock member
  have chronicle := built.chronicle record member
  constructor
  case indices =>
    rw [transactions, List.length_map, List.map_map, List.range_eq_range']
    exact chronicle.indices
  case receiptHashes =>
    rw [transactions, receipts, List.map_map, List.map_map]
    exact List.map_congr_left fun entry inside => (chronicle.receiptOf entry inside).1
  case receiptIndices =>
    rw [transactions, receipts, List.map_map, List.map_map]
    exact List.map_congr_left fun entry inside => (chronicle.receiptOf entry inside).2
  case gas =>
    intro position receipt isReceipt
    rw [receipts, List.getElem?_map] at isReceipt
    obtain ⟨entry, isEntry, rfl⟩ := Option.map_eq_some_iff.mp isReceipt
    obtain ⟨produced, found, cumulative, total⟩ := chronicle.gas position entry isEntry
    refine ⟨produced, ?_, cumulative, ?_⟩
    · have own := (chronicle.receiptOf entry (List.mem_of_getElem? isEntry)).1
      rw [own, wireReceipts, ← built.flashblocks record member]
      exact found
    · rw [receipts, ← List.map_take, List.map_map]
      rw [Nat.zero_add] at total
      exact total
  case logs =>
    have counted := congrArg (List.map Prod.snd) chronicle.logsCount
    rw [List.map_map, List.map_map] at counted
    rw [receipts, List.flatMap_map, List.range_eq_range']
    exact counted

end Records

/-! ## The views agree -/

theorem indexes_keys {β : Type} {map : HashMap B256 β} {field : Entry → β} {entries : List Entry}
    (indexes : Indexes map field entries) (hash : B256) :
    hash ∈ map ↔ hash ∈ (entries.map Entry.rpc).map (·.txHash) := by
  have hashes : (entries.map Entry.rpc).map (·.txHash) = entries.map Entry.hash := by
    rw [List.map_map]
    rfl
  rw [hashes, ← AList.lookup_isSome, indexes hash, Option.isSome_map, Option.isSome_iff_ne_none,
    ne_eq, find_eq_none, not_not]

theorem indexes_rpc {map : HashMap B256 RpcTransaction} {entries : List Entry}
    (distinct : (entries.map Entry.hash).Nodup) (indexes : Indexes map Entry.rpc entries)
    (hash : B256) (transaction : RpcTransaction) :
    map.lookup hash = some transaction ↔
      transaction ∈ entries.map Entry.rpc ∧ transaction.txHash = hash := by
  rw [indexes hash]
  constructor
  · intro found
    obtain ⟨entry, isFound, rfl⟩ := Option.map_eq_some_iff.mp found
    have same : entry.hash = hash := by simpa using List.find?_some isFound
    exact ⟨List.mem_map_of_mem (List.mem_of_find?_eq_some isFound), same⟩
  · intro ⟨member, same⟩
    obtain ⟨entry, inside, rfl⟩ := List.mem_map.mp member
    rw [← same]
    exact congrArg (Option.map Entry.rpc) (find_of_mem distinct inside)

theorem latest_shows {pending : PendingBlocks}
    (receiptHashes : (getLatestBlockReceipts pending).map (·.transactionHash) =
      (pending.getTransactionsForBlock pending.latestHeader.header.number).map (·.txHash)) :
    LatestShows pending
      (pending.getTransactionsForBlock pending.latestHeader.header.number) where
  full := rfl
  hashes := rfl
  receipts := receiptHashes
  byIndex := fun _ => rfl
  count := by
    intro blockTransactionCount
    simp [getBlockTransactionCountByNumber, getLatestBlock, BlockTransactions.len]

theorem views_agree {client : Client} {prev : Option PendingBlocks} {flashblocks : List FlashBlock}
    {pending : PendingBlocks} (agree : ∀ flashblock ∈ flashblocks, flashblock.NumbersAgree)
    (success : processor.buildPendingState client prev flashblocks = .ok (some pending)) :
    ViewsAgree flashblocks pending := by
  obtain ⟨records, built⟩ := buildPendingState_builtFrom agree success
  have blocks : ∀ header ∈ pending.headers,
      BlockAgrees flashblocks pending header.header.number := by
    intro header member
    rw [built.headers] at member
    obtain ⟨record, inRecords, rfl⟩ := List.mem_map.mp member
    exact built.blockAgrees inRecords
  constructor
  case distinct =>
    rw [built.tracks.transactions, List.map_map]
    exact built.tracks.distinct
  case byHash =>
    rw [built.tracks.transactions]
    exact indexes_rpc built.tracks.distinct built.byHash
  case receiptKeys =>
    rw [built.tracks.transactions]
    exact indexes_keys built.tracks.receipts
  case senderKeys =>
    rw [built.tracks.transactions]
    exact indexes_keys built.tracks.senders
  case stateKeys =>
    rw [built.tracks.transactions]
    exact indexes_keys built.tracks.states
  case blocks => exact blocks
  case whole =>
    rw [built.headers, List.flatMap_map, built.tracks.transactions, List.map_flatMap]
    exact List.flatMap_congr fun record member => (built.transactionsForBlock member).symm
  case listed => exact built.latest
  case latest => exact ⟨_, latest_shows (blocks _ built.latest).receiptHashes⟩

def metered (flashblock : FlashBlock) (receipts : List (B256 × Nat × Nat)) : FlashBlock :=
  { flashblock with metadata := { flashblock.metadata with
      receipts := receipts.foldl (fun map (hash, gas, logs) => map.insert hash {
        success := true
        cumulativeGasUsed := gas
        logs := List.replicate logs { address := Reference.bob, topics := [], data := [] } }) ∅ } }

theorem metered_agrees {flashblock : FlashBlock} (agree : flashblock.NumbersAgree)
    (receipts : List (B256 × Nat × Nat)) : (metered flashblock receipts).NumbersAgree :=
  agree

def meteredFlashblocks : List FlashBlock :=
  [metered (Reference.flashblock 7 1 0 [(1, 0), (2, 1)] []) [(1, 21000, 1), (2, 42000, 2)],
    metered (Reference.flashblock 7 1 1 [(3, 2)] []) [(3, 100000, 1)],
    metered (Reference.flashblock 8 2 0 [(4, 3)] []) [(4, 30000, 1)]]

theorem views_agree_metered :
    ∃ pending, Reference.processor.buildPendingState (Reference.nodeAt 0 fun _ => 0).client none
        meteredFlashblocks = .ok (some pending) ∧
      ViewsAgree meteredFlashblocks pending := by
  have agree : ∀ flashblock ∈ meteredFlashblocks, flashblock.NumbersAgree := by
    intro flashblock member
    simp only [meteredFlashblocks, List.mem_cons, List.not_mem_nil, or_false] at member
    rcases member with rfl | rfl | rfl <;>
      exact metered_agrees (Reference.flashblock_agrees _ _ _ _ _) _
  obtain ⟨pending, isBuilt⟩ := Option.isSome_iff_exists.mp
    (show ((Reference.processor.buildPendingState (Reference.nodeAt 0 fun _ => 0).client none
      meteredFlashblocks).toOption.bind id).isSome = true by decide)
  obtain ⟨built, returned, rfl⟩ := Option.bind_eq_some_iff.mp isBuilt
  have success := toOption_eq_some returned
  exact ⟨pending, success, views_agree agree success⟩

example : ((Reference.processor.buildPendingState (Reference.nodeAt 0 fun _ => 0).client none
    meteredFlashblocks).toOption.bind id).map (fun pending =>
      (blockReceipts pending 1).map fun receipt => (receipt.gasUsed, receipt.logs.map (·.logIndex)))
    = some [(21000, [some 0]), (21000, [some 1, some 2]), (58000, [some 3])] := by decide

end EthgasReth.Rpc.BlockViews

import Mathlib.Data.List.SplitLengths
import EthgasReth.BlockNumbers

/-!
# eth_getLogs up to pending

`get_logs` of `rpc/eth.rs` and `get_pending_logs` of `pending_blocks.rs`.  A filter up to
`pending` is answered with the canonical logs of the range, followed by the snapshot's
logs without those whose block number and log index the canonical part has.  The
snapshot's logs are not restricted to the range, so the answer is the range and what is
pre-confirmed above it only while the snapshot has nothing to say about the blocks that
are canonical already.
-/

set_option autoImplicit false

namespace EthgasReth.Rpc.GetLogs

open EthgasReth.Primitives
open EthgasReth.Lib
open EthgasReth.Pending
open EthgasReth.BlockAssembler
open EthgasReth.Build
open EthgasReth.Build.StateProcessor
open EthgasReth.Processor
open EthgasReth.Run
open EthgasReth.Ledger
open EthgasReth.BuildSpec
open EthgasReth.Snapshots
open EthgasReth.Contiguous
open EthgasReth.BlockNumbers

/-! ## The request -/

inductive BlockNumberOrTag where
  | latest
  | finalized
  | safe
  | earliest
  | pending
  | number (number : Nat)
  deriving DecidableEq

inductive FilterBlockOption where
  | range (fromBlock toBlock : Option BlockNumberOrTag)
  | atBlockHash (blockHash : B256)

structure LogFilter where
  blockOption : FilterBlockOption
  selects : Filter

def receiptLogs (pending : PendingBlocks) (transaction : RpcTransaction) : List RpcLog :=
  match pending.transactionReceipts.lookup transaction.txHash with
  | some receipt => receipt.logs
  | none => []

def getPendingLogs (pending : PendingBlocks) (filter : Filter) : List RpcLog :=
  pending.transactions.flatMap fun transaction =>
    (receiptLogs pending transaction).filter fun log => filter log.inner

def position (log : RpcLog) : Option Nat × Option Nat := (log.blockNumber, log.logIndex)

section GetLogs

-- `ethFilter` is reth's log filter.
variable (ethFilter : LogFilter → Except String (List RpcLog))

/-- The canonical part, and of the pending logs those it does not have. -/
def getMixedLogs (pending : PendingBlocks) (fromBlock : Option BlockNumberOrTag)
    (filter : LogFilter) : Except String (List RpcLog) := do
  let historicalLogs ←
    if fromBlock = some .pending then .ok []
    else ethFilter { filter with blockOption := .range fromBlock (some .latest) }
  let fetchedLogs := historicalLogs.map position
  let pendingLogs := getPendingLogs pending filter.selects
  return historicalLogs ++ pendingLogs.filter fun log => !fetchedLogs.contains (position log)

def getLogs (pendingBlocks : Option PendingBlocks) (filter : LogFilter) :
    Except String (List RpcLog) :=
  match filter.blockOption with
  | .atBlockHash _ => ethFilter filter
  | .range fromBlock toBlock =>
      if toBlock ≠ some .pending then ethFilter filter
      else
        match pendingBlocks with
        | none => ethFilter filter
        | some pending => getMixedLogs ethFilter pending fromBlock filter

end GetLogs

/-! ## The canonical chain -/

structure CanonicalChain where
  tip : Nat
  finalized : Option Nat
  safe : Option Nat
  logs : Nat → List RpcLog
  counted : ∀ number, LogsCount number 0 (logs number)

namespace CanonicalChain

variable (chain : CanonicalChain)

def resolve : Option BlockNumberOrTag → Option Nat
  | none => some chain.tip
  | some .latest => some chain.tip
  | some .finalized => chain.finalized
  | some .safe => chain.safe
  | some .earliest => some 0
  | some .pending => none
  | some (.number number) => some number

def blocksFrom (start : Nat) : List Nat := List.range' start (chain.tip + 1 - start)

def matching (selects : Filter) (start : Nat) : List RpcLog :=
  (chain.blocksFrom start).flatMap fun number => (chain.logs number).filter fun log => selects log.inner

end CanonicalChain

/-- reth's log filter answers a range up to the latest block with exactly its matching
logs. -/
def Answers (ethFilter : LogFilter → Except String (List RpcLog)) (chain : CanonicalChain) : Prop :=
  ∀ selects fromBlock start, chain.resolve fromBlock = some start → start ≤ chain.tip →
    ethFilter ⟨.range fromBlock (some .latest), selects⟩ = .ok (chain.matching selects start)

/-! ## What the answer should be -/

def ofBlock (number : Nat) (logs : List RpcLog) : List RpcLog :=
  logs.filter fun log => log.blockNumber = some number

def preconfirmed (pending : PendingBlocks) (selects : Filter) : List RpcLog :=
  (pending.transactions.flatMap (receiptLogs pending)).filter fun log => selects log.inner

/-- No log twice, nothing below the range, canonical logs up to the tip and pre-confirmed
ones above it. -/
structure CanonicalThenPending (chain : CanonicalChain) (pending : PendingBlocks)
    (selects : Filter) (start : Nat) (logs : List RpcLog) : Prop where
  once : (logs.map position).Nodup
  below : ∀ number, number < start → ofBlock number logs = []
  canonical : ∀ number, start ≤ number → number ≤ chain.tip →
    ofBlock number logs = (chain.logs number).filter fun log => selects log.inner
  above : ∀ number, chain.tip < number →
    ofBlock number logs = ofBlock number (preconfirmed pending selects)

/-! ## When it is -/

def transactionsPerBlock (pending : PendingBlocks) : List (List RpcTransaction) :=
  ((flashblocksPerBlock pending.flashblocks).map fun group =>
    (rawTransactions group.2).length).splitLengths pending.transactions

def logsPerBlock (pending : PendingBlocks) : List (List RpcLog) :=
  (transactionsPerBlock pending).map fun transactions => transactions.flatMap (receiptLogs pending)

/-- What the snapshot says of blocks up to the tip is in the range and canonical, and no two
of its blocks above the tip, which then have one header number, number a matching log
alike. -/
structure Covered (chain : CanonicalChain) (pending : PendingBlocks) (selects : Filter)
    (start : Nat) : Prop where
  replaced : ∀ log ∈ preconfirmed pending selects, ∀ number, log.blockNumber = some number →
    number ≤ chain.tip → start ≤ number ∧
      ∃ other ∈ chain.logs number, selects other.inner ∧ other.logIndex = log.logIndex
  apart : (logsPerBlock pending).Pairwise fun earlier later =>
    ∀ log ∈ earlier, ∀ other ∈ later, selects log.inner → selects other.inner →
      (∀ number, log.blockNumber = some number → chain.tip < number) →
      log.blockNumber = other.blockNumber → log.logIndex ≠ other.logIndex

/-! ## The logs of a snapshot -/

theorem getPendingLogs_eq (pending : PendingBlocks) (selects : Filter) :
    getPendingLogs pending selects = preconfirmed pending selects := by
  rw [getPendingLogs, preconfirmed, List.filter_flatMap]

/-- The logs of every block of the snapshot count from zero under the block's number. -/
structure Numbered (pending : PendingBlocks) : Prop where
  whole : (logsPerBlock pending).flatten = pending.transactions.flatMap (receiptLogs pending)
  counted : List.Forall₂ (fun header logs => LogsCount header.header.number 0 logs)
    pending.headers (logsPerBlock pending)

theorem counted_positions {number : Nat} {logs : List RpcLog} (counted : LogsCount number 0 logs) :
    logs.map position = (List.range logs.length).map fun index => (some number, some index) := by
  rw [List.range_eq_range']
  exact counted

theorem counted_number {number : Nat} {logs : List RpcLog} (counted : LogsCount number 0 logs)
    {log : RpcLog} (member : log ∈ logs) : log.blockNumber = some number := by
  have inside : position log ∈ logs.map position := List.mem_map_of_mem member
  rw [counted_positions counted] at inside
  obtain ⟨index, -, same⟩ := List.mem_map.mp inside
  exact (congrArg Prod.fst same).symm

theorem counted_distinct {number : Nat} {logs : List RpcLog}
    (counted : LogsCount number 0 logs) : (logs.map position).Nodup := by
  rw [counted_positions counted]
  refine List.Nodup.map ?_ List.nodup_range
  intro index other same
  simpa using same

theorem Numbered.block {pending : PendingBlocks} (numbered : Numbered pending) {logs : List RpcLog}
    (member : logs ∈ logsPerBlock pending) : ∃ number, LogsCount number 0 logs := by
  obtain ⟨header, -, counted⟩ := forall₂_mem_right numbered.counted member
  exact ⟨header.header.number, counted⟩

theorem splitLengths_flatten {α : Type} (lists : List (List α)) :
    (lists.map List.length).splitLengths lists.flatten = lists := by
  induction lists with
  | nil => rfl
  | cons list lists ih => simp [ih]

section Published

variable {processor : StateProcessor}

theorem tracks_receiptLogs {pending : PendingBlocks} {entries : List Entry}
    (tracks : Tracks pending entries) {entry : Entry} (member : entry ∈ entries) :
    receiptLogs pending entry.rpc = entry.receipt.logs := by
  have found : pending.transactionReceipts.lookup entry.rpc.txHash = some entry.receipt := by
    rw [tracks.receipts]
    have here := find_of_mem tracks.distinct member
    rw [Entry.hash] at here
    rw [here]
    rfl
  rw [GetLogs.receiptLogs, found]

theorem decodes_lengths {groups : List (Nat × List FlashBlock)} {perBlock : List (List Entry)}
    (decodes : List.Forall₂ (Decodes processor) groups perBlock) :
    (groups.map fun group => (rawTransactions group.2).length) = perBlock.map List.length := by
  induction decodes with
  | nil => rfl
  | cons first _ ih =>
      have sameLength := mapM_length first
      rw [List.length_map] at sameLength
      rw [List.map_cons, List.map_cons, ih, sameLength]

theorem headers_counted {blocks : List (BlockRun processor)} {parent : Header}
    {perBlock : List (List Entry)} (prepares : Prepares parent blocks)
    (counts : List.Forall₂ LogsOf blocks perBlock) :
    List.Forall₂ (fun header entries =>
        LogsCount header.header.number 0 (entries.flatMap fun entry => entry.receipt.logs))
      (blocks.map fun block => block.assembled.header) perBlock := by
  induction counts generalizing parent with
  | nil => exact List.Forall₂.nil
  | cons first _ ih =>
      obtain ⟨base, assembled⟩ := assemble_ok prepares.1.assembled
      refine List.Forall₂.cons ?_ (ih prepares.2)
      rw [assembled.sealed]
      exact first

theorem returns_numbered {client : Client} {prev : Option PendingBlocks}
    {flashblocks : List FlashBlock} {run : BuildRun processor} {pending : PendingBlocks}
    (returns : Returns client prev flashblocks run pending) : Numbered pending := by
  have assembles := returns_assembles returns
  obtain ⟨earliest, latest, last, clean, -, -, -, rfl⟩ :=
    PendingBlocksBuilder.build_ok returns.finishes
  obtain ⟨⟨perBlock, of, holds, counts⟩, -, headersEq⟩ :=
    recordBlocks_holds holds_new returns.records clean
  change run.builder.headers = _ at headersEq
  have finished : Holds ((run.builder.withBundleState (processor.evm.takeBundle run.db)).withAnchor
      { header := run.anchor, hash := processor.alloy.hashSlow run.anchor }) perBlock.flatten :=
    { holds with }
  have tracks := finished.tracks earliest latest last.index
  generalize isPending : PendingBlocksBuilder.snapshot _ earliest latest last.index = pending at *
  have regrouped : flashblocksPerBlock pending.flashblocks = flashblocksPerBlock flashblocks := by
    rw [assembles.whole]
    exact groupEntries_ungroup _ _ (groupEntries_keyed _ _) (groupEntries_sorted _ _)
  have perBlockTransactions : transactionsPerBlock pending = perBlock.map (·.map Entry.rpc) := by
    rw [transactionsPerBlock, regrouped, decodes_lengths (blocks_decode returns.grouped returns.prepares of),
      tracks.transactions, List.map_flatten]
    have sameLengths : perBlock.map List.length =
        (perBlock.map (·.map Entry.rpc)).map List.length := by simp
    rw [sameLengths, splitLengths_flatten]
  have perBlockLogs : logsPerBlock pending =
      perBlock.map fun entries => entries.flatMap fun entry => entry.receipt.logs := by
    rw [logsPerBlock, perBlockTransactions, List.map_map]
    apply List.map_congr_left
    intro entries inside
    rw [Function.comp_apply, List.flatMap_map]
    apply List.flatMap_congr
    intro entry member
    exact tracks_receiptLogs tracks (List.mem_flatten.mpr ⟨entries, inside, member⟩)
  constructor
  case whole =>
    rw [logsPerBlock, ← List.flatMap_def, perBlockTransactions, tracks.transactions,
      List.map_flatten, List.flatten_eq_flatMap, List.flatMap_assoc]
    rfl
  case counted =>
    have headers : pending.headers = run.builder.headers := by
      rw [← isPending]
      rfl
    rw [headers, headersEq, perBlockLogs, List.forall₂_map_right_iff]
    exact headers_counted returns.prepares counts

theorem published_numbered {guard : Guard} {state : ProcessorState} {pending : Arc PendingBlocks}
    (visible : Visible processor guard state) (published : state.pendingBlocks = some pending) :
    Numbered pending.value := by
  have kept : KeptByBuilds processor guard Numbered := by
    intro node prev update built _ _ builds
    obtain ⟨earlier, flashblocks, run, returns⟩ := builds.returns
    exact returns_numbered returns
  exact (kept.visible visible).1 pending published

end Published

/-! ## The canonical part -/

section Canonical

variable {chain : CanonicalChain} {selects : Filter} {start : Nat}

theorem mem_blocksFrom {number : Nat} (inRange : start ≤ chain.tip) :
    number ∈ chain.blocksFrom start ↔ start ≤ number ∧ number ≤ chain.tip := by
  rw [CanonicalChain.blocksFrom, List.mem_range'_1]
  omega

theorem mem_matching {log : RpcLog} (inRange : start ≤ chain.tip) :
    log ∈ chain.matching selects start ↔
      ∃ number, (start ≤ number ∧ number ≤ chain.tip) ∧ log ∈ chain.logs number ∧
        selects log.inner := by
  simp [CanonicalChain.matching, mem_blocksFrom inRange]

theorem matching_number {log : RpcLog} (inRange : start ≤ chain.tip)
    (member : log ∈ chain.matching selects start) :
    ∃ number, start ≤ number ∧ number ≤ chain.tip ∧ log.blockNumber = some number := by
  obtain ⟨number, ⟨above, below⟩, inBlock, -⟩ := (mem_matching inRange).mp member
  exact ⟨number, above, below, counted_number (chain.counted number) inBlock⟩

theorem ofBlock_flatMap {block : Nat → List RpcLog}
    (numbered : ∀ number, ∀ log ∈ block number, log.blockNumber = some number)
    {numbers : List Nat} (distinct : numbers.Nodup) (number : Nat) :
    ofBlock number (numbers.flatMap block) = if number ∈ numbers then block number else [] := by
  induction numbers with
  | nil => rfl
  | cons first rest ih =>
      obtain ⟨absent, restDistinct⟩ := List.nodup_cons.mp distinct
      have later := ih restDistinct
      unfold ofBlock at later ⊢
      rw [List.flatMap_cons, List.filter_append, later]
      by_cases same : first = number
      · subst same
        have whole : (block first).filter (fun log => log.blockNumber = some first) =
            block first := by
          rw [List.filter_eq_self]
          intro log member
          simp [numbered first log member]
        simp [whole, absent]
      · have nothing : (block first).filter (fun log => log.blockNumber = some number) = [] := by
          rw [List.filter_eq_nil_iff]
          intro log member
          simp [numbered first log member, same]
        simp [nothing, Ne.symm same]

theorem ofBlock_matching (inRange : start ≤ chain.tip) (number : Nat) :
    ofBlock number (chain.matching selects start) =
      if start ≤ number ∧ number ≤ chain.tip then
        (chain.logs number).filter fun log => selects log.inner
      else [] := by
  rw [CanonicalChain.matching, ofBlock_flatMap]
  · simp only [mem_blocksFrom inRange]
  · intro number log member
    exact counted_number (chain.counted number) (List.mem_of_mem_filter member)
  · exact List.nodup_range'

theorem matching_distinct (chain : CanonicalChain) (selects : Filter) (start : Nat) :
    ((chain.matching selects start).map position).Nodup := by
  rw [List.Nodup, List.pairwise_map, CanonicalChain.matching, List.pairwise_flatMap]
  constructor
  · intro number _
    have distinct := counted_distinct (chain.counted number)
    rw [List.Nodup, List.pairwise_map] at distinct
    exact distinct.filter _
  · have numbers : (chain.blocksFrom start).Nodup := List.nodup_range'
    refine numbers.imp ?_
    intro number another differ log inLog other inOther same
    have isNumber := counted_number (chain.counted number) (List.mem_of_mem_filter inLog)
    have isAnother := counted_number (chain.counted another) (List.mem_of_mem_filter inOther)
    have sameNumber : log.blockNumber = other.blockNumber := congrArg Prod.fst same
    rw [isNumber, isAnother] at sameNumber
    exact differ (Option.some.inj sameNumber)

end Canonical

/-! ## Both parts -/

def mixed (chain : CanonicalChain) (pending : PendingBlocks) (selects : Filter) (start : Nat) :
    List RpcLog :=
  chain.matching selects start ++ (preconfirmed pending selects).filter fun log =>
    !((chain.matching selects start).map position).contains (position log)

section Mixed

variable {chain : CanonicalChain} {pending : PendingBlocks} {selects : Filter} {start : Nat}

theorem getLogs_mixed {ethFilter : LogFilter → Except String (List RpcLog)}
    {fromBlock : Option BlockNumberOrTag} (answers : Answers ethFilter chain)
    (resolves : chain.resolve fromBlock = some start) (inRange : start ≤ chain.tip) :
    getLogs ethFilter (some pending) ⟨.range fromBlock (some .pending), selects⟩ =
      .ok (mixed chain pending selects start) := by
  have notPending : fromBlock ≠ some .pending := by
    rintro rfl
    cases resolves
  have historical := answers selects fromBlock start resolves inRange
  simp only [getLogs, ne_eq, not_true, if_false, getMixedLogs, notPending, historical,
    getPendingLogs_eq, ok_bind]
  rfl

theorem fetched_iff {log : RpcLog} :
    ((chain.matching selects start).map position).contains (position log) = true ↔
      ∃ other ∈ chain.matching selects start, position other = position log := by
  simp

theorem kept_iff {log : RpcLog} :
    (!((chain.matching selects start).map position).contains (position log)) = true ↔
      ∀ other ∈ chain.matching selects start, position other ≠ position log := by
  rw [Bool.not_eq_true', Bool.eq_false_iff, ne_eq, fetched_iff]
  simp

theorem kept_above {log : RpcLog} (inRange : start ≤ chain.tip) {number : Nat}
    (isNumber : log.blockNumber = some number) (above : chain.tip < number) :
    (!((chain.matching selects start).map position).contains (position log)) = true := by
  rw [kept_iff]
  intro other member same
  obtain ⟨height, -, below, isHeight⟩ := matching_number inRange member
  have sameNumber : other.blockNumber = log.blockNumber := congrArg Prod.fst same
  rw [isHeight, isNumber] at sameNumber
  have equal := Option.some.inj sameNumber
  omega

theorem mem_mixed {log : RpcLog} :
    log ∈ mixed chain pending selects start ↔ log ∈ chain.matching selects start ∨
      log ∈ preconfirmed pending selects ∧
        ∀ other ∈ chain.matching selects start, position other ≠ position log := by
  simp only [mixed, List.mem_append, List.mem_filter, kept_iff]

theorem mem_ofBlock {log : RpcLog} {logs : List RpcLog} {number : Nat} :
    log ∈ ofBlock number logs ↔ log ∈ logs ∧ log.blockNumber = some number := by
  simp [ofBlock]

/-- Two logs of one block count differently, so only those of different blocks can be
alike. -/
theorem Numbered.distinct_iff (numbered : Numbered pending) (keeps : RpcLog → Bool) :
    (((preconfirmed pending selects).filter keeps).map position).Nodup ↔
      (logsPerBlock pending).Pairwise fun earlier later =>
        ∀ log ∈ earlier, ∀ other ∈ later, selects log.inner → selects other.inner →
          keeps log → keeps other → position log ≠ position other := by
  rw [preconfirmed, ← numbered.whole, List.filter_filter, List.Nodup, List.pairwise_map,
    List.pairwise_filter, List.pairwise_flatten]
  simp only [Bool.and_eq_true]
  constructor
  · rintro ⟨-, apart⟩
    refine apart.imp ?_
    intro earlier later differ log inLog other inOther logSelected otherSelected logKept otherKept
    exact differ log inLog other inOther ⟨logKept, logSelected⟩ ⟨otherKept, otherSelected⟩
  · intro apart
    refine ⟨?_, apart.imp ?_⟩
    · intro logs member
      obtain ⟨number, counted⟩ := numbered.block member
      have distinct := counted_distinct counted
      rw [List.Nodup, List.pairwise_map] at distinct
      exact distinct.imp fun differ _ _ => differ
    · intro earlier later differ log inLog other inOther ofLog ofOther
      exact differ log inLog other inOther ofLog.2 ofOther.2 ofLog.1 ofOther.1

theorem Numbered.mem (numbered : Numbered pending) {logs : List RpcLog}
    (inBlocks : logs ∈ logsPerBlock pending) {log : RpcLog} (member : log ∈ logs)
    (selected : selects log.inner) : log ∈ preconfirmed pending selects := by
  refine List.mem_filter.mpr ⟨?_, selected⟩
  rw [← numbered.whole]
  exact List.mem_flatten.mpr ⟨logs, inBlocks, member⟩

theorem Numbered.number (numbered : Numbered pending) {log : RpcLog}
    (member : log ∈ preconfirmed pending selects) : ∃ number, log.blockNumber = some number := by
  have inside := List.mem_of_mem_filter member
  rw [← numbered.whole] at inside
  obtain ⟨logs, inBlocks, inLogs⟩ := List.mem_flatten.mp inside
  obtain ⟨number, counted⟩ := numbered.block inBlocks
  exact ⟨number, counted_number counted inLogs⟩

theorem Numbered.apart {processor : StateProcessor} (numbered : Numbered pending)
    (numbers : NumbersMatch processor pending) :
    (logsPerBlock pending).Pairwise fun earlier later =>
      ∀ log ∈ earlier, ∀ other ∈ later, log.blockNumber ≠ other.blockNumber := by
  have increasing := numbers.increasing
  have counted := numbered.counted
  generalize pending.headers = headers at increasing counted
  generalize logsPerBlock pending = blocks at counted
  induction counted with
  | nil => exact List.Pairwise.nil
  | @cons header logs headers blocks first rest ih =>
      obtain ⟨above, restIncreasing⟩ := List.pairwise_cons.mp increasing
      refine List.pairwise_cons.mpr ⟨?_, ih restIncreasing⟩
      intro later inBlocks log inLog other inOther same
      obtain ⟨next, inHeaders, counts⟩ := forall₂_mem_right rest inBlocks
      rw [counted_number first inLog, counted_number counts inOther] at same
      have less := above next inHeaders
      have equal := Option.some.inj same
      omega

/-- Of a covered snapshot only logs above the tip are added. -/
theorem Covered.added (covered : Covered chain pending selects start) (inRange : start ≤ chain.tip)
    {log : RpcLog} (member : log ∈ preconfirmed pending selects)
    (fresh : ∀ other ∈ chain.matching selects start, position other ≠ position log)
    {number : Nat} (isNumber : log.blockNumber = some number) : chain.tip < number := by
  by_contra notAbove
  obtain ⟨above, other, inBlock, selected, sameIndex⟩ :=
    covered.replaced log member number isNumber (by omega)
  refine fresh other ((mem_matching inRange).mpr ⟨number, ⟨above, by omega⟩, inBlock, selected⟩) ?_
  rw [position, position, sameIndex, isNumber, counted_number (chain.counted number) inBlock]

theorem Covered.ofBlock_canonical (covered : Covered chain pending selects start)
    (inRange : start ≤ chain.tip) {number : Nat} (below : number ≤ chain.tip) :
    ofBlock number (mixed chain pending selects start) =
      ofBlock number (chain.matching selects start) := by
  rw [ofBlock, mixed, List.filter_append]
  refine List.append_right_eq_self.mpr ?_
  rw [List.filter_eq_nil_iff]
  intro log member isNumber
  obtain ⟨inPending, kept⟩ := List.mem_filter.mp member
  have above := covered.added inRange inPending (kept_iff.mp kept) (of_decide_eq_true isNumber)
  omega

theorem ofBlock_above (inRange : start ≤ chain.tip) {number : Nat} (above : chain.tip < number) :
    ofBlock number (mixed chain pending selects start) =
      ofBlock number (preconfirmed pending selects) := by
  have nothing : ofBlock number (chain.matching selects start) = [] := by
    rw [ofBlock_matching inRange, if_neg]
    omega
  unfold ofBlock at nothing ⊢
  rw [mixed, List.filter_append, nothing, List.nil_append, List.filter_filter]
  apply List.filter_congr
  intro log member
  by_cases isNumber : log.blockNumber = some number
  · rw [kept_above inRange isNumber above, Bool.and_true]
  · simp [isNumber]

theorem covered_canonicalThenPending (numbered : Numbered pending) (inRange : start ≤ chain.tip)
    (covered : Covered chain pending selects start) :
    CanonicalThenPending chain pending selects start (mixed chain pending selects start) := by
  constructor
  case once =>
    rw [mixed, List.map_append]
    refine List.Nodup.append (matching_distinct chain selects start) ?_ ?_
    · rw [numbered.distinct_iff]
      refine covered.apart.imp_of_mem ?_
      intro earlier later isEarlier _ differ log inLog other inOther logSelected otherSelected kept _
        same
      refine differ log inLog other inOther logSelected otherSelected ?_
        (congrArg Prod.fst same) (congrArg Prod.snd same)
      intro number isNumber
      have member := numbered.mem isEarlier inLog logSelected
      exact covered.added inRange member (kept_iff.mp kept) isNumber
    · intro place inChain inPending
      obtain ⟨other, inOther, rfl⟩ := List.mem_map.mp inChain
      obtain ⟨log, inLog, same⟩ := List.mem_map.mp inPending
      exact kept_iff.mp (List.mem_filter.mp inLog).2 other inOther same.symm
  case below =>
    intro number less
    rw [covered.ofBlock_canonical inRange (by omega), ofBlock_matching inRange, if_neg]
    omega
  case canonical =>
    intro number above below
    rw [covered.ofBlock_canonical inRange below, ofBlock_matching inRange, if_pos ⟨above, below⟩]
  case above => exact fun number above => ofBlock_above inRange above

theorem canonicalThenPending_covered (numbered : Numbered pending) (inRange : start ≤ chain.tip)
    (merged : CanonicalThenPending chain pending selects start (mixed chain pending selects start)) :
    Covered chain pending selects start := by
  constructor
  case replaced =>
    intro log member number isNumber below
    -- Were the log added, it would be one of the block's canonical logs.
    have notFresh : ¬ ∀ other ∈ chain.matching selects start, position other ≠ position log := by
      intro fresh
      have inMixed : log ∈ mixed chain pending selects start := mem_mixed.mpr (Or.inr ⟨member, fresh⟩)
      have inBlock := mem_ofBlock.mpr ⟨inMixed, isNumber⟩
      by_cases inside : start ≤ number
      · rw [merged.canonical number inside below] at inBlock
        obtain ⟨isCanonical, selected⟩ := List.mem_filter.mp inBlock
        exact fresh log ((mem_matching inRange).mpr
          ⟨number, ⟨inside, below⟩, isCanonical, selected⟩) rfl
      · rw [merged.below number (by omega)] at inBlock
        cases inBlock
    simp only [ne_eq, not_forall, not_not, exists_prop] at notFresh
    obtain ⟨other, inChain, same⟩ := notFresh
    obtain ⟨height, ⟨above, -⟩, inBlock, selected⟩ := (mem_matching inRange).mp inChain
    have sameNumber : other.blockNumber = log.blockNumber := congrArg Prod.fst same
    rw [counted_number (chain.counted height) inBlock, isNumber] at sameNumber
    cases sameNumber
    exact ⟨above, other, inBlock, selected, congrArg Prod.snd same⟩
  case apart =>
    have once := merged.once
    rw [mixed, List.map_append] at once
    have pendingOnce := once.of_append_right
    rw [numbered.distinct_iff] at pendingOnce
    refine pendingOnce.imp_of_mem ?_
    intro earlier later isEarlier _ differ log inLog other inOther logSelected otherSelected above
      sameNumber sameIndex
    obtain ⟨number, isNumber⟩ :=
      numbered.number (numbered.mem isEarlier inLog logSelected)
    have isOther : other.blockNumber = some number := sameNumber.symm.trans isNumber
    have higher := above number isNumber
    refine differ log inLog other inOther logSelected otherSelected (kept_above inRange isNumber higher)
      (kept_above inRange isOther higher) ?_
    rw [position, position, sameNumber, sameIndex]

end Mixed

/-- The answer to a filter up to `pending` is the canonical range followed by the
pre-confirmed logs above it exactly when the snapshot is covered. -/
theorem getLogs_canonical_then_pending_iff {processor : StateProcessor} {state : ProcessorState}
    {pending : Arc PendingBlocks}
    (visible : Visible processor (Guard.onWire fun _ => True) state)
    (published : state.pendingBlocks = some pending) {chain : CanonicalChain}
    {ethFilter : LogFilter → Except String (List RpcLog)} (answers : Answers ethFilter chain)
    (selects : Filter) {fromBlock : Option BlockNumberOrTag} {start : Nat}
    (resolves : chain.resolve fromBlock = some start) (inRange : start ≤ chain.tip) :
    ∃ logs, getLogs ethFilter (state.pendingBlocks.map (·.value))
        ⟨.range fromBlock (some .pending), selects⟩ = .ok logs ∧
      (CanonicalThenPending chain pending.value selects start logs ↔
        Covered chain pending.value selects start) := by
  have numbered := published_numbered visible published
  refine ⟨mixed chain pending.value selects start, ?_, ?_⟩
  · rw [published]
    exact getLogs_mixed answers resolves inRange
  · constructor
    · exact canonicalThenPending_covered numbered inRange
    · exact covered_canonicalThenPending numbered inRange

/-! ## A block with one log -/

def event : LogData := ⟨Reference.bob, [], []⟩

def loggedFlashblock : FlashBlock :=
  { Reference.flashblock 7 1 0 [(1, 0)] [] with
    metadata := {
      blockNumber := 1
      newAccountBalances := ∅
      receipts := AList.insert (1 : B256)
        { success := true, cumulativeGasUsed := 0, logs := [event] } ∅ } }

def loggedChain (tip : Nat) : CanonicalChain where
  tip := tip
  finalized := some 0
  safe := some 0
  logs := fun number =>
    if number = 1 then
      mapLogs ⟨1, 0, 1, number, some 0, none, number⟩ 0 [event]
    else []
  counted := by
    intro number
    split
    · exact mapLogs_count _ _ _
    · rfl

def logFilter (chain : CanonicalChain) (filter : LogFilter) : Except String (List RpcLog) :=
  match filter.blockOption with
  | .range fromBlock (some .latest) =>
      match chain.resolve fromBlock with
      | some start =>
          if start ≤ chain.tip then .ok (chain.matching filter.selects start)
          else .error "invalid block range params"
      | none => .error "unknown block"
  | _ => .error "unsupported range"

theorem logFilter_answers (chain : CanonicalChain) : Answers (logFilter chain) chain := by
  intro selects fromBlock start resolves inRange
  simp only [logFilter, resolves, if_pos inRange]

theorem loggedFlashblock_published :
    ∃ pending, (Reference.afterFlashblocks (Reference.nodeAt 0 fun _ => 0) [loggedFlashblock]
        ).pendingBlocks = some pending ∧
      (preconfirmed pending.value fun _ => true).map position = [(some 1, some 0)] ∧
      (logsPerBlock pending.value).length = 1 := by
  have published : (Reference.afterFlashblocks (Reference.nodeAt 0 fun _ => 0) [loggedFlashblock]
      ).pendingBlocks.any (fun pending =>
        (preconfirmed pending.value fun _ => true).map position == [(some 1, some 0)] &&
        (logsPerBlock pending.value).length == 1) = true := by decide
  obtain ⟨pending, isPending, logs⟩ := (Option.any_eq_true _ _).mp published
  simp only [Bool.and_eq_true, beq_iff_eq] at logs
  exact ⟨pending, isPending, logs⟩

theorem loggedFlashblock_visible :
    Visible Reference.processor (Guard.onWire fun _ => True)
      (Reference.afterFlashblocks (Reference.nodeAt 0 fun _ => 0) [loggedFlashblock]) :=
  .reached (Reference.afterFlashblocks_reachable _ fun _ _ => trivial)

/-- While block 1 is above the tip, its log is answered once. -/
theorem getLogs_canonical_then_pending_one :
    ∃ pending logs, (Reference.afterFlashblocks (Reference.nodeAt 0 fun _ => 0) [loggedFlashblock]
        ).pendingBlocks = some pending ∧
      getLogs (logFilter (loggedChain 0)) (some pending.value)
        ⟨.range (some .earliest) (some .pending), fun _ => true⟩ = .ok logs ∧
      CanonicalThenPending (loggedChain 0) pending.value (fun _ => true) 0 logs := by
  obtain ⟨pending, published, positions, oneBlock⟩ := loggedFlashblock_published
  obtain ⟨logs, answered, exact_⟩ := @getLogs_canonical_then_pending_iff Reference.processor _ pending
    loggedFlashblock_visible published (loggedChain 0) (logFilter (loggedChain 0))
    (logFilter_answers _) (fun _ => true) (some .earliest) 0 rfl (Nat.le_refl 0)
  rw [published] at answered
  refine ⟨pending, logs, published, answered, exact_.mpr ⟨?_, ?_⟩⟩
  · intro log member number isNumber below
    have inPositions : position log ∈ (preconfirmed pending.value fun _ => true).map position :=
      List.mem_map_of_mem member
    rw [positions, List.mem_singleton] at inPositions
    have isOne : log.blockNumber = some 1 := congrArg Prod.fst inPositions
    rw [isNumber] at isOne
    cases isOne
    cases below
  · obtain ⟨block, isBlock⟩ := List.length_eq_one_iff.mp oneBlock
    rw [isBlock]
    exact List.pairwise_singleton _ _

/-- Blocks 1 and 2 become canonical, block 1 with the log that was pre-confirmed.  While
the snapshot of block 1 is still published, a range that starts at block 2 is answered
with the log of block 1. -/
theorem log_below_range_answered :
    ¬ ∀ (processor : StateProcessor) (state : ProcessorState) (pending : Arc PendingBlocks),
      Visible processor (Guard.onWire fun _ => True) state →
      state.pendingBlocks = some pending →
      ∀ (chain : CanonicalChain) (ethFilter : LogFilter → Except String (List RpcLog)),
      Answers ethFilter chain →
      ∀ (selects : Filter) (fromBlock : Option BlockNumberOrTag) (start : Nat),
      chain.resolve fromBlock = some start → start ≤ chain.tip →
      ∃ logs, getLogs ethFilter (some pending.value)
          ⟨.range fromBlock (some .pending), selects⟩ = .ok logs ∧
        CanonicalThenPending chain pending.value selects start logs := by
  intro claim
  obtain ⟨pending, published, positions, -⟩ := loggedFlashblock_published
  have answers := logFilter_answers (loggedChain 2)
  have inRange : 2 ≤ (loggedChain 2).tip := Nat.le_refl 2
  obtain ⟨logs, answered, merged⟩ := claim Reference.processor _ pending loggedFlashblock_visible
    published (loggedChain 2) _ answers (fun _ => true) (some (.number 2)) 2 rfl inRange
  rw [getLogs_mixed answers rfl inRange] at answered
  cases answered
  have numbered := published_numbered loggedFlashblock_visible published
  have covered := canonicalThenPending_covered numbered inRange merged
  obtain ⟨log, isLog⟩ := List.map_eq_singleton_iff.mp positions
  have isOne : log.blockNumber = some 1 := congrArg Prod.fst isLog.2
  have member : log ∈ preconfirmed pending.value fun _ => true := by
    rw [isLog.1]
    exact List.mem_singleton_self log
  have impossible := (covered.replaced log member 1 isOne (by decide)).1
  omega

end EthgasReth.Rpc.GetLogs

import EthgasReth.Broadcast
import EthgasReth.Rpc.BlockViews
import EthgasReth.Rpc.Pipes

/-!
# The flashblocks subscriptions

`subscribe` of `pubsub.rs` and the streams it hands to the pipes, on the snapshots that a run of
the node broadcasts.  Every per-item subscription shows the same thing in its own form: the
flashblocks of the snapshots it received, with their transactions and receipts.
-/

set_option autoImplicit false

namespace EthgasReth.Rpc.Subscriptions

open EthgasReth.Primitives
open EthgasReth.Lib
open EthgasReth.Pending
open EthgasReth.BlockAssembler
open EthgasReth.Build
open EthgasReth.Processor
open EthgasReth.Run
open EthgasReth.Snapshots
open EthgasReth.Broadcast
open EthgasReth.Rpc.BlockViews
open EthgasReth.Rpc.Pipes

/-! ## Kinds and their streams -/

inductive FlashblocksSubscriptionKind where
  | newFlashblocks
  | pendingLogs
  | newFlashblockTransactions
  | newFlashblockBatches

/-- Parameters of other forms are read as none. -/
inductive Params where
  | logs (filter : Filter)
  | bool (flag : Bool)
  | other

inductive Message where
  | log (log : RpcLog)
  | transaction (transaction : TransactionWithLogs)
  | hash (hash : B256)
  | batch (batch : FlashblockBatch)

def Filter.default : Filter := fun _ => true

def pendingLogsStream (filter : Filter) (pending : PendingBlocks) : List Message :=
  (pending.getLatestFlashblockLogs filter).map .log

def newFlashblockTransactionsFullStream (pending : PendingBlocks) : List Message :=
  pending.getLatestFlashblockTransactionsWithLogs.map .transaction

def newFlashblockTransactionsFilteredStream (filter : Filter) (pending : PendingBlocks) :
    List Message :=
  (pending.getLatestFlashblockTransactionsWithLogsFiltered filter).map .transaction

def newFlashblockTransactionsHashStream (pending : PendingBlocks) : List Message :=
  pending.getLatestFlashblockTransactionHashes.map .hash

def newFlashblockBatchesStream (filter : Option Filter) (pending : PendingBlocks) : List Message :=
  [.batch (pending.getLatestFlashblockBatch filter)]

/-- What `pipe_from_stream` sends of a snapshot; `newFlashblocks` goes to `pipe_latest`, which
renders whole blocks. -/
def stream : FlashblocksSubscriptionKind → Option Params → Option (PendingBlocks → List Message)
  | .newFlashblocks, _ => none
  | .pendingLogs, some (.logs filter) => some (pendingLogsStream filter)
  | .pendingLogs, _ => some (pendingLogsStream Filter.default)
  | .newFlashblockTransactions, some (.logs filter) =>
      some (newFlashblockTransactionsFilteredStream filter)
  | .newFlashblockTransactions, some (.bool true) => some newFlashblockTransactionsFullStream
  | .newFlashblockTransactions, _ => some newFlashblockTransactionsHashStream
  | .newFlashblockBatches, some (.logs filter) => some (newFlashblockBatchesStream (some filter))
  | .newFlashblockBatches, _ => some (newFlashblockBatchesStream none)

def bufferSize : Nat := 20

/-! ## What the streams should show -/

abbrev Applied := FlashBlock × List TransactionWithLogs

def shows : FlashblocksSubscriptionKind → Option Params → Applied → List Message
  | .newFlashblocks, _, _ => []
  | .pendingLogs, some (.logs filter), (_, transactions) =>
      (transactions.flatMap (matchingLogs filter)).map .log
  | .pendingLogs, _, (_, transactions) =>
      (transactions.flatMap fun transaction => transaction.logs).map .log
  | .newFlashblockTransactions, some (.logs filter), (_, transactions) =>
      (transactions.filter (matchesLogs filter)).map .transaction
  | .newFlashblockTransactions, some (.bool true), (_, transactions) =>
      transactions.map .transaction
  | .newFlashblockTransactions, _, (_, transactions) =>
      transactions.map fun transaction => .hash transaction.transaction.txHash
  | .newFlashblockBatches, params, (flashblock, transactions) =>
      [.batch {
        blockNumber := flashblock.blockNumber
        flashblockIndex := flashblock.index
        transactions :=
          match params with
          | some (.logs filter) => transactions.filter (matchesLogs filter)
          | _ => transactions }]

/-- The snapshot ends with the flashblock, and the transactions are the flashblock's, in order,
each with the receipt that the flashblocks of the block carry for it. -/
structure Adds (processor : StateProcessor) (pending : PendingBlocks) (applied : Applied) :
    Prop where
  latest : pending.flashblocks.getLast? = some applied.1
  transactions : applied.1.diff.transactions.mapM processor.alloy.decode2718 =
    .ok (applied.2.map fun entry => entry.transaction.inner)
  receipts : ∀ entry ∈ applied.2, ∃ produced,
    (collectReceipts (pending.flashblocks.filter fun other =>
      decide (other.blockNumber = applied.1.blockNumber))).lookup entry.transaction.txHash =
        some produced ∧
    (entry.logs.map fun log => log.inner) = produced.logs ∧ entry.status = produced.success ∧
    entry.cumulativeGasUsed = produced.cumulativeGasUsed

section Shows

variable {processor : StateProcessor} {pending : PendingBlocks} {flashblock : FlashBlock}

theorem matchingLogs_default :
    matchingLogs Filter.default = fun transaction => transaction.logs := by
  funext transaction
  simp [matchingLogs, Filter.default]

theorem stream_shows (streams : Streams processor pending flashblock)
    {kind : FlashblocksSubscriptionKind} {params : Option Params}
    {items : PendingBlocks → List Message} (isStream : stream kind params = some items) :
    items pending =
      shows kind params (flashblock, pending.getLatestFlashblockTransactionsWithLogs) := by
  cases kind with
  | newFlashblocks => cases isStream
  | pendingLogs =>
      rcases params with _ | filter | flag | _ <;> cases isStream
      · simp only [pendingLogsStream, shows, streams.logs, matchingLogs_default]
      · simp only [pendingLogsStream, shows, streams.logs]
      · simp only [pendingLogsStream, shows, streams.logs, matchingLogs_default]
      · simp only [pendingLogsStream, shows, streams.logs, matchingLogs_default]
  | newFlashblockTransactions =>
      rcases params with _ | filter | flag | _
      · cases isStream
        simp only [newFlashblockTransactionsHashStream, shows, streams.hashes, List.map_map]
        rfl
      · cases isStream
        simp only [newFlashblockTransactionsFilteredStream, shows, streams.filtered]
      · cases flag with
        | true =>
            cases isStream
            rfl
        | false =>
            cases isStream
            simp only [newFlashblockTransactionsHashStream, shows, streams.hashes, List.map_map]
            rfl
      · cases isStream
        simp only [newFlashblockTransactionsHashStream, shows, streams.hashes, List.map_map]
        rfl
  | newFlashblockBatches =>
      rcases params with _ | filter | flag | _ <;> cases isStream <;>
        simp only [newFlashblockBatchesStream, shows, streams.batch]

theorem Streams.adds (streams : Streams processor pending flashblock) :
    Adds processor pending (flashblock, pending.getLatestFlashblockTransactionsWithLogs) :=
  ⟨streams.latest, streams.transactions, streams.receipts⟩

theorem streams_show {snapshots : List (Arc PendingBlocks)}
    (streams : ∀ snapshot ∈ snapshots, ∃ flashblock, Streams processor snapshot.value flashblock) :
    ∃ added : List Applied,
      List.Forall₂ (fun snapshot applied => Adds processor snapshot.value applied) snapshots
        added ∧
      ∀ kind params items, stream kind params = some items →
        (snapshots.flatMap fun snapshot => items snapshot.value) =
          added.flatMap (shows kind params) := by
  induction snapshots with
  | nil => exact ⟨[], .nil, by simp⟩
  | cons snapshot rest ih =>
      obtain ⟨flashblock, head⟩ := streams snapshot (List.mem_cons_self ..)
      obtain ⟨added, adds, shown⟩ := ih fun other member =>
        streams other (List.mem_cons_of_mem _ member)
      refine ⟨(flashblock, snapshot.value.getLatestFlashblockTransactionsWithLogs) :: added,
        .cons (Streams.adds head) adds, ?_⟩
      intro kind params items isStream
      rw [List.flatMap_cons, List.flatMap_cons, stream_shows head isStream,
        shown kind params items isStream]

end Shows

/-! ## A subscription to a running node -/

/-- An applied flashblock with an index above zero directly follows the index below it. -/
def GaplessFrom (added : List Applied) : Prop :=
  ∀ position before after, added[position]? = some before → added[position + 1]? = some after →
    0 < after.1.index →
    before.1.blockNumber = after.1.blockNumber ∧ before.1.index + 1 = after.1.index

abbrev allMessages (log : List (Event (Arc PendingBlocks) Message))
    (pipe : FromStream (Arc PendingBlocks) Message) : List Message :=
  messages log ++ pipe.phase.held ++ pipe.rest

section Node

variable {processor : StateProcessor} {state : ProcessorState}

theorem forall₂_getElem? {snapshots : List (Arc PendingBlocks)} {added : List Applied}
    (adds : List.Forall₂ (fun snapshot applied => Adds processor snapshot.value applied) snapshots
      added) {position : Nat} {applied : Applied} (found : added[position]? = some applied) :
    ∃ snapshot, snapshots[position]? = some snapshot ∧ Adds processor snapshot.value applied := by
  induction adds generalizing position with
  | nil => cases found
  | @cons snapshot head snapshots added first rest ih =>
      cases position with
      | zero =>
          cases found
          exact ⟨snapshot, rfl, first⟩
      | succ position => exact ih found

theorem gaplessFrom_of_infix (inStep : InStep processor state)
    {before received after : List (Arc PendingBlocks)}
    (isPart : state.sent = before ++ received ++ after) {added : List Applied}
    (adds : List.Forall₂ (fun snapshot applied => Adds processor snapshot.value applied) received
      added) : GaplessFrom added := by
  intro position first second isFirst isSecond above
  obtain ⟨earlier, hasEarlier, addsFirst⟩ := forall₂_getElem? adds isFirst
  obtain ⟨later, hasLater, addsSecond⟩ := forall₂_getElem? adds isSecond
  have place : ∀ offset snapshot, received[offset]? = some snapshot →
      state.sent[before.length + offset]? = some snapshot := by
    intro offset snapshot found
    have inside := (List.getElem?_eq_some_iff.mp found).1
    rw [isPart, List.append_assoc, List.getElem?_append_right (by omega),
      Nat.add_sub_cancel_left, List.getElem?_append_left inside]
    exact found
  have ends : ∀ {snapshot : Arc PendingBlocks} {applied : Applied},
      snapshot ∈ state.sent → Adds processor snapshot.value applied →
      snapshot.value.latestBlockNumber = applied.1.blockNumber ∧
        snapshot.value.latestFlashblockIndex = applied.1.index := by
    intro snapshot applied member adds
    obtain ⟨last, isLast, number, index, -⟩ := (inStep.snapshots.2 snapshot member).last
    cases isLast.symm.trans adds.latest
    exact ⟨number, index⟩
  have foundLater := place (position + 1) later hasLater
  have foundEarlier := place position earlier hasEarlier
  obtain ⟨laterNumber, laterIndex⟩ := ends (List.mem_of_getElem? foundLater) addsSecond
  obtain ⟨earlierNumber, earlierIndex⟩ := ends (List.mem_of_getElem? foundEarlier) addsFirst
  rw [← laterIndex] at above
  obtain ⟨place, previous, isPlace, isPrevious, sameNumber, nextIndex⟩ :=
    inStep.gapless _ later foundLater above
  have samePlace : place = before.length + position := by omega
  rw [samePlace, foundEarlier] at isPrevious
  cases isPrevious
  rw [earlierNumber, laterNumber] at sameNumber
  rw [earlierIndex, laterIndex] at nextIndex
  exact ⟨sameNumber, nextIndex⟩

/-- In every run of the node, whatever the channel drops and the client does, every per-item
subscription shows applied flashblocks in its own form: one list of them gives its messages,
sent or not, and would give those of every other kind.  A subscription that missed nothing
shows the flashblocks of a block without a gap. -/
theorem subscriptions_show_flashblocks
    (visible : Visible processor (Guard.onWire FlashBlock.NumbersAgree) state)
    {kind : FlashblocksSubscriptionKind} {params : Option Params}
    {items : PendingBlocks → List Message} (isStream : stream kind params = some items)
    {limits : SlowSubscriberLimits} {serializes : Message → Bool}
    {start : Surroundings (Arc PendingBlocks)}
    {log : List (Event (Arc PendingBlocks) Message)} {pipe : FromStream (Arc PendingBlocks) Message}
    (run : Trace (FromStream.Step (BroadcastRing.capacity bufferSize) limits
      (fun snapshot => items snapshot.value) serializes) (.subscribed start) log pipe)
    (ofNode : pipe.outside.sent = state.sent) :
    ∃ added : List Applied,
      List.Forall₂ (fun snapshot applied => Adds processor snapshot.value applied) (received log)
        added ∧
      allMessages log pipe = added.flatMap (shows kind params) ∧
      (∀ otherKind otherParams other, stream otherKind otherParams = some other →
        ((received log).flatMap fun snapshot => other snapshot.value) =
          added.flatMap (shows otherKind otherParams)) ∧
      (missed log = 0 → GaplessFrom added) := by
  obtain ⟨inStep, -⟩ := inStep_kept.visible visible
  have delivers := runs_deliver run
  have isBroadcast := delivers.follows.sent
  obtain ⟨sublist, -, complete⟩ := delivers.follows.received
  have streams : ∀ snapshot ∈ received log,
      ∃ flashblock, Streams processor snapshot.value flashblock := by
    intro snapshot member
    have inSent : snapshot ∈ state.sent := by
      rw [← ofNode, isBroadcast]
      exact List.mem_append_right _ (sublist.subset member)
    have sound := inStep.snapshots.2 snapshot inSent
    obtain ⟨last, isLast, -⟩ := sound.last
    exact ⟨last, Sound.streams sound isLast⟩
  obtain ⟨added, adds, shown⟩ := streams_show streams
  refine ⟨added, adds, ?_, shown, ?_⟩
  · rw [← shown kind params items isStream]
    exact delivers.order
  · intro kept
    have isPart : state.sent = start.sent ++ received log ++
        (broadcasts log).drop (pipe.next - start.sent.length) := by
      rw [← ofNode, isBroadcast, complete kept, List.append_assoc, List.take_append_drop]
    exact gaplessFrom_of_infix inStep isPart adds

end Node

theorem capacity_bufferSize : BroadcastRing.capacity bufferSize = 32 := by
  have log : Nat.clog 2 20 = 5 := by norm_num
  rw [BroadcastRing.capacity, bufferSize, log]
  rfl

theorem recv_early {Value : Type} {sent : List Value} {next : Nat} {value : Value}
    (few : sent.length ≤ 32) (found : sent[next]? = some value) :
    BroadcastRing.recv (BroadcastRing.capacity bufferSize) sent next =
      some (.value value, next + 1) := by
  rw [BroadcastRing.recv, capacity_bufferSize, if_neg (by omega), found]
  rfl

/-- Two of the three flashblocks of a block are received, and the first one's batch is sent. -/
theorem subscriptions_show_flashblocks_two :
    ∃ (log : List (Event (Arc PendingBlocks) Message))
      (pipe : FromStream (Arc PendingBlocks) Message) (added : List Applied),
      (messages log).length = 1 ∧ (received log).length = 2 ∧
      allMessages log pipe = added.flatMap (shows .newFlashblockBatches none) ∧
      GaplessFrom added := by
  have agree : ∀ flashblock ∈ Contiguous.threeFlashblocks, flashblock.NumbersAgree := by
    intro flashblock member
    simp only [Contiguous.threeFlashblocks, List.mem_cons, List.not_mem_nil, or_false] at member
    rcases member with rfl | rfl | rfl <;> exact Reference.flashblock_agrees _ _ _ _ _
  have reached := Reference.afterFlashblocks_reachable (Reference.nodeAt 0 fun _ => 0) agree
  have three : (Reference.afterFlashblocks (Reference.nodeAt 0 fun _ => 0)
      Contiguous.threeFlashblocks).sent.length = 3 := by decide
  obtain ⟨first, second, third, isSent⟩ := List.length_eq_three.mp three
  have opened := Trace.nil.snoc (@FromStream.Step.outside (Arc PendingBlocks) Message
    (BroadcastRing.capacity bufferSize) .default
    (fun snapshot => newFlashblockBatchesStream none snapshot.value) (fun _ => true)
    (.subscribed {
      sent := []
      queued := 0
      queuedTotal := 0
      maxCapacity := 8
      closed := false
      now := 0 }) _ _ (.broadcast first))
  have broadcast := (opened.snoc (.outside (.broadcast second))).snoc (.outside (.broadcast third))
  have few : 3 ≤ 32 := by decide
  have polled := broadcast.snoc (.poll rfl rfl (recv_early few rfl))
  have drained : 0 ≤ SlowSubscriberLimits.default.maxQueued := Nat.zero_le _
  have fits : 0 < 8 := by decide
  have sent := ((polled.snoc (.pick rfl rfl)).snoc
    (.drained rfl (Nat.le_refl _) drained)).snoc (.send rfl rfl rfl fits)
  have both := sent.snoc (.poll rfl rfl (recv_early few rfl))
  obtain ⟨added, -, shown, -, gapless⟩ := subscriptions_show_flashblocks (.reached reached)
    (@rfl _ (stream .newFlashblockBatches none)) both isSent.symm
  exact ⟨_, _, added, rfl, rfl, shown, gapless rfl⟩

end EthgasReth.Rpc.Subscriptions

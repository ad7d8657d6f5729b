import EthgasReth.Contiguous

/-!
# The broadcast of applied flashblocks

What a broadcast snapshot says about its latest flashblock, and how the stream of
broadcasts grows: an application adds at most one snapshot, whose latest
flashblock is the one applied, a canonical block and a duplicate add none, and an
index above zero directly follows the index below it.
-/

set_option autoImplicit false

namespace EthgasReth.Broadcast

open EthgasReth.Primitives
open EthgasReth.Lib
open EthgasReth.Pending
open EthgasReth.BlockAssembler
open EthgasReth.Build
open EthgasReth.Build.StateProcessor
open EthgasReth.Ledger
open EthgasReth.BuildSpec
open EthgasReth.Validation
open EthgasReth.Cache
open EthgasReth.Processor
open EthgasReth.Run
open EthgasReth.Snapshots
open EthgasReth.Contiguous

variable {processor : StateProcessor}

/-! ## The latest flashblock of a snapshot -/

def matchesLogs (filter : Filter) (transaction : TransactionWithLogs) : Bool :=
  transaction.logs.any fun log => filter log.inner

def matchingLogs (filter : Filter) (transaction : TransactionWithLogs) : List RpcLog :=
  transaction.logs.filter fun log => filter log.inner

/-- The snapshot's reads describe exactly the flashblock: its transactions in
order, each with the receipt that the block's flashblocks carry for it, and in
the filtered forms those that match. -/
structure Streams (processor : StateProcessor) (pending : PendingBlocks)
    (flashblock : FlashBlock) : Prop where
  latest : pending.flashblocks.getLast? = some flashblock
  transactions : flashblock.diff.transactions.mapM processor.alloy.decode2718 =
    .ok (pending.getLatestFlashblockTransactionsWithLogs.map fun entry => entry.transaction.inner)
  hashes : pending.getLatestFlashblockTransactionHashes =
    pending.getLatestFlashblockTransactionsWithLogs.map fun entry => entry.transaction.txHash
  receipts : ∀ entry ∈ pending.getLatestFlashblockTransactionsWithLogs, ∃ produced,
    (collectReceipts (pending.flashblocks.filter fun other =>
      decide (other.blockNumber = flashblock.blockNumber))).lookup entry.transaction.txHash =
        some produced ∧
    (entry.logs.map fun log => log.inner) = produced.logs ∧ entry.status = produced.success ∧
    entry.cumulativeGasUsed = produced.cumulativeGasUsed
  filtered : ∀ filter, pending.getLatestFlashblockTransactionsWithLogsFiltered filter =
    pending.getLatestFlashblockTransactionsWithLogs.filter (matchesLogs filter)
  logs : ∀ filter, pending.getLatestFlashblockLogs filter =
    pending.getLatestFlashblockTransactionsWithLogs.flatMap (matchingLogs filter)
  batch : ∀ filter, pending.getLatestFlashblockBatch filter = {
    blockNumber := flashblock.blockNumber
    flashblockIndex := flashblock.index
    transactions :=
      match filter with
      | some filter => pending.getLatestFlashblockTransactionsWithLogs.filter (matchesLogs filter)
      | none => pending.getLatestFlashblockTransactionsWithLogs }

theorem mapLogs_inner (info : TransactionMeta) (logIndex : Nat) (logs : List LogData) :
    ((mapLogs info logIndex logs).map fun log => log.inner) = logs := by
  induction logs generalizing logIndex with
  | nil => rfl
  | cons log rest ih => simp [mapLogs, ih]

theorem rawTransactions_length (flashblocks : List FlashBlock) :
    (rawTransactions flashblocks).length =
      (flashblocks.map fun flashblock => flashblock.diff.transactions.length).sum := by
  simp [rawTransactions, List.length_flatMap]

theorem previousFlashblocksTxCount_eq {pending : PendingBlocks} {others : List FlashBlock}
    {last : FlashBlock} (shape : pending.flashblocks = others ++ [last]) :
    pending.previousFlashblocksTxCount = (rawTransactions others).length := by
  rw [PendingBlocks.previousFlashblocksTxCount, shape, List.dropLast_concat,
    rawTransactions_length]
  split
  · rename_i short
    have empty : others = [] := by
      simp only [List.length_append, List.length_singleton] at short
      exact List.length_eq_zero_iff.mp (by omega)
    simp [empty]
  · rfl

section Reads

variable {pending : PendingBlocks} {entries : List Entry}

def withLogs (entry : Entry) : TransactionWithLogs :=
  PendingBlocks.transactionWithLogs entry.rpc entry.receipt

theorem lookup_receipt (tracks : Tracks pending entries) {entry : Entry} (member : entry ∈ entries) :
    pending.transactionReceipts.lookup entry.rpc.txHash = some entry.receipt := by
  have found := tracks.receipts entry.hash
  rw [find_of_mem tracks.distinct member] at found
  exact found

variable (tracks : Tracks pending entries) {count : Nat}
  (counted : pending.previousFlashblocksTxCount = count)
include tracks counted

theorem latestTransactions_eq :
    pending.latestFlashblockTransactions = (entries.drop count).map Entry.rpc := by
  rw [PendingBlocks.latestFlashblockTransactions, counted, tracks.transactions, List.map_drop]

theorem latestWithLogs_eq :
    pending.getLatestFlashblockTransactionsWithLogs = (entries.drop count).map withLogs := by
  rw [PendingBlocks.getLatestFlashblockTransactionsWithLogs, latestTransactions_eq tracks counted,
    List.filterMap_map]
  apply List.filterMap_eq_map_iff_forall_eq_some.mpr
  intro entry member
  simp only [Function.comp, lookup_receipt tracks (List.mem_of_mem_drop member)]
  rfl

theorem latestFiltered_eq (filter : Filter) :
    pending.getLatestFlashblockTransactionsWithLogsFiltered filter =
      ((entries.drop count).map withLogs).filter (matchesLogs filter) := by
  rw [PendingBlocks.getLatestFlashblockTransactionsWithLogsFiltered,
    latestTransactions_eq tracks counted, List.filterMap_map]
  have found : ∀ entry ∈ entries.drop count,
      pending.transactionReceipts.lookup entry.rpc.txHash = some entry.receipt :=
    fun entry member => lookup_receipt tracks (List.mem_of_mem_drop member)
  generalize entries.drop count = latest at found ⊢
  induction latest with
  | nil => rfl
  | cons entry rest ih =>
      have head := found entry (List.mem_cons_self ..)
      have tail := ih fun other member => found other (List.mem_cons_of_mem _ member)
      by_cases matching : matchesLogs filter (withLogs entry) = true
      · have any : (entry.receipt.logs.any fun log => filter log.inner) = true := matching
        rw [List.map_cons, List.filter_cons_of_pos matching, ← tail, List.filterMap_cons]
        simp only [Function.comp, head, any, if_true]
        rfl
      · have any : ¬ (entry.receipt.logs.any fun log => filter log.inner) = true := matching
        rw [List.map_cons, List.filter_cons_of_neg matching, ← tail, List.filterMap_cons]
        simp only [Function.comp, head, if_neg any]

theorem latestLogs_eq (filter : Filter) :
    pending.getLatestFlashblockLogs filter =
      ((entries.drop count).map withLogs).flatMap (matchingLogs filter) := by
  rw [PendingBlocks.getLatestFlashblockLogs, latestTransactions_eq tracks counted,
    List.flatMap_map, List.flatMap_map]
  apply List.flatMap_congr
  intro entry member
  simp only [lookup_receipt tracks (List.mem_of_mem_drop member)]
  rfl

end Reads

theorem Describes.lastEntries {pending : PendingBlocks} {perBlock : List (List Entry)}
    {others : List FlashBlock} {last : FlashBlock}
    (describes : Describes processor (others ++ [last]) pending perBlock)
    (ordered : Ordered (others ++ [last])) :
    ∃ earlier entries, perBlock.flatten = earlier ++ entries ∧
      earlier.length ≤ (rawTransactions others).length ∧
      GroupEntries processor (last.blockNumber,
        (others ++ [last]).filter fun other => decide (other.blockNumber = last.blockNumber))
        entries := by
  obtain ⟨before, values, groups, -, groupsBefore⟩ :=
    groupEntries_last FlashBlock.blockNumber others last ordered
  have isGroup : (last.blockNumber, values ++ [last]) ∈
      groupEntries FlashBlock.blockNumber (others ++ [last]) := by
    rw [groups]
    simp
  have selected := groupEntries_filter isGroup
  have entries := describes.entries
  rw [flashblocksPerBlock, groups] at entries
  obtain ⟨befores, lasts, shape, beforeEntries, lastEntries⟩ := forall₂_append_singleton entries
  refine ⟨befores.flatten, lasts, by simp [shape], ?_, ?_⟩
  · have decoded := mapM_length (groups_decoded (groupEntries_decode beforeEntries))
    have whole := ungroup_groupEntries FlashBlock.blockNumber others ordered.of_append
    rw [groupsBefore, ungroup_append] at whole
    rw [← whole, rawTransactions_append, List.length_append]
    simp only [List.length_map] at decoded
    omega
  · dsimp only at selected
    rw [← selected]
    exact lastEntries

/-- Every sound snapshot streams its latest flashblock. -/
theorem Sound.streams {pending : PendingBlocks} (sound : Sound processor pending)
    {last : FlashBlock} (isLast : pending.flashblocks.getLast? = some last) :
    Streams processor pending last := by
  obtain ⟨perBlock, describes⟩ := sound.described
  obtain ⟨final, isFinal, number, index, -⟩ := sound.last
  have same : final = last := Option.some.inj (isFinal.symm.trans isLast)
  subst same
  obtain ⟨others, shape⟩ := List.getLast?_eq_some_iff.mp isLast
  have ordered := sound.gapFree.ordered
  have counted := previousFlashblocksTxCount_eq shape
  have withLogsEq := latestWithLogs_eq describes.tracks counted
  have decoded := describes.decoded ordered
  have raw : rawTransactions [final] = final.diff.transactions := by simp [rawTransactions]
  rw [shape] at decoded ordered describes
  rw [rawTransactions_append, raw] at decoded
  obtain ⟨left, right, leftRun, rightRun, split⟩ := mapM_append_ok decoded
  have leftLength := mapM_length leftRun
  have latest : right = (perBlock.flatten.drop (rawTransactions others).length).map
      fun entry => entry.rpc.inner := by
    have inner : left ++ right = perBlock.flatten.map fun entry => entry.rpc.inner := by
      rw [← split, describes.tracks.transactions, List.map_map]
      rfl
    rw [List.map_drop, ← inner, ← leftLength, List.drop_left]
  obtain ⟨earlier, entries, flat, short, groupEntries⟩ := Describes.lastEntries describes ordered
  constructor
  case latest => exact isLast
  case transactions =>
    rw [rightRun, latest, withLogsEq, List.map_map]
    rfl
  case hashes =>
    rw [PendingBlocks.getLatestFlashblockTransactionHashes,
      latestTransactions_eq describes.tracks counted, withLogsEq, List.map_map, List.map_map]
    rfl
  case receipts =>
    intro entry member
    rw [withLogsEq] at member
    obtain ⟨source, inside, rfl⟩ := List.mem_map.mp member
    have inLast : source ∈ entries := by
      rw [flat, List.drop_append, List.drop_of_length_le short, List.nil_append] at inside
      exact List.mem_of_mem_drop inside
    obtain ⟨produced, info, gasUsed, logIndex, found, receipt⟩ :=
      groupEntries.receipts source inLast
    refine ⟨produced, ?_, ?_, ?_, ?_⟩
    · rw [shape]
      exact found
    · simp only [withLogs, PendingBlocks.transactionWithLogs, receipt, buildReceipt]
      exact mapLogs_inner _ _ _
    · simp only [withLogs, PendingBlocks.transactionWithLogs, receipt, buildReceipt]
    · simp only [withLogs, PendingBlocks.transactionWithLogs, receipt, buildReceipt]
  case filtered =>
    intro filter
    rw [withLogsEq]
    exact latestFiltered_eq describes.tracks counted filter
  case logs =>
    intro filter
    rw [withLogsEq]
    exact latestLogs_eq describes.tracks counted filter
  case batch =>
    intro filter
    unfold PendingBlocks.getLatestFlashblockBatch
    rw [number, index]
    cases filter with
    | none => rfl
    | some filter =>
        rw [withLogsEq]
        simp only [latestFiltered_eq describes.tracks counted filter]

/-! ## The stream -/

/-- A broadcast with an index above zero directly follows the broadcast of the
index below it in the same block. -/
def Gapless (sent : List (Arc PendingBlocks)) : Prop :=
  ∀ position after, sent[position]? = some after → 0 < after.value.latestFlashblockIndex →
    ∃ earlier before, position = earlier + 1 ∧ sent[earlier]? = some before ∧
      before.value.latestBlockNumber = after.value.latestBlockNumber ∧
      before.value.latestFlashblockIndex + 1 = after.value.latestFlashblockIndex

theorem Gapless.append {sent : List (Arc PendingBlocks)} {pending : Arc PendingBlocks}
    (gapless : Gapless sent)
    (follows : 0 < pending.value.latestFlashblockIndex → ∃ before ∈ sent.getLast?,
      before.value.latestBlockNumber = pending.value.latestBlockNumber ∧
      before.value.latestFlashblockIndex + 1 = pending.value.latestFlashblockIndex) :
    Gapless (sent ++ [pending]) := by
  intro position after found above
  have bound := (List.getElem?_eq_some_iff.mp found).1
  rw [List.length_append, List.length_singleton] at bound
  by_cases inside : position < sent.length
  · rw [List.getElem?_append_left inside] at found
    obtain ⟨earlier, before, rfl, isBefore, steps⟩ := gapless position after found above
    refine ⟨earlier, before, rfl, ?_, steps⟩
    rw [List.getElem?_append_left (by omega)]
    exact isBefore
  · have isLast : position = sent.length := by omega
    subst isLast
    have same : pending = after := by simpa using found
    subst same
    obtain ⟨before, isBefore, steps⟩ := follows above
    have nonempty : sent ≠ [] := by
      rintro rfl
      cases isBefore
    have length : 0 < sent.length := List.length_pos_iff.mpr nonempty
    refine ⟨sent.length - 1, before, by omega, ?_, steps⟩
    rw [List.getElem?_append_left (by omega), ← List.getLast?_eq_getElem?]
    exact isBefore

/-- The stream and the published snapshot go together: the last broadcast ended
with the flashblock the published snapshot ends with. -/
structure InStep (processor : StateProcessor) (state : ProcessorState) : Prop where
  snapshots : AllSnapshots (Sound processor) state
  addresses : ∀ pending, state.pendingBlocks = some pending → pending.address < state.nextAddress
  aligned : ∀ pending, state.pendingBlocks = some pending →
    ∃ latest ∈ state.sent.getLast?,
      latest.value.flashblocks.getLast? = pending.value.flashblocks.getLast?
  gapless : Gapless state.sent

/-- What an application does to the cell and the stream. -/
def Effect (processor : StateProcessor) (flashblock : FlashBlock) (state next : ProcessorState) :
    Prop :=
  (next.sent = state.sent ∧
      (next.pendingBlocks = state.pendingBlocks ∨ next.pendingBlocks = none)) ∨
    ∃ pending, next.sent = state.sent ++ [pending] ∧ next.pendingBlocks = some pending ∧
      Streams processor pending.value flashblock

section Application

variable {node : Node} {state : ProcessorState} {flashblock : FlashBlock}

theorem builds_latest {built : PendingBlocks} (inStep : InStep processor state)
    (agree : flashblock.NumbersAgree)
    (builds : Builds processor node state.pendingBlocks (.flashblock flashblock) built) :
    Sound processor built ∧ built.flashblocks.getLast? = some flashblock ∧
      (0 < built.latestFlashblockIndex → ∃ before ∈ state.sent.getLast?,
        before.value.latestBlockNumber = built.latestBlockNumber ∧
        before.value.latestFlashblockIndex + 1 = built.latestFlashblockIndex) := by
  obtain ⟨sound, lists⟩ := builds_sound inStep.snapshots.1
    (by rintro other ⟨⟩; exact agree) builds
  obtain ⟨last, isLast, number, index, -⟩ := sound.last
  rw [number, index]
  clear builds number index
  generalize flashblocksEq : built.flashblocks = flashblocks at lists isLast ⊢
  generalize cell : state.pendingBlocks = prev at lists
  cases lists with
  | fresh first =>
      have same : flashblock = last := by simpa using isLast
      subst same
      refine ⟨sound, rfl, ?_⟩
      intro above
      omega
  | appended continues =>
      rw [List.getLast?_concat] at isLast
      cases isLast
      refine ⟨sound, List.getLast?_concat, ?_⟩
      intro above
      have old := inStep.snapshots.1 _ cell
      obtain ⟨latest, isLatest, sameEnd⟩ := inStep.aligned _ cell
      have broadcast := inStep.snapshots.2 latest (List.mem_of_getLast? isLatest)
      obtain ⟨oldLast, isOldLast, oldNumber, oldIndex, -⟩ := old.last
      obtain ⟨sentLast, isSentLast, sentNumber, sentIndex, -⟩ := broadcast.last
      have sameLast : sentLast = oldLast := by
        rw [isSentLast, isOldLast] at sameEnd
        exact Option.some.inj sameEnd
      subst sameLast
      refine ⟨latest, isLatest, ?_⟩
      rw [sentNumber, sentIndex]
      rcases continues with ⟨sameBlock, nextIndex⟩ | ⟨-, zero⟩
      · omega
      · omega

theorem apply_inStep (inStep : InStep processor state) (agree : flashblock.NumbersAgree) :
    InStep processor (processor.applyFlashblock node state.pendingBlocks flashblock state) ∧
      Effect processor flashblock state
        (processor.applyFlashblock node state.pendingBlocks flashblock state) := by
  have kept : KeptByBuilds processor (Guard.onWire FlashBlock.NumbersAgree) (Sound processor) :=
    sound_kept fun _ agree => agree
  have snapshots : AllSnapshots (Sound processor)
      (processor.applyFlashblock node state.pendingBlocks flashblock state) :=
    kept.apply inStep.snapshots agree trivial
  generalize applied : processor.applyFlashblock node state.pendingBlocks flashblock state = next
    at snapshots
  have outcome := @applyFlashblock_applied processor node state.pendingBlocks flashblock state
  rw [applied] at outcome
  clear applied
  cases outcome with
  | rejected cached =>
      exact ⟨⟨snapshots, inStep.addresses, inStep.aligned, inStep.gapless⟩,
        Or.inl ⟨rfl, Or.inl rfl⟩⟩
  | cleared fresh processed unpublished =>
      exact ⟨⟨snapshots, by simp, by simp, inStep.gapless⟩, Or.inl ⟨rfl, Or.inr rfl⟩⟩
  | unchanged fresh processed published before same =>
      obtain ⟨rfl, -⟩ := publishable_some published
      rcases processFlashblock_new processed with ⟨isOld, -⟩ | ⟨built, rfl, -⟩
      · refine ⟨⟨snapshots, ?_, ?_, inStep.gapless⟩, Or.inl ⟨rfl, Or.inl isOld.symm⟩⟩
        · rintro pending ⟨⟩
          have earlier := inStep.addresses _ isOld
          dsimp only
          omega
        · rintro pending ⟨⟩
          exact inStep.aligned _ isOld
      · -- A new snapshot has an address that no earlier one has.
        have earlier := inStep.addresses _ before
        dsimp only at same
        omega
  | broadcast fresh processed published differs =>
      obtain ⟨rfl, -⟩ := publishable_some published
      rcases processFlashblock_new processed with ⟨isOld, -⟩ | ⟨built, rfl, builds⟩
      · exact absurd rfl (differs _ isOld)
      · obtain ⟨sound, isLast, follows⟩ := builds_latest inStep agree builds
        refine ⟨⟨snapshots, ?_, ?_, inStep.gapless.append follows⟩,
          Or.inr ⟨_, rfl, rfl, Sound.streams sound isLast⟩⟩
        · rintro pending ⟨⟩
          exact Nat.lt_succ_self _
        · rintro pending ⟨⟩
          exact ⟨_, List.getLast?_concat, rfl⟩

/-- Repeating the snapshot's last flashblock broadcasts nothing. -/
theorem apply_duplicate {pending : Arc PendingBlocks} (published : state.pendingBlocks = some pending)
    (repeats : Repeats pending.value flashblock) :
    (processor.applyFlashblock node state.pendingBlocks flashblock state).sent = state.sent := by
  have verdict := validate_duplicate.mpr repeats
  have processed : processor.processFlashblock node state.nextAddress state.pendingBlocks
      flashblock = .ok (some pending) := by
    rw [published]
    unfold StateProcessor.processFlashblock
    dsimp only
    rw [show flashblock.metadata.blockNumber = flashblock.blockNumber from rfl, verdict]
  generalize applied : processor.applyFlashblock node state.pendingBlocks flashblock state = next
  have outcome := @applyFlashblock_applied processor node state.pendingBlocks flashblock state
  rw [applied] at outcome
  cases outcome with
  | rejected cached => rfl
  | cleared fresh _ unpublished => rfl
  | unchanged fresh _ isPublished before same => rfl
  | broadcast fresh reprocessed isPublished differs =>
      rw [processed] at reprocessed
      cases reprocessed
      obtain ⟨isNew, -⟩ := publishable_some isPublished
      cases isNew
      exact absurd rfl (differs pending published)

end Application

/-! ## Whole updates -/

theorem builds_canonical_latest {node : Node} {block : Block} {pending : Arc PendingBlocks}
    {built : PendingBlocks} (sound : Sound processor pending.value)
    (builds : Builds processor node (some pending) (.canonical block) built) :
    built.flashblocks.getLast? = pending.value.flashblocks.getLast? := by
  obtain ⟨builtSound, lists⟩ := builds_sound (by rintro other ⟨⟩; exact sound) (by simp) builds
  obtain ⟨first, isFirst, -, -⟩ := builtSound.first
  clear builds builtSound
  generalize built.flashblocks = flashblocks at lists isFirst ⊢
  cases lists with
  | continued => rfl
  | retained =>
      obtain ⟨last, isLast, number, -, -⟩ := sound.last
      obtain ⟨others, shape⟩ := List.getLast?_eq_some_iff.mp isLast
      have kept := List.mem_filter.mp (List.mem_of_head? isFirst)
      have above : node.effectiveCanonicalNumber block.number < first.blockNumber :=
        of_decide_eq_true kept.2
      have below := sound.le_latest kept.1
      have lastAbove : node.effectiveCanonicalNumber block.number < last.metadata.blockNumber := by
        have same : last.metadata.blockNumber = last.blockNumber := rfl
        omega
      rw [retained, shape, List.filter_append]
      simp [lastAbove]

theorem inStep_kept : Kept processor (Guard.onWire FlashBlock.NumbersAgree) (InStep processor) where
  initial := by
    intro client
    refine ⟨⟨?_, ?_⟩, ?_, ?_, ?_⟩
    · simp [StateProcessor.initial]
    · simp [StateProcessor.initial]
    · simp [StateProcessor.initial]
    · simp [StateProcessor.initial]
    · intro position after found
      simp [StateProcessor.initial] at found
  clear := by
    intro state inStep
    exact ⟨⟨by simp, inStep.snapshots.2⟩, by simp, by simp, inStep.gapless⟩
  apply := fun node state flashblock inStep agree _ => (apply_inStep inStep agree).1
  reconcile := by
    intro node state block new inStep met reconciled
    have kept : KeptByBuilds processor (Guard.onWire FlashBlock.NumbersAgree) (Sound processor) :=
      sound_kept fun _ agree => agree
    have snapshots := kept.kept.reconcile node state block new inStep.snapshots met reconciled
    refine ⟨snapshots, ?_, ?_, inStep.gapless⟩
    · intro pending published
      obtain ⟨rfl, -⟩ := publishable_some published
      obtain ⟨built, rfl, -⟩ := processCanonicalBlock_new reconciled
      exact Nat.lt_succ_self _
    · intro pending published
      obtain ⟨rfl, -⟩ := publishable_some published
      obtain ⟨built, rfl, builds⟩ := processCanonicalBlock_new reconciled
      cases cell : state.pendingBlocks with
      | none =>
          rw [cell] at builds
          cases builds
      | some old =>
          rw [cell] at builds
          obtain ⟨latest, isLatest, sameEnd⟩ := inStep.aligned old cell
          refine ⟨latest, isLatest, ?_⟩
          rw [sameEnd, builds_canonical_latest (inStep.snapshots.1 old cell) builds]

/-- The flashblocks an update may apply: the one it carries, or the cached ones of
the block after the canonical one. -/
def candidates (state : ProcessorState) : StateUpdate → List FlashBlock
  | .flashblock flashblock => [flashblock]
  | .canonical block =>
      ((state.cache.updateCanonical block.number).drain (block.number + 1)).1

theorem replay_streams (nodes : Nat → Node) (flashblocks : List FlashBlock)
    {state : ProcessorState} (inStep : InStep processor state)
    (agree : ∀ flashblock ∈ flashblocks, flashblock.NumbersAgree) :
    ∃ added streamed, streamed.Sublist flashblocks ∧
      (processor.replayCached nodes flashblocks state).sent = state.sent ++ added ∧
      List.Forall₂ (fun pending flashblock => Streams processor pending.value flashblock)
        added streamed := by
  induction flashblocks generalizing nodes state with
  | nil => exact ⟨[], [], List.Sublist.refl [], by simp [StateProcessor.replayCached], .nil⟩
  | cons flashblock rest ih =>
      rw [replayCached_cons]
      have loaded := inStep_kept.load (nodes 0) inStep
      obtain ⟨next, effect⟩ := @apply_inStep processor (nodes 0) _ flashblock loaded
        (agree flashblock (List.mem_cons_self ..))
      obtain ⟨added, streamed, inRest, stream, related⟩ := ih (fun i => nodes (i + 1)) next
        fun other member => agree other (List.mem_cons_of_mem _ member)
      rw [stream]
      rcases effect with ⟨quiet, -⟩ | ⟨pending, loud, -, streams⟩
      · rw [quiet, load_sent]
        exact ⟨added, streamed, inRest.cons flashblock, rfl, related⟩
      · rw [loud, load_sent]
        exact ⟨pending :: added, flashblock :: streamed, inRest.cons_cons flashblock, by simp,
          .cons streams related⟩

theorem update_streams (nodes : Nat → Node) (update : StateUpdate) {state : ProcessorState}
    (inStep : InStep processor state)
    (agree : ∀ flashblock ∈ candidates (load processor (nodes 0) state) update,
      flashblock.NumbersAgree) :
    ∃ added streamed, streamed.Sublist (candidates (load processor (nodes 0) state) update) ∧
      (processor.processUpdate nodes update state).sent = state.sent ++ added ∧
      List.Forall₂ (fun pending flashblock => Streams processor pending.value flashblock)
        added streamed := by
  have loaded := inStep_kept.load (nodes 0) inStep
  cases update with
  | flashblock flashblock =>
      rw [processUpdate_flashblock]
      obtain ⟨-, effect⟩ := @apply_inStep processor (nodes 0) _ flashblock loaded
        (agree flashblock (List.mem_singleton_self flashblock))
      rcases effect with ⟨quiet, -⟩ | ⟨pending, loud, -, streams⟩
      · exact ⟨[], [], List.nil_sublist _, by rw [quiet, load_sent, List.append_nil], .nil⟩
      · exact ⟨[pending], [flashblock], List.Sublist.refl _, by rw [loud, load_sent],
          .cons streams .nil⟩
  | canonical block =>
      cases reconciled : processor.processCanonicalBlock (nodes 0)
          (load processor (nodes 0) state).nextAddress
          (load processor (nodes 0) state).pendingBlocks block with
      | error failure =>
          rw [processUpdate_canonical_error nodes block state reconciled, load_sent]
          exact ⟨[], [], List.nil_sublist _, by simp, .nil⟩
      | ok new =>
          rw [processUpdate_canonical_ok nodes block state reconciled]
          have published := inStep_kept.reconcile (nodes 0) _ block new loaded trivial reconciled
          obtain ⟨added, streamed, inside, stream, related⟩ :=
            replay_streams (fun i => nodes (i + 1)) _ published agree
          refine ⟨added, streamed, inside, stream.trans ?_, related⟩
          simp [StateProcessor.publishReconciled]

/-- In every run: every broadcast streams its latest flashblock, the stream has no
gap, an application either leaves it alone or adds the one snapshot that streams
the applied flashblock, a duplicate adds none, and neither does a canonical block,
apart from the cached flashblocks it releases. -/
theorem visible_stream {state : ProcessorState}
    (visible : Visible processor (Guard.onWire FlashBlock.NumbersAgree) state) :
    (∀ pending ∈ state.sent, ∃ flashblock, Streams processor pending.value flashblock) ∧
    Gapless state.sent ∧
    (∀ node flashblock, flashblock.NumbersAgree →
      Effect processor flashblock (load processor node state)
        (processor.applyFlashblock node (load processor node state).pendingBlocks flashblock
          (load processor node state))) ∧
    (∀ node flashblock pending, (load processor node state).pendingBlocks = some pending →
      Repeats pending.value flashblock →
      (processor.applyFlashblock node (load processor node state).pendingBlocks flashblock
        (load processor node state)).sent = state.sent) ∧
    ∀ nodes block, ∃ added streamed,
      streamed.Sublist (candidates (load processor (nodes 0) state) (.canonical block)) ∧
      (processor.processUpdate nodes (.canonical block) state).sent = state.sent ++ added ∧
      List.Forall₂ (fun pending flashblock => Streams processor pending.value flashblock)
        added streamed := by
  obtain ⟨inStep, cached⟩ := inStep_kept.visible visible
  refine ⟨?_, inStep.gapless, ?_, ?_, ?_⟩
  · intro pending member
    have sound := inStep.snapshots.2 pending member
    obtain ⟨last, isLast, -⟩ := sound.last
    exact ⟨last, Sound.streams sound isLast⟩
  · intro node flashblock agree
    exact (apply_inStep (inStep_kept.load node inStep) agree).2
  · intro node flashblock pending published repeats
    rw [apply_duplicate published repeats, load_sent]
  · intro nodes block
    refine update_streams nodes (.canonical block) inStep ?_
    intro flashblock member
    obtain ⟨index, found⟩ := (FlashblockCache.mem_drain _ _ flashblock).mp member
    have loadedCached : CacheFromWire (Guard.onWire FlashBlock.NumbersAgree)
        (load processor (nodes 0) state) := cacheFromWire_load (nodes 0) cached
    exact FlashblockCache.Stores.updateCanonical loadedCached block.number _ _ _ found

/-- Three flashblocks over two blocks, and the first one once more. -/
theorem visible_stream_three :
    ∃ state : ProcessorState, state.sent.length = 3 ∧
      (∀ pending ∈ state.sent, ∃ flashblock,
        Streams Reference.processor pending.value flashblock) ∧ Gapless state.sent := by
  let flashblocks := [Reference.flashblock 7 1 0 [(1, 0)] [(1, true)],
    Reference.flashblock 7 1 0 [(1, 0)] [(1, true)],
    Reference.flashblock 7 1 1 [(2, 1), (3, 2)] [(2, true), (3, true)],
    Reference.flashblock 8 2 0 [(4, 3)] [(4, true)]]
  let state := Reference.afterFlashblocks (Reference.nodeAt 0 fun _ => 0) flashblocks
  have agree : ∀ flashblock ∈ flashblocks, flashblock.NumbersAgree := by
    intro flashblock member
    simp only [flashblocks, List.mem_cons, List.not_mem_nil, or_false] at member
    rcases member with rfl | rfl | rfl | rfl <;> exact Reference.flashblock_agrees _ _ _ _ _
  have reached := Reference.afterFlashblocks_reachable (Reference.nodeAt 0 fun _ => 0) agree
  obtain ⟨streams, gapless, -⟩ := visible_stream (.reached reached)
  exact ⟨state, by decide, streams, gapless⟩

end EthgasReth.Broadcast

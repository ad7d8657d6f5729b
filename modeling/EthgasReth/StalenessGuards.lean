import EthgasReth.Contiguous

/-!
# Three guards against a stale snapshot

The reconciler, the publishing step and the receiving task each bound how far a snapshot
may lag behind the chain, measured from its earliest block.  The reconciler decides at
the effective canonical height and the other two at a tip that is not above it, and what
the reconciler leads to passes both.
-/

set_option autoImplicit false

namespace EthgasReth.StalenessGuards

open EthgasReth.Primitives
open EthgasReth.Lib
open EthgasReth.Pending
open EthgasReth.Build
open EthgasReth.Build.StateProcessor
open EthgasReth.Validation
open EthgasReth.Processor
open EthgasReth.Run
open EthgasReth.Ledger
open EthgasReth.BuildSpec
open EthgasReth.Snapshots
open EthgasReth.Contiguous

/-! ## Snapshots with consecutive block numbers -/

def SameOrNext (before after : FlashBlock) : Prop :=
  after.blockNumber = before.blockNumber ∨ after.blockNumber = before.blockNumber + 1

/-- The flashblocks run through the blocks from the earliest to the latest. -/
structure Consecutive (pending : PendingBlocks) : Prop where
  agree : ∀ flashblock ∈ pending.flashblocks, flashblock.NumbersAgree
  chain : pending.flashblocks.IsChain SameOrNext
  earliest : pending.flashblocks.head?.map FlashBlock.blockNumber =
    some pending.earliestBlockNumber
  latest : pending.flashblocks.getLast?.map FlashBlock.blockNumber =
    some pending.latestBlockNumber

theorem sameOrNext_ordered {flashblocks : List FlashBlock}
    (chain : flashblocks.IsChain SameOrNext) : Ordered flashblocks := by
  have increasing : flashblocks.IsChain fun before after =>
      before.blockNumber ≤ after.blockNumber := by
    apply chain.imp
    intro before after step
    unfold SameOrNext at step
    omega
  exact List.isChain_iff_pairwise.mp increasing

variable {processor : StateProcessor}

theorem consecutive_of_sound {pending : PendingBlocks} (sound : Sound processor pending) :
    Consecutive pending := by
  obtain ⟨first, isFirst, _, earliest⟩ := sound.first
  obtain ⟨last, isLast, latest, _⟩ := sound.last
  constructor
  · exact sound.agree
  · apply sound.gapFree.chain.imp
    intro before after follows
    unfold Follows at follows
    unfold SameOrNext
    omega
  · rw [isFirst, earliest, Option.map_some]
  · rw [isLast, latest, Option.map_some]

theorem build_ends {client : Client} {prev : Option PendingBlocks}
    {flashblocks : List FlashBlock} {built : PendingBlocks} (ordered : Ordered flashblocks)
    (agree : ∀ flashblock ∈ flashblocks, flashblock.NumbersAgree)
    (success : processor.buildPendingState client prev flashblocks = .ok (some built)) :
    flashblocks.head?.map FlashBlock.blockNumber = some built.earliestBlockNumber ∧
      flashblocks.getLast?.map FlashBlock.blockNumber = some built.latestBlockNumber := by
  obtain ⟨run, returns⟩ := buildPendingState_ok success
  obtain ⟨perBlock, describes⟩ := returns_describes ordered agree returns
  have nonempty : flashblocks ≠ [] := by
    intro empty
    rw [empty] at success
    cases success
  have isFirst := List.head?_eq_some_head nonempty
  have isLast := List.getLast?_eq_some_getLast nonempty
  rw [describes.first ordered isFirst, describes.last ordered isLast, isFirst, isLast]
  exact ⟨rfl, rfl⟩

/-! ## The strategies -/

def reconciled (processor : StateProcessor) (client : Client) (pending : PendingBlocks)
    (canonicalNumber : Nat) (requiresRebuild : Bool) : Result (Option PendingBlocks) :=
  match CanonicalBlockReconciler.reconcile (some pending.earliestBlockNumber)
      (some pending.latestBlockNumber) canonicalNumber processor.maxDepth requiresRebuild with
  | .catchUp => .ok none
  | .handleReorg | .depthLimitExceeded _ _ =>
      processor.buildPendingState client none
        (pending.flashblocks.filter fun flashblock =>
          canonicalNumber < flashblock.metadata.blockNumber)
  | .continue => processor.buildPendingState client (some pending) pending.flashblocks
  | .noPendingState => .ok none

def verdict (pending : PendingBlocks) (block : Block) : Bool :=
  (ReorgDetector.detect ((pending.getTransactionsForBlock block.number).map (·.txHash))
    block.txHashes).requiresRebuild

theorem buildShared_eq (node : Node) (address : Nat) (prev : Option (Arc PendingBlocks))
    (flashblocks : List FlashBlock) :
    processor.buildShared node address prev flashblocks =
      (processor.buildPendingState node.client (prev.map (·.value)) flashblocks).map
        (Option.map (Arc.mk address)) := by
  unfold StateProcessor.buildShared
  cases processor.buildPendingState node.client (prev.map (·.value)) flashblocks with
  | error failure => rfl
  | ok built => cases built <;> rfl

theorem processCanonicalBlock_reconciled (node : Node) (address : Nat)
    (pending : Arc PendingBlocks) (block : Block) :
    processor.processCanonicalBlock node address (some pending) block =
      (reconciled processor node.client pending.value
        (node.effectiveCanonicalNumber block.number) (verdict pending.value block)).map
        (Option.map (Arc.mk address)) := by
  simp only [StateProcessor.processCanonicalBlock, reconciled, verdict, buildShared_eq]
  generalize CanonicalBlockReconciler.reconcile (some pending.value.earliestBlockNumber)
    (some pending.value.latestBlockNumber) (node.effectiveCanonicalNumber block.number)
    processor.maxDepth _ = strategy
  cases strategy with
  | catchUp => rfl
  | handleReorg => rfl
  | depthLimitExceeded depth maxDepth => rfl
  | «continue» => rfl
  | noPendingState => rfl

/-! ## The guards -/

def Extends (processor : StateProcessor) (height : Nat) (pending : PendingBlocks) : Prop :=
  height - pending.earliestBlockNumber ≤ processor.maxDepth ∧ height < pending.latestBlockNumber

theorem extendsCanonicalTip_iff {node : Node} {best : Nat} (tip : node.canonicalTip = some best)
    (pending : PendingBlocks) :
    processor.extendsCanonicalTip node pending = true ↔ Extends processor best pending := by
  simp only [StateProcessor.extendsCanonicalTip, tip, StateProcessor.isAnchoredNear, Extends]
  by_cases near : best - pending.earliestBlockNumber ≤ processor.maxDepth
  · by_cases behind : pending.latestBlockNumber ≤ best
    · simp [near, behind]
    · have beyond : best < pending.latestBlockNumber := by omega
      simp [near, behind, beyond]
  · simp [near]

theorem Extends.below {height best : Nat} {pending : PendingBlocks}
    (extends_ : Extends processor height pending) (below : best ≤ height) :
    Extends processor best pending := by
  unfold Extends at extends_ ⊢
  omega

/-- At this tip the publishing step and the receiving task both leave the snapshot. -/
structure Kept (processor : StateProcessor) (best : Nat) (snapshot : PendingBlocks) : Prop where
  published : ∀ (node : Node) (address : Nat), node.canonicalTip = some best →
    processor.publishable node (some ⟨address, snapshot⟩) = some ⟨address, snapshot⟩
  undropped : ∀ (state : ProcessorState) (address : Nat),
    state.pendingBlocks = some ⟨address, snapshot⟩ →
      processor.dropPendingBehind best state = state

theorem Extends.kept {best : Nat} {snapshot : PendingBlocks}
    (extends_ : Extends processor best snapshot) : Kept processor best snapshot := by
  constructor
  · intro node address tip
    have isExtending := (extendsCanonicalTip_iff tip snapshot).mpr extends_
    simp only [StateProcessor.publishable, isExtending, if_true]
  · intro state address cell
    simp only [StateProcessor.dropPendingBehind, cell, if_pos extends_.1]

/-- The reconciler leaves a snapshot as it is only where it extends the height. -/
theorem continue_extends {pending : PendingBlocks} {canonicalNumber : Nat}
    {requiresRebuild : Bool}
    (continues : CanonicalBlockReconciler.reconcile (some pending.earliestBlockNumber)
      (some pending.latestBlockNumber) canonicalNumber processor.maxDepth requiresRebuild =
        .continue) : Extends processor canonicalNumber pending := by
  simp only [CanonicalBlockReconciler.reconcile] at continues
  unfold Extends
  split at continues
  · cases continues
  · split at continues
    · cases continues
    · split at continues
      · cases continues
      · omega

theorem retained_extends {client : Client} {pending built : PendingBlocks}
    {canonicalNumber : Nat} (consecutive : Consecutive pending)
    (success : processor.buildPendingState client none
      (pending.flashblocks.filter fun flashblock =>
        canonicalNumber < flashblock.metadata.blockNumber) = .ok (some built)) :
    Extends processor canonicalNumber built := by
  have above : ∀ flashblock ∈ pending.flashblocks.filter fun flashblock =>
      decide (canonicalNumber < flashblock.metadata.blockNumber),
      canonicalNumber < flashblock.blockNumber := by
    intro flashblock member
    exact of_decide_eq_true (List.mem_filter.mp member).2
  have ordered := (sameOrNext_ordered consecutive.chain).filter fun flashblock =>
    decide (canonicalNumber < flashblock.metadata.blockNumber)
  obtain ⟨earliest, latest⟩ := build_ends ordered
    (fun flashblock member => consecutive.agree flashblock (List.mem_of_mem_filter member)) success
  obtain ⟨first, isFirst, firstNumber⟩ := Option.map_eq_some_iff.mp earliest
  obtain ⟨last, isLast, lastNumber⟩ := Option.map_eq_some_iff.mp latest
  have firstAbove := above first (List.mem_of_mem_head? isFirst)
  have lastAbove := above last (List.mem_of_getLast? isLast)
  unfold Extends
  omega

theorem continued_extends {client : Client} {prev : Option PendingBlocks}
    {pending built : PendingBlocks} {canonicalNumber : Nat} (consecutive : Consecutive pending)
    (extends_ : Extends processor canonicalNumber pending)
    (success : processor.buildPendingState client prev pending.flashblocks = .ok (some built)) :
    Extends processor canonicalNumber built := by
  obtain ⟨earliest, latest⟩ := build_ends (sameOrNext_ordered consecutive.chain)
    consecutive.agree success
  rw [consecutive.earliest] at earliest
  rw [consecutive.latest] at latest
  unfold Extends at extends_ ⊢
  rw [← Option.some.inj earliest, ← Option.some.inj latest]
  exact extends_

theorem reconciled_extends {client : Client} {pending built : PendingBlocks}
    {canonicalNumber : Nat} {requiresRebuild : Bool} (consecutive : Consecutive pending)
    (success : reconciled processor client pending canonicalNumber requiresRebuild =
      .ok (some built)) : Extends processor canonicalNumber built := by
  unfold reconciled at success
  split at success
  · cases success
  · exact retained_extends consecutive success
  · exact retained_extends consecutive success
  · rename_i continues
    exact continued_extends consecutive (continue_extends continues) success
  · cases success

/-- What the reconciler leads to passes the other guards at every tip up to its height, and
it continues nothing that the publishing step would drop there. -/
theorem staleness_guards_agree {pending : PendingBlocks} (consecutive : Consecutive pending)
    (canonicalNumber : Nat) (requiresRebuild : Bool) :
    (∀ client built,
      reconciled processor client pending canonicalNumber requiresRebuild = .ok (some built) →
        ∀ best ≤ canonicalNumber, Kept processor best built) ∧
    (∀ node : Node, node.canonicalTip = some canonicalNumber →
      processor.extendsCanonicalTip node pending = false →
        CanonicalBlockReconciler.reconcile (some pending.earliestBlockNumber)
          (some pending.latestBlockNumber) canonicalNumber processor.maxDepth requiresRebuild ≠
            .continue) ∧
    (∀ (node : Node) (address held : Nat) (block : Block),
      node.effectiveCanonicalNumber block.number = canonicalNumber →
        verdict pending block = requiresRebuild →
          processor.processCanonicalBlock node address (some ⟨held, pending⟩) block =
            (reconciled processor node.client pending canonicalNumber requiresRebuild).map
              (Option.map (Arc.mk address))) := by
  refine ⟨?_, ?_, ?_⟩
  · intro client built success best below
    exact ((reconciled_extends consecutive success).below below).kept
  · intro node tip drops continues
    have isExtending := (extendsCanonicalTip_iff tip pending).mpr (continue_extends continues)
    rw [drops] at isExtending
    cases isExtending
  · intro node address held block height verdictEq
    rw [processCanonicalBlock_reconciled, height, verdictEq]

/-- Blocks 1 and 2 are pending when block 1 comes with other transactions: the snapshot is
rebuilt from block 2 and passes the guards at tip 1. -/
theorem staleness_guards_agree_reorg :
    ∃ pending built,
      (Reference.afterFlashblocks (Reference.nodeAt 0 fun _ => 0) threeFlashblocks).pendingBlocks =
        some pending ∧
      reconciled Reference.processor (Reference.nodeAt 1 fun _ => 2).client pending.value 1 true =
        .ok (some built) ∧
      built.earliestBlockNumber = 2 ∧ Kept Reference.processor 1 built := by
  have agree : ∀ flashblock ∈ threeFlashblocks, flashblock.NumbersAgree := by
    intro flashblock member
    simp only [threeFlashblocks, List.mem_cons, List.not_mem_nil, or_false] at member
    rcases member with rfl | rfl | rfl <;> exact Reference.flashblock_agrees _ _ _ _ _
  have reached := Reference.afterFlashblocks_reachable (Reference.nodeAt 0 fun _ => 0) agree
  have kept : KeptByBuilds Reference.processor (Guard.onWire FlashBlock.NumbersAgree)
      (Sound Reference.processor) := sound_kept fun _ agree => agree
  obtain ⟨pending, published⟩ := Option.isSome_iff_exists.mp (show (Reference.afterFlashblocks
    (Reference.nodeAt 0 fun _ => 0) threeFlashblocks).pendingBlocks.isSome = true by decide)
  have sound := (kept.visible (.reached reached)).1 pending published
  have rebuilt : ((Reference.afterFlashblocks (Reference.nodeAt 0 fun _ => 0)
      threeFlashblocks).pendingBlocks.bind fun pending =>
        (reconciled Reference.processor (Reference.nodeAt 1 fun _ => 2).client pending.value 1
          true).toOption.bind fun built => built.map (·.earliestBlockNumber)) = some 2 := by
    decide
  rw [published, Option.bind_some] at rebuilt
  obtain ⟨result, returned, rebuilt⟩ := Option.bind_eq_some_iff.mp rebuilt
  obtain ⟨built, isBuilt, earliest⟩ := Option.map_eq_some_iff.mp rebuilt
  have success := toOption_eq_some returned
  rw [isBuilt] at success
  have guards := @staleness_guards_agree Reference.processor _ (consecutive_of_sound sound) 1 true
  exact ⟨pending, built, published, success, earliest, guards.1 _ built success 1 le_rfl⟩

end EthgasReth.StalenessGuards

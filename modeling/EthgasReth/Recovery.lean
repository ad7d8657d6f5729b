import EthgasReth.Contiguous

/-!
# Recovery at the canonical tip

The next tip-rooted flashblock should rebuild a snapshot that fell behind.  Loading
drops only what is anchored too far below the tip, so the flashblock is validated
against whatever else is left: below the tip it clears the snapshot and is lost,
and at the tip it has to build on the leftover.
-/

set_option autoImplicit false

namespace EthgasReth.Recovery

open EthgasReth.Primitives
open EthgasReth.Lib
open EthgasReth.Pending
open EthgasReth.Build
open EthgasReth.Build.StateProcessor
open EthgasReth.BuildSpec
open EthgasReth.Validation
open EthgasReth.Processor
open EthgasReth.Run
open EthgasReth.Snapshots
open EthgasReth.Contiguous

variable {processor : StateProcessor}

def Publishes (flashblock : FlashBlock) (state : ProcessorState) : Prop :=
  ∃ pending, state.pendingBlocks = some pending ∧
    pending.value.flashblocks.getLast? = some flashblock

section Tip

variable {node : Node} {best : Nat}

theorem isSuperseded_above (tip : node.client.bestBlockNumber = .ok best) {flashblock : FlashBlock}
    (number : flashblock.blockNumber = best + 1) :
    node.isSuperseded flashblock = decide (best < node.lastCanonicalBlock) := by
  have same : flashblock.metadata.blockNumber = best + 1 := number
  simp only [Node.isSuperseded, Node.effectiveCanonicalNumber, Node.canonicalTip, tip, same,
    decide_eq_decide]
  omega

theorem publishable_of (tip : node.client.bestBlockNumber = .ok best) {new : Arc PendingBlocks}
    (ahead : best < new.value.latestBlockNumber)
    (near : best - new.value.earliestBlockNumber ≤ processor.maxDepth) :
    processor.publishable node (some new) = some new := by
  have isNear : processor.isAnchoredNear new.value best = true := decide_eq_true near
  simp [StateProcessor.publishable, StateProcessor.extendsCanonicalTip, Node.canonicalTip, tip,
    isNear, ahead]

theorem load_near (tip : node.client.bestBlockNumber = .ok best) {state : ProcessorState}
    {pending : Arc PendingBlocks} (loaded : (load processor node state).pendingBlocks = some pending) :
    state.pendingBlocks = some pending ∧
      best - pending.value.earliestBlockNumber ≤ processor.maxDepth := by
  unfold load StateProcessor.loadPendingOrDropStale at loaded
  cases cell : state.pendingBlocks with
  | none =>
      simp only [cell] at loaded
      cases loaded
  | some other =>
      simp only [cell, Node.canonicalTip, tip] at loaded
      split at loaded
      · rename_i near
        rw [cell] at loaded
        cases loaded
        exact ⟨rfl, of_decide_eq_true near⟩
      · cases loaded

end Tip

/-- Against a snapshot below the tip, index zero of the block above the tip is the
first of the next block or out of place. -/
theorem processFlashblock_tip {node : Node} {address : Nat} {pending : Arc PendingBlocks}
    {flashblock : FlashBlock} {best : Nat} (first : flashblock.index = 0)
    (number : flashblock.blockNumber = best + 1)
    (behind : pending.value.latestBlockNumber ≤ best) :
    processor.processFlashblock node address (some pending) flashblock =
      if pending.value.latestBlockNumber = best then
        processor.buildShared node address (some pending) (pending.value.flashblocks ++ [flashblock])
      else .ok none := by
  have same : flashblock.metadata.blockNumber = best + 1 := number
  unfold StateProcessor.processFlashblock
  dsimp only
  by_cases atTip : pending.value.latestBlockNumber = best
  · have verdict : FlashblockSequenceValidator.validate pending.value.latestBlockNumber
        pending.value.latestFlashblockIndex pending.value.payloadId
        flashblock.metadata.blockNumber flashblock.index flashblock.payloadId =
          .firstOfNextBlock := validate_firstOfNextBlock.mpr ⟨by omega, first⟩
    rw [verdict, if_pos atTip]
  · have verdict : FlashblockSequenceValidator.validate pending.value.latestBlockNumber
        pending.value.latestFlashblockIndex pending.value.payloadId
        flashblock.metadata.blockNumber flashblock.index flashblock.payloadId =
          .invalidNewBlockIndex flashblock.metadata.blockNumber flashblock.index := by
      unfold FlashblockSequenceValidator.validate
      rw [if_neg (by omega), if_neg (by omega), if_neg (by omega), if_pos (by omega)]
    rw [verdict, if_neg atTip]

theorem apply_publishes {node : Node} {best : Nat} {state : ProcessorState}
    {flashblock : FlashBlock} {new : Arc PendingBlocks}
    (tip : node.client.bestBlockNumber = .ok best) (number : flashblock.blockNumber = best + 1)
    (fresh : node.isSuperseded flashblock = false)
    (processed : processor.processFlashblock node state.nextAddress state.pendingBlocks flashblock =
      .ok (some new))
    (sound : Sound processor new.value) (isLast : new.value.flashblocks.getLast? = some flashblock)
    (near : best - new.value.earliestBlockNumber ≤ processor.maxDepth) :
    Publishes flashblock
      (processor.applyFlashblock node state.pendingBlocks flashblock state) := by
  obtain ⟨last, isLast', latest, -, -⟩ := sound.last
  have same : last = flashblock := Option.some.inj (isLast'.symm.trans isLast)
  have ahead : best < new.value.latestBlockNumber := by
    rw [latest, same]
    omega
  have published : processor.publishable node (some new) = some new :=
    publishable_of tip ahead near
  refine ⟨new, ?_, isLast⟩
  simp only [StateProcessor.applyFlashblock, fresh, processed, published, Bool.false_eq_true,
    if_false]

theorem apply_absent {node : Node} {best : Nat} {state : ProcessorState} {flashblock : FlashBlock}
    {built : PendingBlocks} (tip : node.client.bestBlockNumber = .ok best)
    (agree : flashblock.NumbersAgree) (first : flashblock.index = 0)
    (number : flashblock.blockNumber = best + 1) (fresh : node.isSuperseded flashblock = false)
    (absent : state.pendingBlocks = none)
    (success : processor.buildPendingState node.client none [flashblock] = .ok (some built)) :
    Publishes flashblock
      (processor.applyFlashblock node state.pendingBlocks flashblock state) := by
  obtain ⟨sound, whole⟩ := build_sound (gapFree_singleton first) (by simpa using agree) success
  obtain ⟨start, isStart, -, earliest⟩ := sound.first
  have same : flashblock = start := by simpa [whole] using isStart
  have processed : processor.processFlashblock node state.nextAddress state.pendingBlocks
      flashblock = .ok (some ⟨state.nextAddress, built⟩) := by
    rw [absent]
    simp only [StateProcessor.processFlashblock, first, if_true, StateProcessor.buildShared,
      Option.map_none, success]
    rfl
  refine apply_publishes tip number fresh processed sound (by simp [whole]) ?_
  dsimp only
  rw [earliest, ← same]
  omega

theorem apply_appended {node : Node} {best : Nat} {state : ProcessorState}
    {flashblock : FlashBlock} {pending : Arc PendingBlocks} {built : PendingBlocks}
    (tip : node.client.bestBlockNumber = .ok best) (old : Sound processor pending.value)
    (agree : flashblock.NumbersAgree) (first : flashblock.index = 0)
    (number : flashblock.blockNumber = best + 1) (fresh : node.isSuperseded flashblock = false)
    (present : state.pendingBlocks = some pending)
    (near : best - pending.value.earliestBlockNumber ≤ processor.maxDepth)
    (atTip : pending.value.latestBlockNumber = best)
    (success : processor.buildPendingState node.client (some pending.value)
      (pending.value.flashblocks ++ [flashblock]) = .ok (some built)) :
    Publishes flashblock
      (processor.applyFlashblock node state.pendingBlocks flashblock state) := by
  have gapFree := old.follows (Or.inr ⟨by omega, first⟩)
  have agrees : ∀ other ∈ pending.value.flashblocks ++ [flashblock], other.NumbersAgree := by
    intro other member
    rcases List.mem_append.mp member with member | member
    · exact old.agree other member
    · rw [List.mem_singleton.mp member]
      exact agree
  obtain ⟨sound, whole⟩ := build_sound gapFree agrees success
  obtain ⟨oldFirst, isOldFirst, -, oldEarliest⟩ := old.first
  obtain ⟨start, isStart, -, earliest⟩ := sound.first
  have same : oldFirst = start := by
    rw [whole, List.head?_append, isOldFirst] at isStart
    simpa using isStart
  have processed : processor.processFlashblock node state.nextAddress state.pendingBlocks
      flashblock = .ok (some ⟨state.nextAddress, built⟩) := by
    rw [present, processFlashblock_tip first number (by omega), if_pos atTip]
    simp only [StateProcessor.buildShared, Option.map_some, success]
    rfl
  refine apply_publishes tip number fresh processed sound (by simp [whole]) ?_
  dsimp only
  rw [earliest, ← same, ← oldEarliest]
  exact near

/-- Conversely, a flashblock that replaced a snapshot below the tip was appended to
it. -/
theorem publishes_appended {node : Node} {best : Nat} {state : ProcessorState}
    {flashblock : FlashBlock} {pending : Arc PendingBlocks} (first : flashblock.index = 0)
    (number : flashblock.blockNumber = best + 1)
    (behind : pending.value.latestBlockNumber ≤ best)
    (present : state.pendingBlocks = some pending) (notYet : ¬ Publishes flashblock state)
    (publishes : Publishes flashblock
      (processor.applyFlashblock node state.pendingBlocks flashblock state)) :
    pending.value.latestBlockNumber = best ∧
      ∃ built, processor.buildPendingState node.client (some pending.value)
        (pending.value.flashblocks ++ [flashblock]) = .ok (some built) := by
  have appended : ∀ new candidate,
      processor.processFlashblock node state.nextAddress state.pendingBlocks flashblock = .ok new →
      processor.publishable node new = some candidate →
      pending.value.latestBlockNumber = best ∧
        ∃ built, processor.buildPendingState node.client (some pending.value)
          (pending.value.flashblocks ++ [flashblock]) = .ok (some built) := by
    intro new candidate processed published
    obtain ⟨isNew, -⟩ := publishable_some published
    rw [present, processFlashblock_tip first number behind] at processed
    split at processed
    · rename_i atTip
      rcases buildShared_ok processed with ⟨-, empty⟩ | ⟨built, -, success⟩
      · simp at empty
      · exact ⟨atTip, built, success⟩
    · cases processed
      cases isNew
  generalize applied : processor.applyFlashblock node state.pendingBlocks flashblock state = next
    at publishes
  have outcome := @applyFlashblock_applied processor node state.pendingBlocks flashblock state
  rw [applied] at outcome
  cases outcome with
  | rejected cached => exact absurd publishes notYet
  | cleared fresh processed unpublished =>
      obtain ⟨other, absent, -⟩ := publishes
      cases absent
  | unchanged fresh processed published before same => exact appended _ _ processed published
  | broadcast fresh processed published differs => exact appended _ _ processed published

/-- Exactly when a flashblock rooted at the tip gets a stale or absent snapshot
replaced: no later block was notified, and what loading left, if anything, ends at
the tip and can be built upon. -/
theorem tip_flashblock_published_iff {state : ProcessorState}
    (reached : Reachable processor (Guard.onWire FlashBlock.NumbersAgree) state) {node : Node}
    {best : Nat} (tip : node.client.bestBlockNumber = .ok best)
    (stale : ∀ pending, state.pendingBlocks = some pending →
      pending.value.latestBlockNumber ≤ best)
    {flashblock : FlashBlock} (agree : flashblock.NumbersAgree) (first : flashblock.index = 0)
    (number : flashblock.blockNumber = best + 1)
    (buildable : ∃ built, processor.buildPendingState node.client none [flashblock] =
      .ok (some built)) :
    Publishes flashblock (processor.processUpdate (fun _ => node) (.flashblock flashblock) state) ↔
      node.lastCanonicalBlock ≤ best ∧
        ∀ pending, (load processor node state).pendingBlocks = some pending →
          pending.value.latestBlockNumber = best ∧
          ∃ built, processor.buildPendingState node.client (some pending.value)
            (pending.value.flashblocks ++ [flashblock]) = .ok (some built) := by
  have kept : KeptByBuilds processor (Guard.onWire FlashBlock.NumbersAgree) (Sound processor) :=
    sound_kept fun _ agree => agree
  have loaded := kept.kept.load node (kept.kept.reachable reached).1
  have superseded := isSuperseded_above tip number
  have loadedStale : ∀ pending, (load processor node state).pendingBlocks = some pending →
      pending.value.latestBlockNumber ≤ best ∧
        best - pending.value.earliestBlockNumber ≤ processor.maxDepth := by
    intro pending isLoaded
    obtain ⟨before, near⟩ := load_near tip isLoaded
    exact ⟨stale pending before, near⟩
  rw [processUpdate_flashblock]
  generalize load processor node state = current at loaded loadedStale
  -- What the cell held ends below the flashblock, so it must have been replaced.
  have notYet : ¬ Publishes flashblock current := by
    rintro ⟨pending, isCurrent, isLast⟩
    obtain ⟨last, isLast', latest, -, -⟩ := (loaded.1 pending isCurrent).last
    have same : last = flashblock := Option.some.inj (isLast'.symm.trans isLast)
    have behind := (loadedStale pending isCurrent).1
    rw [latest, same] at behind
    omega
  by_cases canonical : node.lastCanonicalBlock ≤ best
  · have fresh : node.isSuperseded flashblock = false := by
      rw [superseded]
      exact decide_eq_false (by omega)
    cases cell : current.pendingBlocks with
    | none =>
        obtain ⟨built, success⟩ := buildable
        refine iff_of_true ?_ ⟨canonical, by simp⟩
        rw [← cell]
        exact apply_absent tip agree first number fresh cell success
    | some pending =>
        obtain ⟨behind, near⟩ := loadedStale pending cell
        rw [← cell]
        constructor
        · intro publishes
          refine ⟨canonical, ?_⟩
          intro other isOther
          have same : pending = other := Option.some.inj (cell.symm.trans isOther)
          subst same
          exact publishes_appended first number behind cell notYet publishes
        · rintro ⟨-, appendable⟩
          obtain ⟨atTip, built, success⟩ := appendable pending cell
          exact apply_appended tip (loaded.1 pending cell) agree first number fresh cell near atTip
            success
  · have skipped : processor.applyFlashblock node current.pendingBlocks flashblock current =
        current := by
      have isSuperseded : node.isSuperseded flashblock = true := by
        rw [superseded]
        exact decide_eq_true (by omega)
      simp [StateProcessor.applyFlashblock, isSuperseded]
    rw [skipped]
    exact iff_of_false notYet fun condition => canonical condition.1

theorem buildOk_of {result : Result (Option PendingBlocks)}
    (present : (result.toOption.bind id).isSome = true) : ∃ built, result = .ok (some built) := by
  cases result with
  | error failure => cases present
  | ok value =>
      cases value with
      | none => cases present
      | some built => exact ⟨built, rfl⟩

def firstBlock : List FlashBlock := [Reference.flashblock 7 1 0 [(1, 0)] [(1, true)]]

theorem firstBlock_reachable (node : Node) :
    Reachable Reference.processor (Guard.onWire FlashBlock.NumbersAgree)
      (Reference.afterFlashblocks node firstBlock) := by
  apply Reference.afterFlashblocks_reachable
  intro flashblock member
  rw [List.mem_singleton.mp member]
  exact Reference.flashblock_agrees _ _ _ _ _

/-- The snapshot ends at the tip, and the first flashblock of block 2 is built on
it. -/
theorem tip_flashblock_published_at_tip :
    Publishes (Reference.flashblock 8 2 0 [(2, 1)] [(2, true)])
      (Reference.processor.processUpdate (fun _ => Reference.nodeAt 1 id)
        (.flashblock (Reference.flashblock 8 2 0 [(2, 1)] [(2, true)]))
        (Reference.afterFlashblocks (Reference.nodeAt 0 id) firstBlock)) := by
  let state := Reference.afterFlashblocks (Reference.nodeAt 0 id) firstBlock
  let next := Reference.flashblock 8 2 0 [(2, 1)] [(2, true)]
  let client := (Reference.nodeAt 1 id).client
  have stale : state.pendingBlocks.all
      (fun pending => decide (pending.value.latestBlockNumber ≤ 1)) = true := by decide
  have appendable : (load Reference.processor (Reference.nodeAt 1 id) state).pendingBlocks.all
      (fun pending => decide (pending.value.latestBlockNumber = 1) &&
        ((Reference.processor.buildPendingState client (some pending.value)
          (pending.value.flashblocks ++ [next])).toOption.bind id).isSome) = true := by decide
  have buildable : ((Reference.processor.buildPendingState client none [next]).toOption.bind
      id).isSome = true := by decide
  refine (tip_flashblock_published_iff (firstBlock_reachable _) rfl ?_
    (Reference.flashblock_agrees _ _ _ _ _) rfl rfl ?_).mpr ⟨by decide, ?_⟩
  · intro pending published
    rw [published] at stale
    exact of_decide_eq_true stale
  · exact buildOk_of buildable
  · intro pending loaded
    rw [loaded] at appendable
    simp only [Option.all_some, Bool.and_eq_true, decide_eq_true_eq] at appendable
    exact ⟨appendable.1, buildOk_of appendable.2⟩

/-- The chain has moved two blocks past the snapshot's anchor without a
notification: the first flashblock of block 3 clears the snapshot of block 1 and
is lost. -/
theorem tip_flashblock_lost :
    ¬ ∀ (processor : StateProcessor) (state : ProcessorState) (node : Node) (best : Nat)
      (flashblock : FlashBlock),
      Reachable processor (Guard.onWire FlashBlock.NumbersAgree) state →
      node.client.bestBlockNumber = .ok best →
      (∀ pending, state.pendingBlocks = some pending →
        pending.value.latestBlockNumber ≤ best) →
      flashblock.index = 0 → flashblock.blockNumber = best + 1 →
      (∃ built, processor.buildPendingState node.client none [flashblock] = .ok (some built)) →
      Publishes flashblock
        (processor.processUpdate (fun _ => node) (.flashblock flashblock) state) := by
  intro claim
  let state := Reference.afterFlashblocks (Reference.nodeAt 0 id) firstBlock
  let next := Reference.flashblock 8 3 0 [(2, 2)] [(2, true)]
  have stale : state.pendingBlocks.all
      (fun pending => decide (pending.value.latestBlockNumber ≤ 2)) = true := by decide
  have buildable : ((Reference.processor.buildPendingState (Reference.nodeAt 2 id).client none
      [next]).toOption.bind id).isSome = true := by decide
  have published := claim Reference.processor state (Reference.nodeAt 2 id) 2 next
    (firstBlock_reachable _) rfl (by
      intro pending isPending
      rw [isPending] at stale
      exact of_decide_eq_true stale) rfl rfl (buildOk_of buildable)
  obtain ⟨pending, isPending, -⟩ := published
  have cleared : (Reference.processor.processUpdate (fun _ => Reference.nodeAt 2 id)
      (.flashblock next) state).pendingBlocks.isNone = true := by decide
  rw [isPending] at cleared
  cases cleared

end EthgasReth.Recovery

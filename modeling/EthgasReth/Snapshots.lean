import EthgasReth.BuildSpec
import EthgasReth.Run

/-!
# Snapshots along a run

There are four ways in which the processor builds a snapshot.  A property of
snapshots that each of them keeps holds of every snapshot ever published or
broadcast.
-/

set_option autoImplicit false

namespace EthgasReth.Snapshots

open EthgasReth.Primitives
open EthgasReth.Lib
open EthgasReth.Pending
open EthgasReth.Build
open EthgasReth.Validation
open EthgasReth.Processor
open EthgasReth.Run
open EthgasReth.BuildSpec

/-- The flashblock goes on where the snapshot ends: the next index of its last
block, or index zero of the block after it. -/
def Continues (pending : PendingBlocks) (flashblock : FlashBlock) : Prop :=
  (flashblock.blockNumber = pending.latestBlockNumber ∧
      flashblock.index = pending.latestFlashblockIndex + 1) ∨
    (flashblock.blockNumber = pending.latestBlockNumber + 1 ∧ flashblock.index = 0)

def Restarts (pending : PendingBlocks) (flashblock : FlashBlock) : Prop :=
  flashblock.blockNumber = pending.latestBlockNumber ∧
    flashblock.payloadId ≠ pending.payloadId

def Repeats (pending : PendingBlocks) (flashblock : FlashBlock) : Prop :=
  flashblock.blockNumber = pending.latestBlockNumber ∧
    flashblock.index = pending.latestFlashblockIndex ∧
    (flashblock.index = 0 → flashblock.payloadId = pending.payloadId)

def retained (node : Node) (block : Block) (pending : PendingBlocks) : List FlashBlock :=
  pending.flashblocks.filter fun flashblock =>
    node.effectiveCanonicalNumber block.number < flashblock.metadata.blockNumber

/-- What a canonical block makes of the snapshot. -/
def strategy (processor : StateProcessor) (node : Node) (pending : PendingBlocks) (block : Block) :
    ReconciliationStrategy :=
  CanonicalBlockReconciler.reconcile (some pending.earliestBlockNumber)
    (some pending.latestBlockNumber) (node.effectiveCanonicalNumber block.number)
    processor.maxDepth
    (ReorgDetector.detect ((pending.getTransactionsForBlock block.number).map (·.txHash))
      block.txHashes).requiresRebuild

variable {processor : StateProcessor}

/-- The ways in which an update builds a snapshot on the one it finds. -/
inductive Builds (processor : StateProcessor) (node : Node) :
    Option (Arc PendingBlocks) → StateUpdate → PendingBlocks → Prop
  | fresh {prev : Option (Arc PendingBlocks)} {flashblock : FlashBlock} {built : PendingBlocks}
      (first : flashblock.index = 0)
      (restarts : ∀ pending, prev = some pending → Restarts pending.value flashblock)
      (success : processor.buildPendingState node.client none [flashblock] = .ok (some built)) :
      Builds processor node prev (.flashblock flashblock) built
  | appended {pending : Arc PendingBlocks} {flashblock : FlashBlock} {built : PendingBlocks}
      (continues : Continues pending.value flashblock)
      (success : processor.buildPendingState node.client (some pending.value)
        (pending.value.flashblocks ++ [flashblock]) = .ok (some built)) :
      Builds processor node (some pending) (.flashblock flashblock) built
  | retained {pending : Arc PendingBlocks} {block : Block} {built : PendingBlocks}
      (success : processor.buildPendingState node.client none
        (retained node block pending.value) = .ok (some built)) :
      Builds processor node (some pending) (.canonical block) built
  | continued {pending : Arc PendingBlocks} {block : Block} {built : PendingBlocks}
      (continuing : strategy processor node pending.value block = .continue)
      (success : processor.buildPendingState node.client (some pending.value)
        pending.value.flashblocks = .ok (some built)) :
      Builds processor node (some pending) (.canonical block) built

theorem Builds.returns {node : Node} {prev : Option (Arc PendingBlocks)} {update : StateUpdate}
    {built : PendingBlocks} (builds : Builds processor node prev update built) :
    ∃ (earlier : Option PendingBlocks) (flashblocks : List FlashBlock) (run : BuildRun processor),
      Returns node.client earlier flashblocks run built := by
  cases builds with
  | fresh _ _ success | appended _ success | retained success | continued _ success =>
      obtain ⟨run, returns⟩ := buildPendingState_ok success
      exact ⟨_, _, run, returns⟩

/-! ## One update -/

theorem buildShared_ok {node : Node} {address : Nat} {prev : Option (Arc PendingBlocks)}
    {flashblocks : List FlashBlock} {new : Option (Arc PendingBlocks)}
    (success : processor.buildShared node address prev flashblocks = .ok new) :
    (new = none ∧ flashblocks = []) ∨
      ∃ built, new = some ⟨address, built⟩ ∧
        processor.buildPendingState node.client (prev.map (·.value)) flashblocks =
          .ok (some built) := by
  obtain ⟨result, buildRan, success⟩ := bind_eq_ok success
  cases success
  cases result with
  | none => exact Or.inl ⟨rfl, buildPendingState_none.mp buildRan⟩
  | some built => exact Or.inr ⟨built, rfl, buildRan⟩

theorem processFlashblock_ok {node : Node} {address : Nat} {prev : Option (Arc PendingBlocks)}
    {flashblock : FlashBlock} {new : Option (Arc PendingBlocks)}
    (success : processor.processFlashblock node address prev flashblock = .ok new) :
    new = none ∨
      (∃ pending, prev = some pending ∧ new = some pending ∧ Repeats pending.value flashblock) ∨
      ∃ built, new = some ⟨address, built⟩ ∧
        Builds processor node prev (.flashblock flashblock) built := by
  unfold StateProcessor.processFlashblock at success
  split at success
  · split at success
    · rename_i first
      rcases buildShared_ok success with ⟨-, empty⟩ | ⟨built, isNew, buildRan⟩
      · simp at empty
      · exact Or.inr (Or.inr ⟨built, isNew, .fresh first (by simp) buildRan⟩)
    · cases success
  · rename_i pending
    split at success
    · rename_i verdict
      rcases buildShared_ok success with ⟨-, empty⟩ | ⟨built, isNew, buildRan⟩
      · simp at empty
      · exact Or.inr (Or.inr ⟨built, isNew,
          .appended (Or.inl (validate_nextInSequence.mp verdict)) buildRan⟩)
    · rename_i verdict
      rcases buildShared_ok success with ⟨-, empty⟩ | ⟨built, isNew, buildRan⟩
      · simp at empty
      · exact Or.inr (Or.inr ⟨built, isNew,
          .appended (Or.inr (validate_firstOfNextBlock.mp verdict)) buildRan⟩)
    · rename_i verdict
      obtain ⟨sameBlock, first, otherPayload⟩ := validate_newPayload.mp verdict
      rcases buildShared_ok success with ⟨-, empty⟩ | ⟨built, isNew, buildRan⟩
      · simp at empty
      · refine Or.inr (Or.inr ⟨built, isNew, .fresh first ?_ buildRan⟩)
        rintro other isOther
        cases isOther
        exact ⟨sameBlock, otherPayload⟩
    · rename_i verdict
      cases success
      exact Or.inr (Or.inl ⟨pending, rfl, rfl, validate_duplicate.mp verdict⟩)
    · cases success
      exact Or.inl rfl
    · cases success
      exact Or.inl rfl

theorem processCanonicalBlock_ok {node : Node} {address : Nat}
    {prev : Option (Arc PendingBlocks)} {block : Block} {new : Option (Arc PendingBlocks)}
    (success : processor.processCanonicalBlock node address prev block = .ok new) :
    new = none ∨ ∃ built, new = some ⟨address, built⟩ ∧
      Builds processor node prev (.canonical block) built := by
  unfold StateProcessor.processCanonicalBlock at success
  split at success
  · cases success
    exact Or.inl rfl
  · dsimp only at success
    split at success
    · cases success
      exact Or.inl rfl
    · rcases buildShared_ok success with ⟨isNone, -⟩ | ⟨built, isNew, buildRan⟩
      · exact Or.inl isNone
      · exact Or.inr ⟨built, isNew, .retained buildRan⟩
    · rcases buildShared_ok success with ⟨isNone, -⟩ | ⟨built, isNew, buildRan⟩
      · exact Or.inl isNone
      · exact Or.inr ⟨built, isNew, .retained buildRan⟩
    · rename_i continuing
      rcases buildShared_ok success with ⟨isNone, -⟩ | ⟨built, isNew, buildRan⟩
      · exact Or.inl isNone
      · exact Or.inr ⟨built, isNew, .continued continuing buildRan⟩
    · cases success
      exact Or.inl rfl

theorem processFlashblock_new {node : Node} {address : Nat} {prev : Option (Arc PendingBlocks)}
    {flashblock : FlashBlock} {new : Arc PendingBlocks}
    (success : processor.processFlashblock node address prev flashblock = .ok (some new)) :
    (prev = some new ∧ Repeats new.value flashblock) ∨
      ∃ built, new = ⟨address, built⟩ ∧
        Builds processor node prev (.flashblock flashblock) built := by
  rcases processFlashblock_ok success with impossible | ⟨old, isOld, isSame, repeats⟩ |
    ⟨built, isBuilt, builds⟩
  · cases impossible
  · cases isSame
    exact Or.inl ⟨isOld, repeats⟩
  · cases isBuilt
    exact Or.inr ⟨built, rfl, builds⟩

theorem processCanonicalBlock_new {node : Node} {address : Nat}
    {prev : Option (Arc PendingBlocks)} {block : Block} {new : Arc PendingBlocks}
    (success : processor.processCanonicalBlock node address prev block = .ok (some new)) :
    ∃ built, new = ⟨address, built⟩ ∧ Builds processor node prev (.canonical block) built := by
  rcases processCanonicalBlock_ok success with impossible | ⟨built, isBuilt, builds⟩
  · cases impossible
  · cases isBuilt
    exact ⟨built, rfl, builds⟩

theorem publishable_some {node : Node} {new : Option (Arc PendingBlocks)}
    {published : Arc PendingBlocks} (isPublished : processor.publishable node new = some published) :
    new = some published ∧ processor.extendsCanonicalTip node published.value = true := by
  unfold StateProcessor.publishable at isPublished
  split at isPublished
  · cases isPublished
  · split at isPublished
    · rename_i extends_
      cases isPublished
      exact ⟨rfl, extends_⟩
    · cases isPublished

/-! ## The rule -/

def Allows (guard : Guard) (node : Node) (prev : Option (Arc PendingBlocks)) :
    StateUpdate → Prop
  | .flashblock flashblock =>
      guard.wire flashblock ∧ guard.flashblock node prev flashblock ∧
        node.isSuperseded flashblock = false
  | .canonical block => guard.canonical node prev block

/-- A property of snapshots that every build the guard allows keeps. -/
def KeptByBuilds (processor : StateProcessor) (guard : Guard) (P : PendingBlocks → Prop) : Prop :=
  ∀ node prev update built, (∀ pending, prev = some pending → P pending.value) →
    Allows guard node prev update → Builds processor node prev update built → P built

/-- The published snapshot and every broadcast one have the property. -/
def AllSnapshots (P : PendingBlocks → Prop) (state : ProcessorState) : Prop :=
  (∀ pending, state.pendingBlocks = some pending → P pending.value) ∧
    ∀ pending ∈ state.sent, P pending.value

variable {guard : Guard} {P : PendingBlocks → Prop}

theorem KeptByBuilds.apply (kept : KeptByBuilds processor guard P) {node : Node}
    {state : ProcessorState} {flashblock : FlashBlock} (all : AllSnapshots P state)
    (wire : guard.wire flashblock)
    (met : guard.flashblock node state.pendingBlocks flashblock) :
    AllSnapshots P (processor.applyFlashblock node state.pendingBlocks flashblock state) := by
  have published : ∀ pending new, node.isSuperseded flashblock = false →
      processor.processFlashblock node state.nextAddress state.pendingBlocks flashblock = .ok new →
      processor.publishable node new = some pending → P pending.value := by
    intro pending new fresh processed isPublished
    obtain ⟨rfl, -⟩ := publishable_some isPublished
    rcases processFlashblock_new processed with ⟨isOld, -⟩ | ⟨built, rfl, builds⟩
    · exact all.1 pending isOld
    · exact kept node state.pendingBlocks (.flashblock flashblock) built all.1
        ⟨wire, met, fresh⟩ builds
  generalize applied : processor.applyFlashblock node state.pendingBlocks flashblock state = next
  have outcome := @applyFlashblock_applied processor node state.pendingBlocks flashblock state
  rw [applied] at outcome
  cases outcome with
  | rejected cached => exact all
  | cleared fresh processed unpublished => exact ⟨by simp, all.2⟩
  | unchanged fresh processed isPublished before same =>
      refine ⟨?_, all.2⟩
      rintro pending ⟨⟩
      exact published _ _ fresh processed isPublished
  | broadcast fresh processed isPublished differs =>
      have sound := published _ _ fresh processed isPublished
      refine ⟨?_, ?_⟩
      · rintro pending ⟨⟩
        exact sound
      · intro pending member
        rcases List.mem_append.mp member with member | member
        · exact all.2 pending member
        · rw [List.mem_singleton.mp member]
          exact sound

theorem KeptByBuilds.kept (kept : KeptByBuilds processor guard P) :
    Kept processor guard (AllSnapshots P) where
  initial := by
    intro client
    exact ⟨by simp [StateProcessor.initial], by simp [StateProcessor.initial]⟩
  clear := by
    intro state all
    exact ⟨by simp, all.2⟩
  apply := fun node state flashblock all wire met => kept.apply all wire met
  reconcile := by
    intro node state block new all met reconciled
    refine ⟨?_, all.2⟩
    intro pending isPublished
    obtain ⟨rfl, -⟩ := publishable_some isPublished
    obtain ⟨built, rfl, builds⟩ := processCanonicalBlock_new reconciled
    exact kept node state.pendingBlocks (.canonical block) built all.1 met builds

theorem KeptByBuilds.visible (kept : KeptByBuilds processor guard P) {state : ProcessorState}
    (visible : Visible processor guard state) : AllSnapshots P state :=
  (kept.kept.visible visible).1

end EthgasReth.Snapshots

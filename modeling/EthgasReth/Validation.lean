import EthgasReth.Primitives

/-!
# Sequence validation and reconciliation

The stateless decisions of `validation.rs`: where an incoming flashblock stands
in the sequence, how a canonical block compares with what pending tracked for
it, and what a canonical update does to the pending snapshot.
-/

set_option autoImplicit false

namespace EthgasReth.Validation

open EthgasReth.Primitives

/-! ## Position of a flashblock -/

inductive SequenceValidationResult where
  | nextInSequence
  | firstOfNextBlock
  | newPayloadForCurrentBlock
  | duplicate
  | nonSequentialGap (expected actual : Nat)
  | invalidNewBlockIndex (blockNumber : Nat) (index : Nat)
  deriving DecidableEq

def FlashblockSequenceValidator.validate (latestBlockNumber : Nat)
    (latestFlashblockIndex : Nat) (latestPayloadId : PayloadId)
    (incomingBlockNumber : Nat) (incomingIndex : Nat)
    (incomingPayloadId : PayloadId) : SequenceValidationResult :=
  if incomingBlockNumber = latestBlockNumber ∧ incomingIndex = 0 ∧
      incomingPayloadId ≠ latestPayloadId then
    .newPayloadForCurrentBlock
  else if incomingBlockNumber = latestBlockNumber ∧
      incomingIndex = latestFlashblockIndex + 1 then
    .nextInSequence
  else if incomingBlockNumber = latestBlockNumber + 1 ∧ incomingIndex = 0 then
    .firstOfNextBlock
  else if incomingBlockNumber ≠ latestBlockNumber then
    .invalidNewBlockIndex incomingBlockNumber incomingIndex
  else if incomingIndex = latestFlashblockIndex then
    .duplicate
  else
    .nonSequentialGap (latestFlashblockIndex + 1) incomingIndex

section Validate

variable {latestBlock latestIndex block index : Nat} {latestId id : PayloadId}

open FlashblockSequenceValidator

/-- The index test alone decides: a payload id other than the snapshot's does
not keep the next index of the block from being appended. -/
theorem validate_nextInSequence :
    validate latestBlock latestIndex latestId block index id = .nextInSequence ↔
      block = latestBlock ∧ index = latestIndex + 1 := by
  unfold validate
  grind

theorem validate_firstOfNextBlock :
    validate latestBlock latestIndex latestId block index id = .firstOfNextBlock ↔
      block = latestBlock + 1 ∧ index = 0 := by
  unfold validate
  grind

theorem validate_newPayload :
    validate latestBlock latestIndex latestId block index id = .newPayloadForCurrentBlock ↔
      block = latestBlock ∧ index = 0 ∧ id ≠ latestId := by
  unfold validate
  grind

theorem validate_duplicate :
    validate latestBlock latestIndex latestId block index id = .duplicate ↔
      block = latestBlock ∧ index = latestIndex ∧ (index = 0 → id = latestId) := by
  unfold validate
  grind

end Validate

/-! ## Comparison with the canonical block -/

inductive ReorgDetectionResult where
  | noReorg
  | untracked (canonicalCount : Nat)
  | canonicalExtendsTracked (trackedCount canonicalCount : Nat)
  | reorgDetected (trackedCount canonicalCount : Nat)
  deriving DecidableEq

def ReorgDetectionResult.requiresRebuild : ReorgDetectionResult → Bool
  | .noReorg => false
  | _ => true

def ReorgDetector.detect (trackedTxHashes canonicalTxHashes : List B256) :
    ReorgDetectionResult :=
  if trackedTxHashes.isEmpty ∧ ¬ canonicalTxHashes.isEmpty then
    .untracked canonicalTxHashes.length
  else if trackedTxHashes = canonicalTxHashes then
    .noReorg
  else if trackedTxHashes.isPrefixOf canonicalTxHashes then
    .canonicalExtendsTracked trackedTxHashes.length canonicalTxHashes.length
  else
    .reorgDetected trackedTxHashes.length canonicalTxHashes.length

/-- Only an exact match spares the rebuild. -/
theorem detect_requiresRebuild (tracked canonical : List B256) :
    (ReorgDetector.detect tracked canonical).requiresRebuild = true ↔ tracked ≠ canonical := by
  unfold ReorgDetector.detect
  split
  · rename_i untracked
    simp only [ReorgDetectionResult.requiresRebuild, true_iff]
    rintro rfl
    exact untracked.2 untracked.1
  · split
    · rename_i same
      simp [ReorgDetectionResult.requiresRebuild, same]
    · rename_i differ
      split <;> simp [ReorgDetectionResult.requiresRebuild, differ]

/-! ## Reconciliation strategy -/

inductive ReconciliationStrategy where
  | catchUp
  | handleReorg
  | depthLimitExceeded (depth maxDepth : Nat)
  | continue
  | noPendingState
  deriving DecidableEq

/-- `saturating_sub` of block numbers is the natural numbers' subtraction. -/
def CanonicalBlockReconciler.reconcile (pendingEarliestBlock pendingLatestBlock : Option Nat)
    (canonicalBlockNumber : Nat) (maxDepth : Nat) (requiresRebuild : Bool) :
    ReconciliationStrategy :=
  match pendingEarliestBlock, pendingLatestBlock with
  | some earliest, some latest =>
      if latest ≤ canonicalBlockNumber then .catchUp
      else if requiresRebuild then .handleReorg
      else if canonicalBlockNumber - earliest > maxDepth then
        .depthLimitExceeded (canonicalBlockNumber - earliest) maxDepth
      else .continue
  | _, _ => .noPendingState

end EthgasReth.Validation

import EthgasReth.Lib.System
import EthgasReth.Build
import EthgasReth.Cache
import EthgasReth.Validation

/-!
# The state processor

`processor.rs` from `start` down to `process_flashblock`, and
`drop_pending_behind` of `state.rs`.  The published cell, the cache and the
broadcast channel are one explicit state.  A snapshot is published behind an
`Arc`, whose address tells an unchanged snapshot from an equal new one.  Metrics
and logs are left out.
-/

set_option autoImplicit false

namespace EthgasReth.Processor

open EthgasReth.Primitives
open EthgasReth.Lib
open EthgasReth.Pending
open EthgasReth.Build
open EthgasReth.Cache
open EthgasReth.Validation

structure Arc (α : Type) where
  address : Nat
  value : α

def Arc.ptrEq {α : Type} (a b : Arc α) : Bool := a.address = b.address

/-- What the processor reads of the rest of the node during one step: the
provider and the last notified canonical block. -/
structure Node where
  client : Client
  lastCanonicalBlock : Nat

inductive StateUpdate where
  | canonical (block : Block)
  | flashblock (flashblock : FlashBlock)

/-- The published cell, the cache, every snapshot broadcast so far, and the next
unused address. -/
structure ProcessorState where
  pendingBlocks : Option (Arc PendingBlocks)
  cache : FlashblockCache
  sent : List (Arc PendingBlocks)
  nextAddress : Nat

/-! ## Canonical height and staleness -/

namespace Node

variable (node : Node)

def canonicalTip : Option Nat :=
  match node.client.bestBlockNumber with
  | .ok best => some best
  | .error _ => none

def effectiveCanonicalNumber (notified : Nat) : Nat :=
  match node.canonicalTip with
  | some best => max notified best
  | none => notified

def isSuperseded (flashblock : FlashBlock) : Bool :=
  flashblock.metadata.blockNumber ≤ node.effectiveCanonicalNumber node.lastCanonicalBlock

end Node

end EthgasReth.Processor

namespace EthgasReth.Build.StateProcessor

open EthgasReth.Primitives
open EthgasReth.Lib
open EthgasReth.Pending
open EthgasReth.Cache
open EthgasReth.Validation
open EthgasReth.Processor

variable (processor : StateProcessor)

def isAnchoredNear (pending : PendingBlocks) (best : Nat) : Bool :=
  best - pending.earliestBlockNumber ≤ processor.maxDepth

def extendsCanonicalTip (node : Node) (pending : PendingBlocks) : Bool :=
  match node.canonicalTip with
  | none => true
  | some best =>
      if !processor.isAnchoredNear pending best then false
      else if pending.latestBlockNumber ≤ best then false
      else true

def publishable (node : Node) (new : Option (Arc PendingBlocks)) : Option (Arc PendingBlocks) :=
  match new with
  | none => none
  | some candidate => if processor.extendsCanonicalTip node candidate.value then some candidate else none

def loadPendingOrDropStale (node : Node) (state : ProcessorState) :
    Option (Arc PendingBlocks) × ProcessorState :=
  match state.pendingBlocks with
  | none => (none, state)
  | some pending =>
      match node.canonicalTip with
      | none => (some pending, state)
      | some best =>
          if processor.isAnchoredNear pending.value best then (some pending, state)
          else (none, { state with pendingBlocks := none })

def buildShared (node : Node) (address : Nat) (prev : Option (Arc PendingBlocks))
    (flashblocks : List FlashBlock) : Result (Option (Arc PendingBlocks)) := do
  let built ← processor.buildPendingState node.client (prev.map (·.value)) flashblocks
  return built.map fun pending => { address := address, value := pending }

/-! ## One flashblock -/

def processFlashblock (node : Node) (address : Nat) (prev : Option (Arc PendingBlocks))
    (flashblock : FlashBlock) : Result (Option (Arc PendingBlocks)) :=
  match prev with
  | none =>
      if flashblock.index = 0 then processor.buildShared node address none [flashblock]
      else .error .missingFirstFlashblock
  | some pending =>
      match FlashblockSequenceValidator.validate pending.value.latestBlockNumber
          pending.value.latestFlashblockIndex pending.value.payloadId
          flashblock.metadata.blockNumber flashblock.index flashblock.payloadId with
      | .nextInSequence | .firstOfNextBlock =>
          processor.buildShared node address (some pending)
            (pending.value.flashblocks ++ [flashblock])
      | .newPayloadForCurrentBlock => processor.buildShared node address none [flashblock]
      | .duplicate => .ok (some pending)
      | .invalidNewBlockIndex _ _ => .ok none
      | .nonSequentialGap _ _ => .ok none

def applyFlashblock (node : Node) (prev : Option (Arc PendingBlocks)) (flashblock : FlashBlock)
    (state : ProcessorState) : ProcessorState :=
  if node.isSuperseded flashblock then state
  else
    match processor.processFlashblock node state.nextAddress prev flashblock with
    | .ok new =>
        let new := processor.publishable node new
        let unchanged := match prev, new with
          | some old, some new => old.ptrEq new
          | _, _ => false
        { state with
          pendingBlocks := new
          sent := match new with
            | some pending => if unchanged then state.sent else state.sent ++ [pending]
            | none => state.sent
          nextAddress := state.nextAddress + 1 }
    | .error (.provider (.missingCanonicalHeader _)) =>
        { state with cache := (state.cache.insert flashblock).2 }
    | .error .missingFirstFlashblock =>
        if 0 < flashblock.index ∧
            state.cache.hasFlashblock flashblock.metadata.blockNumber (flashblock.index - 1) then
          { state with cache := (state.cache.insert flashblock).2 }
        else state
    | .error _ => state

/-! ## One canonical block -/

def processCanonicalBlock (node : Node) (address : Nat) (prev : Option (Arc PendingBlocks))
    (block : Block) : Result (Option (Arc PendingBlocks)) :=
  match prev with
  | none => .ok none
  | some pending =>
      let flashblocks := pending.value.flashblocks
      let trackedTxnHashes := (pending.value.getTransactionsForBlock block.number).map (·.txHash)
      let requiresRebuild :=
        (ReorgDetector.detect trackedTxnHashes block.txHashes).requiresRebuild
      let canonicalNumber := node.effectiveCanonicalNumber block.number
      match CanonicalBlockReconciler.reconcile (some pending.value.earliestBlockNumber)
          (some pending.value.latestBlockNumber) canonicalNumber processor.maxDepth
          requiresRebuild with
      | .catchUp => .ok none
      | .handleReorg | .depthLimitExceeded _ _ =>
          processor.buildShared node address none
            (flashblocks.filter fun flashblock => canonicalNumber < flashblock.metadata.blockNumber)
      | .continue => processor.buildShared node address (some pending) flashblocks
      | .noPendingState => .ok none

/-! ## The main loop -/

/-- Replays drained flashblocks one after another; `nodes i` is what the node
shows while the `i`-th one is applied. -/
def replayCached (nodes : Nat → Node) : List FlashBlock → ProcessorState → ProcessorState
  | [], state => state
  | flashblock :: rest, state =>
      let loaded := processor.loadPendingOrDropStale (nodes 0) state
      replayCached (fun i => nodes (i + 1)) rest
        (processor.applyFlashblock (nodes 0) loaded.1 flashblock loaded.2)

def publishReconciled (node : Node) (block : Block) (new : Option (Arc PendingBlocks))
    (state : ProcessorState) : ProcessorState :=
  { state with
    pendingBlocks := processor.publishable node new
    cache := ((state.cache.updateCanonical block.number).drain (block.number + 1)).2
    nextAddress := state.nextAddress + 1 }

/-- One iteration of `start`.  `nodes 0` is what the node shows while the update
itself is processed, the later entries what it shows during the replays. -/
def processUpdate (nodes : Nat → Node) (update : StateUpdate) (state : ProcessorState) :
    ProcessorState :=
  let loaded := processor.loadPendingOrDropStale (nodes 0) state
  match update with
  | .canonical block =>
      match processor.processCanonicalBlock (nodes 0) loaded.2.nextAddress loaded.1 block with
      | .ok new =>
          let cached := ((loaded.2.cache.updateCanonical block.number).drain (block.number + 1)).1
          processor.replayCached (fun i => nodes (i + 1)) cached
            (processor.publishReconciled (nodes 0) block new loaded.2)
      | .error _ => loaded.2
  | .flashblock flashblock => processor.applyFlashblock (nodes 0) loaded.1 flashblock loaded.2

/-- The receiving task's `drop_pending_behind`, on a notification it handles
between two steps of the processor. -/
def dropPendingBehind (canonicalBlockNumber : Nat) (state : ProcessorState) :
    ProcessorState :=
  match state.pendingBlocks with
  | none => state
  | some stale =>
      if canonicalBlockNumber - stale.value.earliestBlockNumber ≤ processor.maxDepth then state
      else { state with pendingBlocks := none }

/-- `StateProcessor::new`: the cache starts at the best block, or at zero. -/
def initial (client : Client) : ProcessorState where
  pendingBlocks := none
  cache := match client.bestBlockNumber with
    | .ok best => FlashblockCache.new best
    | .error _ => FlashblockCache.new 0
  sent := []
  nextAddress := 0

end EthgasReth.Build.StateProcessor

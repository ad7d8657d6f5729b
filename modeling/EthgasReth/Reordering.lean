import EthgasReth.Reconcile
import EthgasReth.TwoRuns

/-!
# A canonical block among the next block's flashblocks

The flashblocks of a block may be dequeued before the canonical block below it.
While the provider does not show that block they go to the cache, the first one
for want of a header and the others for want of a predecessor, and the canonical
block replays them; once it shows it, they are built at once, and the canonical
block only builds the same list again.  Either way the processor ends where it
ends when the canonical block comes first.
-/

set_option autoImplicit false

namespace EthgasReth.Reordering

open EthgasReth.Primitives
open EthgasReth.Execution
open EthgasReth.Pending
open EthgasReth.Cache
open EthgasReth.Build
open EthgasReth.Build.StateProcessor
open EthgasReth.BuildSpec
open EthgasReth.Incremental
open EthgasReth.Lockstep
open EthgasReth.Processor
open EthgasReth.Run
open EthgasReth.Snapshots
open EthgasReth.OneBlock
open EthgasReth.TwoRuns

variable {processor : StateProcessor}

/-! ## The canonical block on a snapshot of the next block -/

section Canonical

variable {contracts : SystemContracts processor.evm} {chain : Chain contracts} {number : Nat}
  {header : Header} {anchor : View} {state : ProcessorState}

def ReplayedOn (chain : Chain contracts) (header : Header) (pending : PendingBlocks) : Prop :=
  ∃ run final, Replayed chain (fun _ _ _ => True) pending run final ∧ run.anchor = header

theorem ReplayedOn.equivalent {left right : PendingBlocks} (first : ReplayedOn chain header left)
    (second : ReplayedOn chain header right) (same : right.flashblocks = left.flashblocks)
    (isAnchor : chain.stateOf (processor.alloy.hashSlow header) = anchor) :
    Equivalent processor anchor left right := by
  obtain ⟨run, final, replayed, isHeader⟩ := first
  obtain ⟨twin, twinFinal, twinReplayed, twinHeader⟩ := second
  have equivalent := replayed_equivalent replayed twinReplayed same (twinHeader.trans isHeader.symm)
  rw [replayed.anchored, isHeader, isAnchor] at equivalent
  exact equivalent

/-- A build on nothing is replayed on the header the node shows. -/
theorem fresh_replayedOn (lawful : processor.evm.Lawful) {client : Client}
    {flashblocks : List FlashBlock} {built : PendingBlocks} (nonempty : flashblocks ≠ [])
    (numbers : ∀ flashblock ∈ flashblocks, flashblock.blockNumber = number)
    (isAnchor : chain.stateOf (processor.alloy.hashSlow header) = anchor)
    (read : readAnchor client (number - 1) = .ok (header, anchor))
    (success : processor.buildPendingState client none flashblocks = .ok (some built)) :
    ReplayedOn chain header built := by
  obtain ⟨run, returns⟩ := buildPendingState_ok success
  obtain ⟨isHeader, isView⟩ := returns_read (anchorNumber_const nonempty numbers) read returns
  refine ⟨run, _, fresh_replayed lawful (ordered_const numbers) (fun _ _ _ _ => trivial) ?_ returns,
    isHeader⟩
  rw [isView, isHeader, isAnchor]

theorem appended_replayedOn (lawful : processor.evm.Lawful) {client : Client}
    {pending built : PendingBlocks} {flashblock : FlashBlock}
    (old : ReplayedOn chain header pending) (ofBlock : OfBlock number pending)
    (isNumber : flashblock.blockNumber = number)
    (isAnchor : chain.stateOf (processor.alloy.hashSlow header) = anchor)
    (read : readAnchor client (number - 1) = .ok (header, anchor))
    (success : processor.buildPendingState client (some pending)
      (pending.flashblocks ++ [flashblock]) = .ok (some built)) :
    ReplayedOn chain header built := by
  obtain ⟨run, final, replayed, isHeader⟩ := old
  obtain ⟨next, returns⟩ := buildPendingState_ok success
  have numbers : ∀ other ∈ pending.flashblocks ++ [flashblock], other.blockNumber = number := by
    intro other member
    rcases List.mem_append.mp member with member | member
    · exact ofBlock.numbers other member
    · rw [List.mem_singleton.mp member]
      exact isNumber
  obtain ⟨nextHeader, nextView⟩ := returns_read (anchorNumber_const (by simp) numbers) read returns
  have sameView : next.view = run.view := by
    rw [nextView, replayed.anchored, isHeader, isAnchor]
  exact ⟨next, _, appended_replayed lawful (fun _ _ _ _ => trivial) replayed
    (ordered_const numbers) (nextHeader.trans isHeader.symm) sameView
    (fun _ _ _ _ _ _ _ _ _ => trivial) returns, nextHeader⟩

theorem continued_replayedOn (lawful : processor.evm.Lawful) {client : Client}
    {pending built : PendingBlocks} (old : ReplayedOn chain header pending)
    (ofBlock : OfBlock number pending)
    (isAnchor : chain.stateOf (processor.alloy.hashSlow header) = anchor)
    (read : readAnchor client (number - 1) = .ok (header, anchor))
    (success : processor.buildPendingState client (some pending) pending.flashblocks =
      .ok (some built)) :
    ReplayedOn chain header built := by
  obtain ⟨run, final, replayed, isHeader⟩ := old
  obtain ⟨next, returns⟩ := buildPendingState_ok success
  obtain ⟨nextHeader, nextView⟩ := returns_read
    (anchorNumber_const ofBlock.based.nonempty ofBlock.numbers) read returns
  have sameView : next.view = run.view := by
    rw [nextView, replayed.anchored, isHeader, isAnchor]
  exact ⟨next, final, continued_replayed lawful replayed (nextHeader.trans isHeader.symm) sameView
    returns, nextHeader⟩

theorem run_replayedOn (lawful : processor.evm.Lawful) {nodes : Nat → Node}
    {flashblocks : List FlashBlock} {index : Nat} (whole : Sequence number index flashblocks)
    (reveals : ∀ i, Reveals number header anchor (nodes i))
    (isAnchor : chain.stateOf (processor.alloy.hashSlow header) = anchor)
    (inBlock : InBlock number index state)
    (replayed : ∀ pending, state.pendingBlocks = some pending →
      ReplayedOn chain header pending.value) :
    ∀ pending, (runFlashblocks processor nodes flashblocks state).pendingBlocks = some pending →
      ReplayedOn chain header pending.value := by
  induction flashblocks generalizing nodes state index with
  | nil => exact replayed
  | cons flashblock rest ih =>
      obtain ⟨isNumber, rfl, later⟩ := whole.cons
      have outcome := apply_outcome processor (reveals 0) inBlock isNumber
      have nextIn := outcome.inBlock inBlock isNumber
      rw [runFlashblocks, processUpdate_flashblock, inBlock.load processor (reveals 0).below]
      refine ih later (fun i => reveals (i + 1)) nextIn ?_
      generalize processor.applyFlashblock (nodes 0) state.pendingBlocks flashblock state = next
        at outcome
      cases outcome with
      | idle => exact replayed
      | failed => exact replayed
      | gap =>
          intro pending isPending
          cases isPending
      | behind =>
          intro pending isPending
          cases isPending
      | built expected success =>
          intro pending isPending
          cases isPending
          cases cell : state.pendingBlocks with
          | none =>
              rw [cell] at success
              exact fresh_replayedOn lawful (List.cons_ne_nil flashblock [])
                (by simpa using isNumber) isAnchor (reveals 0).read success
          | some old =>
              rw [cell] at success
              exact appended_replayedOn lawful (replayed old cell) (inBlock.ofBlock old cell)
                isNumber isAnchor (reveals 0).read success

theorem drain_uncached {cache : FlashblockCache}
    (uncached : ∀ position, cache.cached number position = none) (canonical : Nat) :
    ((cache.updateCanonical canonical).drain number).1 = [] ∧
      ∀ position, ((cache.updateCanonical canonical).drain number).2.cached number position =
        none := by
  constructor
  · apply List.eq_nil_iff_forall_not_mem.mpr
    intro flashblock member
    obtain ⟨position, found⟩ := (FlashblockCache.mem_drain _ _ _).mp member
    rw [FlashblockCache.cached_updateCanonical, uncached] at found
    simp at found
  · intro position
    rw [FlashblockCache.cached_drain, if_pos rfl]

theorem processCanonicalBlock_below (lawful : processor.evm.Lawful) {node : Node} {address : Nat}
    {block : Block} {pending : Arc PendingBlocks} (next : block.number + 1 = number)
    (reveals : Reveals number header anchor node)
    (isAnchor : chain.stateOf (processor.alloy.hashSlow header) = anchor)
    (ofBlock : OfBlock number pending.value)
    (replayed : ReplayedOn chain header pending.value) {new : Option (Arc PendingBlocks)}
    (success : processor.processCanonicalBlock node address (some pending) block = .ok new) :
    ∃ built, new = some ⟨address, built⟩ ∧ OfBlock number built ∧
      Equivalent processor anchor built pending.value := by
  have nonempty := ofBlock.based.nonempty
  have above := ofBlock.above
  have height := reveals.below.effective next
  have all : retained node block pending.value = pending.value.flashblocks := by
    unfold retained
    rw [List.filter_eq_self]
    intro flashblock member
    have isNumber : flashblock.metadata.blockNumber = number := ofBlock.numbers flashblock member
    rw [height, isNumber]
    exact decide_eq_true (by omega)
  rw [Reconcile.processCanonicalBlock_some, height, if_neg (by omega), all] at success
  -- Whatever it is built on, the result is replayed on the same flashblocks.
  have rebuilt : ∃ prev built, new = some ⟨address, built⟩ ∧
      processor.buildPendingState node.client prev pending.value.flashblocks =
        .ok (some built) ∧ ReplayedOn chain header built := by
    have fromNothing : ∀ other, processor.buildShared node address none
        pending.value.flashblocks = .ok other → ∃ prev built, other = some ⟨address, built⟩ ∧
          processor.buildPendingState node.client prev pending.value.flashblocks =
            .ok (some built) ∧ ReplayedOn chain header built := by
      intro other shared
      rcases buildShared_ok shared with ⟨-, empty⟩ | ⟨built, isNew, ran⟩
      · exact absurd empty nonempty
      · exact ⟨none, built, isNew, ran,
          fresh_replayedOn lawful nonempty ofBlock.numbers isAnchor reveals.read ran⟩
    split at success
    · exact fromNothing new success
    · split at success
      · exact fromNothing new success
      · rcases buildShared_ok success with ⟨-, empty⟩ | ⟨built, isNew, ran⟩
        · exact absurd empty nonempty
        · exact ⟨some pending.value, built, isNew, ran,
            continued_replayedOn lawful replayed ofBlock isAnchor reveals.read ran⟩
  obtain ⟨prev, built, isNew, ran, replayedBuilt⟩ := rebuilt
  obtain ⟨whole, based, -⟩ := build_based nonempty ofBlock.numbers ran
  have equivalent := replayedBuilt.equivalent replayed whole.symm isAnchor
  refine ⟨built, isNew, ⟨by rw [whole]; exact ofBlock.numbers, based, ?_⟩, equivalent⟩
  rw [← equivalent.height]
  exact above

theorem canonical_sameCell (lawful : processor.evm.Lawful) {nodes : Nat → Node} {block : Block}
    {index : Nat} (next : block.number + 1 = number)
    (reveals : ∀ i, Reveals number header anchor (nodes i))
    (isAnchor : chain.stateOf (processor.alloy.hashSlow header) = anchor)
    (inBlock : InBlock number index state)
    (replayed : ∀ pending, state.pendingBlocks = some pending →
      ReplayedOn chain header pending.value) :
    SameCell processor anchor
        (processor.processUpdate nodes (.canonical block) state).pendingBlocks
        state.pendingBlocks ∧
      InBlock number index (processor.processUpdate nodes (.canonical block) state) ∧
      (processor.processUpdate nodes (.canonical block) state).sent = state.sent := by
  have loaded := inBlock.load processor (reveals 0).below
  obtain ⟨drained, stillUncached⟩ := drain_uncached inBlock.uncached block.number
  rw [← next] at drained
  cases reconciled : processor.processCanonicalBlock (nodes 0)
      (load processor (nodes 0) state).nextAddress
      (load processor (nodes 0) state).pendingBlocks block with
  | error failure =>
      rw [processUpdate_canonical_error nodes block state reconciled, loaded]
      refine ⟨?_, inBlock, rfl⟩
      cases cell : state.pendingBlocks with
      | none => trivial
      | some pending =>
          have replayedOn := replayed pending cell
          exact replayedOn.equivalent replayedOn rfl isAnchor
  | ok new =>
      rw [processUpdate_canonical_ok nodes block state reconciled]
      rw [loaded] at reconciled ⊢
      rw [drained, StateProcessor.replayCached]
      cases cell : state.pendingBlocks with
      | none =>
          rw [cell] at reconciled
          cases reconciled
          refine ⟨trivial, inBlock_absent ?_ rfl, rfl⟩
          intro position
          rw [StateProcessor.publishReconciled, next]
          exact stillUncached position
      | some pending =>
          rw [cell] at reconciled
          obtain ⟨built, rfl, ofBlock, equivalent⟩ := processCanonicalBlock_below lawful next
            (reveals 0) isAnchor (inBlock.ofBlock pending cell) (replayed pending cell) reconciled
          have published := @OfBlock.publishable processor number (nodes 0)
            ⟨state.nextAddress, built⟩ ofBlock (reveals 0).below
          rw [StateProcessor.publishReconciled, published]
          refine ⟨equivalent, ⟨?_, ?_, ?_, ?_⟩, rfl⟩
          · intro position
            rw [next]
            exact stillUncached position
          · intro other isOther
            cases isOther
            exact Nat.lt_succ_self _
          · intro other isOther
            cases isOther
            exact ofBlock
          · intro other isOther
            cases isOther
            have sameIndex : built.latestFlashblockIndex =
                pending.value.latestFlashblockIndex := by rw [equivalent.symm.fields]
            rw [sameIndex]
            exact inBlock.behind pending cell

end Canonical

/-! ## Flashblocks that wait in the cache -/

structure Waiting (number : Nat) (cached : List FlashBlock) (state : ProcessorState) : Prop where
  absent : state.pendingBlocks = none
  stored : ∀ position, state.cache.cached number position = cached[position]?
  near : state.cache.isCacheable number = true
  keys : state.cache.KeysMatch

section Waiting

variable {number : Nat} {cached : List FlashBlock} {state : ProcessorState} {node : Node}
  {flashblock : FlashBlock}

theorem Waiting.load (waiting : Waiting number cached state) (node : Node) :
    load processor node state = state := by
  unfold Run.load StateProcessor.loadPendingOrDropStale
  rw [waiting.absent]

/-- The first flashblock is cached for want of the header below, the others for
want of a snapshot to continue. -/
theorem waiting_apply (waiting : Waiting number cached state) (positive : 0 < number)
    (below : Below number node) (hidden : cached = [] → Hides number node)
    (isNumber : flashblock.blockNumber = number) (isIndex : flashblock.index = cached.length) :
    processor.applyFlashblock node state.pendingBlocks flashblock state =
      { state with cache := (state.cache.insert flashblock).2 } := by
  have fresh := below.fresh isNumber
  have sameNumber : flashblock.metadata.blockNumber = number := isNumber
  unfold StateProcessor.applyFlashblock
  simp only [fresh, Bool.false_eq_true, if_false, waiting.absent, StateProcessor.processFlashblock]
  by_cases first : cached = []
  · have zero : flashblock.index = 0 := by rw [isIndex, first]; rfl
    have groups : flashblocksPerBlock [flashblock] = [(number, [flashblock])] :=
      flashblocksPerBlock_const (by simp) (by simpa using isNumber)
    have fails : processor.buildPendingState node.client none [flashblock] =
        .error (.provider (.missingCanonicalHeader (number - 1))) := by
      unfold StateProcessor.buildPendingState
      simp only [groups, Nat.ne_of_gt positive, if_false, (hidden first).read]
      rfl
    simp only [zero, if_true, StateProcessor.buildShared, Option.map_none, fails]
    rfl
  · have later : 0 < flashblock.index := by
      rw [isIndex]
      exact List.length_pos_of_ne_nil first
    have predecessor : state.cache.hasFlashblock number (flashblock.index - 1) = true := by
      rw [FlashblockCache.hasFlashblock, waiting.stored, isIndex]
      have inside : cached.length - 1 < cached.length := by omega
      simp [List.getElem?_eq_getElem inside]
    have notFirst : flashblock.index ≠ 0 := by omega
    simp [notFirst, sameNumber, predecessor, later]

theorem Waiting.step (waiting : Waiting number cached state) (positive : 0 < number)
    (below : Below number node) (hidden : cached = [] → Hides number node)
    (isNumber : flashblock.blockNumber = number) (isIndex : flashblock.index = cached.length) :
    Waiting number (cached ++ [flashblock])
        (processor.processUpdate (fun _ => node) (.flashblock flashblock) state) ∧
      (processor.processUpdate (fun _ => node) (.flashblock flashblock) state).sent =
        state.sent := by
  rw [processUpdate_flashblock, waiting.load, waiting_apply waiting positive below hidden isNumber
    isIndex]
  have near : state.cache.isCacheable flashblock.blockNumber = true := by
    rw [isNumber]
    exact waiting.near
  refine ⟨⟨waiting.absent, ?_, ?_, ?_⟩, rfl⟩
  · intro position
    have kept : number - maxCacheAheadBlocks < number := by
      have some : 0 < maxCacheAheadBlocks := by decide
      omega
    rw [FlashblockCache.cached_insert _ _ near, isNumber, isIndex, if_pos kept]
    by_cases last : position = cached.length
    · simp [last]
    · rw [if_neg (fun both => last both.2), waiting.stored, List.getElem?_append]
      by_cases inside : position < cached.length
      · rw [if_pos inside]
      · have outside : cached.length < position := by omega
        rw [if_neg inside, List.getElem?_eq_none (by omega), List.getElem?_eq_none]
        simp only [List.length_singleton]
        omega
  · have same : (state.cache.insert flashblock).2.latestCanonical = state.cache.latestCanonical :=
      FlashblockCache.latestCanonical_insert _ _
    have nearby := waiting.near
    unfold FlashblockCache.isCacheable at nearby ⊢
    rw [same]
    exact nearby
  · exact FlashblockCache.Stores.insert waiting.keys ⟨rfl, rfl⟩

theorem waiting_run (positive : 0 < number) {nodes : Nat → Node} {flashblocks : List FlashBlock}
    (whole : Sequence number cached.length flashblocks) (waiting : Waiting number cached state)
    (below : ∀ i < flashblocks.length, Below number (nodes i))
    (hidden : cached = [] → 0 < flashblocks.length → Hides number (nodes 0)) :
    Waiting number (cached ++ flashblocks) (runFlashblocks processor nodes flashblocks state) ∧
      (runFlashblocks processor nodes flashblocks state).sent = state.sent := by
  induction flashblocks generalizing nodes cached state with
  | nil =>
      rw [List.append_nil]
      exact ⟨waiting, rfl⟩
  | cons flashblock rest ih =>
      obtain ⟨isNumber, isIndex, later⟩ := whole.cons
      obtain ⟨next, sent⟩ := @Waiting.step processor _ _ _ (nodes 0) _ waiting positive
        (below 0 (by simp)) (fun empty => hidden empty (by simp)) isNumber isIndex
      have sameLength : (cached ++ [flashblock]).length = cached.length + 1 := by simp
      rw [← sameLength] at later
      obtain ⟨final, laterSent⟩ := @ih _ _ (fun i => nodes (i + 1)) later next
        (fun i less => below (i + 1) (by simpa using less)) (by simp)
      rw [runFlashblocks]
      exact ⟨by simpa using final, laterSent.trans sent⟩

theorem waiting_canonical {nodes : Nat → Node} {block : Block}
    (next : block.number + 1 = number) (indices : cached.map FlashBlock.index =
      List.range' 0 cached.length) (waiting : Waiting number cached state) :
    ∃ begun, processor.processUpdate nodes (.canonical block) state =
        runFlashblocks processor (fun i => nodes (i + 1)) cached begun ∧
      begun.pendingBlocks = none ∧ begun.sent = state.sent ∧
      InBlock number 0 begun := by
  have loaded := @Waiting.load processor _ _ _ waiting (nodes 0)
  have reconciled : processor.processCanonicalBlock (nodes 0)
      (load processor (nodes 0) state).nextAddress
      (load processor (nodes 0) state).pendingBlocks block = .ok none := by
    rw [loaded, waiting.absent]
    rfl
  have drained : ((state.cache.updateCanonical block.number).drain number).1 = cached := by
    refine FlashblockCache.drain_eq (FlashblockCache.Stores.updateCanonical waiting.keys _) number
      cached ?_ ?_
    · have increasing : (cached.map FlashBlock.index).Pairwise (· < ·) := by
        rw [indices]
        exact List.pairwise_lt_range'
      exact List.pairwise_map.mp increasing
    · intro flashblock
      have above : block.number < number := by omega
      simp only [FlashblockCache.cached_updateCanonical, above, if_true, waiting.stored]
      exact List.mem_iff_getElem?
  refine ⟨processor.publishReconciled (nodes 0) block none state, ?_, rfl, rfl,
    inBlock_absent ?_ rfl⟩
  · rw [processUpdate_canonical_ok nodes block state reconciled, loaded, next, drained,
      replayCached_eq_run]
  · intro position
    rw [StateProcessor.publishReconciled, next, FlashblockCache.cached_drain, if_pos rfl]

end Waiting

/-! ## The main result -/

/-- The snapshots agree in everything but the representation of their bundles,
which denote one state over the anchor's. -/
def SameSnapshot (anchor : View) (left right : PendingBlocks) : Prop :=
  right = { left with bundleState := right.bundleState } ∧
    (PendingStateProvider.mk anchor left.bundleState).world =
      (PendingStateProvider.mk anchor right.bundleState).world

/-- Nothing is published in both states, or the same snapshot is. -/
def SamePublished (anchor : View) (left right : ProcessorState) : Prop :=
  match left.pendingBlocks, right.pendingBlocks with
  | none, none => True
  | some pending, some other => SameSnapshot anchor pending.value other.value
  | _, _ => False

theorem SameCell.published (lawful : processor.evm.Lawful) {anchor : View}
    {left right : ProcessorState}
    (same : SameCell processor anchor left.pendingBlocks right.pendingBlocks) :
    SamePublished anchor left right := by
  unfold SamePublished
  cases leftCell : left.pendingBlocks with
  | none =>
      cases rightCell : right.pendingBlocks with
      | none => trivial
      | some =>
          rw [leftCell, rightCell] at same
          cases same
  | some =>
      cases rightCell : right.pendingBlocks with
      | none =>
          rw [leftCell, rightCell] at same
          cases same
      | some =>
          rw [leftCell, rightCell] at same
          have equivalent : Equivalent processor anchor _ _ := same
          exact ⟨equivalent.fields, equivalent.world_eq lawful⟩

/-- Two ways to take the same updates.  In the first the canonical block below
comes after `dequeued` flashblocks, and the provider shows it from the `shown`-th
update on; `before`, `during` and `after` are the nodes of the flashblocks before
it, of the block with its replays, and of the flashblocks after it.  In the second
it comes `first` and all flashblocks `later`. -/
structure Schedule (number : Nat) (header : Header) (anchor : View) (count : Nat) where
  shown : Nat
  dequeued : Nat
  before : Nat → Node
  during : Nat → Node
  after : Nat → Node
  first : Nat → Node
  later : Nat → Node
  shown_le : shown ≤ dequeued
  dequeued_le : dequeued ≤ count
  hidden : ∀ i < shown, Hides number (before i)
  before_reveals : ∀ i, shown ≤ i → Reveals number header anchor (before i)
  during_reveals : ∀ i, Reveals number header anchor (during i)
  after_reveals : ∀ i, Reveals number header anchor (after i)
  first_reveals : ∀ i, Reveals number header anchor (first i)
  later_reveals : ∀ i, Reveals number header anchor (later i)

section Schedule

variable {number count : Nat} {header : Header} {anchor : View}

def Schedule.interrupted (schedule : Schedule number header anchor count)
    (processor : StateProcessor) (block : Block) (flashblocks : List FlashBlock)
    (start : ProcessorState) : ProcessorState :=
  processor.processUpdate schedule.during (.canonical block)
    (runFlashblocks processor schedule.before (flashblocks.take schedule.dequeued) start)

def Schedule.among (schedule : Schedule number header anchor count) (processor : StateProcessor)
    (block : Block) (flashblocks : List FlashBlock) (start : ProcessorState) : ProcessorState :=
  runFlashblocks processor schedule.after (flashblocks.drop schedule.dequeued)
    (schedule.interrupted processor block flashblocks start)

def Schedule.opened (schedule : Schedule number header anchor count) (processor : StateProcessor)
    (block : Block) (start : ProcessorState) : ProcessorState :=
  processor.processUpdate schedule.first (.canonical block) start

def Schedule.ahead (schedule : Schedule number header anchor count) (processor : StateProcessor)
    (block : Block) (flashblocks : List FlashBlock) (start : ProcessorState) : ProcessorState :=
  runFlashblocks processor schedule.later flashblocks (schedule.opened processor block start)

/-- Where the two runs stand once the canonical block and as many flashblocks have
been taken in both. -/
structure Meets (processor : StateProcessor) (number index : Nat) (anchor : View)
    (taken : List FlashBlock) (start left right : ProcessorState) : Prop where
  same : SameCell processor anchor left.pendingBlocks right.pendingBlocks
  leftIn : InBlock number index left
  rightIn : InBlock number index right
  sent : ∃ leftSent rightSent, left.sent = start.sent ++ leftSent ∧
    right.sent = start.sent ++ rightSent ∧ lasts leftSent = taken.map some ∧
    lasts rightSent = taken.map some

theorem interrupted_meets (lawful : processor.evm.Lawful)
    {contracts : SystemContracts processor.evm} (live : contracts.Live anchor.world)
    {start : ProcessorState} {block : Block} {flashblocks : List FlashBlock}
    (schedule : Schedule number header anchor flashblocks.length)
    (keys : start.cache.KeysMatch) (absent : start.pendingBlocks = none)
    (next : block.number + 1 = number) (near : start.cache.isCacheable number = true)
    (uncached : ∀ position, start.cache.cached number position = none)
    (whole : Sequence number 0 flashblocks) :
    Meets processor number schedule.dequeued anchor
      (accepted processor schedule.later (flashblocks.take schedule.dequeued)
        (schedule.opened processor block start)) start
      (schedule.interrupted processor block flashblocks start)
      (runFlashblocks processor schedule.later (flashblocks.take schedule.dequeued)
        (schedule.opened processor block start)) := by
  let chain : Chain contracts := ⟨fun _ => anchor, fun _ => live⟩
  have isAnchor : chain.stateOf (processor.alloy.hashSlow header) = anchor := rfl
  have startIn : InBlock number 0 start := inBlock_absent uncached absent
  have noReplay : ∀ pending, start.pendingBlocks = some pending →
      ReplayedOn chain header pending.value := by
    intro pending isPending
    rw [absent] at isPending
    cases isPending
  have isOpened : processor.processUpdate schedule.first (.canonical block) start =
      schedule.opened processor block start := rfl
  have opened := canonical_sameCell lawful next schedule.first_reveals isAnchor startIn noReplay
  rw [isOpened] at opened
  obtain ⟨openedSame, openedIn, openedSent⟩ := opened
  have taken := whole.take schedule.dequeued_le
  have length : (flashblocks.take schedule.dequeued).length = schedule.dequeued := by
    rw [List.length_take]
    exact Nat.min_eq_left schedule.dequeued_le
  by_cases atOnce : schedule.shown = 0
  · -- The provider shows the block from the start: the flashblocks are built at once.
    have reveals : ∀ i, Reveals number header anchor (schedule.before i) := by
      intro i
      exact schedule.before_reveals i (by omega)
    obtain ⟨same, leftIn, rightIn, leftSent, rightSent, isLeft, isRight, leftLasts, rightLasts⟩ :=
      runs_linked lawful taken reveals schedule.later_reveals openedSame.symm startIn openedIn
    have replayed := run_replayedOn lawful taken reveals isAnchor startIn noReplay
    rw [Nat.zero_add, length] at leftIn rightIn
    obtain ⟨rebuiltSame, rebuiltIn, rebuiltSent⟩ := canonical_sameCell lawful next
      schedule.during_reveals isAnchor leftIn replayed
    refine ⟨rebuiltSame.trans lawful same, rebuiltIn, rightIn, leftSent, rightSent, ?_, ?_,
      leftLasts, rightLasts⟩
    · rw [Schedule.interrupted, rebuiltSent, isLeft]
    · rw [isRight, openedSent]
  · -- It does not: they wait in the cache until the canonical block replays them.
    have positive : 0 < number := by omega
    have shown_le := schedule.shown_le
    have waiting : Waiting number [] start := by
      refine ⟨absent, ?_, near, keys⟩
      intro position
      rw [uncached]
      rfl
    have below : ∀ i < (flashblocks.take schedule.dequeued).length,
        Below number (schedule.before i) := by
      intro i _
      by_cases early : i < schedule.shown
      · exact (schedule.hidden i early).below
      · exact (schedule.before_reveals i (by omega)).below
    obtain ⟨waited, waitedSent⟩ := @waiting_run processor number [] start positive schedule.before _
      taken waiting below fun _ _ => schedule.hidden 0 (by omega)
    rw [List.nil_append] at waited
    obtain ⟨begun, replays, begunAbsent, begunSent, begunIn⟩ :=
      @waiting_canonical processor number _ _ schedule.during block next taken.indices waited
    have openedNone : SameCell processor anchor begun.pendingBlocks
        (schedule.opened processor block start).pendingBlocks := by
      rw [begunAbsent, ← absent]
      exact openedSame.symm
    obtain ⟨same, leftIn, rightIn, leftSent, rightSent, isLeft, isRight, leftLasts, rightLasts⟩ :=
      runs_linked lawful taken (fun i => schedule.during_reveals (i + 1)) schedule.later_reveals
        openedNone begunIn openedIn
    rw [Nat.zero_add, length] at leftIn rightIn
    rw [← replays] at same leftIn isLeft
    refine ⟨same, leftIn, rightIn, leftSent, rightSent, ?_, ?_, leftLasts, rightLasts⟩
    · rw [Schedule.interrupted, isLeft, begunSent, waitedSent]
    · rw [isRight, openedSent]

/-- Wherever the canonical block below is dequeued among the flashblocks, and from
whichever earlier update on the provider shows it, the run publishes in the end
what it publishes when the canonical block comes first, and both runs broadcast
the accepted flashblocks, in their order and once each. -/
theorem canonical_block_order_irrelevant (lawful : processor.evm.Lawful)
    (contracts : SystemContracts processor.evm) (live : contracts.Live anchor.world)
    {start : ProcessorState} {block : Block} {flashblocks : List FlashBlock}
    (schedule : Schedule number header anchor flashblocks.length)
    (reached : Reachable processor (Guard.onWire fun _ => True) start)
    (absent : start.pendingBlocks = none) (next : block.number + 1 = number)
    (near : start.cache.isCacheable number = true)
    (uncached : ∀ position, start.cache.cached number position = none)
    (whole : Sequence number 0 flashblocks) :
    SamePublished anchor (schedule.among processor block flashblocks start)
        (schedule.ahead processor block flashblocks start) ∧
      ∃ once : List FlashBlock, once.Nodup ∧
        once = accepted processor schedule.later flashblocks
          (schedule.opened processor block start) ∧
        ∃ amongSent aheadSent,
          (schedule.among processor block flashblocks start).sent = start.sent ++ amongSent ∧
          (schedule.ahead processor block flashblocks start).sent = start.sent ++ aheadSent ∧
          lasts amongSent = once.map some ∧ lasts aheadSent = once.map some := by
  have keys := (keysMatch_kept.reachable reached).1
  obtain ⟨same, leftIn, rightIn, firstLeft, firstRight, isFirstLeft, isFirstRight, firstLeftLasts,
    firstRightLasts⟩ := interrupted_meets lawful live schedule keys absent next near uncached whole
  have length : (flashblocks.take schedule.dequeued).length = schedule.dequeued := by
    rw [List.length_take]
    exact Nat.min_eq_left schedule.dequeued_le
  have dropped := whole.drop schedule.dequeued
  obtain ⟨finalSame, -, -, lastLeft, lastRight, isLastLeft, isLastRight, lastLeftLasts,
    lastRightLasts⟩ := runs_linked lawful dropped schedule.after_reveals
      (fun i => schedule.later_reveals (i + schedule.dequeued)) same leftIn rightIn
  have split := List.take_append_drop schedule.dequeued flashblocks
  have aheadSplit : schedule.ahead processor block flashblocks start =
      runFlashblocks processor (fun i => schedule.later (i + schedule.dequeued))
        (flashblocks.drop schedule.dequeued)
        (runFlashblocks processor schedule.later (flashblocks.take schedule.dequeued)
          (schedule.opened processor block start)) := by
    have appended := @runFlashblocks_append processor schedule.later
      (flashblocks.take schedule.dequeued) (flashblocks.drop schedule.dequeued)
      (schedule.opened processor block start)
    rw [split, length] at appended
    exact appended
  have acceptedSplit := @accepted_append processor schedule.later
    (flashblocks.take schedule.dequeued) (flashblocks.drop schedule.dequeued)
    (schedule.opened processor block start)
  rw [split, length] at acceptedSplit
  refine ⟨?_, _, ?_, rfl, firstLeft ++ lastLeft, firstRight ++ lastRight, ?_, ?_, ?_, ?_⟩
  · rw [aheadSplit]
    exact SameCell.published lawful finalSame
  · exact whole.nodup.sublist (accepted_sublist _ _ _)
  · rw [Schedule.among, isLastLeft, isFirstLeft, List.append_assoc]
  · rw [aheadSplit, isLastRight, isFirstRight, List.append_assoc]
  · rw [acceptedSplit, List.map_append, ← firstLeftLasts, ← lastLeftLasts, lasts, List.map_append]
    rfl
  · rw [acceptedSplit, List.map_append, ← firstRightLasts, ← lastRightLasts, lasts,
      List.map_append]
    rfl

def twoFlashblocks : List FlashBlock :=
  [Reference.flashblock 7 2 0 [(1, 0)] [(1, true)], Reference.flashblock 7 2 1 [(2, 1)] [(2, true)]]

theorem nodeAt_hides : Hides 2 (Reference.nodeAt 0 fun _ => 0) where
  below := (by decide : 0 < 2)
  header := rfl

theorem nodeAt_reveals :
    Reveals 2 (Reference.header 1 0) (Reference.stateAt 0) (Reference.nodeAt 1 fun _ => 0) where
  below := (by decide : 1 < 2)
  tip := rfl
  header := rfl
  state := rfl

def between : Schedule 2 (Reference.header 1 0) (Reference.stateAt 0) twoFlashblocks.length where
  shown := 1
  dequeued := 1
  before := fun i => if i < 1 then Reference.nodeAt 0 fun _ => 0 else Reference.nodeAt 1 fun _ => 0
  during := fun _ => Reference.nodeAt 1 fun _ => 0
  after := fun _ => Reference.nodeAt 1 fun _ => 0
  first := fun _ => Reference.nodeAt 1 fun _ => 0
  later := fun _ => Reference.nodeAt 1 fun _ => 0
  shown_le := by decide
  dequeued_le := by decide
  hidden := by
    intro i early
    rw [if_pos early]
    exact nodeAt_hides
  before_reveals := by
    intro i late
    rw [if_neg (by omega)]
    exact nodeAt_reveals
  during_reveals := fun _ => nodeAt_reveals
  after_reveals := fun _ => nodeAt_reveals
  first_reveals := fun _ => nodeAt_reveals
  later_reveals := fun _ => nodeAt_reveals

/-- Both flashblocks are accepted and broadcast, the first from the cache. -/
theorem canonical_block_order_irrelevant_two :
    let start := StateProcessor.initial (Reference.nodeAt 0 fun _ => 0).client
    let block := Reference.canonicalBlock 1 []
    let among := between.among Reference.processor block twoFlashblocks start
    let ahead := between.ahead Reference.processor block twoFlashblocks start
    SamePublished (Reference.stateAt 0) among ahead ∧
      lasts among.sent = twoFlashblocks.map some ∧ lasts ahead.sent = twoFlashblocks.map some := by
  intro start block among ahead
  have reached : Reachable Reference.processor (Guard.onWire fun _ => True) start :=
    .init ⟨_, rfl⟩
  have next : block.number + 1 = 2 := rfl
  have whole : Sequence 2 0 twoFlashblocks := by
    refine ⟨?_, rfl⟩
    intro flashblock member
    rcases List.mem_pair.mp member with rfl | rfl <;> rfl
  obtain ⟨same, once, -, isOnce, amongSent, aheadSent, isAmong, isAhead, amongLasts, aheadLasts⟩ :=
    canonical_block_order_irrelevant Reference.evm_lawful Reference.systemContracts
      (Reference.stateAt_live 0) between reached rfl next rfl
      (FlashblockCache.cached_new 0 2) whole
  have both : once = twoFlashblocks := by
    rw [isOnce]
    rfl
  refine ⟨same, ?_, ?_⟩
  · rw [isAmong, ← both]
    exact amongLasts
  · rw [isAhead, ← both]
    exact aheadLasts

end Schedule

end EthgasReth.Reordering

import EthgasReth.Lockstep
import EthgasReth.Coherence

/-!
# The flashblocks of one block

A node that shows the block below takes the flashblocks of a block one after
another.  Each one is built on what the cell holds, clears it, or fails; and what
is built stays with the block, whatever number its base payload names.
-/

set_option autoImplicit false

namespace EthgasReth.OneBlock

open EthgasReth.Primitives
open EthgasReth.Lib
open EthgasReth.Execution
open EthgasReth.Pending
open EthgasReth.Cache
open EthgasReth.Build
open EthgasReth.Build.StateProcessor
open EthgasReth.BuildSpec
open EthgasReth.Validation
open EthgasReth.Processor
open EthgasReth.Run

variable {processor : StateProcessor}

/-! ## Nodes at the block below -/

def Below (number : Nat) (node : Node) : Prop :=
  node.effectiveCanonicalNumber node.lastCanonicalBlock < number

structure Hides (number : Nat) (node : Node) : Prop where
  below : Below number node
  header : node.client.headerByNumber (number - 1) = .ok none

/-- The node shows the block below `number`: it is the tip, with its header and its
state. -/
structure Reveals (number : Nat) (header : Header) (anchor : View) (node : Node) : Prop where
  below : Below number node
  tip : node.canonicalTip = some (number - 1)
  header : node.client.headerByNumber (number - 1) = .ok (some header)
  state : node.client.stateByBlockNumber (number - 1) = .ok anchor

section Nodes

variable {number : Nat} {node : Node}

theorem Below.tip (below : Below number node) {best : Nat} (isTip : node.canonicalTip = some best) :
    best < number := by
  unfold Below Node.effectiveCanonicalNumber at below
  rw [isTip] at below
  simp only at below
  omega

theorem Below.effective (below : Below number node) {block : Nat} (next : block + 1 = number) :
    node.effectiveCanonicalNumber block = block := by
  unfold Node.effectiveCanonicalNumber
  cases isTip : node.canonicalTip with
  | none => rfl
  | some best =>
      have less := below.tip isTip
      simp only
      omega

theorem Below.fresh (below : Below number node) {flashblock : FlashBlock}
    (isNumber : flashblock.blockNumber = number) : node.isSuperseded flashblock = false := by
  have same : flashblock.metadata.blockNumber = number := isNumber
  unfold Below at below
  simp only [Node.isSuperseded, same, decide_eq_false_iff_not]
  omega

theorem Reveals.read {header : Header} {anchor : View}
    (reveals : Reveals number header anchor node) :
    readAnchor node.client (number - 1) = .ok (header, anchor) := by
  simp only [readAnchor, reveals.header, reveals.state]

theorem Hides.read (hides : Hides number node) :
    readAnchor node.client (number - 1) =
      .error (.provider (.missingCanonicalHeader (number - 1))) := by
  simp only [readAnchor, hides.header]

end Nodes

/-! ## Snapshots of one block -/

/-- The snapshot's blocks have the number that the first base payload names. -/
def Based (pending : PendingBlocks) : Prop :=
  ∃ base, pending.flashblocks.head?.bind (·.base) = some base ∧
    pending.earliestBlockNumber = base.blockNumber ∧ pending.latestBlockNumber = base.blockNumber

/-- A snapshot of flashblocks of the block, at this height or above. -/
structure OfBlock (number : Nat) (pending : PendingBlocks) : Prop where
  numbers : ∀ flashblock ∈ pending.flashblocks, flashblock.blockNumber = number
  based : Based pending
  above : number ≤ pending.latestBlockNumber

section OfBlock

variable {number : Nat} {pending : PendingBlocks}

theorem Based.nonempty (based : Based pending) : pending.flashblocks ≠ [] := by
  obtain ⟨base, isBase, -⟩ := based
  intro empty
  rw [empty] at isBase
  cases isBase

theorem Based.latest_eq {other : PendingBlocks} (based : Based pending) (otherBased : Based other)
    (same : other.flashblocks.head? = pending.flashblocks.head?) :
    other.latestBlockNumber = pending.latestBlockNumber := by
  obtain ⟨base, isBase, -, latest⟩ := based
  obtain ⟨otherBase, isOther, -, otherLatest⟩ := otherBased
  rw [same, isBase] at isOther
  rw [latest, otherLatest, Option.some.inj isOther]

theorem OfBlock.near (ofBlock : OfBlock number pending) {best : Nat}
    (less : best < number) : processor.isAnchoredNear pending best = true := by
  obtain ⟨base, -, earliest, latest⟩ := ofBlock.based
  have above := ofBlock.above
  have zero : best - pending.earliestBlockNumber ≤ processor.maxDepth := by
    rw [earliest, ← latest]
    omega
  exact decide_eq_true zero

theorem OfBlock.publishable {node : Node} {new : Arc PendingBlocks}
    (ofBlock : OfBlock number new.value) (below : Below number node) :
    processor.publishable node (some new) = some new := by
  have extending : processor.extendsCanonicalTip node new.value = true := by
    unfold StateProcessor.extendsCanonicalTip
    cases isTip : node.canonicalTip with
    | none => rfl
    | some best =>
        have less := below.tip isTip
        have above := ofBlock.above
        have ahead : ¬ new.value.latestBlockNumber ≤ best := by omega
        simp [ofBlock.near less, ahead]
  simp [StateProcessor.publishable, extending]

theorem ordered_const {flashblocks : List FlashBlock}
    (numbers : ∀ flashblock ∈ flashblocks, flashblock.blockNumber = number) :
    Ordered flashblocks := by
  apply List.pairwise_of_forall_mem_list
  intro first isFirst second isSecond
  rw [numbers first isFirst, numbers second isSecond]

theorem flashblocksPerBlock_const {flashblocks : List FlashBlock} (nonempty : flashblocks ≠ [])
    (numbers : ∀ flashblock ∈ flashblocks, flashblock.blockNumber = number) :
    flashblocksPerBlock flashblocks = [(number, flashblocks)] := by
  unfold flashblocksPerBlock
  induction flashblocks using List.reverseRecOn with
  | nil => exact absurd rfl nonempty
  | append_singleton earlier last ih =>
      have isNumber := numbers last (by simp)
      rw [groupEntries_append, isNumber]
      by_cases empty : earlier = []
      · subst empty
        rfl
      · rw [ih empty fun flashblock member => numbers flashblock (by simp [member])]
        have pushed := pushEntry_last number last [] earlier (by simp)
        simpa using pushed

theorem anchorNumber_const {flashblocks : List FlashBlock} (nonempty : flashblocks ≠ [])
    (numbers : ∀ flashblock ∈ flashblocks, flashblock.blockNumber = number) :
    anchorNumber flashblocks = some (number - 1) := by
  rw [anchorNumber, flashblocksPerBlock_const nonempty numbers]
  rfl

theorem build_based {client : Client} {prev : Option PendingBlocks} {flashblocks : List FlashBlock}
    {built : PendingBlocks} (nonempty : flashblocks ≠ [])
    (numbers : ∀ flashblock ∈ flashblocks, flashblock.blockNumber = number)
    (success : processor.buildPendingState client prev flashblocks = .ok (some built)) :
    built.flashblocks = flashblocks ∧ Based built ∧
      ∀ last ∈ flashblocks.getLast?, built.latestFlashblockIndex = last.index := by
  obtain ⟨run, returns⟩ := buildPendingState_ok success
  have whole := returns_whole (ordered_const numbers) returns
  have grouped := returns.grouped
  rw [flashblocksPerBlock_const nonempty numbers] at grouped
  obtain ⟨block, isBlock, sameFlashblocks⟩ := List.map_eq_singleton_iff.mp grouped
  have prepares := returns.prepares
  rw [isBlock] at prepares
  obtain ⟨base, assembled⟩ := BlockAssembler.assemble_ok prepares.1.assembled
  obtain ⟨earliest, latest, last, clean, isEarliest, isLatest, isLast, rfl⟩ :=
    PendingBlocksBuilder.build_ok returns.finishes
  obtain ⟨-, -, headers⟩ := recordBlocks_holds Ledger.holds_new returns.records clean
  rw [isBlock] at headers
  change run.builder.headers.head? = some earliest at isEarliest
  change run.builder.headers.getLast? = some latest at isLatest
  change run.builder.flashblocks.getLast? = some last at isLast
  change run.builder.flashblocks = flashblocks at whole
  rw [headers] at isEarliest isLatest
  cases isEarliest
  cases isLatest
  have number : block.assembled.header.header.number = base.blockNumber := by
    rw [assembled.sealed, assembled.number]
  refine ⟨whole, ⟨base, ?_, number, number⟩, ?_⟩
  · have sameList : run.builder.flashblocks = block.flashblocks := whole.trans sameFlashblocks.symm
    change run.builder.flashblocks.head?.bind (·.base) = some base
    rw [sameList]
    exact assembled.baseOf
  · intro other isOther
    rw [whole, isOther] at isLast
    cases isLast
    rfl

end OfBlock

/-! ## One flashblock of the block -/

/-- Between two flashblocks of the block, before the one with the index: nothing
of the block is cached, and the snapshot ends below the index. -/
structure InBlock (number index : Nat) (state : ProcessorState) : Prop where
  uncached : ∀ position, state.cache.cached number position = none
  address : ∀ pending, state.pendingBlocks = some pending → pending.address < state.nextAddress
  ofBlock : ∀ pending, state.pendingBlocks = some pending → OfBlock number pending.value
  behind : ∀ pending, state.pendingBlocks = some pending →
    pending.value.latestFlashblockIndex < index

def Expects (cell : Option (Arc PendingBlocks)) (flashblock : FlashBlock) : Prop :=
  match cell with
  | none => flashblock.index = 0
  | some pending => flashblock.blockNumber = pending.value.latestBlockNumber ∧
      flashblock.index = pending.value.latestFlashblockIndex + 1

def held (cell : Option (Arc PendingBlocks)) : List FlashBlock :=
  match cell with
  | none => []
  | some pending => pending.value.flashblocks

def broadcasting (state : ProcessorState) (built : PendingBlocks) : ProcessorState :=
  { state with
    pendingBlocks := some { address := state.nextAddress, value := built }
    sent := state.sent ++ [{ address := state.nextAddress, value := built }]
    nextAddress := state.nextAddress + 1 }

/-- What a flashblock of the block does on a node that shows the block below. -/
inductive Outcome (processor : StateProcessor) (client : Client) (flashblock : FlashBlock)
    (state : ProcessorState) : ProcessorState → Prop
  | idle (absent : state.pendingBlocks = none)
      (unexpected : ¬ Expects state.pendingBlocks flashblock) :
      Outcome processor client flashblock state state
  | gap {pending : Arc PendingBlocks} (present : state.pendingBlocks = some pending)
      (unexpected : ¬ Expects state.pendingBlocks flashblock) :
      Outcome processor client flashblock state
        { state with pendingBlocks := none, nextAddress := state.nextAddress + 1 }
  | failed (expected : Expects state.pendingBlocks flashblock)
      (failure : ∀ built, processor.buildPendingState client
        (state.pendingBlocks.map (·.value)) (held state.pendingBlocks ++ [flashblock]) ≠
          .ok (some built)) :
      Outcome processor client flashblock state state
  | behind {built : PendingBlocks} (absent : state.pendingBlocks = none)
      (expected : Expects state.pendingBlocks flashblock)
      (success : processor.buildPendingState client (state.pendingBlocks.map (·.value))
        (held state.pendingBlocks ++ [flashblock]) = .ok (some built))
      (below : built.latestBlockNumber < flashblock.blockNumber) :
      Outcome processor client flashblock state
        { state with pendingBlocks := none, nextAddress := state.nextAddress + 1 }
  | built {built : PendingBlocks} (expected : Expects state.pendingBlocks flashblock)
      (success : processor.buildPendingState client (state.pendingBlocks.map (·.value))
        (held state.pendingBlocks ++ [flashblock]) = .ok (some built))
      (above : flashblock.blockNumber ≤ built.latestBlockNumber) :
      Outcome processor client flashblock state (broadcasting state built)

section Apply

variable {number : Nat} {header : Header} {anchor : View} {node : Node} {state : ProcessorState}
  {flashblock : FlashBlock}

theorem inBlock_absent {index : Nat}
    (uncached : ∀ position, state.cache.cached number position = none)
    (absent : state.pendingBlocks = none) : InBlock number index state := by
  refine ⟨uncached, ?_, ?_, ?_⟩
  all_goals
    intro pending isPending
    rw [absent] at isPending
    cases isPending

theorem InBlock.load (processor : StateProcessor) {index : Nat} (inBlock : InBlock number index state)
    (below : Below number node) : load processor node state = state := by
  unfold Run.load StateProcessor.loadPendingOrDropStale
  cases cell : state.pendingBlocks with
  | none => rfl
  | some pending =>
      cases isTip : node.canonicalTip with
      | none => rfl
      | some best =>
          have near := @OfBlock.near processor _ _ (inBlock.ofBlock pending cell) _ (below.tip isTip)
          simp only [near, if_true]

theorem InBlock.numbers {index : Nat} (inBlock : InBlock number index state)
    (isNumber : flashblock.blockNumber = number) :
    ∀ other ∈ held state.pendingBlocks ++ [flashblock], other.blockNumber = number := by
  intro other member
  rcases List.mem_append.mp member with member | member
  · cases cell : state.pendingBlocks with
    | none =>
        rw [cell] at member
        cases member
    | some pending =>
        rw [cell] at member
        exact (inBlock.ofBlock pending cell).numbers other member
  · rw [List.mem_singleton.mp member]
    exact isNumber

theorem InBlock.built {index : Nat} (inBlock : InBlock number index state)
    (isNumber : flashblock.blockNumber = number) {client : Client} {built : PendingBlocks}
    (success : processor.buildPendingState client (state.pendingBlocks.map (·.value))
      (held state.pendingBlocks ++ [flashblock]) = .ok (some built)) :
    built.flashblocks = held state.pendingBlocks ++ [flashblock] ∧ Based built ∧
      built.latestFlashblockIndex = flashblock.index ∧
      ∀ pending, state.pendingBlocks = some pending → number ≤ built.latestBlockNumber := by
  obtain ⟨whole, based, index⟩ := build_based (by simp) (inBlock.numbers isNumber) success
  refine ⟨whole, based, index flashblock (by simp), ?_⟩
  intro pending cell
  have ofBlock := inBlock.ofBlock pending cell
  rw [cell] at whole
  have sameHead : built.flashblocks.head? = pending.value.flashblocks.head? := by
    rw [whole]
    exact List.head?_append_of_ne_nil _ ofBlock.based.nonempty
  rw [ofBlock.based.latest_eq based sameHead]
  exact ofBlock.above

theorem validate_later {latest latestIndex block index : Nat} {latestId id : PayloadId}
    (later : latestIndex < index) (unexpected : ¬ (block = latest ∧ index = latestIndex + 1)) :
    FlashblockSequenceValidator.validate latest latestIndex latestId block index id =
      if block = latest then .nonSequentialGap (latestIndex + 1) index
      else .invalidNewBlockIndex block index := by
  unfold FlashblockSequenceValidator.validate
  grind

/-- Processing the flashblock is building the list it continues, or nothing. -/
theorem processFlashblock_expected (expected : Expects state.pendingBlocks flashblock) :
    processor.processFlashblock node state.nextAddress state.pendingBlocks flashblock =
      processor.buildShared node state.nextAddress state.pendingBlocks
        (held state.pendingBlocks ++ [flashblock]) := by
  cases cell : state.pendingBlocks with
  | none =>
      rw [cell] at expected
      have first : flashblock.index = 0 := expected
      simp only [StateProcessor.processFlashblock, first, if_true]
      rfl
  | some pending =>
      rw [cell] at expected
      have next := @validate_nextInSequence pending.value.latestBlockNumber
        pending.value.latestFlashblockIndex flashblock.metadata.blockNumber flashblock.index
        pending.value.payloadId flashblock.payloadId
      simp only [StateProcessor.processFlashblock, next.mpr expected]
      rfl

theorem processFlashblock_unexpected (inBlock : InBlock number flashblock.index state)
    (unexpected : ¬ Expects state.pendingBlocks flashblock) :
    processor.processFlashblock node state.nextAddress state.pendingBlocks flashblock =
      match state.pendingBlocks with
      | none => .error .missingFirstFlashblock
      | some _ => .ok none := by
  cases cell : state.pendingBlocks with
  | none =>
      rw [cell] at unexpected
      have later : flashblock.index ≠ 0 := unexpected
      simp only [StateProcessor.processFlashblock, later, if_false]
  | some pending =>
      rw [cell] at unexpected
      have clears := @validate_later _ _ flashblock.metadata.blockNumber _ pending.value.payloadId
        flashblock.payloadId (inBlock.behind pending cell) unexpected
      simp only [StateProcessor.processFlashblock, clears]
      by_cases same : flashblock.metadata.blockNumber = pending.value.latestBlockNumber
      · simp only [same, if_true]
      · simp only [same, if_false]

theorem apply_error {index : Nat} (inBlock : InBlock number index state)
    (isNumber : flashblock.blockNumber = number) {failure : StateProcessorError}
    (notProvider : NotProvider failure)
    (processed : processor.processFlashblock node state.nextAddress state.pendingBlocks flashblock =
      .error failure) :
    processor.applyFlashblock node state.pendingBlocks flashblock state = state := by
  unfold StateProcessor.applyFlashblock
  split
  · rfl
  · rw [processed]
    cases failure with
    | provider error => exact absurd rfl (notProvider error)
    | missingFirstFlashblock =>
        have absent : state.cache.hasFlashblock flashblock.metadata.blockNumber
            (flashblock.index - 1) = false := by
          rw [FlashblockCache.hasFlashblock, show flashblock.metadata.blockNumber = number from
            isNumber, inBlock.uncached]
          rfl
        simp only [absent, Bool.false_eq_true, and_false, if_false]
    | protocol error => rfl
    | execution error => rfl
    | build error => rfl

theorem apply_built (reveals : Reveals number header anchor node)
    (inBlock : InBlock number flashblock.index state)
    (isNumber : flashblock.blockNumber = number)
    (expected : Expects state.pendingBlocks flashblock) {built : PendingBlocks}
    (success : processor.buildPendingState node.client (state.pendingBlocks.map (·.value))
      (held state.pendingBlocks ++ [flashblock]) = .ok (some built)) :
    Outcome processor node.client flashblock state
      (processor.applyFlashblock node state.pendingBlocks flashblock state) := by
  have fresh := reveals.below.fresh isNumber
  have processed := @processFlashblock_expected processor node state flashblock expected
  unfold StateProcessor.buildShared at processed
  rw [success] at processed
  obtain ⟨whole, based, -, higher⟩ := inBlock.built isNumber success
  have numbers := inBlock.numbers isNumber
  rw [← whole] at numbers
  by_cases above : number ≤ built.latestBlockNumber
  · have published : processor.publishable node
        (some { address := state.nextAddress, value := built }) =
          some { address := state.nextAddress, value := built } :=
      OfBlock.publishable ⟨numbers, based, above⟩ reveals.below
    have applied : processor.applyFlashblock node state.pendingBlocks flashblock state =
        broadcasting state built := by
      unfold StateProcessor.applyFlashblock
      rw [processed]
      simp only [fresh, Bool.false_eq_true, if_false]
      change ProcessorState.mk (processor.publishable node _) _ _ _ = _
      cases cell : state.pendingBlocks with
      | none => simp [published, broadcasting]
      | some old =>
          have older := inBlock.address old cell
          have differ : old.address ≠ state.nextAddress := by omega
          simp [published, broadcasting, Arc.ptrEq, differ]
    rw [applied]
    exact .built expected success (by rw [isNumber]; exact above)
  · have absent : state.pendingBlocks = none := by
      cases cell : state.pendingBlocks with
      | none => rfl
      | some pending => exact absurd (higher pending cell) above
    have dropped : processor.publishable node
        (some { address := state.nextAddress, value := built }) = none := by
      have stale : built.latestBlockNumber ≤ number - 1 := by omega
      simp [StateProcessor.publishable, StateProcessor.extendsCanonicalTip, reveals.tip, stale]
    have applied : processor.applyFlashblock node state.pendingBlocks flashblock state =
        { state with pendingBlocks := none, nextAddress := state.nextAddress + 1 } := by
      unfold StateProcessor.applyFlashblock
      rw [processed]
      simp only [fresh, Bool.false_eq_true, if_false]
      change ProcessorState.mk (processor.publishable node _) _ _ _ = _
      simp [dropped]
    rw [applied]
    exact .behind absent expected success (by omega)

theorem apply_outcome (processor : StateProcessor) (reveals : Reveals number header anchor node)
    (inBlock : InBlock number flashblock.index state)
    (isNumber : flashblock.blockNumber = number) :
    Outcome processor node.client flashblock state
      (processor.applyFlashblock node state.pendingBlocks flashblock state) := by
  have fresh := reveals.below.fresh isNumber
  by_cases expected : Expects state.pendingBlocks flashblock
  · have isAnchor := anchorNumber_const (by simp) (inBlock.numbers isNumber)
    cases success : processor.buildPendingState node.client (state.pendingBlocks.map (·.value))
        (held state.pendingBlocks ++ [flashblock]) with
    | error failure =>
        have processed := @processFlashblock_expected processor node state flashblock expected
        unfold StateProcessor.buildShared at processed
        rw [success] at processed
        have notProvider := buildPendingState_fails isAnchor reveals.read failure success
        rw [apply_error inBlock isNumber notProvider processed]
        refine .failed expected ?_
        intro built
        rw [success]
        exact fun isOk => by cases isOk
    | ok result =>
        cases result with
        | none =>
            have empty := buildPendingState_none.mp success
            simp at empty
        | some built => exact apply_built reveals inBlock isNumber expected success
  · have processed := @processFlashblock_unexpected processor number node state flashblock inBlock
      expected
    cases cell : state.pendingBlocks with
    | none =>
        rw [cell] at processed
        have unchanged := @apply_error processor number node state flashblock _ inBlock isNumber
          .missingFirstFlashblock (by simp [NotProvider]) (by rw [cell]; exact processed)
        rw [cell] at unchanged
        rw [unchanged]
        exact .idle cell expected
    | some pending =>
        rw [cell] at processed
        have applied : processor.applyFlashblock node (some pending) flashblock state =
            { state with pendingBlocks := none, nextAddress := state.nextAddress + 1 } := by
          unfold StateProcessor.applyFlashblock
          simp [fresh, processed, StateProcessor.publishable]
        rw [applied]
        exact .gap cell expected

theorem Outcome.inBlock {client : Client} {next : ProcessorState}
    (inBlock : InBlock number flashblock.index state)
    (isNumber : flashblock.blockNumber = number)
    (outcome : Outcome processor client flashblock state next) :
    InBlock number (flashblock.index + 1) next := by
  have later : InBlock number (flashblock.index + 1) state := by
    refine ⟨inBlock.uncached, inBlock.address, inBlock.ofBlock, ?_⟩
    intro pending isPending
    have less := inBlock.behind pending isPending
    omega
  cases outcome with
  | idle => exact later
  | failed => exact later
  | gap => exact inBlock_absent inBlock.uncached rfl
  | behind => exact inBlock_absent inBlock.uncached rfl
  | built expected success above =>
      obtain ⟨whole, based, latest, -⟩ := inBlock.built isNumber success
      have numbers := inBlock.numbers isNumber
      rw [← whole] at numbers
      refine ⟨inBlock.uncached, ?_, ?_, ?_⟩
      · intro pending isPending
        cases isPending
        exact Nat.lt_succ_self _
      · intro pending isPending
        cases isPending
        exact ⟨numbers, based, by rw [← isNumber]; exact above⟩
      · intro pending isPending
        cases isPending
        rw [latest]
        exact Nat.lt_succ_self _

end Apply

end EthgasReth.OneBlock

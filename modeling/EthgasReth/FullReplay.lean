import EthgasReth.Coherence

/-!
# Incremental execution and the full replay

A snapshot built on another one should be what a build of all its flashblocks on
nothing gives.  The one thing such a build checks and a build on a snapshot does
not is the status of the transactions it already holds: a later flashblock may
state another one.
-/

set_option autoImplicit false

namespace EthgasReth.FullReplay

open EthgasReth.Primitives
open EthgasReth.Lib
open EthgasReth.Execution
open EthgasReth.Pending
open EthgasReth.BlockAssembler
open EthgasReth.Build
open EthgasReth.Build.StateProcessor
open EthgasReth.Ledger
open EthgasReth.BuildSpec
open EthgasReth.Replay
open EthgasReth.Incremental
open EthgasReth.Coherence
open EthgasReth.Processor
open EthgasReth.Run
open EthgasReth.Snapshots

variable {processor : StateProcessor} {contracts : SystemContracts processor.evm}

/-! ## Receipts that keep the statuses -/

/-- The flashblock states the status that the snapshot's flashblocks of the same
block have stated for every transaction of theirs. -/
def KeepsStatuses (processor : StateProcessor) (pending : PendingBlocks)
    (flashblock : FlashBlock) : Prop :=
  ∀ raw ∈ rawTransactions (sameBlock pending flashblock), ∀ transaction,
    processor.alloy.decode2718 raw = .ok transaction → ∀ held stated,
      (collectReceipts (sameBlock pending flashblock)).lookup transaction.txHash = some held →
      flashblock.metadata.receipts.lookup transaction.txHash = some stated →
      stated.success = held.success

theorem recordRuns_receipts {context : BlockContext processor} {index : Nat}
    {runs : List TransactionRun} {tally after : Tally}
    (success : recordRuns context index runs tally = .ok after) {run : TransactionRun}
    (member : run ∈ runs) : ∃ produced, context.receiptByHash.lookup run.hash = some produced := by
  induction runs generalizing index tally with
  | nil => cases member
  | cons first rest ih =>
      obtain ⟨next, firstRan, success⟩ := bind_eq_ok success
      rcases List.mem_cons.mp member with rfl | member
      · obtain ⟨produced, found, -, -⟩ := recordRun_ok firstRan
        exact ⟨produced, found⟩
      · exact ih success member

theorem recordBlocks_receipts {blocks : List (BlockRun processor)}
    {builder after : PendingBlocksBuilder} (success : recordBlocks blocks builder = .ok after)
    {block : BlockRun processor} (inside : block ∈ blocks) {run : TransactionRun}
    (member : run ∈ block.runs) :
    ∃ produced, (collectReceipts block.flashblocks).lookup run.hash = some produced := by
  induction blocks generalizing builder with
  | nil => cases inside
  | cons first rest ih =>
      obtain ⟨next, firstRan, success⟩ := bind_eq_ok success
      rcases List.mem_cons.mp inside with rfl | inside
      · obtain ⟨tally, runsRan, -⟩ := bind_eq_ok firstRan
        exact recordRuns_receipts runsRan member
      · exact ih success inside

theorem prepares_mem {parent : Header} {blocks : List (BlockRun processor)}
    (prepares : Prepares parent blocks) {block : BlockRun processor} (member : block ∈ blocks) :
    ∃ before, Prepared before block := by
  induction blocks generalizing parent with
  | nil => cases member
  | cons first rest ih =>
      rcases List.mem_cons.mp member with rfl | member
      · exact ⟨parent, prepares.1⟩
      · exact ih prepares.2 member

theorem prepared_decodes {parent : Header} {block : BlockRun processor}
    (prepared : Prepared parent block) {run : TransactionRun} (member : run ∈ block.runs) :
    ∃ raw ∈ rawTransactions block.flashblocks,
      processor.alloy.decode2718 raw = .ok run.transaction := by
  obtain ⟨base, assembled⟩ := assemble_ok prepared.assembled
  apply mapM_mem assembled.transactions
  rw [← prepared.transactions]
  exact List.mem_map_of_mem member

theorem keepsStatuses_carries {chain : Chain contracts} {pending : PendingBlocks}
    {flashblock : FlashBlock} {run : BuildRun processor} {final : View}
    (keeps : KeepsStatuses processor pending flashblock)
    (replayed : Replayed chain agrees pending run final) {block : BlockRun processor}
    (inside : block ∈ run.blocks) (isSame : block.flashblocks = sameBlock pending flashblock)
    {extended : BlockRun processor}
    (longer : extended.flashblocks = block.flashblocks ++ [flashblock]) {known : TransactionRun}
    (member : known ∈ block.runs) {success : Bool}
    (agreed : agrees block.context known success) : agrees extended.context known success := by
  obtain ⟨held, isHeld⟩ := recordBlocks_receipts replayed.records inside member
  have status : success = held.success := agreed held isHeld
  obtain ⟨parent, prepared⟩ := prepares_mem replayed.prepares inside
  obtain ⟨raw, inRaw, decodes⟩ := prepared_decodes prepared member
  intro receipt found
  change (collectReceipts extended.flashblocks).lookup known.hash = some receipt at found
  rw [longer, collectReceipts_append] at found
  cases stated : flashblock.metadata.receipts.lookup known.hash with
  | none =>
      rw [stated, Option.none_or, isHeld] at found
      rw [status, Option.some.inj found]
  | some other =>
      rw [stated, Option.some_or] at found
      have same : other = receipt := Option.some.inj found
      rw [isSame] at inRaw isHeld
      rw [status, ← same]
      exact (keeps raw inRaw known.transaction decodes held other isHeld stated).symm

/-! ## The full replay of a snapshot -/

/-- The snapshot is what a build of its flashblocks on nothing gives, on any
provider that shows its anchor, except for the representation of the bundle; and
both bundles, read over the anchor's state, give the state that executing the
flashblocks from there leads to. -/
def EqualsFullReplay (chain : Chain contracts) (pending : PendingBlocks) : Prop :=
  ∃ anchor final, pending.anchor = some anchor ∧
    executeFlashblocks processor anchor.header pending.flashblocks (chain.stateOf anchor.hash) =
      some final ∧
    (PendingStateProvider.mk (chain.stateOf anchor.hash) pending.bundleState).world =
      final.world ∧
    ∀ client : Client,
      (∀ number ∈ anchorNumber pending.flashblocks,
        readAnchor client number = .ok (anchor.header, chain.stateOf anchor.hash)) →
      ∃ bundle, processor.buildPendingState client none pending.flashblocks =
          .ok (some { pending with bundleState := bundle }) ∧
        (PendingStateProvider.mk (chain.stateOf anchor.hash) bundle).world = final.world

section Replayed

variable {chain : Chain contracts} {pending : PendingBlocks} {run : BuildRun processor}
  {final : View}

theorem replayed_anchorNumber {check : Check processor}
    (replayed : Replayed chain check pending run final) :
    ∃ number, number ∈ anchorNumber pending.flashblocks := by
  unfold anchorNumber
  cases groups : flashblocksPerBlock pending.flashblocks with
  | cons group rest => exact ⟨group.1 - 1, rfl⟩
  | nil => exact absurd ((groupEntries_eq_nil _ _).mp groups) replayed.nonempty

theorem replayed_equalsFullReplay (lawful : processor.evm.Lawful)
    (replayed : Replayed chain agrees pending run final) : EqualsFullReplay chain pending := by
  refine ⟨_, final, replayed.finished.2, ?_, ?_, ?_⟩
  · have executed := blocksReplay_execute replayed.prepares replayed.signed replayed.replays
    rw [replayed.grouped] at executed
    rw [executeFlashblocks, ← replayed.anchored]
    exact executed
  · rw [← replayed.anchored]
    exact replayed.denotes lawful
  · intro client shown
    rw [← replayed.anchored] at shown ⊢
    obtain ⟨number, isNumber⟩ := replayed_anchorNumber replayed
    have begun : BlocksReplay agrees run.blocks
        (processor.evm.view (processor.evm.build run.view none)) final := by
      rw [lawful.view_build]
      exact replayed.replays
    obtain ⟨after, executes, reached⟩ := executesAll_of lawful replayed.signed begun
    obtain ⟨-, base, -⟩ := executesAll_replays lawful executes
    rw [lawful.base_build] at base
    let full : BuildRun processor := { run with db := after }
    have returns : Returns client none pending.flashblocks full
        { pending with bundleState := processor.evm.takeBundle after } := by
      constructor
      case aboveGenesis => exact replayed.aboveGenesis
      case anchored => exact ⟨number, isNumber, shown number isNumber⟩
      case grouped => exact replayed.grouped
      case prepares => exact replayed.prepares
      case executes => exact executes
      case records => exact replayed.records
      case finishes => exact PendingBlocksBuilder.build_withBundleState replayed.finishes
    refine ⟨processor.evm.takeBundle after, buildPendingState_of returns, ?_⟩
    have reflects := lawful.bundle after
    rw [base, reached] at reflects
    exact PendingStateProvider.world_eq reflects

end Replayed

/-! ## Every snapshot the processor builds -/

inductive Produces (processor : StateProcessor) (node : Node) (address : Nat)
    (prev : Option (Arc PendingBlocks)) : StateUpdate → PendingBlocks → Prop
  | flashblock {flashblock : FlashBlock} {new : Arc PendingBlocks}
      (success : processor.processFlashblock node address prev flashblock = .ok (some new)) :
      Produces processor node address prev (.flashblock flashblock) new.value
  | canonical {block : Block} {new : Arc PendingBlocks}
      (success : processor.processCanonicalBlock node address prev block = .ok (some new)) :
      Produces processor node address prev (.canonical block) new.value

theorem produces_builds {node : Node} {address : Nat} {prev : Option (Arc PendingBlocks)}
    {update : StateUpdate} {pending : PendingBlocks}
    (produces : Produces processor node address prev update pending) :
    (∃ old, prev = some old ∧ old.value = pending) ∨ Builds processor node prev update pending := by
  cases produces with
  | flashblock success =>
      rcases processFlashblock_new success with ⟨isOld, -⟩ | ⟨built, rfl, builds⟩
      · exact Or.inl ⟨_, isOld, rfl⟩
      · exact Or.inr builds
  | canonical success =>
      obtain ⟨built, rfl, builds⟩ := processCanonicalBlock_new success
      exact Or.inr builds

def anchorGuard (chain : Chain contracts) : Guard :=
  chainGuard chain (fun client pending _ => AnchorKept processor client pending)
    (AnchorKept processor)

/-- Such runs in which also every appended flashblock comes in the order of the
blocks and keeps the statuses of its block. -/
def statusGuard (chain : Chain contracts) : Guard :=
  chainGuard chain
    (fun client pending flashblock => AnchorKept processor client pending ∧
      InOrder pending flashblock ∧ KeepsStatuses processor pending flashblock)
    (AnchorKept processor)

theorem statusGuard_kept (lawful : processor.evm.Lawful) (chain : Chain contracts) :
    KeptByBuilds processor (statusGuard chain) (Coherent chain agrees) := by
  refine coherent_kept lawful (fun _ _ _ agreed => agreed) (fun _ _ kept => kept) ?_ ?_
  · intro client pending flashblock met
    exact ⟨met.1, met.2.1⟩
  · intro client pending flashblock met run final replayed block inside isSame extended longer
      known member success agreed
    exact keepsStatuses_carries met.2.2 replayed inside isSame longer member agreed

/-- Every snapshot that processing an update returns, in any state a run comes
through, is the full replay of its flashblocks. -/
theorem built_snapshot_equals_full_replay (lawful : processor.evm.Lawful) (chain : Chain contracts)
    {state : ProcessorState} {node : Node} {address : Nat} {update : StateUpdate}
    {pending : PendingBlocks} (visible : Visible processor (statusGuard chain) state)
    (allowed : Allows (statusGuard chain) node (load processor node state).pendingBlocks update)
    (produces : Produces processor node address (load processor node state).pendingBlocks update
      pending) :
    EqualsFullReplay chain pending := by
  have kept := statusGuard_kept lawful chain
  have loaded : ∀ old, (load processor node state).pendingBlocks = some old →
      Coherent chain agrees old.value := by
    have all := (kept.kept.visible visible).1
    exact (kept.kept.load node all).1
  have coherent : Coherent chain agrees pending := by
    rcases produces_builds produces with ⟨old, isOld, rfl⟩ | builds
    · exact loaded old isOld
    · exact kept node _ update pending loaded allowed builds
  obtain ⟨run, final, replayed⟩ := coherent
  exact replayed_equalsFullReplay lawful replayed

def denying : FlashBlock := Reference.flashblock 7 1 1 [] [(1, false)]

theorem executed_produces {flashblock : FlashBlock} {flashblocks : List FlashBlock}
    (evaluates : ((Reference.processor.processFlashblock genesis 1
      (load Reference.processor genesis executed).pendingBlocks flashblock).toOption.join.map
        fun new => (new.value.flashblocks, new.value.anchor)) =
          some (flashblocks, some ⟨Reference.header 0 0, 0⟩)) :
    ∃ pending, Produces Reference.processor genesis 1
        (load Reference.processor genesis executed).pendingBlocks (.flashblock flashblock) pending ∧
      pending.flashblocks = flashblocks ∧ pending.anchor = some ⟨Reference.header 0 0, 0⟩ := by
  obtain ⟨new, isNew, same⟩ := Option.map_eq_some_iff.mp evaluates
  obtain ⟨whole, anchor⟩ := Prod.mk.injEq .. ▸ same
  cases success : Reference.processor.processFlashblock genesis 1
      (load Reference.processor genesis executed).pendingBlocks flashblock with
  | error failure =>
      rw [success] at isNew
      cases isNew
  | ok result =>
      rw [success] at isNew
      cases isNew
      exact ⟨new.value, .flashblock success, whole, anchor⟩

theorem following_keepsStatuses {before : Arc PendingBlocks}
    (isBefore : (load Reference.processor genesis executed).pendingBlocks = some before) :
    KeepsStatuses Reference.processor before.value following := by
  intro raw inRaw transaction decodes held stated isHeld isStated
  have block : sameBlock before.value following = [executing] := by
    rw [sameBlock, (executed_snapshot isBefore).1]
    rfl
  rw [block] at inRaw
  rw [List.mem_singleton.mp inRaw] at decodes
  cases decodes
  cases isStated

/-- A second flashblock with another transaction. -/
theorem built_snapshot_equals_full_replay_two :
    ∃ pending, pending.flashblocks = [executing, following] ∧
      EqualsFullReplay aliceChain pending := by
  obtain ⟨pending, produces, whole, -⟩ := @executed_produces following [executing, following] rfl
  have allowed : Allows (statusGuard aliceChain) genesis
      (load Reference.processor genesis executed).pendingBlocks (.flashblock following) := by
    refine ⟨trivial, ⟨genesis_shows, ?_⟩, rfl⟩
    intro before isBefore _
    obtain ⟨kept, inOrder⟩ := following_met isBefore
    exact ⟨kept, inOrder, following_keepsStatuses isBefore⟩
  exact ⟨pending, whole, built_snapshot_equals_full_replay Reference.evm_lawful aliceChain
    (.reached executed_reachable) allowed produces⟩

/-- A second flashblock that states another status for the first transaction is
accepted, and a full replay of the two fails. -/
theorem denied_snapshot_built :
    ¬ ∀ (processor : StateProcessor) (contracts : SystemContracts processor.evm)
      (chain : Chain contracts) (state : ProcessorState) (node : Node) (address : Nat)
      (update : StateUpdate) (pending : PendingBlocks), processor.evm.Lawful →
      Visible processor (anchorGuard chain) state →
      Allows (anchorGuard chain) node (load processor node state).pendingBlocks update →
      Produces processor node address (load processor node state).pendingBlocks update pending →
      EqualsFullReplay chain pending := by
  intro claim
  obtain ⟨pending, produces, whole, isAnchor⟩ := @executed_produces denying [executing, denying] rfl
  have allowed : Allows (anchorGuard aliceChain) genesis
      (load Reference.processor genesis executed).pendingBlocks (.flashblock denying) := by
    refine ⟨trivial, ⟨genesis_shows, ?_⟩, rfl⟩
    intro before isBefore _
    exact (executed_snapshot isBefore).2
  obtain ⟨anchor, final, same, -, -, rebuilt⟩ := claim Reference.processor
    Reference.systemContracts aliceChain executed genesis 1 (.flashblock denying) pending
    Reference.evm_lawful (.reached executed_reachable) allowed produces
  rw [isAnchor] at same
  cases same
  have shown : ∀ number ∈ anchorNumber pending.flashblocks, readAnchor genesis.client number =
      .ok (Reference.header 0 0, aliceChain.stateOf 0) := by
    intro number isNumber
    rw [whole] at isNumber
    cases isNumber
    rfl
  obtain ⟨bundle, success, -⟩ := rebuilt genesis.client shown
  have fails : (Reference.processor.buildPendingState genesis.client none
      [executing, denying]).toOption.isSome = false := by decide
  rw [whole] at success
  rw [success] at fails
  cases fails

end EthgasReth.FullReplay

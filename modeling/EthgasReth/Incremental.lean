import EthgasReth.Replay

/-!
# Building on a snapshot

A snapshot is *replayed* when its blocks, run from the state of the block it is
anchored on, lead to the world its bundle holds.  A build on a replayed snapshot
finds every transaction of it by its hash, moves the database only by the system
calls until it comes to a new transaction, and executes that one where the
snapshot ended; so what it returns is replayed again.
-/

set_option autoImplicit false

namespace EthgasReth.Incremental

open EthgasReth.Primitives
open EthgasReth.Lib
open EthgasReth.Execution
open EthgasReth.Pending
open EthgasReth.BlockAssembler
open EthgasReth.Build
open EthgasReth.Build.StateProcessor
open EthgasReth.Ledger
open EthgasReth.BuildSpec
open EthgasReth.Replay

variable {processor : StateProcessor}

/-! ## Runs a snapshot knows -/

def Knows (prev : Option PendingBlocks) (run : TransactionRun) : Prop :=
  knownState prev run.hash = some run.state ∧ knownSender prev run.hash = some run.sender

section Known

variable {prev : Option PendingBlocks}

theorem advances_known {context : BlockContext processor} {runs others : List TransactionRun}
    {db final : processor.evm.Db} (known : ∀ run ∈ runs, Knows prev run)
    (same : others.map TransactionRun.transaction = runs.map TransactionRun.transaction)
    (recovers : ∀ run ∈ others, Recovers processor prev run)
    (advances : Advances prev context others db final) : others = runs ∧ final = db := by
  induction runs generalizing others db with
  | nil =>
      have empty : others = [] := by simpa using same
      subst empty
      exact ⟨rfl, advances⟩
  | cons run rest ih =>
      cases others with
      | nil => simp at same
      | cons other others =>
          simp only [List.map_cons, List.cons.injEq] at same
          obtain ⟨sameTransaction, sameRest⟩ := same
          obtain ⟨next, moves, later⟩ := advances
          obtain ⟨state, sender⟩ := known run (List.mem_cons_self ..)
          have sameHash : other.hash = run.hash := congrArg TransactionSigned.txHash sameTransaction
          have recovered := recovers other (List.mem_cons_self ..)
          unfold Recovers at recovered
          rw [sameHash, sender] at recovered
          cases moves with
          | executed unknown _ _ =>
              rw [sameHash, state] at unknown
              cases unknown
          | reused found =>
              rw [sameHash, state] at found
              obtain ⟨sameRuns, sameDb⟩ := ih
                (fun run member => known run (List.mem_cons_of_mem _ member)) sameRest
                (fun run member => recovers run (List.mem_cons_of_mem _ member)) later
              refine ⟨?_, sameDb⟩
              rw [sameRuns]
              have sameState : other.state = run.state := (Option.some.inj found).symm
              cases other
              cases run
              cases sameTransaction
              cases sameState
              cases recovered
              rfl

theorem prepared_unique {parent : Header} {block other : BlockRun processor}
    (prepared : Prepared parent block) (otherPrepared : Prepared parent other)
    (same : other.flashblocks = block.flashblocks) :
    other.base = block.base ∧ other.assembled = block.assembled ∧ other.env = block.env := by
  have base : other.base = block.base := by
    have twice := otherPrepared.base
    rw [same, prepared.base] at twice
    exact (Option.some.inj twice).symm
  have assembled : other.assembled = block.assembled := by
    have twice := otherPrepared.assembled
    rw [same, prepared.assembled] at twice
    exact (Except.ok.inj twice).symm
  have env := otherPrepared.env
  rw [base, assembled, prepared.env] at env
  exact ⟨base, assembled, (Except.ok.inj env).symm⟩

theorem executed_known {parent : Header} {block other : BlockRun processor}
    {db final : processor.evm.Db} (prepared : Prepared parent block)
    (known : ∀ run ∈ block.runs, Knows prev run) (otherPrepared : Prepared parent other)
    (same : other.flashblocks = block.flashblocks) (executed : Executed prev other db final) :
    other = block ∧ Starts block db final := by
  obtain ⟨base, assembled, env⟩ := prepared_unique prepared otherPrepared same
  obtain ⟨started, starts, advances⟩ := executed.moves
  have transactions : other.runs.map TransactionRun.transaction =
      block.runs.map TransactionRun.transaction := by
    rw [otherPrepared.transactions, assembled, prepared.transactions]
  obtain ⟨runs, rfl⟩ := advances_known known transactions executed.senders advances
  cases other
  cases block
  cases same
  cases base
  cases assembled
  cases env
  cases runs
  exact ⟨rfl, starts⟩

theorem executesAll_known {parent : Header} {blocks others : List (BlockRun processor)}
    {db final : processor.evm.Db} (prepares : Prepares parent blocks)
    (known : ∀ block ∈ blocks, ∀ run ∈ block.runs, Knows prev run)
    (otherPrepares : Prepares parent others)
    (same : others.map BlockRun.flashblocks = blocks.map BlockRun.flashblocks)
    (executes : ExecutesAll prev others db final) :
    others = blocks ∧ CallsAgain blocks db final := by
  induction blocks generalizing others parent db with
  | nil =>
      have empty : others = [] := by simpa using same
      subst empty
      exact ⟨rfl, executes⟩
  | cons block rest ih =>
      cases others with
      | nil => simp at same
      | cons other others =>
          simp only [List.map_cons, List.cons.injEq] at same
          obtain ⟨next, executed, later⟩ := executes
          obtain ⟨rfl, starts⟩ := executed_known prepares.1
            (known block (List.mem_cons_self ..)) otherPrepares.1 same.1 executed
          obtain ⟨rfl, again⟩ := ih prepares.2
            (fun block member => known block (List.mem_cons_of_mem _ member)) otherPrepares.2
            same.2 later
          exact ⟨rfl, next, starts, again⟩

end Known

/-! ## A block with one more flashblock -/

theorem prepared_extended {parent : Header} {block extended : BlockRun processor}
    {flashblock : FlashBlock} (nonempty : block.flashblocks ≠ [])
    (prepared : Prepared parent block) (extendedPrepared : Prepared parent extended)
    (longer : extended.flashblocks = block.flashblocks ++ [flashblock]) :
    extended.base = block.base ∧ extended.env = block.env ∧
      ∃ fresh, extended.runs.map TransactionRun.transaction =
        block.runs.map TransactionRun.transaction ++ fresh := by
  have base : extended.base = block.base := by
    have twice := extendedPrepared.base
    rw [longer, List.head?_append_of_ne_nil _ nonempty, prepared.base] at twice
    exact (Option.some.inj twice).symm
  obtain ⟨first, assembled⟩ := assemble_ok prepared.assembled
  obtain ⟨second, extendedAssembled⟩ := assemble_ok extendedPrepared.assembled
  have isBase : first = block.base :=
    Option.some.inj (assembled.baseOf.symm.trans prepared.base)
  have isSecond : second = block.base := by
    rw [← base]
    exact Option.some.inj (extendedAssembled.baseOf.symm.trans extendedPrepared.base)
  subst isBase isSecond
  have attributes : blockEnvAttributes extended.base extended.assembled.header.header =
      blockEnvAttributes block.base block.assembled.header.header := by
    simp only [blockEnvAttributes, base, assembled.sealed, extendedAssembled.sealed, assembled.slot,
      extendedAssembled.slot]
  have env : extended.env = block.env := by
    have twice := extendedPrepared.env
    rw [attributes, prepared.env] at twice
    exact (Except.ok.inj twice).symm
  refine ⟨base, env, ?_⟩
  have decoded := extendedAssembled.transactions
  rw [longer, rawTransactions_append] at decoded
  obtain ⟨before, fresh, beforeDecoded, -, split⟩ := mapM_append_ok decoded
  have sameBefore : before = block.assembled.block.transactions := by
    rw [assembled.transactions] at beforeDecoded
    exact (Except.ok.inj beforeDecoded).symm
  refine ⟨fresh, ?_⟩
  rw [extendedPrepared.transactions, split, prepared.transactions, sameBefore]

/-! ## What a snapshot knows -/

def allRuns (blocks : List (BlockRun processor)) : List TransactionRun :=
  blocks.flatMap BlockRun.runs

def Keeps (run : TransactionRun) (entry : Entry) : Prop :=
  entry.hash = run.hash ∧ entry.state = run.state ∧ entry.rpc.signer = run.sender

section Entries

variable {blocks : List (BlockRun processor)} {builder : PendingBlocksBuilder}
  {pending : PendingBlocks}

theorem entries_keep {perBlock : List (List Entry)}
    (of : List.Forall₂ EntriesOf blocks perBlock) :
    List.Forall₂ Keeps (allRuns blocks) perBlock.flatten := by
  induction of with
  | nil => exact List.Forall₂.nil
  | cons first _ ih =>
      refine List.rel_append ?_ ih
      refine first.imp ?_
      intro run entry entryOf
      exact ⟨entryOf.hash_eq, entryOf.state, entryOf.signer_eq⟩

theorem keeps_hashes {runs : List TransactionRun} {entries : List Entry}
    (keeps : List.Forall₂ Keeps runs entries) :
    entries.map Entry.hash = runs.map TransactionRun.hash := by
  induction keeps with
  | nil => rfl
  | cons first _ ih => rw [List.map_cons, List.map_cons, first.1, ih]

theorem keeps_mem {runs : List TransactionRun} {entries : List Entry}
    (keeps : List.Forall₂ Keeps runs entries) {run : TransactionRun} (member : run ∈ runs) :
    ∃ entry ∈ entries, Keeps run entry := by
  induction keeps with
  | nil => cases member
  | cons first _ ih =>
      rcases List.mem_cons.mp member with rfl | member
      · exact ⟨_, List.mem_cons_self .., first⟩
      · obtain ⟨entry, inside, kept⟩ := ih member
        exact ⟨entry, List.mem_cons_of_mem _ inside, kept⟩

theorem recorded_keeps (records : recordBlocks blocks PendingBlocksBuilder.new = .ok builder)
    {bundle : BundleState} {anchor : SealedHeader}
    (finishes : ((builder.withBundleState bundle).withAnchor anchor).build = .ok pending) :
    ∃ entries, List.Forall₂ Keeps (allRuns blocks) entries ∧ Tracks pending entries := by
  obtain ⟨earliest, latest, last, clean, -, -, -, rfl⟩ := PendingBlocksBuilder.build_ok finishes
  obtain ⟨⟨perBlock, of, holds, -⟩, -, -⟩ := recordBlocks_holds holds_new records clean
  have finished : Holds ((builder.withBundleState bundle).withAnchor anchor) perBlock.flatten :=
    { holds with }
  exact ⟨perBlock.flatten, entries_keep of, finished.tracks _ _ _⟩

variable {runs : List TransactionRun} {entries : List Entry}

theorem tracks_knows (keeps : List.Forall₂ Keeps runs entries) (tracks : Tracks pending entries)
    {run : TransactionRun} (member : run ∈ runs) : Knows (some pending) run := by
  obtain ⟨entry, inside, hash, state, sender⟩ := keeps_mem keeps member
  have found := find_of_mem tracks.distinct inside
  rw [hash] at found
  constructor
  · change pending.transactionState.lookup run.hash = some run.state
    rw [tracks.states, found, ← state]
    rfl
  · change pending.transactionSenders.lookup run.hash = some run.sender
    rw [tracks.senders, found, ← sender]
    rfl

theorem tracks_unknown (keeps : List.Forall₂ Keeps runs entries) (tracks : Tracks pending entries)
    {hash : B256} (absent : hash ∉ runs.map TransactionRun.hash) :
    knownState (some pending) hash = none ∧ knownSender (some pending) hash = none := by
  rw [← keeps_hashes keeps] at absent
  have missing := find_eq_none.mpr absent
  constructor
  · change pending.transactionState.lookup hash = none
    rw [tracks.states, missing]
    rfl
  · change pending.transactionSenders.lookup hash = none
    rw [tracks.senders, missing]
    rfl

end Entries

/-! ## Replayed snapshots -/

/-- The states of the blocks of the chain, each under the block's hash.  The
system contracts are deployed in all of them. -/
structure Chain (contracts : SystemContracts processor.evm) where
  stateOf : B256 → View
  live : ∀ hash, contracts.Live (stateOf hash).world

variable {contracts : SystemContracts processor.evm}

/-- The run fills the snapshot, and its blocks, executed from the anchor's state,
lead to `final`, whose world is the one the bundle was taken from. -/
structure Replayed (chain : Chain contracts) (check : Check processor) (pending : PendingBlocks)
    (run : BuildRun processor) (final : View) : Prop where
  ordered : Ordered pending.flashblocks
  aboveGenesis : ∀ group ∈ (flashblocksPerBlock pending.flashblocks).head?, group.1 ≠ 0
  grouped : run.blocks.map BlockRun.flashblocks =
    (flashblocksPerBlock pending.flashblocks).map Prod.snd
  prepares : Prepares run.anchor run.blocks
  records : recordBlocks run.blocks PendingBlocksBuilder.new = .ok run.builder
  finishes : ((run.builder.withBundleState (processor.evm.takeBundle run.db)).withAnchor
    { header := run.anchor, hash := processor.alloy.hashSlow run.anchor }).build = .ok pending
  anchored : run.view = chain.stateOf (processor.alloy.hashSlow run.anchor)
  signed : ∀ block ∈ run.blocks, Signed block
  replays : BlocksReplay check run.blocks run.view final
  base : processor.evm.base run.db = run.view
  world : (processor.evm.view run.db).world = final.world

section Replayed

variable {chain : Chain contracts} {check : Check processor} {pending : PendingBlocks}
  {run : BuildRun processor} {final : View}

theorem Replayed.finished (replayed : Replayed chain check pending run final) :
    pending.bundleState = processor.evm.takeBundle run.db ∧ pending.anchor =
      some { header := run.anchor, hash := processor.alloy.hashSlow run.anchor } := by
  obtain ⟨earliest, latest, last, -, -, -, -, rfl⟩ :=
    PendingBlocksBuilder.build_ok replayed.finishes
  exact ⟨rfl, rfl⟩

theorem Replayed.nonempty (replayed : Replayed chain check pending run final) :
    pending.flashblocks ≠ [] := by
  obtain ⟨earliest, latest, last, -, -, -, isLast, rfl⟩ :=
    PendingBlocksBuilder.build_ok replayed.finishes
  change run.builder.flashblocks.getLast? = some last at isLast
  intro empty
  change run.builder.flashblocks = [] at empty
  rw [empty] at isLast
  cases isLast

theorem Replayed.resumed (lawful : processor.evm.Lawful)
    (replayed : Replayed chain check pending run final) :
    processor.evm.view (processor.evm.build run.view (some pending.bundleState)) =
      { world := final.world, blockHash := run.view.blockHash } := by
  have resumes := lawful.resume run.db
  rw [replayed.base, replayed.world] at resumes
  rw [replayed.finished.1, resumes]

/-- Read over the anchor's state, the bundle gives the world the blocks lead to. -/
theorem Replayed.denotes (lawful : processor.evm.Lawful)
    (replayed : Replayed chain check pending run final) :
    (PendingStateProvider.mk run.view pending.bundleState).world = final.world := by
  have reflects := lawful.bundle run.db
  rw [replayed.base, replayed.world, ← replayed.finished.1] at reflects
  exact PendingStateProvider.world_eq reflects

end Replayed

/-! ## Builds that keep it -/

section Builds

variable {chain : Chain contracts} {check : Check processor} {client : Client}
  {flashblocks : List FlashBlock} {built pending : PendingBlocks}
  {run next : BuildRun processor} {final : View}

theorem Replayed.view_live (replayed : Replayed chain check pending run final) :
    contracts.Live run.view.world := by
  rw [replayed.anchored]
  exact chain.live _

theorem Replayed.knows (replayed : Replayed chain check pending run final)
    {block : BlockRun processor} (inside : block ∈ run.blocks) {known : TransactionRun}
    (member : known ∈ block.runs) : Knows (some pending) known := by
  obtain ⟨entries, keeps, tracks⟩ := recorded_keeps replayed.records replayed.finishes
  exact tracks_knows keeps tracks (List.mem_flatMap.mpr ⟨block, inside, member⟩)

/-- A build fills its snapshot; what its blocks lead to is left to say. -/
theorem returns_replayed {prev : Option PendingBlocks} {final : View} (ordered : Ordered flashblocks)
    (returns : Returns client prev flashblocks next built)
    (anchored : next.view = chain.stateOf (processor.alloy.hashSlow next.anchor))
    (signed : ∀ block ∈ next.blocks, Signed block)
    (replays : BlocksReplay check next.blocks next.view final)
    (base : processor.evm.base next.db = next.view)
    (world : (processor.evm.view next.db).world = final.world) :
    Replayed chain check built next final := by
  have whole := returns_whole ordered returns
  constructor
  case ordered => rw [whole]; exact ordered
  case aboveGenesis => rw [whole]; exact returns.aboveGenesis
  case grouped => rw [whole]; exact returns.grouped
  case prepares => exact returns.prepares
  case records => exact returns.records
  case finishes => exact returns.finishes
  case anchored => exact anchored
  case signed => exact signed
  case replays => exact replays
  case base => exact base
  case world => exact world

/-- A build on nothing. -/
theorem fresh_replayed (lawful : processor.evm.Lawful) (ordered : Ordered flashblocks)
    (implies : ∀ context run success, agrees context run success → check context run success)
    (anchored : next.view = chain.stateOf (processor.alloy.hashSlow next.anchor))
    (returns : Returns client none flashblocks next built) :
    Replayed chain check built next (processor.evm.view next.db) := by
  obtain ⟨replays, base, signed⟩ := executesAll_replays lawful returns.executes
  have started : processor.evm.view (processor.evm.build next.view none) = next.view :=
    lawful.view_build next.view
  have startedBase : processor.evm.base (processor.evm.build next.view none) = next.view :=
    lawful.base_build next.view none
  simp only [Option.map_none, started, startedBase] at replays base
  exact returns_replayed ordered returns anchored signed (replays.imp implies) base rfl

/-- A build that only goes over the snapshot's own blocks again. -/
theorem continued_replayed (lawful : processor.evm.Lawful)
    (old : Replayed chain check pending run final) (sameAnchor : next.anchor = run.anchor)
    (sameView : next.view = run.view)
    (returns : Returns client (some pending) pending.flashblocks next built) :
    Replayed chain check built next final := by
  have prepares := returns.prepares
  rw [sameAnchor] at prepares
  obtain ⟨sameBlocks, again⟩ := executesAll_known old.prepares
    (fun _ inside _ member => old.knows inside member) prepares
    (returns.grouped.trans old.grouped.symm) returns.executes
  simp only [Option.map_some, sameView] at again
  obtain ⟨back, base⟩ := callsAgain_view lawful old.view_live old.replays (old.resumed lawful) again
  apply returns_replayed old.ordered returns
  case anchored => rw [sameView, sameAnchor]; exact old.anchored
  case signed => rw [sameBlocks]; exact old.signed
  case replays => rw [sameBlocks, sameView]; exact old.replays
  case base => rw [base, sameView, lawful.base_build]
  case world => rw [back]

structure Reaches (check : Check processor) (view : View) (next : BuildRun processor) : Prop where
  replays : BlocksReplay check next.blocks view (processor.evm.view next.db)
  base : processor.evm.base next.db = view
  signed : ∀ block ∈ next.blocks, Signed block

theorem Replayed.unknown (old : Replayed chain check pending run final)
    (records : recordBlocks next.blocks PendingBlocksBuilder.new = .ok next.builder)
    {bundle : BundleState} {anchor : SealedHeader}
    (finishes : ((next.builder.withBundleState bundle).withAnchor anchor).build = .ok built)
    {fresh : List TransactionRun} (added : allRuns next.blocks = allRuns run.blocks ++ fresh) :
    ∀ other ∈ fresh, knownState (some pending) other.hash = none ∧
      knownSender (some pending) other.hash = none := by
  obtain ⟨entries, keeps, tracks⟩ := recorded_keeps old.records old.finishes
  obtain ⟨all, keepsAll, tracksAll⟩ := recorded_keeps records finishes
  have distinct := tracksAll.distinct
  rw [keeps_hashes keepsAll, added, List.map_append] at distinct
  intro other member
  apply tracks_unknown keeps tracks
  intro inside
  exact (List.nodup_append.mp distinct).2.2 _ inside _ (List.mem_map_of_mem member) rfl

theorem appended_new (lawful : processor.evm.Lawful)
    (implies : ∀ context run success, agrees context run success → check context run success)
    (old : Replayed chain check pending run final)
    (records : recordBlocks next.blocks PendingBlocksBuilder.new = .ok next.builder)
    {bundle : BundleState} {anchor : SealedHeader}
    (finishes : ((next.builder.withBundleState bundle).withAnchor anchor).build = .ok built)
    {blocks : List (BlockRun processor)} {last : BlockRun processor}
    (shape : next.blocks = blocks ++ [last])
    (same : blocks.map BlockRun.flashblocks = run.blocks.map BlockRun.flashblocks)
    (prepares : Prepares run.anchor next.blocks)
    (executes : ExecutesAll (some pending) next.blocks
      (processor.evm.build run.view (some pending.bundleState)) next.db) :
    Reaches check run.view next := by
  rw [shape] at prepares executes
  obtain ⟨middle, earlier, later⟩ := executesAll_append.mp executes
  obtain ⟨rfl, again⟩ := executesAll_known old.prepares
    (fun _ inside _ member => old.knows inside member) (prepares_append.mp prepares).1 same earlier
  obtain ⟨back, middleBase⟩ :=
    callsAgain_view lawful old.view_live old.replays (old.resumed lawful) again
  obtain ⟨after, executed, ended⟩ := later
  rw [ExecutesAll] at ended
  rw [← ended] at executed
  have added : allRuns next.blocks = allRuns run.blocks ++ last.runs := by
    rw [shape, allRuns, List.flatMap_append]
    simp [allRuns]
  obtain ⟨replays, base, signed⟩ := executed_replays lawful
    (old.unknown records finishes added) executed
  rw [back] at replays
  constructor
  case replays =>
    rw [shape]
    refine blocksReplay_append.mpr ⟨final, old.replays, ?_⟩
    exact (blocksReplay_singleton.mpr replays).imp implies
  case base => rw [base, middleBase, lawful.base_build]
  case signed =>
    intro block member
    rw [shape] at member
    rcases List.mem_append.mp member with member | member
    · exact old.signed block member
    · rw [List.mem_singleton.mp member]
      exact signed

theorem appended_same (lawful : processor.evm.Lawful)
    (implies : ∀ context run success, agrees context run success → check context run success)
    (old : Replayed chain check pending run final)
    (records : recordBlocks next.blocks PendingBlocksBuilder.new = .ok next.builder)
    {bundle : BundleState} {anchor : SealedHeader}
    (finishes : ((next.builder.withBundleState bundle).withAnchor anchor).build = .ok built)
    {earlier blocks : List (BlockRun processor)} {block last : BlockRun processor}
    {flashblock : FlashBlock} (oldShape : run.blocks = earlier ++ [block])
    (shape : next.blocks = blocks ++ [last])
    (same : blocks.map BlockRun.flashblocks = earlier.map BlockRun.flashblocks)
    (nonempty : block.flashblocks ≠ [])
    (longer : last.flashblocks = block.flashblocks ++ [flashblock])
    (carries : ∀ known ∈ block.runs, ∀ success, check block.context known success →
      check last.context known success)
    (prepares : Prepares run.anchor next.blocks)
    (executes : ExecutesAll (some pending) next.blocks
      (processor.evm.build run.view (some pending.bundleState)) next.db) :
    Reaches check run.view next := by
  have oldPrepares := old.prepares
  have oldReplays := old.replays
  rw [oldShape] at oldPrepares oldReplays
  rw [shape] at prepares executes
  have inBlocks : ∀ other ∈ earlier, other ∈ run.blocks := by
    intro other member
    rw [oldShape]
    exact List.mem_append_left _ member
  have isLast : block ∈ run.blocks := by
    rw [oldShape]
    exact List.mem_append_right _ (List.mem_singleton_self _)
  obtain ⟨middle, firstExecutes, later⟩ := executesAll_append.mp executes
  obtain ⟨oldFirst, oldLast⟩ := prepares_append.mp oldPrepares
  obtain ⟨newFirst, newLast⟩ := prepares_append.mp prepares
  obtain ⟨rfl, again⟩ := executesAll_known oldFirst
    (fun _ inside _ member => old.knows (inBlocks _ inside) member) newFirst same firstExecutes
  obtain ⟨after, executed, ended⟩ := later
  rw [ExecutesAll] at ended
  rw [← ended] at executed
  obtain ⟨sameBase, sameEnv, fresh, transactions⟩ :=
    prepared_extended nonempty oldLast.1 newLast.1 longer
  obtain ⟨started, starts, advances⟩ := executed.moves
  -- The system calls of the longer block are those of the block itself.
  have againLast : CallsAgain (blocks ++ [block])
      (processor.evm.build run.view (some pending.bundleState)) started := by
    have startsOld : Starts block middle started := by
      unfold Starts at starts ⊢
      rw [sameBase, sameEnv] at starts
      exact starts
    exact callsAgain_append.mpr ⟨middle, again, started, startsOld, rfl⟩
  obtain ⟨back, startedBase⟩ :=
    callsAgain_view lawful old.view_live oldReplays (old.resumed lawful) againLast
  -- Its runs are the known ones, followed by unknown ones.
  obtain ⟨known, others, split, isKnown, -⟩ := List.map_eq_append_iff.mp transactions
  rw [split] at advances
  obtain ⟨between, knownAdvances, freshAdvances⟩ := advances_append.mp advances
  obtain ⟨rfl, rfl⟩ := advances_known (fun _ member => old.knows isLast member) isKnown
    (fun other member => executed.senders other (by rw [split]; exact List.mem_append_left _ member))
    knownAdvances
  have added : allRuns next.blocks = allRuns run.blocks ++ others := by
    rw [shape, oldShape, allRuns, allRuns]
    simp [split]
  have unknown := old.unknown records finishes added
  obtain ⟨replays, base⟩ := advances_replays lawful
    (fun other member => (unknown other member).1) freshAdvances
  rw [back] at replays
  constructor
  case replays =>
    obtain ⟨before, firstReplays, lastReplays⟩ := blocksReplay_append.mp oldReplays
    obtain ⟨begun, calls, ran⟩ := blocksReplay_singleton.mp lastReplays
    rw [shape]
    refine blocksReplay_append.mpr ⟨before, firstReplays, blocksReplay_singleton.mpr ?_⟩
    refine ⟨begun, ?_, ?_⟩
    · rw [sameBase, sameEnv]
      exact calls
    · have sameContext : last.context.env = block.context.env := sameEnv
      rw [split]
      refine replays_append.mpr ⟨final, ran.imp sameContext carries, ?_⟩
      exact replays.imp rfl fun other _ => implies _ other
  case base => rw [base, startedBase, lawful.base_build]
  case signed =>
    intro other member
    rw [shape] at member
    rcases List.mem_append.mp member with member | member
    · exact old.signed other (inBlocks other member)
    · rw [List.mem_singleton.mp member]
      intro signedRun inside
      rw [split] at inside
      rcases List.mem_append.mp inside with inside | inside
      · exact old.signed block isLast signedRun inside
      · refine recovers_unknown (unknown signedRun inside).2 (executed.senders signedRun ?_)
        rw [split]
        exact List.mem_append_right _ inside

def sameBlock (pending : PendingBlocks) (flashblock : FlashBlock) : List FlashBlock :=
  pending.flashblocks.filter fun other => decide (other.blockNumber = flashblock.blockNumber)

/-- A build on the snapshot with one more flashblock, in order.  The status of
the block's earlier runs has to pass in the longer block too. -/
theorem appended_replayed (lawful : processor.evm.Lawful)
    (implies : ∀ context run success, agrees context run success → check context run success)
    (old : Replayed chain check pending run final) {flashblock : FlashBlock}
    (ordered : Ordered (pending.flashblocks ++ [flashblock]))
    (sameAnchor : next.anchor = run.anchor) (sameView : next.view = run.view)
    (carries : ∀ block ∈ run.blocks, block.flashblocks = sameBlock pending flashblock →
      ∀ extended : BlockRun processor,
        extended.flashblocks = block.flashblocks ++ [flashblock] →
        ∀ known ∈ block.runs, ∀ success, check block.context known success →
          check extended.context known success)
    (returns : Returns client (some pending) (pending.flashblocks ++ [flashblock]) next built) :
    Replayed chain check built next (processor.evm.view next.db) := by
  have prepares := returns.prepares
  have executes := returns.executes
  rw [sameAnchor] at prepares
  simp only [Option.map_some, sameView] at executes
  obtain ⟨before, values, shape, -, earlier⟩ :=
    groupEntries_last FlashBlock.blockNumber pending.flashblocks flashblock ordered
  have grouped := returns.grouped
  rw [flashblocksPerBlock, shape, List.map_append] at grouped
  obtain ⟨blocks, lasts, isBlocks, sameBlocks, isLasts⟩ := List.map_eq_append_iff.mp grouped
  obtain ⟨last, rfl, longer⟩ := List.map_eq_singleton_iff.mp isLasts
  have oldGrouped := old.grouped
  rw [flashblocksPerBlock, earlier, List.map_append] at oldGrouped
  have reaches : Reaches check run.view next := by
    by_cases newBlock : values = []
    · simp only [newBlock, if_true, List.map_nil, List.append_nil] at oldGrouped
      exact appended_new lawful implies old returns.records returns.finishes isBlocks
        (sameBlocks.trans oldGrouped.symm) prepares executes
    · simp only [newBlock, if_false, List.map_cons, List.map_nil] at oldGrouped
      obtain ⟨olds, oldLasts, isOld, sameOlds, isOldLasts⟩ := List.map_eq_append_iff.mp oldGrouped
      obtain ⟨block, rfl, isValues⟩ := List.map_eq_singleton_iff.mp isOldLasts
      have inGroups : (flashblock.blockNumber, values) ∈
          flashblocksPerBlock pending.flashblocks := by
        rw [flashblocksPerBlock, earlier]
        simp [newBlock]
      have isSameBlock : block.flashblocks = sameBlock pending flashblock := by
        rw [isValues, sameBlock]
        exact groupEntries_filter inGroups
      have inBlocks : block ∈ run.blocks := by
        rw [isOld]
        exact List.mem_append_right _ (List.mem_singleton_self _)
      have nonempty : block.flashblocks ≠ [] := by
        rw [isValues]
        exact newBlock
      have oneMore : last.flashblocks = block.flashblocks ++ [flashblock] := by
        rw [isValues]
        exact longer
      exact appended_same lawful implies old returns.records returns.finishes isOld isBlocks
        (sameBlocks.trans sameOlds.symm) nonempty oneMore
        (carries block inBlocks isSameBlock last oneMore) prepares executes
  apply returns_replayed ordered returns
  case anchored => rw [sameView, sameAnchor]; exact old.anchored
  case signed => exact reaches.signed
  case replays => rw [sameView]; exact reaches.replays
  case base => rw [sameView]; exact reaches.base
  case world => rfl

end Builds

end EthgasReth.Incremental

import EthgasReth.Incremental

/-!
# Builds on equivalent snapshots

Two snapshots are equivalent over the state of an anchor when they agree in
everything but the representation of their bundles, and the bundles hold the
same world.  A build reads the database only through its view, so builds on
equivalent snapshots succeed together and give equivalent snapshots.  Execution is
a function of the flashblocks and the anchor, so two replayed snapshots of the
same flashblocks on the same anchor are equivalent.
-/

set_option autoImplicit false

namespace EthgasReth.Lockstep

open EthgasReth.Primitives
open EthgasReth.Lib
open EthgasReth.Execution
open EthgasReth.Pending
open EthgasReth.Build
open EthgasReth.Build.StateProcessor
open EthgasReth.Ledger
open EthgasReth.BuildSpec
open EthgasReth.Replay
open EthgasReth.Incremental

variable {processor : StateProcessor}

/-! ## Equivalence -/

/-- The bundle was taken from a database over `anchor` that holds `world`. -/
def Holding (processor : StateProcessor) (anchor : View) (bundle : BundleState) (world : World) :
    Prop :=
  ∃ db : processor.evm.Db, processor.evm.takeBundle db = bundle ∧
    processor.evm.base db = anchor ∧ (processor.evm.view db).world = world

structure Equivalent (processor : StateProcessor) (anchor : View) (left right : PendingBlocks) :
    Prop where
  fields : right = { left with bundleState := right.bundleState }
  worlds : ∃ world, Holding processor anchor left.bundleState world ∧
    Holding processor anchor right.bundleState world

section Equivalent

variable {anchor : View} {left middle right : PendingBlocks}

theorem Equivalent.height (equivalent : Equivalent processor anchor left right) :
    right.latestBlockNumber = left.latestBlockNumber := by
  rw [equivalent.fields]
  rfl

theorem Equivalent.symm (equivalent : Equivalent processor anchor left right) :
    Equivalent processor anchor right left := by
  obtain ⟨world, first, second⟩ := equivalent.worlds
  refine ⟨?_, world, second, first⟩
  rw [equivalent.fields]

theorem Equivalent.world_eq (lawful : processor.evm.Lawful)
    (equivalent : Equivalent processor anchor left right) :
    (PendingStateProvider.mk anchor left.bundleState).world =
      (PendingStateProvider.mk anchor right.bundleState).world := by
  obtain ⟨world, ⟨db, bundle, base, same⟩, ⟨other, otherBundle, otherBase, otherSame⟩⟩ :=
    equivalent.worlds
  have first := lawful.bundle db
  have second := lawful.bundle other
  rw [bundle, base, same] at first
  rw [otherBundle, otherBase, otherSame] at second
  rw [@PendingStateProvider.world_eq ⟨anchor, left.bundleState⟩ world first,
    @PendingStateProvider.world_eq ⟨anchor, right.bundleState⟩ world second]

theorem Holding.unique (lawful : processor.evm.Lawful) {bundle : BundleState} {world twin : World}
    (first : Holding processor anchor bundle world)
    (second : Holding processor anchor bundle twin) : world = twin := by
  obtain ⟨db, isBundle, base, rfl⟩ := first
  obtain ⟨other, otherBundle, otherBase, rfl⟩ := second
  have reflects := lawful.bundle db
  have otherReflects := lawful.bundle other
  rw [isBundle, base] at reflects
  rw [otherBundle, otherBase] at otherReflects
  exact (@PendingStateProvider.world_eq ⟨anchor, bundle⟩ _ reflects).symm.trans
    (@PendingStateProvider.world_eq ⟨anchor, bundle⟩ _ otherReflects)

theorem Equivalent.trans (lawful : processor.evm.Lawful)
    (first : Equivalent processor anchor left middle)
    (second : Equivalent processor anchor middle right) :
    Equivalent processor anchor left right := by
  obtain ⟨world, ofLeft, ofMiddle⟩ := first.worlds
  obtain ⟨twin, ofMiddle', ofRight⟩ := second.worlds
  have same := ofMiddle.unique lawful ofMiddle'
  subst same
  refine ⟨?_, world, ofLeft, ofRight⟩
  rw [second.fields, first.fields]

theorem Equivalent.known (equivalent : Equivalent processor anchor left right) (hash : B256) :
    knownState (some right) hash = knownState (some left) hash ∧
      knownSender (some right) hash = knownSender (some left) hash := by
  rw [equivalent.fields]
  exact ⟨rfl, rfl⟩

theorem Equivalent.resumed (lawful : processor.evm.Lawful)
    (equivalent : Equivalent processor anchor left right) :
    processor.evm.view (processor.evm.build anchor (some right.bundleState)) =
      processor.evm.view (processor.evm.build anchor (some left.bundleState)) := by
  obtain ⟨world, ⟨db, bundle, base, same⟩, ⟨other, otherBundle, otherBase, otherSame⟩⟩ :=
    equivalent.worlds
  have first := lawful.resume db
  have second := lawful.resume other
  rw [bundle, base, same] at first
  rw [otherBundle, otherBase, otherSame] at second
  rw [first, second]

end Equivalent

/-! ## One build after the other -/

section Execution

variable (lawful : processor.evm.Lawful) {prev other : Option PendingBlocks}
include lawful

theorem starts_lockstep {block : BlockRun processor} {db twin started : processor.evm.Db}
    (same : processor.evm.view twin = processor.evm.view db) (starts : Starts block db started) :
    ∃ twinStarted, Starts block twin twinStarted ∧
      processor.evm.view twinStarted = processor.evm.view started := by
  obtain ⟨calls, -⟩ := starts_view lawful starts
  rw [← same] at calls
  exact starts_of lawful calls

theorem advances_lockstep {context : BlockContext processor} {runs : List TransactionRun}
    {db twin final : processor.evm.Db}
    (known : ∀ hash, knownState other hash = knownState prev hash)
    (same : processor.evm.view twin = processor.evm.view db)
    (advances : Advances prev context runs db final) :
    ∃ twinFinal, Advances other context runs twin twinFinal ∧
      processor.evm.view twinFinal = processor.evm.view final := by
  induction runs generalizing db twin with
  | nil =>
      rw [Advances] at advances
      rw [advances]
      exact ⟨twin, rfl, same⟩
  | cons run rest ih =>
      obtain ⟨next, moves, later⟩ := advances
      cases moves with
      | reused found =>
          obtain ⟨twinFinal, twinLater, ended⟩ := ih same later
          rw [← known] at found
          exact ⟨twinFinal, ⟨twin, .reused found, twinLater⟩, ended⟩
      | executed unknown ran checked =>
          have sameNext : processor.evm.view (processor.evm.commit twin run.state) =
              processor.evm.view (processor.evm.commit db run.state) := by
            rw [lawful.view_commit, lawful.view_commit, same]
          obtain ⟨twinFinal, twinLater, ended⟩ := ih sameNext later
          rw [← known] at unknown
          rw [← same] at ran
          exact ⟨twinFinal, ⟨_, .executed unknown ran checked, twinLater⟩, ended⟩

theorem executesAll_lockstep {blocks : List (BlockRun processor)}
    {db twin final : processor.evm.Db}
    (known : ∀ hash, knownState other hash = knownState prev hash ∧
      knownSender other hash = knownSender prev hash)
    (same : processor.evm.view twin = processor.evm.view db)
    (executes : ExecutesAll prev blocks db final) :
    ∃ twinFinal, ExecutesAll other blocks twin twinFinal ∧
      processor.evm.view twinFinal = processor.evm.view final := by
  induction blocks generalizing db twin with
  | nil =>
      rw [ExecutesAll] at executes
      rw [executes]
      exact ⟨twin, rfl, same⟩
  | cons block rest ih =>
      obtain ⟨next, executed, later⟩ := executes
      obtain ⟨started, starts, advances⟩ := executed.moves
      obtain ⟨twinStarted, twinStarts, sameStarted⟩ := starts_lockstep lawful same starts
      obtain ⟨twinNext, twinAdvances, sameNext⟩ :=
        advances_lockstep lawful (fun hash => (known hash).1) sameStarted advances
      obtain ⟨twinFinal, twinLater, ended⟩ := ih sameNext later
      refine ⟨twinFinal, ⟨twinNext, ⟨?_, twinStarted, twinStarts, twinAdvances⟩, twinLater⟩, ended⟩
      intro run member
      have recovers := executed.senders run member
      unfold Recovers at recovers ⊢
      rw [(known run.hash).2]
      exact recovers

theorem advances_base {context : BlockContext processor} {runs : List TransactionRun}
    {db final : processor.evm.Db} (advances : Advances prev context runs db final) :
    processor.evm.base final = processor.evm.base db := by
  induction runs generalizing db with
  | nil =>
      rw [Advances] at advances
      rw [advances]
  | cons run rest ih =>
      obtain ⟨next, moves, later⟩ := advances
      cases moves with
      | reused found => exact ih later
      | executed unknown ran checked => rw [ih later, lawful.base_commit]

theorem executesAll_base {blocks : List (BlockRun processor)} {db final : processor.evm.Db}
    (executes : ExecutesAll prev blocks db final) :
    processor.evm.base final = processor.evm.base db := by
  induction blocks generalizing db with
  | nil =>
      rw [ExecutesAll] at executes
      rw [executes]
  | cons block rest ih =>
      obtain ⟨next, executed, later⟩ := executes
      obtain ⟨started, starts, advances⟩ := executed.moves
      rw [ih later, advances_base lawful advances, (starts_view lawful starts).2]

end Execution

section Builds

variable {client other : Client} {anchor : View} {header : Header} {number : Nat}
  {flashblocks : List FlashBlock} {built : PendingBlocks}

theorem returns_read {prev : Option PendingBlocks} {run : BuildRun processor}
    (isNumber : anchorNumber flashblocks = some number)
    (shown : readAnchor client number = .ok (header, anchor))
    (returns : Returns client prev flashblocks run built) :
    run.anchor = header ∧ run.view = anchor := by
  obtain ⟨found, isFound, read⟩ := returns.anchored
  rw [isNumber] at isFound
  cases isFound
  rw [shown] at read
  cases read
  exact ⟨rfl, rfl⟩

theorem returns_bundle {prev : Option PendingBlocks} {run : BuildRun processor}
    (returns : Returns client prev flashblocks run built) :
    built.bundleState = processor.evm.takeBundle run.db := by
  obtain ⟨earliest, latest, last, -, -, -, -, rfl⟩ :=
    PendingBlocksBuilder.build_ok returns.finishes
  rfl

theorem built_holding (lawful : processor.evm.Lawful) {prev : Option PendingBlocks}
    (isNumber : anchorNumber flashblocks = some number)
    (shown : readAnchor client number = .ok (header, anchor))
    (success : processor.buildPendingState client prev flashblocks = .ok (some built)) :
    ∃ world, Holding processor anchor built.bundleState world := by
  obtain ⟨run, returns⟩ := buildPendingState_ok success
  obtain ⟨-, isView⟩ := returns_read isNumber shown returns
  refine ⟨_, run.db, (returns_bundle returns).symm, ?_, rfl⟩
  rw [executesAll_base lawful returns.executes, lawful.base_build, isView]

theorem built_refl (lawful : processor.evm.Lawful) {prev : Option PendingBlocks}
    (isNumber : anchorNumber flashblocks = some number)
    (shown : readAnchor client number = .ok (header, anchor))
    (success : processor.buildPendingState client prev flashblocks = .ok (some built)) :
    Equivalent processor anchor built built := by
  obtain ⟨world, holding⟩ := built_holding lawful isNumber shown success
  exact ⟨rfl, world, holding, holding⟩

/-- Only the anchor is read from the provider. -/
theorem buildPendingState_congr {prev : Option PendingBlocks}
    (isNumber : anchorNumber flashblocks = some number)
    (same : readAnchor client number = readAnchor other number) :
    processor.buildPendingState client prev flashblocks =
      processor.buildPendingState other prev flashblocks := by
  unfold StateProcessor.buildPendingState
  cases groups : flashblocksPerBlock flashblocks with
  | nil => rfl
  | cons group rest =>
      obtain ⟨earliest, first⟩ := group
      have isEarliest : earliest - 1 = number := by
        simpa [anchorNumber, groups] using isNumber
      simp only [isEarliest, same]

theorem build_lockstep (lawful : processor.evm.Lawful) {left right : PendingBlocks}
    (equivalent : Equivalent processor anchor left right)
    (isNumber : anchorNumber flashblocks = some number)
    (shown : readAnchor client number = .ok (header, anchor))
    (otherShown : readAnchor other number = .ok (header, anchor))
    (success : processor.buildPendingState client (some left) flashblocks = .ok (some built)) :
    ∃ twin, processor.buildPendingState other (some right) flashblocks = .ok (some twin) ∧
      Equivalent processor anchor built twin := by
  obtain ⟨run, returns⟩ := buildPendingState_ok success
  obtain ⟨isHeader, isView⟩ := returns_read isNumber shown returns
  have executes := returns.executes
  simp only [Option.map_some, isView] at executes
  obtain ⟨db, twinExecutes, sameView⟩ := executesAll_lockstep lawful equivalent.known
    (equivalent.resumed lawful) executes
  let twinRun : BuildRun processor := { run with db := db }
  let twin : PendingBlocks := { built with bundleState := processor.evm.takeBundle db }
  have twinReturns : Returns other (some right) flashblocks twinRun twin := by
    constructor
    case aboveGenesis => exact returns.aboveGenesis
    case anchored =>
      refine ⟨number, isNumber, ?_⟩
      rw [otherShown, ← isHeader, ← isView]
    case grouped => exact returns.grouped
    case prepares => exact returns.prepares
    case executes =>
      change ExecutesAll _ run.blocks (processor.evm.build run.view _) db
      rw [isView]
      exact twinExecutes
    case records => exact returns.records
    case finishes => exact PendingBlocksBuilder.build_withBundleState returns.finishes
  refine ⟨twin, buildPendingState_of twinReturns, rfl, (processor.evm.view run.db).world, ?_, ?_⟩
  · refine ⟨run.db, (returns_bundle returns).symm, ?_, rfl⟩
    rw [executesAll_base lawful executes, lawful.base_build]
  · refine ⟨db, rfl, ?_, by rw [sameView]⟩
    rw [executesAll_base lawful twinExecutes, lawful.base_build]

end Builds

/-! ## Two replays of the same flashblocks -/

section Unique

variable {check other : Check processor}

theorem replays_unique {context twin : BlockContext processor} {runs others : List TransactionRun}
    {view final twinFinal : View} (sameEnv : twin.env = context.env)
    (same : others.map TransactionRun.transaction = runs.map TransactionRun.transaction)
    (signed : ∀ run ∈ runs, processor.alloy.recoverSigner run.transaction = .ok run.sender)
    (otherSigned : ∀ run ∈ others,
      processor.alloy.recoverSigner run.transaction = .ok run.sender)
    (replays : Replays check context runs view final)
    (otherReplays : Replays other twin others view twinFinal) :
    others = runs ∧ twinFinal = final := by
  induction runs generalizing others view with
  | nil =>
      have empty : others = [] := by simpa using same
      subst empty
      rw [Replays] at replays otherReplays
      exact ⟨rfl, otherReplays.trans replays.symm⟩
  | cons run rest ih =>
      cases others with
      | nil => simp at same
      | cons run' others =>
          simp only [List.map_cons, List.cons.injEq] at same
          obtain ⟨sameTransaction, sameRest⟩ := same
          obtain ⟨⟨success, ran, -⟩, later⟩ := replays
          obtain ⟨⟨otherSuccess, otherRan, -⟩, otherLater⟩ := otherReplays
          have sender := signed run (List.mem_cons_self ..)
          have otherSender := otherSigned run' (List.mem_cons_self ..)
          rw [sameTransaction, sender] at otherSender
          have sameSender : run'.sender = run.sender := (Except.ok.inj otherSender).symm
          rw [sameEnv, sameTransaction, sameSender, ran] at otherRan
          have sameState : run'.state = run.state :=
            (congrArg ResultAndState.state (Except.ok.inj otherRan)).symm
          rw [sameState] at otherLater
          obtain ⟨rfl, sameFinal⟩ := ih sameRest
            (fun run member => signed run (List.mem_cons_of_mem _ member))
            (fun run member => otherSigned run (List.mem_cons_of_mem _ member)) later otherLater
          refine ⟨?_, sameFinal⟩
          cases run'
          cases run
          cases sameTransaction
          cases sameSender
          cases sameState
          rfl

theorem blocksReplay_unique {parent : Header} {blocks others : List (BlockRun processor)}
    {view final twinFinal : View} (prepares : Prepares parent blocks)
    (otherPrepares : Prepares parent others)
    (same : others.map BlockRun.flashblocks = blocks.map BlockRun.flashblocks)
    (signed : ∀ block ∈ blocks, Signed block) (otherSigned : ∀ block ∈ others, Signed block)
    (replays : BlocksReplay check blocks view final)
    (otherReplays : BlocksReplay other others view twinFinal) :
    others = blocks ∧ twinFinal = final := by
  induction blocks generalizing others parent view with
  | nil =>
      have empty : others = [] := by simpa using same
      subst empty
      rw [BlocksReplay] at replays otherReplays
      exact ⟨rfl, otherReplays.trans replays.symm⟩
  | cons block rest ih =>
      cases others with
      | nil => simp at same
      | cons twin others =>
          simp only [List.map_cons, List.cons.injEq] at same
          obtain ⟨sameFlashblocks, sameRest⟩ := same
          obtain ⟨prepared, prepares⟩ := prepares
          obtain ⟨twinPrepared, otherPrepares⟩ := otherPrepares
          obtain ⟨base, assembled, env⟩ := prepared_unique prepared twinPrepared sameFlashblocks
          obtain ⟨next, ⟨started, calls, ran⟩, later⟩ := replays
          obtain ⟨twinNext, ⟨twinStarted, twinCalls, twinRan⟩, otherLater⟩ := otherReplays
          rw [base, env, calls] at twinCalls
          cases twinCalls
          have transactions : twin.runs.map TransactionRun.transaction =
              block.runs.map TransactionRun.transaction := by
            rw [twinPrepared.transactions, assembled, prepared.transactions]
          obtain ⟨runs, rfl⟩ := replays_unique env transactions
            (signed block (List.mem_cons_self ..)) (otherSigned twin (List.mem_cons_self ..))
            ran twinRan
          rw [assembled] at otherPrepares
          obtain ⟨rfl, sameFinal⟩ := ih prepares otherPrepares sameRest
            (fun block member => signed block (List.mem_cons_of_mem _ member))
            (fun block member => otherSigned block (List.mem_cons_of_mem _ member)) later otherLater
          refine ⟨?_, sameFinal⟩
          cases twin
          cases block
          cases sameFlashblocks
          cases base
          cases assembled
          cases env
          cases runs
          rfl

theorem replayed_equivalent {contracts : SystemContracts processor.evm} {chain : Chain contracts}
    {left right : PendingBlocks} {run twin : BuildRun processor} {final twinFinal : View}
    (replayed : Replayed chain check left run final)
    (twinReplayed : Replayed chain other right twin twinFinal)
    (sameFlashblocks : right.flashblocks = left.flashblocks) (sameAnchor : twin.anchor = run.anchor) :
    Equivalent processor run.view left right := by
  have sameView : twin.view = run.view := by
    rw [replayed.anchored, twinReplayed.anchored, sameAnchor]
  have prepares := twinReplayed.prepares
  have replays := twinReplayed.replays
  have grouped := twinReplayed.grouped
  rw [sameAnchor] at prepares
  rw [sameView] at replays
  rw [sameFlashblocks, ← replayed.grouped] at grouped
  obtain ⟨sameBlocks, rfl⟩ := blocksReplay_unique replayed.prepares prepares grouped
    replayed.signed twinReplayed.signed replayed.replays replays
  have records := twinReplayed.records
  rw [sameBlocks, replayed.records] at records
  have finishes := twinReplayed.finishes
  rw [sameAnchor, ← Except.ok.inj records, ← twinReplayed.finished.1,
    PendingBlocksBuilder.build_withBundleState replayed.finishes] at finishes
  refine ⟨(Except.ok.inj finishes).symm, twinFinal.world, ?_, ?_⟩
  · exact ⟨run.db, replayed.finished.1.symm, replayed.base, replayed.world⟩
  · exact ⟨twin.db, twinReplayed.finished.1.symm, twinReplayed.base.trans sameView,
      twinReplayed.world⟩

end Unique

end EthgasReth.Lockstep

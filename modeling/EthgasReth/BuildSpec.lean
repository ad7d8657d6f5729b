import EthgasReth.Ledger

/-!
# What a whole build returns

`build_pending_state` as one relation between the snapshot it returns and the
blocks it went through, in both directions, and what that says of the snapshot:
its flashblocks, headers and transactions are those of the blocks, in order.
-/

set_option autoImplicit false

namespace EthgasReth.BuildSpec

open EthgasReth.Primitives
open EthgasReth.Lib
open EthgasReth.Execution
open EthgasReth.Pending
open EthgasReth.BlockAssembler
open EthgasReth.Build
open EthgasReth.Build.StateProcessor
open EthgasReth.Ledger

variable {processor : StateProcessor}

/-! ## The block loop -/

/-- Every block is prepared on the header of the one before it. -/
def Prepares : Header → List (BlockRun processor) → Prop
  | _, [] => True
  | parent, block :: rest =>
      Prepared parent block ∧ Prepares block.assembled.block.header rest

def ExecutesAll (prev : Option PendingBlocks) :
    List (BlockRun processor) → processor.evm.Db → processor.evm.Db → Prop
  | [], db, final => final = db
  | block :: rest, db, final =>
      ∃ next, Executed prev block db next ∧ ExecutesAll prev rest next final

def recordBlocks : List (BlockRun processor) → PendingBlocksBuilder → Result PendingBlocksBuilder
  | [], builder => .ok builder
  | block :: rest, builder => do
      let next ← recordBlock block builder
      recordBlocks rest next

section Loop

variable {prev : Option PendingBlocks}

theorem buildBlocks_ok {groups : List (Nat × List FlashBlock)}
    {state final : BuildState processor}
    (success : processor.buildBlocks prev groups state = .ok final) :
    ∃ blocks : List (BlockRun processor),
      blocks.map BlockRun.flashblocks = groups.map Prod.snd ∧ Prepares state.header blocks ∧
      ExecutesAll prev blocks state.db final.db ∧
      recordBlocks blocks state.builder = .ok final.builder := by
  induction groups generalizing state with
  | nil =>
      cases success
      exact ⟨[], rfl, trivial, rfl, rfl⟩
  | cons group rest ih =>
      obtain ⟨number, flashblocks⟩ := group
      obtain ⟨next, first, success⟩ := bind_eq_ok success
      obtain ⟨block, same, prepared, executed, recordRan, header⟩ := buildBlock_ok first
      obtain ⟨blocks, sames, prepares, executes, recordRest⟩ := ih success
      rw [header] at prepares
      refine ⟨block :: blocks, by simp [same, sames], ⟨prepared, prepares⟩,
        ⟨next.db, executed, executes⟩, ?_⟩
      rw [recordBlocks, recordRan]
      exact recordRest

theorem buildBlocks_of {groups : List (Nat × List FlashBlock)}
    {blocks : List (BlockRun processor)} {parent : Header}
    {builder after : PendingBlocksBuilder} {db final : processor.evm.Db}
    (grouped : blocks.map BlockRun.flashblocks = groups.map Prod.snd)
    (prepares : Prepares parent blocks) (executes : ExecutesAll prev blocks db final)
    (recordRan : recordBlocks blocks builder = .ok after) :
    ∃ header, processor.buildBlocks prev groups ⟨builder, db, parent⟩ =
      .ok ⟨after, final, header⟩ := by
  induction blocks generalizing groups parent builder db with
  | nil =>
      have empty : groups = [] := by simpa using grouped.symm
      subst empty
      cases recordRan
      rw [ExecutesAll] at executes
      subst executes
      exact ⟨parent, rfl⟩
  | cons block rest ih =>
      cases groups with
      | nil => simp at grouped
      | cons group groups =>
          obtain ⟨number, flashblocks⟩ := group
          simp only [List.map_cons, List.cons.injEq] at grouped
          obtain ⟨rfl, grouped⟩ := grouped
          obtain ⟨prepared, prepares⟩ := prepares
          obtain ⟨next, executed, executes⟩ := executes
          obtain ⟨middle, first, recordRest⟩ := bind_eq_ok recordRan
          rw [buildBlocks, buildBlock_of prepared executed first]
          exact ih grouped prepares executes recordRest

end Loop

def lastHeader : Header → List (BlockRun processor) → Header
  | parent, [] => parent
  | _, block :: rest => lastHeader block.assembled.block.header rest

theorem prepares_append {parent : Header} {blocks others : List (BlockRun processor)} :
    Prepares parent (blocks ++ others) ↔
      Prepares parent blocks ∧ Prepares (lastHeader parent blocks) others := by
  induction blocks generalizing parent with
  | nil => simp [Prepares, lastHeader]
  | cons block rest ih => simp [Prepares, lastHeader, ih, and_assoc]

theorem executesAll_append {prev : Option PendingBlocks} {blocks others : List (BlockRun processor)}
    {db final : processor.evm.Db} :
    ExecutesAll prev (blocks ++ others) db final ↔
      ∃ middle, ExecutesAll prev blocks db middle ∧ ExecutesAll prev others middle final := by
  induction blocks generalizing db with
  | nil => simp [ExecutesAll]
  | cons block rest ih =>
      simp only [List.cons_append, ExecutesAll, ih]
      constructor
      · intro ⟨next, executed, middle, first, second⟩
        exact ⟨middle, ⟨next, executed, first⟩, second⟩
      · intro ⟨middle, ⟨next, executed, first⟩, second⟩
        exact ⟨next, executed, middle, first, second⟩

/-! ## The whole build -/

def anchorNumber (flashblocks : List FlashBlock) : Option Nat :=
  (flashblocksPerBlock flashblocks).head?.map fun group => group.1 - 1

variable (processor) in
/-- A build: the anchor it read, its blocks, and what it ended with. -/
structure BuildRun where
  anchor : Header
  view : View
  blocks : List (BlockRun processor)
  db : processor.evm.Db
  builder : PendingBlocksBuilder

structure Returns (client : Client) (prev : Option PendingBlocks) (flashblocks : List FlashBlock)
    (run : BuildRun processor) (pending : PendingBlocks) : Prop where
  aboveGenesis : ∀ group ∈ (flashblocksPerBlock flashblocks).head?, group.1 ≠ 0
  anchored : ∃ number ∈ anchorNumber flashblocks,
    readAnchor client number = .ok (run.anchor, run.view)
  grouped : run.blocks.map BlockRun.flashblocks = (flashblocksPerBlock flashblocks).map Prod.snd
  prepares : Prepares run.anchor run.blocks
  executes : ExecutesAll prev run.blocks
    (processor.evm.build run.view (prev.map fun pending => pending.bundleState)) run.db
  records : recordBlocks run.blocks PendingBlocksBuilder.new = .ok run.builder
  finishes : ((run.builder.withBundleState (processor.evm.takeBundle run.db)).withAnchor
    { header := run.anchor, hash := processor.alloy.hashSlow run.anchor }).build = .ok pending

section Whole

variable {client : Client} {prev : Option PendingBlocks} {flashblocks : List FlashBlock}
  {pending : PendingBlocks}

theorem buildPendingState_ok
    (success : processor.buildPendingState client prev flashblocks = .ok (some pending)) :
    ∃ run : BuildRun processor, Returns client prev flashblocks run pending := by
  unfold StateProcessor.buildPendingState at success
  split at success
  · cases success
  · rename_i number first rest groups
    split at success
    · cases success
    · rename_i aboveGenesis
      obtain ⟨⟨anchor, view⟩, anchored, success⟩ := bind_eq_ok success
      obtain ⟨final, blocksRan, success⟩ := bind_eq_ok success
      obtain ⟨built, finishes, success⟩ := bind_eq_ok success
      cases success
      obtain ⟨blocks, grouped, prepares, executes, records⟩ := buildBlocks_ok blocksRan
      refine ⟨⟨anchor, view, blocks, final.db, final.builder⟩, ?_, ⟨number - 1, ?_, anchored⟩, ?_,
        prepares, executes, records, finishes⟩
      · intro group isFirst
        rw [groups] at isFirst
        cases isFirst
        exact aboveGenesis
      · rw [anchorNumber, groups]
        rfl
      · rw [groups]
        exact grouped

theorem buildPendingState_of {run : BuildRun processor}
    (returns : Returns client prev flashblocks run pending) :
    processor.buildPendingState client prev flashblocks = .ok (some pending) := by
  obtain ⟨number, isNumber, anchored⟩ := returns.anchored
  unfold StateProcessor.buildPendingState
  cases groups : flashblocksPerBlock flashblocks with
  | nil => simp [anchorNumber, groups] at isNumber
  | cons group rest =>
      obtain ⟨earliest, first⟩ := group
      have aboveGenesis := returns.aboveGenesis (earliest, first) (by simp [groups])
      have grouped := returns.grouped
      rw [groups] at grouped
      have isEarliest : earliest - 1 = number := by
        simpa [anchorNumber, groups] using isNumber
      obtain ⟨header, blocksRan⟩ := buildBlocks_of grouped returns.prepares returns.executes
        returns.records
      simp only [if_neg aboveGenesis, isEarliest, anchored, ok_bind]
      rw [blocksRan, ok_bind]
      simp only [returns.finishes, ok_bind]
      rfl

theorem buildPendingState_none :
    processor.buildPendingState client prev flashblocks = .ok none ↔ flashblocks = [] := by
  constructor
  · intro success
    unfold StateProcessor.buildPendingState at success
    split at success
    · rename_i groups
      exact (groupEntries_eq_nil _ _).mp groups
    · split at success
      · cases success
      · obtain ⟨anchor, -, success⟩ := bind_eq_ok success
        obtain ⟨final, -, success⟩ := bind_eq_ok success
        obtain ⟨built, -, success⟩ := bind_eq_ok success
        cases success
  · rintro rfl
    rfl

end Whole

/-! ## Failures -/

def NotProvider (failure : StateProcessorError) : Prop :=
  ∀ error, failure ≠ .provider error

theorem assemble_fails (alloy : Alloy) (spec : ChainSpec) (flashblocks : List FlashBlock) :
    Fails NotProvider (assemble alloy spec flashblocks) := by
  have requests : ∀ block, Fails NotProvider (requestsHash alloy spec block flashblocks) := by
    intro block
    unfold requestsHash
    split
    · exact fails_ok _
    · split
      · exact fails_ok _
      · refine fails_bind (fails_mapM ?_) fun ordered _ => fails_bind (fails_mapError ?_) ?_
        · intro transaction
          split
          · exact fails_ok _
          · exact fails_error (by simp [NotProvider])
        · simp [NotProvider]
        · intro deposits _
          exact fails_ok _
  unfold assemble
  split
  · split
    · exact fails_error (by simp [NotProvider])
    · split
      · exact fails_error (by simp [NotProvider])
      · split
        · exact fails_error (by simp [NotProvider])
        · refine fails_bind (fails_mapError (by simp [NotProvider])) fun block _ => ?_
          exact fails_bind (requests block) fun hash _ => fails_ok _
  · exact fails_error (by simp [NotProvider])

theorem buildTransactions_fails {prev : Option PendingBlocks} {context : BlockContext processor}
    {index : Nat} {pairs : List (TransactionSigned × Address)} {state : LoopState processor} :
    Fails NotProvider (buildTransactions prev context index pairs state) := by
  induction pairs generalizing index state with
  | nil => exact fails_ok _
  | cons pair rest ih =>
      refine fails_bind (fails_bind ?_ ?_) fun next _ => ih
      · unfold recordTransaction
        split
        · exact fails_error (by simp [NotProvider])
        · split
          · exact fails_error (by simp [NotProvider])
          · exact fails_ok _
      · intro receipted _
        unfold executeTransaction
        dsimp only
        split
        · exact fails_ok _
        · split
          · exact fails_error (by simp [NotProvider])
          · split
            · exact fails_error (by simp [NotProvider])
            · exact fails_ok _

theorem buildBlock_fails {prev : Option PendingBlocks} {flashblocks : List FlashBlock}
    {state : BuildState processor} :
    Fails NotProvider (processor.buildBlock prev flashblocks state) := by
  have call : ∀ env call db, Fails NotProvider (processor.applySystemCall env call db) := by
    intro env call db
    unfold applySystemCall
    split
    · exact fails_ok _
    · exact fails_error (by simp [NotProvider])
  refine fails_bind ?_ fun base _ => fails_bind (assemble_fails _ _ _) fun assembled _ => ?_
  · unfold firstBase
    split
    · exact fails_error (by simp [NotProvider])
    · split
      · exact fails_error (by simp [NotProvider])
      · exact fails_ok _
  refine fails_bind (fails_mapError (by simp [NotProvider])) fun env _ => ?_
  refine fails_bind (call _ _ _) fun middle _ => fails_bind (call _ _ _) fun started _ => ?_
  refine fails_bind (fails_mapM ?_) fun senders _ => ?_
  · intro transaction
    split
    · exact fails_ok _
    · exact fails_mapError (by simp [NotProvider])
  exact fails_bind buildTransactions_fails fun loop _ => fails_ok _

theorem buildBlocks_fails {prev : Option PendingBlocks} {groups : List (Nat × List FlashBlock)}
    {state : BuildState processor} :
    Fails NotProvider (processor.buildBlocks prev groups state) := by
  induction groups generalizing state with
  | nil => exact fails_ok _
  | cons group rest ih => exact fails_bind buildBlock_fails fun next _ => ih

theorem buildPendingState_fails {client : Client} {prev : Option PendingBlocks}
    {flashblocks : List FlashBlock} {number : Nat} {anchor : Header × View}
    (isNumber : anchorNumber flashblocks = some number)
    (read : readAnchor client number = .ok anchor) :
    Fails NotProvider (processor.buildPendingState client prev flashblocks) := by
  unfold StateProcessor.buildPendingState
  cases groups : flashblocksPerBlock flashblocks with
  | nil => exact fails_ok _
  | cons group rest =>
      obtain ⟨earliest, first⟩ := group
      have isEarliest : earliest - 1 = number := by
        simpa [anchorNumber, groups] using isNumber
      dsimp only
      split
      · exact fails_error (by simp [NotProvider])
      · rw [isEarliest, read, ok_bind]
        refine fails_bind buildBlocks_fails fun built _ => fails_bind ?_ fun pending _ => fails_ok _
        unfold PendingBlocksBuilder.build
        split
        · exact fails_error (by simp [NotProvider])
        · split
          · split
            · exact fails_ok _
            · exact fails_error (by simp [NotProvider])
          · exact fails_error (by simp [NotProvider])

/-! ## What the snapshot holds -/

section Holds

variable {block : BlockRun processor} {blocks : List (BlockRun processor)}
  {builder after : PendingBlocksBuilder}

def EntriesOf (block : BlockRun processor) (entries : List Entry) : Prop :=
  List.Forall₂ (EntryOf block.context) block.runs entries

/-- The entries of one block as they were recorded, from its first transaction on. -/
def ChronicleOf (block : BlockRun processor) (entries : List Entry) : Prop :=
  Chronicle block.context 0 0 0 block.runs entries

/-- The logs of a block count from zero under its number. -/
def LogsOf (block : BlockRun processor) (entries : List Entry) : Prop :=
  LogsCount block.assembled.block.header.number 0 (entries.flatMap fun entry => entry.receipt.logs)

theorem recordBalances_eq (balances : HashMap Address U256) (builder : PendingBlocksBuilder) :
    ∃ accountBalances,
      recordBalances balances builder = { builder with accountBalances := accountBalances } := by
  unfold recordBalances
  induction balances.entries generalizing builder with
  | nil => exact ⟨builder.accountBalances, rfl⟩
  | cons entry rest ih =>
      obtain ⟨accountBalances, same⟩ := ih (builder.withAccountBalance entry.1 entry.2)
      exact ⟨accountBalances, same⟩

theorem recordBlock_clean (success : recordBlock block builder = .ok after)
    (clean : after.deferredError = none) : builder.deferredError = none := by
  obtain ⟨tally, runsRan, success⟩ := bind_eq_ok success
  cases success
  obtain ⟨balances, same⟩ :=
    recordBalances_eq (collectBalances block.flashblocks) tally.builder
  rw [same] at clean
  exact recordRuns_clean runsRan clean

theorem recordBlock_holds {entries : List Entry} (holds : Holds builder entries)
    (success : recordBlock block builder = .ok after) (clean : after.deferredError = none) :
    (∃ added, ChronicleOf block added ∧ Holds after (entries ++ added)) ∧
      after.flashblocks = builder.flashblocks ++ block.flashblocks ∧
      after.headers = builder.headers ++ [block.assembled.header] := by
  obtain ⟨tally, runsRan, success⟩ := bind_eq_ok success
  cases success
  obtain ⟨balances, same⟩ :=
    recordBalances_eq (collectBalances block.flashblocks) tally.builder
  rw [same] at clean ⊢
  have started : Holds ((builder.withFlashblocks block.flashblocks).withHeader
      block.assembled.header) entries := { holds with }
  obtain ⟨added, chronicle, finalHolds⟩ := recordRuns_holds started runsRan clean
  exact ⟨⟨added, chronicle, { finalHolds with }⟩, recordRuns_frame runsRan⟩

theorem recordBlocks_clean (success : recordBlocks blocks builder = .ok after)
    (clean : after.deferredError = none) : builder.deferredError = none := by
  induction blocks generalizing builder with
  | nil =>
      cases success
      exact clean
  | cons block rest ih =>
      obtain ⟨next, first, success⟩ := bind_eq_ok success
      exact recordBlock_clean first (ih success)

theorem recordBlocks_chronicle {entries : List Entry} (holds : Holds builder entries)
    (success : recordBlocks blocks builder = .ok after) (clean : after.deferredError = none) :
    (∃ added, List.Forall₂ ChronicleOf blocks added ∧ Holds after (entries ++ added.flatten)) ∧
      after.flashblocks = builder.flashblocks ++ blocks.flatMap BlockRun.flashblocks ∧
      after.headers = builder.headers ++ blocks.map fun block => block.assembled.header := by
  induction blocks generalizing builder entries with
  | nil =>
      cases success
      exact ⟨⟨[], List.Forall₂.nil, by simpa using holds⟩, by simp, by simp⟩
  | cons block rest ih =>
      obtain ⟨next, first, success⟩ := bind_eq_ok success
      have nextClean := recordBlocks_clean success clean
      obtain ⟨⟨added, chronicle, nextHolds⟩, flashblocks, headers⟩ :=
        recordBlock_holds holds first nextClean
      obtain ⟨⟨others, later, finalHolds⟩, laterFlashblocks, laterHeaders⟩ :=
        ih nextHolds success
      refine ⟨⟨added :: others, List.Forall₂.cons chronicle later, by simpa using finalHolds⟩,
        ?_, ?_⟩
      · rw [laterFlashblocks, flashblocks]
        simp
      · rw [laterHeaders, headers]
        simp

theorem recordBlocks_holds {entries : List Entry} (holds : Holds builder entries)
    (success : recordBlocks blocks builder = .ok after) (clean : after.deferredError = none) :
    (∃ added, List.Forall₂ EntriesOf blocks added ∧ Holds after (entries ++ added.flatten) ∧
      List.Forall₂ LogsOf blocks added) ∧
      after.flashblocks = builder.flashblocks ++ blocks.flatMap BlockRun.flashblocks ∧
      after.headers = builder.headers ++ blocks.map fun block => block.assembled.header := by
  obtain ⟨⟨added, chronicles, finalHolds⟩, frame⟩ := recordBlocks_chronicle holds success clean
  refine ⟨⟨added, ?_, finalHolds, ?_⟩, frame⟩
  · exact chronicles.imp fun _ _ chronicle => Chronicle.entriesOf chronicle
  · exact chronicles.imp fun _ _ chronicle => Chronicle.logsCount chronicle

end Holds

/-! ## The snapshot of an ordered list of flashblocks -/

abbrev Ordered (flashblocks : List FlashBlock) : Prop :=
  KeySorted FlashBlock.blockNumber flashblocks

/-- The entries of one group: its transactions, decoded, under the group's number
and with the receipts its flashblocks carry. -/
structure GroupEntries (processor : StateProcessor) (group : Nat × List FlashBlock)
    (entries : List Entry) : Prop where
  transactions : (rawTransactions group.2).mapM processor.alloy.decode2718 =
    .ok (entries.map fun entry => entry.rpc.inner)
  number : ∀ entry ∈ entries, entry.rpc.blockNumber = some group.1
  receipts : ∀ entry ∈ entries, ∃ produced info gasUsed logIndex,
    (collectReceipts group.2).lookup entry.hash = some produced ∧
    entry.receipt = processor.buildReceipt info entry.rpc.inner entry.rpc.signer produced gasUsed
      logIndex

/-- What every build of the list returns, whatever it was built on. -/
structure Describes (processor : StateProcessor) (flashblocks : List FlashBlock)
    (pending : PendingBlocks) (perBlock : List (List Entry)) : Prop where
  whole : pending.flashblocks = flashblocks
  headers : (pending.headers.map fun header => header.header.number) =
    (flashblocksPerBlock flashblocks).map Prod.fst
  entries : List.Forall₂ (GroupEntries processor) (flashblocksPerBlock flashblocks) perBlock
  based : ∀ group ∈ flashblocksPerBlock flashblocks, (group.2.head?.bind (·.base)).isSome
  tracks : Tracks pending perBlock.flatten
  earliest : ∀ group ∈ (flashblocksPerBlock flashblocks).head?,
    pending.earliestBlockNumber = group.1
  latest : ∀ group ∈ (flashblocksPerBlock flashblocks).getLast?,
    pending.latestBlockNumber = group.1
  index : ∀ last ∈ flashblocks.getLast?, pending.latestFlashblockIndex = last.index

theorem forall₂_mem_right {α β : Type} {R : α → β → Prop} {xs : List α} {ys : List β}
    (related : List.Forall₂ R xs ys) {y : β} (member : y ∈ ys) : ∃ x ∈ xs, R x y := by
  induction related with
  | nil => cases member
  | @cons first _ _ _ head _ ih =>
      rcases List.mem_cons.mp member with rfl | member
      · exact ⟨first, List.mem_cons_self .., head⟩
      · obtain ⟨x, inside, holds⟩ := ih member
        exact ⟨x, List.mem_cons_of_mem _ inside, holds⟩

theorem forall₂_comp {α β γ : Type} {R : α → β → Prop} {S : β → γ → Prop} {T : α → γ → Prop}
    (compose : ∀ x y z, R x y → S y z → T x z) {xs : List α} {ys : List β} {zs : List γ}
    (first : List.Forall₂ R xs ys) (second : List.Forall₂ S ys zs) : List.Forall₂ T xs zs := by
  induction first generalizing zs with
  | nil =>
      cases second
      exact List.Forall₂.nil
  | cons head _ ih =>
      cases second with
      | cons next rest => exact List.Forall₂.cons (compose _ _ _ head next) (ih rest)

def PreparedFrom (group : Nat × List FlashBlock) (block : BlockRun processor) : Prop :=
  block.flashblocks = group.2 ∧ ∃ parent, Prepared parent block

def NumberedFrom (group : Nat × List FlashBlock) (block : BlockRun processor) : Prop :=
  PreparedFrom group block ∧
    block.base.blockNumber = group.1 ∧ block.assembled.header.header.number = group.1

theorem prepares_from {groups : List (Nat × List FlashBlock)} {blocks : List (BlockRun processor)}
    {parent : Header} (grouped : blocks.map BlockRun.flashblocks = groups.map Prod.snd)
    (prepares : Prepares parent blocks) : List.Forall₂ PreparedFrom groups blocks := by
  induction blocks generalizing groups parent with
  | nil =>
      have empty : groups = [] := by simpa using grouped.symm
      rw [empty]
      exact List.Forall₂.nil
  | cons block rest ih =>
      cases groups with
      | nil => simp at grouped
      | cons group groups =>
          simp only [List.map_cons, List.cons.injEq] at grouped
          exact List.Forall₂.cons ⟨grouped.1, parent, prepares.1⟩ (ih grouped.2 prepares.2)

section Group

variable {block : BlockRun processor} {parent : Header} {group : Nat × List FlashBlock}

theorem prepared_number (prepared : Prepared parent block) (same : block.flashblocks = group.2)
    (keyed : ∀ flashblock ∈ group.2, flashblock.blockNumber = group.1)
    (agree : ∀ flashblock ∈ group.2, flashblock.NumbersAgree) :
    block.base.blockNumber = group.1 ∧ block.assembled.header.header.number = group.1 := by
  obtain ⟨base, assembled⟩ := assemble_ok prepared.assembled
  have sameBase : base = block.base := by
    have twice := assembled.baseOf.symm.trans prepared.base
    exact Option.some.inj twice
  subst sameBase
  obtain ⟨first, isFirst, firstBase⟩ := Option.bind_eq_some_iff.mp assembled.baseOf
  have member : first ∈ group.2 := by
    rw [← same]
    exact List.mem_of_head? isFirst
  have number : block.base.blockNumber = group.1 := by
    rw [agree first member block.base firstBase]
    exact keyed first member
  refine ⟨number, ?_⟩
  rw [assembled.sealed, assembled.number, number]

theorem entriesOf_group {entries : List Entry} (prepared : Prepared parent block)
    (same : block.flashblocks = group.2) (number : block.base.blockNumber = group.1)
    (of : EntriesOf block entries) : GroupEntries processor group entries := by
  obtain ⟨base, assembled⟩ := assemble_ok prepared.assembled
  have inner := entries_inner of
  have entryOf : ∀ entry ∈ entries, ∃ run, EntryOf block.context run entry := by
    intro entry member
    obtain ⟨position, inside, rfl⟩ := List.getElem_of_mem member
    have sameLength : block.runs.length = entries.length := of.length_eq
    exact ⟨_, of.get (by omega) inside⟩
  constructor
  case transactions =>
    rw [inner, prepared.transactions, ← same]
    exact assembled.transactions
  case number =>
    intro entry member
    obtain ⟨run, ofRun⟩ := entryOf entry member
    obtain ⟨index, rpc⟩ := ofRun.rpc
    rw [rpc]
    exact congrArg some number
  case receipts =>
    intro entry member
    obtain ⟨run, ofRun⟩ := entryOf entry member
    obtain ⟨produced, index, gasUsed, logIndex, found, receipt⟩ := ofRun.receipt
    refine ⟨produced, block.context.transactionMeta index run.transaction, gasUsed, logIndex, ?_, ?_⟩
    · rw [ofRun.hash_eq, ← same]
      exact found
    · rw [receipt, ofRun.inner_eq, ofRun.signer_eq]

theorem blocks_numbered {groups : List (Nat × List FlashBlock)} {blocks : List (BlockRun processor)}
    {parent : Header} (keyed : Keyed FlashBlock.blockNumber groups)
    (agree : ∀ group ∈ groups, ∀ flashblock ∈ group.2, flashblock.NumbersAgree)
    (grouped : blocks.map BlockRun.flashblocks = groups.map Prod.snd)
    (prepares : Prepares parent blocks) : List.Forall₂ NumberedFrom groups blocks := by
  have members := (List.forall₂_and_left _ _).mpr
    ⟨fun _ member => member, prepares_from grouped prepares⟩
  refine members.imp ?_
  intro group block ⟨member, same, parent, prepared⟩
  exact ⟨⟨same, parent, prepared⟩,
    prepared_number prepared same (keyed.ofKeys group member) (agree group member)⟩

theorem numbered_keys {groups : List (Nat × List FlashBlock)} {blocks : List (BlockRun processor)}
    (numbered : List.Forall₂ NumberedFrom groups blocks) :
    (blocks.map fun block => block.assembled.header.header.number) = groups.map Prod.fst := by
  induction numbered with
  | nil => rfl
  | cons first _ ih => rw [List.map_cons, List.map_cons, ih, first.2.2]

theorem blocks_describe {groups : List (Nat × List FlashBlock)}
    {blocks : List (BlockRun processor)} {parent : Header} {perBlock : List (List Entry)}
    (keyed : Keyed FlashBlock.blockNumber groups)
    (agree : ∀ group ∈ groups, ∀ flashblock ∈ group.2, flashblock.NumbersAgree)
    (grouped : blocks.map BlockRun.flashblocks = groups.map Prod.snd)
    (prepares : Prepares parent blocks) (of : List.Forall₂ EntriesOf blocks perBlock) :
    List.Forall₂ (GroupEntries processor) groups perBlock ∧
      (blocks.map fun block => block.assembled.header.header.number) = groups.map Prod.fst := by
  have numbered := blocks_numbered keyed agree grouped prepares
  constructor
  · refine forall₂_comp ?_ numbered of
    intro group block entries ⟨⟨same, parent, prepared⟩, number, _⟩ ofBlock
    exact entriesOf_group prepared same number ofBlock
  · exact numbered_keys numbered

end Group

theorem prepares_based {groups : List (Nat × List FlashBlock)}
    {blocks : List (BlockRun processor)} {parent : Header}
    (grouped : blocks.map BlockRun.flashblocks = groups.map Prod.snd)
    (prepares : Prepares parent blocks) :
    ∀ group ∈ groups, (group.2.head?.bind (·.base)).isSome := by
  intro group member
  obtain ⟨block, -, same, before, prepared⟩ :=
    forall₂_mem_right (prepares_from grouped prepares).flip member
  rw [← same, prepared.base]
  rfl

theorem grouped_whole {flashblocks : List FlashBlock} {blocks : List (BlockRun processor)}
    (ordered : Ordered flashblocks)
    (grouped : blocks.map BlockRun.flashblocks = (flashblocksPerBlock flashblocks).map Prod.snd) :
    blocks.flatMap BlockRun.flashblocks = flashblocks := by
  calc blocks.flatMap BlockRun.flashblocks
      = (blocks.map BlockRun.flashblocks).flatten := List.flatMap_def ..
    _ = ungroup (flashblocksPerBlock flashblocks) := by rw [grouped, ungroup, List.flatMap_def]
    _ = flashblocks := ungroup_groupEntries _ _ ordered

theorem returns_whole {client : Client} {prev : Option PendingBlocks}
    {flashblocks : List FlashBlock} {run : BuildRun processor} {pending : PendingBlocks}
    (ordered : Ordered flashblocks) (returns : Returns client prev flashblocks run pending) :
    pending.flashblocks = flashblocks := by
  obtain ⟨earliest, latest, last, clean, -, -, -, rfl⟩ :=
    PendingBlocksBuilder.build_ok returns.finishes
  obtain ⟨-, flashblocksEq, -⟩ := recordBlocks_holds holds_new returns.records clean
  rw [← grouped_whole ordered returns.grouped]
  exact flashblocksEq

theorem returns_describes {client : Client} {prev : Option PendingBlocks}
    {flashblocks : List FlashBlock} {run : BuildRun processor} {pending : PendingBlocks}
    (ordered : Ordered flashblocks)
    (agree : ∀ flashblock ∈ flashblocks, flashblock.NumbersAgree)
    (returns : Returns client prev flashblocks run pending) :
    ∃ perBlock, Describes processor flashblocks pending perBlock := by
  obtain ⟨earliest, latest, last, clean, isEarliest, isLatest, isLast, rfl⟩ :=
    PendingBlocksBuilder.build_ok returns.finishes
  obtain ⟨⟨perBlock, of, holds, -⟩, flashblocksEq, headersEq⟩ :=
    recordBlocks_holds holds_new returns.records clean
  have whole := grouped_whole ordered returns.grouped
  have members : ∀ group ∈ flashblocksPerBlock flashblocks, ∀ flashblock ∈ group.2,
      flashblock.NumbersAgree := by
    intro group inGroups flashblock inGroup
    exact agree flashblock (mem_of_mem_group inGroups inGroup)
  obtain ⟨entries, numbers⟩ := blocks_describe (groupEntries_keyed _ _) members returns.grouped
    returns.prepares of
  have headers : (run.builder.headers.map fun header => header.header.number) =
      (flashblocksPerBlock flashblocks).map Prod.fst := by
    rw [flashblocksPerBlock, headersEq, ← numbers]
    simp [PendingBlocksBuilder.new]
  have allFlashblocks : run.builder.flashblocks = flashblocks := by
    rw [flashblocksEq, whole]
    rfl
  have finished : Holds ((run.builder.withBundleState (processor.evm.takeBundle run.db)).withAnchor
      { header := run.anchor, hash := processor.alloy.hashSlow run.anchor }) perBlock.flatten :=
    { holds with }
  refine ⟨perBlock, allFlashblocks, headers, entries,
    prepares_based returns.grouped returns.prepares, finished.tracks _ _ _, ?_, ?_, ?_⟩
  · intro group isFirst
    have heads := congrArg List.head? headers
    rw [List.head?_map, List.head?_map, isFirst] at heads
    change run.builder.headers.head? = some earliest at isEarliest
    rw [isEarliest] at heads
    exact Option.some.inj heads
  · intro group isGroup
    have lasts := congrArg List.getLast? headers
    rw [List.getLast?_map, List.getLast?_map, isGroup] at lasts
    change run.builder.headers.getLast? = some latest at isLatest
    rw [isLatest] at lasts
    exact Option.some.inj lasts
  · intro other isOther
    change run.builder.flashblocks.getLast? = some last at isLast
    rw [allFlashblocks, isOther] at isLast
    cases isLast
    rfl

theorem Describes.first {flashblocks : List FlashBlock} {pending : PendingBlocks}
    {perBlock : List (List Entry)} (describes : Describes processor flashblocks pending perBlock)
    (ordered : Ordered flashblocks) {first : FlashBlock}
    (isFirst : flashblocks.head? = some first) :
    pending.earliestBlockNumber = first.blockNumber := by
  have heads := ungroup_head? (groupEntries_keyed FlashBlock.blockNumber flashblocks)
  rw [ungroup_groupEntries _ _ ordered, isFirst] at heads
  obtain ⟨group, isGroup, number⟩ := Option.map_eq_some_iff.mp heads.symm
  rw [describes.earliest group isGroup, number]

theorem Describes.last {flashblocks : List FlashBlock} {pending : PendingBlocks}
    {perBlock : List (List Entry)} (describes : Describes processor flashblocks pending perBlock)
    (ordered : Ordered flashblocks) {last : FlashBlock}
    (isLast : flashblocks.getLast? = some last) :
    pending.latestBlockNumber = last.blockNumber := by
  have ends := ungroup_getLast? (groupEntries_keyed FlashBlock.blockNumber flashblocks)
  rw [ungroup_groupEntries _ _ ordered, isLast] at ends
  obtain ⟨group, isGroup, number⟩ := Option.map_eq_some_iff.mp ends.symm
  rw [describes.latest group isGroup, number]

/-! ## The transactions of the snapshot -/

theorem forall₂_append_singleton {α β : Type} {R : α → β → Prop} {xs : List α} {x : α}
    {zs : List β} (related : List.Forall₂ R (xs ++ [x]) zs) :
    ∃ ys y, zs = ys ++ [y] ∧ List.Forall₂ R xs ys ∧ R x y := by
  induction xs generalizing zs with
  | nil =>
      cases related with
      | cons last none =>
          cases none
          exact ⟨[], _, rfl, List.Forall₂.nil, last⟩
  | cons first rest ih =>
      cases related with
      | cons head tail =>
          obtain ⟨ys, y, rfl, related, last⟩ := ih tail
          exact ⟨_ :: ys, y, rfl, List.Forall₂.cons head related, last⟩

def Decodes (processor : StateProcessor) (group : Nat × List FlashBlock) (entries : List Entry) :
    Prop :=
  (rawTransactions group.2).mapM processor.alloy.decode2718 =
    .ok (entries.map fun entry => entry.rpc.inner)

theorem blocks_decode {groups : List (Nat × List FlashBlock)} {blocks : List (BlockRun processor)}
    {parent : Header} {perBlock : List (List Entry)}
    (grouped : blocks.map BlockRun.flashblocks = groups.map Prod.snd)
    (prepares : Prepares parent blocks) (of : List.Forall₂ EntriesOf blocks perBlock) :
    List.Forall₂ (Decodes processor) groups perBlock := by
  refine forall₂_comp ?_ (prepares_from grouped prepares) of
  intro group block entries ⟨same, before, prepared⟩ ofBlock
  obtain ⟨base, assembled⟩ := assemble_ok prepared.assembled
  rw [Decodes, entries_inner ofBlock, prepared.transactions, ← same]
  exact assembled.transactions

theorem groups_decoded {groups : List (Nat × List FlashBlock)} {perBlock : List (List Entry)}
    (entries : List.Forall₂ (Decodes processor) groups perBlock) :
    (rawTransactions (ungroup groups)).mapM processor.alloy.decode2718 =
      .ok (perBlock.flatten.map fun entry => entry.rpc.inner) := by
  induction entries with
  | nil => rfl
  | @cons group entries groups perBlock first _ ih =>
      have split : ungroup (group :: groups) = group.2 ++ ungroup groups := by
        simp [ungroup]
      rw [split, rawTransactions_append, List.flatten_cons, List.map_append]
      exact mapM_append_of first ih

theorem groupEntries_decode {groups : List (Nat × List FlashBlock)} {perBlock : List (List Entry)}
    (entries : List.Forall₂ (GroupEntries processor) groups perBlock) :
    List.Forall₂ (Decodes processor) groups perBlock :=
  entries.imp fun _ _ ofGroup => ofGroup.transactions

theorem Describes.decoded {flashblocks : List FlashBlock} {pending : PendingBlocks}
    {perBlock : List (List Entry)} (describes : Describes processor flashblocks pending perBlock)
    (ordered : Ordered flashblocks) :
    (rawTransactions flashblocks).mapM processor.alloy.decode2718 =
      .ok (pending.transactions.map fun transaction => transaction.inner) := by
  have decoded := groups_decoded (groupEntries_decode describes.entries)
  rw [flashblocksPerBlock, ungroup_groupEntries _ _ ordered] at decoded
  rw [decoded, describes.tracks.transactions, List.map_map]
  rfl

end EthgasReth.BuildSpec

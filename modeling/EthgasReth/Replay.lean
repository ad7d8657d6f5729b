import EthgasReth.BuildSpec

/-!
# Execution from the anchor

What a list of flashblocks does to the state it starts from, without a database,
a builder or a previous snapshot: for every block its two system calls, then all
its transactions.  A build on no previous snapshot is this execution.  A build on
a previous snapshot runs the system calls of its blocks again, on top of
everything that came later; the calls write the same slots as before, no
transaction touches those, and so the state ends where it was.
-/

set_option autoImplicit false

namespace EthgasReth.Replay

open EthgasReth.Primitives
open EthgasReth.Lib
open EthgasReth.Execution
open EthgasReth.Pending
open EthgasReth.BlockAssembler
open EthgasReth.Build
open EthgasReth.Build.StateProcessor
open EthgasReth.Ledger
open EthgasReth.BuildSpec

variable (processor : StateProcessor)

/-! ## Execution -/

def executeCall (env : processor.evm.Env) (call : SystemCall) (view : View) : Option View :=
  ((processor.evm.systemCall env call view).toOption).map view.commit

def executeCalls (env : processor.evm.Env) (base : ExecutionPayloadBaseV1) (view : View) :
    Option View := do
  let view ← executeCall processor env (.blockhashes base.parentHash)
    (view.insertBlockHash (base.blockNumber - 1) base.parentHash)
  executeCall processor env (.beaconRoot (some base.parentBeaconBlockRoot)) view

def executeTransactions (env : processor.evm.Env) : List TransactionSigned → View → Option View
  | [], view => some view
  | transaction :: rest, view => do
      let sender ← (processor.alloy.recoverSigner transaction).toOption
      let result ← (processor.evm.transact env view transaction sender).toOption
      executeTransactions env rest (view.commit result.state)

def executeBlock (parent : Header) (flashblocks : List FlashBlock) (view : View) :
    Option (Header × View) := do
  let base ← flashblocks.head?.bind (·.base)
  let assembled ← (assemble processor.alloy processor.chainSpec flashblocks).toOption
  let env ← (processor.evm.nextEvmEnv parent
    (blockEnvAttributes base assembled.header.header)).toOption
  let started ← executeCalls processor env base view
  let final ← executeTransactions processor env assembled.block.transactions started
  return (assembled.block.header, final)

def executeBlocks : Header → List (List FlashBlock) → View → Option View
  | _, [], view => some view
  | parent, flashblocks :: rest, view => do
      let (header, next) ← executeBlock processor parent flashblocks view
      executeBlocks header rest next

def executeFlashblocks (anchor : Header) (flashblocks : List FlashBlock) (view : View) :
    Option View :=
  executeBlocks processor anchor ((flashblocksPerBlock flashblocks).map Prod.snd) view

/-! ## Execution with the runs of every block -/

variable {processor}

/-- What is asked of the status of a run, in the context of its block. -/
abbrev Check (processor : StateProcessor) := BlockContext processor → TransactionRun → Bool → Prop

def agrees (context : BlockContext processor) (run : TransactionRun) (success : Bool) : Prop :=
  ∀ receipt, context.receiptByHash.lookup run.hash = some receipt → success = receipt.success

def Replays (check : Check processor) (context : BlockContext processor) :
    List TransactionRun → View → View → Prop
  | [], view, final => final = view
  | run :: rest, view, final =>
      (∃ success, processor.evm.transact context.env view run.transaction run.sender =
        .ok { success := success, state := run.state } ∧ check context run success) ∧
        Replays check context rest (view.commit run.state) final

def BlockReplays (check : Check processor) (block : BlockRun processor) (view final : View) :
    Prop :=
  ∃ started, executeCalls processor block.env block.base view = some started ∧
    Replays check block.context block.runs started final

def BlocksReplay (check : Check processor) : List (BlockRun processor) → View → View → Prop
  | [], view, final => final = view
  | block :: rest, view, final =>
      ∃ next, BlockReplays check block view next ∧ BlocksReplay check rest next final

def Signed (block : BlockRun processor) : Prop :=
  ∀ run ∈ block.runs, processor.alloy.recoverSigner run.transaction = .ok run.sender

variable {check : Check processor}

theorem replays_append {context : BlockContext processor} {runs others : List TransactionRun}
    {view final : View} :
    Replays check context (runs ++ others) view final ↔
      ∃ middle, Replays check context runs view middle ∧
        Replays check context others middle final := by
  induction runs generalizing view with
  | nil => simp [Replays]
  | cons run rest ih =>
      simp only [List.cons_append, Replays, ih]
      constructor
      · intro ⟨ran, middle, first, second⟩
        exact ⟨middle, ⟨ran, first⟩, second⟩
      · intro ⟨middle, ⟨ran, first⟩, second⟩
        exact ⟨ran, middle, first, second⟩

theorem blocksReplay_append {blocks others : List (BlockRun processor)} {view final : View} :
    BlocksReplay check (blocks ++ others) view final ↔
      ∃ middle, BlocksReplay check blocks view middle ∧
        BlocksReplay check others middle final := by
  induction blocks generalizing view with
  | nil => simp [BlocksReplay]
  | cons block rest ih =>
      simp only [List.cons_append, BlocksReplay, ih]
      constructor
      · intro ⟨next, ran, middle, first, second⟩
        exact ⟨middle, ⟨next, ran, first⟩, second⟩
      · intro ⟨middle, ⟨next, ran, first⟩, second⟩
        exact ⟨next, ran, middle, first, second⟩

theorem blocksReplay_singleton {block : BlockRun processor} {view final : View} :
    BlocksReplay check [block] view final ↔ BlockReplays check block view final := by
  constructor
  · intro ⟨next, ran, same⟩
    rw [BlocksReplay] at same
    rw [same]
    exact ran
  · intro ran
    exact ⟨final, ran, rfl⟩

theorem Replays.imp {other : Check processor} {context changed : BlockContext processor}
    {runs : List TransactionRun} {view final : View} (sameEnv : changed.env = context.env)
    (implies : ∀ run ∈ runs, ∀ success, check context run success → other changed run success)
    (replays : Replays check context runs view final) :
    Replays other changed runs view final := by
  induction runs generalizing view with
  | nil => exact replays
  | cons run rest ih =>
      obtain ⟨⟨success, ran, checked⟩, later⟩ := replays
      refine ⟨⟨success, ?_, implies run (List.mem_cons_self ..) success checked⟩,
        ih (fun other member => implies other (List.mem_cons_of_mem _ member)) later⟩
      rw [sameEnv]
      exact ran

theorem BlocksReplay.imp {other : Check processor} {blocks : List (BlockRun processor)}
    {view final : View} (implies : ∀ context run success, check context run success →
      other context run success) (replays : BlocksReplay check blocks view final) :
    BlocksReplay other blocks view final := by
  induction blocks generalizing view with
  | nil => exact replays
  | cons block rest ih =>
      obtain ⟨next, ⟨started, calls, ran⟩, later⟩ := replays
      exact ⟨next, ⟨started, calls, ran.imp rfl fun run _ => implies _ run⟩, ih later⟩

/-! ## The runs give the execution -/

theorem replays_execute {context : BlockContext processor} {runs : List TransactionRun}
    {view final : View}
    (signed : ∀ run ∈ runs, processor.alloy.recoverSigner run.transaction = .ok run.sender)
    (replays : Replays check context runs view final) :
    executeTransactions processor context.env (runs.map TransactionRun.transaction) view =
      some final := by
  induction runs generalizing view with
  | nil =>
      rw [Replays] at replays
      rw [replays]
      rfl
  | cons run rest ih =>
      obtain ⟨⟨success, ran, -⟩, later⟩ := replays
      rw [List.map_cons, executeTransactions, signed run (List.mem_cons_self ..)]
      simp only [Except.toOption, Option.bind_eq_bind, Option.bind_some, ran]
      exact ih (fun other member => signed other (List.mem_cons_of_mem _ member)) later

theorem blocksReplay_execute {blocks : List (BlockRun processor)} {parent : Header}
    {view final : View} (prepares : Prepares parent blocks)
    (signed : ∀ block ∈ blocks, Signed block) (replays : BlocksReplay check blocks view final) :
    executeBlocks processor parent (blocks.map BlockRun.flashblocks) view = some final := by
  induction blocks generalizing parent view with
  | nil =>
      rw [BlocksReplay] at replays
      rw [replays]
      rfl
  | cons block rest ih =>
      obtain ⟨prepared, prepares⟩ := prepares
      obtain ⟨next, ⟨started, calls, ran⟩, later⟩ := replays
      have transactions := replays_execute (signed block (List.mem_cons_self ..)) ran
      rw [prepared.transactions] at transactions
      have head : executeBlock processor parent block.flashblocks view =
          some (block.assembled.block.header, next) := by
        unfold executeBlock
        simp only [prepared.base, prepared.assembled, prepared.env, Except.toOption,
          Option.bind_eq_bind, Option.bind_some, calls]
        have ended : executeTransactions processor block.env block.assembled.block.transactions
            started = some next := transactions
        rw [ended]
        rfl
      rw [List.map_cons, executeBlocks, head]
      exact ih prepares (fun other member => signed other (List.mem_cons_of_mem _ member)) later

/-! ## Databases and views -/

theorem recovers_unknown {prev : Option PendingBlocks} {run : TransactionRun}
    (unknown : knownSender prev run.hash = none) (recovers : Recovers processor prev run) :
    processor.alloy.recoverSigner run.transaction = .ok run.sender := by
  unfold Recovers at recovers
  rw [unknown] at recovers
  exact recovers

section Databases

variable (lawful : processor.evm.Lawful)
include lawful

theorem applySystemCall_view {env : processor.evm.Env} {call : SystemCall}
    {db next : processor.evm.Db} (success : processor.applySystemCall env call db = .ok next) :
    executeCall processor env call (processor.evm.view db) = some (processor.evm.view next) ∧
      processor.evm.base next = processor.evm.base db := by
  unfold StateProcessor.applySystemCall at success
  split at success
  · rename_i changes ran
    cases success
    rw [executeCall, ran, lawful.view_commit]
    exact ⟨rfl, lawful.base_commit db changes⟩
  · cases success

theorem applySystemCall_of {env : processor.evm.Env} {call : SystemCall} {db : processor.evm.Db}
    {view : View} (success : executeCall processor env call (processor.evm.view db) = some view) :
    ∃ next, processor.applySystemCall env call db = .ok next ∧ processor.evm.view next = view := by
  unfold executeCall at success
  cases ran : processor.evm.systemCall env call (processor.evm.view db) with
  | error message =>
      rw [ran] at success
      cases success
  | ok changes =>
      rw [ran] at success
      cases success
      refine ⟨processor.evm.commit db changes, ?_, lawful.view_commit db changes⟩
      rw [StateProcessor.applySystemCall, ran]

theorem starts_view {block : BlockRun processor} {db started : processor.evm.Db}
    (starts : Starts block db started) :
    executeCalls processor block.env block.base (processor.evm.view db) =
        some (processor.evm.view started) ∧
      processor.evm.base started = processor.evm.base db := by
  obtain ⟨middle, first, second⟩ := starts
  obtain ⟨firstView, firstBase⟩ := applySystemCall_view lawful first
  obtain ⟨secondView, secondBase⟩ := applySystemCall_view lawful second
  rw [lawful.view_insertBlockHash] at firstView
  rw [lawful.base_insertBlockHash] at firstBase
  refine ⟨?_, secondBase.trans firstBase⟩
  rw [executeCalls, firstView]
  exact secondView

theorem starts_of {block : BlockRun processor} {db : processor.evm.Db} {view : View}
    (success : executeCalls processor block.env block.base (processor.evm.view db) = some view) :
    ∃ started, Starts block db started ∧ processor.evm.view started = view := by
  obtain ⟨between, first, second⟩ := Option.bind_eq_some_iff.mp success
  rw [← lawful.view_insertBlockHash] at first
  obtain ⟨middle, firstRan, rfl⟩ := applySystemCall_of lawful first
  obtain ⟨started, secondRan, same⟩ := applySystemCall_of lawful second
  exact ⟨started, ⟨middle, firstRan, secondRan⟩, same⟩

theorem advances_replays {prev : Option PendingBlocks} {context : BlockContext processor}
    {runs : List TransactionRun} {db final : processor.evm.Db}
    (unknown : ∀ run ∈ runs, knownState prev run.hash = none)
    (advances : Advances prev context runs db final) :
    Replays agrees context runs (processor.evm.view db) (processor.evm.view final) ∧
      processor.evm.base final = processor.evm.base db := by
  induction runs generalizing db with
  | nil =>
      rw [Advances] at advances
      rw [advances]
      exact ⟨rfl, rfl⟩
  | cons run rest ih =>
      obtain ⟨next, moves, later⟩ := advances
      have fresh := unknown run (List.mem_cons_self ..)
      cases moves with
      | reused known =>
          rw [fresh] at known
          cases known
      | executed _ ran checked =>
          obtain ⟨replays, base⟩ := ih
            (fun other member => unknown other (List.mem_cons_of_mem _ member)) later
          rw [lawful.view_commit] at replays
          rw [lawful.base_commit] at base
          exact ⟨⟨⟨_, ran, checked⟩, replays⟩, base⟩

theorem executed_replays {prev : Option PendingBlocks} {block : BlockRun processor}
    {db final : processor.evm.Db}
    (unknown : ∀ run ∈ block.runs,
      knownState prev run.hash = none ∧ knownSender prev run.hash = none)
    (executed : Executed prev block db final) :
    BlockReplays agrees block (processor.evm.view db) (processor.evm.view final) ∧
      processor.evm.base final = processor.evm.base db ∧ Signed block := by
  obtain ⟨started, starts, advances⟩ := executed.moves
  obtain ⟨calls, startedBase⟩ := starts_view lawful starts
  obtain ⟨replays, base⟩ := advances_replays lawful
    (fun run member => (unknown run member).1) advances
  refine ⟨⟨_, calls, replays⟩, base.trans startedBase, ?_⟩
  intro run member
  exact recovers_unknown (unknown run member).2 (executed.senders run member)

theorem executesAll_replays {blocks : List (BlockRun processor)} {db final : processor.evm.Db}
    (executes : ExecutesAll none blocks db final) :
    BlocksReplay agrees blocks (processor.evm.view db) (processor.evm.view final) ∧
      processor.evm.base final = processor.evm.base db ∧ ∀ block ∈ blocks, Signed block := by
  induction blocks generalizing db with
  | nil =>
      rw [ExecutesAll] at executes
      rw [executes]
      exact ⟨rfl, rfl, by simp⟩
  | cons block rest ih =>
      obtain ⟨next, executed, later⟩ := executes
      obtain ⟨head, headBase, headSigned⟩ := executed_replays lawful
        (fun _ _ => ⟨rfl, rfl⟩) executed
      obtain ⟨replays, base, signed⟩ := ih later
      refine ⟨⟨_, head, replays⟩, base.trans headBase, ?_⟩
      intro other member
      rcases List.mem_cons.mp member with rfl | member
      · exact headSigned
      · exact signed other member

theorem advances_of {context : BlockContext processor} {runs : List TransactionRun}
    {db : processor.evm.Db} {final : View}
    (replays : Replays agrees context runs (processor.evm.view db) final) :
    ∃ after, Advances none context runs db after ∧ processor.evm.view after = final := by
  induction runs generalizing db with
  | nil =>
      rw [Replays] at replays
      exact ⟨db, rfl, replays.symm⟩
  | cons run rest ih =>
      obtain ⟨⟨success, ran, checked⟩, later⟩ := replays
      rw [← lawful.view_commit] at later
      obtain ⟨after, advances, same⟩ := ih later
      exact ⟨after, ⟨_, .executed rfl ran checked, advances⟩, same⟩

theorem executesAll_of {blocks : List (BlockRun processor)} {db : processor.evm.Db} {final : View}
    (signed : ∀ block ∈ blocks, Signed block)
    (replays : BlocksReplay agrees blocks (processor.evm.view db) final) :
    ∃ after, ExecutesAll none blocks db after ∧ processor.evm.view after = final := by
  induction blocks generalizing db with
  | nil =>
      rw [BlocksReplay] at replays
      exact ⟨db, rfl, replays.symm⟩
  | cons block rest ih =>
      obtain ⟨next, ⟨started, calls, ran⟩, later⟩ := replays
      obtain ⟨begun, starts, rfl⟩ := starts_of lawful calls
      obtain ⟨middle, advances, rfl⟩ := advances_of lawful ran
      obtain ⟨after, executes, same⟩ := ih
        (fun other member => signed other (List.mem_cons_of_mem _ member)) later
      exact ⟨after, ⟨middle, ⟨signed block (List.mem_cons_self ..), begun, starts, advances⟩,
        executes⟩, same⟩

end Databases

/-! ## Running the system calls again -/

def enteredHashes (blocks : List (BlockRun processor)) (known : Nat → Option B256) :
    Nat → Option B256 :=
  blocks.foldl
    (fun known block => Function.update known (block.base.blockNumber - 1) (some block.base.parentHash))
    known

def CallsAgain : List (BlockRun processor) → processor.evm.Db → processor.evm.Db → Prop
  | [], db, final => final = db
  | block :: rest, db, final => ∃ next, Starts block db next ∧ CallsAgain rest next final

theorem callsAgain_append {blocks others : List (BlockRun processor)}
    {db final : processor.evm.Db} :
    CallsAgain (blocks ++ others) db final ↔
      ∃ middle, CallsAgain blocks db middle ∧ CallsAgain others middle final := by
  induction blocks generalizing db with
  | nil => simp [CallsAgain]
  | cons block rest ih =>
      simp only [List.cons_append, CallsAgain, ih]
      constructor
      · intro ⟨next, starts, middle, first, second⟩
        exact ⟨middle, ⟨next, starts, first⟩, second⟩
      · intro ⟨middle, ⟨next, starts, first⟩, second⟩
        exact ⟨next, starts, middle, first, second⟩

section Contracts

variable (contracts : SystemContracts processor.evm)

def callWrites (block : BlockRun processor) : List (CellWrites Slot U256) :=
  [contracts.writes block.env (.blockhashes block.base.parentHash),
    contracts.writes block.env (.beaconRoot (some block.base.parentBeaconBlockRoot))]

def allWrites (blocks : List (BlockRun processor)) : List (CellWrites Slot U256) :=
  blocks.flatMap (callWrites contracts)

def rewritten (blocks : List (BlockRun processor)) (view : View) : View where
  world := { view.world with storage := writeAll (allWrites contracts blocks) view.world.storage }
  blockHash := enteredHashes blocks view.blockHash

variable {contracts}

theorem allWrites_owned {blocks : List (BlockRun processor)} :
    ∀ cells ∈ allWrites contracts blocks, ∀ slot, cells slot ≠ none → contracts.Owned slot := by
  intro cells member slot written
  obtain ⟨block, -, inside⟩ := List.mem_flatMap.mp member
  simp only [callWrites, List.mem_cons, List.not_mem_nil, or_false] at inside
  rcases inside with rfl | rfl
  · exact contracts.writes_owned _ _ slot written
  · exact contracts.writes_owned _ _ slot written

theorem executeCall_writes {env : processor.evm.Env} {call : SystemCall} {view next : View}
    (live : contracts.Live view.world) (success : executeCall processor env call view = some next) :
    next = { view with world := view.world.writeSlots (contracts.writes env call) } ∧
      contracts.Live next.world := by
  unfold executeCall at success
  cases ran : processor.evm.systemCall env call view with
  | error message =>
      rw [ran] at success
      cases success
  | ok changes =>
      rw [ran] at success
      cases success
      have same := contracts.call_writes env call view changes live ran
      rw [View.commit, same]
      exact ⟨rfl, contracts.live_writes env call view.world live⟩

theorem executeCalls_rewritten {block : BlockRun processor} {view started : View}
    (live : contracts.Live view.world)
    (success : executeCalls processor block.env block.base view = some started) :
    started = rewritten contracts [block] view ∧ contracts.Live started.world := by
  obtain ⟨between, first, second⟩ := Option.bind_eq_some_iff.mp success
  obtain ⟨rfl, liveBetween⟩ := executeCall_writes (by exact live) first
  obtain ⟨rfl, liveStarted⟩ := executeCall_writes liveBetween second
  exact ⟨rfl, liveStarted⟩

theorem rewritten_cons (block : BlockRun processor) (rest : List (BlockRun processor))
    (view : View) :
    rewritten contracts (block :: rest) view =
      rewritten contracts rest (rewritten contracts [block] view) := by
  simp [rewritten, allWrites, writeAll, enteredHashes, List.foldl_append]

theorem callsAgain_rewritten (lawful : processor.evm.Lawful) {blocks : List (BlockRun processor)}
    {db final : processor.evm.Db} (live : contracts.Live (processor.evm.view db).world)
    (again : CallsAgain blocks db final) :
    processor.evm.view final = rewritten contracts blocks (processor.evm.view db) ∧
      processor.evm.base final = processor.evm.base db := by
  induction blocks generalizing db with
  | nil =>
      rw [CallsAgain] at again
      rw [again]
      exact ⟨rfl, rfl⟩
  | cons block rest ih =>
      obtain ⟨next, starts, later⟩ := again
      obtain ⟨calls, base⟩ := starts_view lawful starts
      obtain ⟨same, liveNext⟩ := executeCalls_rewritten live calls
      obtain ⟨laterSame, laterBase⟩ := ih liveNext later
      rw [same] at laterSame
      exact ⟨by rw [laterSame, ← rewritten_cons], laterBase.trans base⟩

theorem replays_frame {context : BlockContext processor} {runs : List TransactionRun}
    {view final : View} (live : contracts.Live view.world)
    (replays : Replays check context runs view final) :
    contracts.Live final.world ∧ final.blockHash = view.blockHash ∧
      ∀ slot, contracts.Owned slot → final.world.storage slot = view.world.storage slot := by
  induction runs generalizing view with
  | nil =>
      rw [Replays] at replays
      rw [replays]
      exact ⟨live, rfl, fun _ _ => rfl⟩
  | cons run rest ih =>
      obtain ⟨⟨success, ran, -⟩, later⟩ := replays
      have kept := contracts.transact_owned _ _ _ _ _ live ran
      obtain ⟨liveFinal, hashes, frame⟩ := ih (contracts.live_transact _ _ _ _ _ live ran) later
      refine ⟨liveFinal, hashes, ?_⟩
      intro slot owned
      rw [frame slot owned]
      exact kept slot owned

/-- After the blocks of a replay their system calls can be run again without
effect, and the hashes they entered are known. -/
theorem blocksReplay_settled {blocks earlier : List (BlockRun processor)} {view final : View}
    (live : contracts.Live view.world)
    (settled : Settled (allWrites contracts earlier) view.world.storage)
    (replays : BlocksReplay check blocks view final) :
    contracts.Live final.world ∧ final.blockHash = enteredHashes blocks view.blockHash ∧
      Settled (allWrites contracts (earlier ++ blocks)) final.world.storage := by
  induction blocks generalizing view earlier with
  | nil =>
      rw [BlocksReplay] at replays
      rw [replays]
      exact ⟨live, rfl, by simpa using settled⟩
  | cons block rest ih =>
      obtain ⟨next, ⟨started, calls, ran⟩, later⟩ := replays
      obtain ⟨same, liveStarted⟩ := executeCalls_rewritten live calls
      obtain ⟨liveNext, hashes, frame⟩ := replays_frame liveStarted ran
      have begun : Settled (allWrites contracts (earlier ++ [block])) started.world.storage := by
        have twice := (settled.write (contracts.writes block.env
          (.blockhashes block.base.parentHash))).write (contracts.writes block.env
            (.beaconRoot (some block.base.parentBeaconBlockRoot)))
        rw [same]
        simpa [allWrites, callWrites, rewritten, writeAll] using twice
      have settledNext : Settled (allWrites contracts (earlier ++ [block])) next.world.storage := by
        refine begun.frame ?_
        intro cells member slot written
        exact frame slot (allWrites_owned cells member slot written)
      obtain ⟨liveFinal, laterHashes, settledFinal⟩ := ih liveNext settledNext later
      refine ⟨liveFinal, ?_, by simpa using settledFinal⟩
      rw [laterHashes, hashes, same]
      rfl

/-- A database that holds the world the blocks led to, and has forgotten their
hashes, is back where they ended once their calls have run again. -/
theorem callsAgain_view (lawful : processor.evm.Lawful) {blocks : List (BlockRun processor)}
    {view final : View} {db after : processor.evm.Db} (live : contracts.Live view.world)
    (replays : BlocksReplay check blocks view final)
    (resumed : processor.evm.view db = { world := final.world, blockHash := view.blockHash })
    (again : CallsAgain blocks db after) :
    processor.evm.view after = final ∧ processor.evm.base after = processor.evm.base db := by
  have begun : Settled (allWrites contracts []) view.world.storage := settled_nil _
  obtain ⟨liveFinal, hashes, settled⟩ := blocksReplay_settled live begun replays
  have liveDb : contracts.Live (processor.evm.view db).world := by
    rw [resumed]
    exact liveFinal
  obtain ⟨same, base⟩ := callsAgain_rewritten lawful liveDb again
  refine ⟨?_, base⟩
  have unchanged : writeAll (allWrites contracts blocks) final.world.storage =
      final.world.storage := settled
  rw [same, resumed, rewritten, unchanged, ← hashes]

end Contracts

end EthgasReth.Replay

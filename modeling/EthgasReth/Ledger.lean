import EthgasReth.Build

/-!
# What a build records

A build is two things at once: an execution, which moves the database, and a
recording, which fills the builder.  The recording depends on the execution only
through the state of every transaction, so it is written here as a function of
the *runs* (transaction, sender, state) of every block, and every successful
build is shown to be such a recording.  A recording without a repeated hash
leaves a ledger: one entry per transaction, in order, which all the maps of the
builder index.
-/

set_option autoImplicit false

namespace EthgasReth.Ledger

open EthgasReth.Primitives
open EthgasReth.Lib
open EthgasReth.Execution
open EthgasReth.Pending
open EthgasReth.BlockAssembler
open EthgasReth.Build
open EthgasReth.Build.StateProcessor

/-! ## Entries and the maps that index them -/

structure Entry where
  rpc : RpcTransaction
  state : EvmState
  receipt : TransactionReceipt

def Entry.hash (entry : Entry) : B256 := entry.rpc.txHash

def find (entries : List Entry) (hash : B256) : Option Entry :=
  entries.find? fun entry => entry.hash = hash

theorem find_append (entries others : List Entry) (hash : B256) :
    find (entries ++ others) hash = (find entries hash).or (find others hash) := by
  simp [find]

theorem find_eq_none {entries : List Entry} {hash : B256} :
    find entries hash = none ↔ hash ∉ entries.map Entry.hash := by
  simp [find]

theorem find_of_mem {entries : List Entry} (distinct : (entries.map Entry.hash).Nodup)
    {entry : Entry} (member : entry ∈ entries) : find entries entry.hash = some entry := by
  induction entries with
  | nil => cases member
  | cons head rest ih =>
      obtain ⟨absent, restDistinct⟩ := List.nodup_cons.mp distinct
      rcases List.mem_cons.mp member with rfl | member
      · simp [find]
      · have differ : head.hash ≠ entry.hash := by
          intro same
          rw [same] at absent
          exact absent (List.mem_map_of_mem member)
        have found := ih restDistinct member
        simpa [find, differ] using found

/-- A map holds one field of every entry, under the entry's hash, and nothing
else. -/
def Indexes {β : Type} (map : HashMap B256 β) (field : Entry → β) (entries : List Entry) : Prop :=
  ∀ hash, map.lookup hash = (find entries hash).map field

theorem Indexes.insert {β : Type} {map : HashMap B256 β} {field : Entry → β}
    {entries : List Entry} (indexes : Indexes map field entries) (entry : Entry)
    (fresh : entry.hash ∉ entries.map Entry.hash) :
    Indexes (map.insert entry.hash (field entry)) field (entries ++ [entry]) := by
  intro hash
  rw [find_append]
  by_cases same : hash = entry.hash
  · subst same
    rw [AList.lookup_insert, find_eq_none.mpr fresh]
    simp [find]
  · have absent : find [entry] hash = none := by
      rw [find_eq_none]
      simpa using same
    rw [AList.lookup_insert_ne same, indexes hash, absent, Option.or_none]

/-- The builder's lists and maps hold exactly these entries. -/
structure Holds (builder : PendingBlocksBuilder) (entries : List Entry) : Prop where
  clean : builder.deferredError = none
  distinct : (entries.map Entry.hash).Nodup
  transactions : builder.transactions = entries.map Entry.rpc
  byHash : Indexes builder.transactionsByHash Entry.rpc entries
  senders : Indexes builder.transactionSenders (fun entry => entry.rpc.signer) entries
  receipts : Indexes builder.transactionReceipts Entry.receipt entries
  states : Indexes builder.transactionState Entry.state entries

theorem holds_new : Holds PendingBlocksBuilder.new [] where
  clean := rfl
  distinct := List.nodup_nil
  transactions := rfl
  byHash := fun _ => rfl
  senders := fun _ => rfl
  receipts := fun _ => rfl
  states := fun _ => rfl

structure Tracks (pending : PendingBlocks) (entries : List Entry) : Prop where
  distinct : (entries.map Entry.hash).Nodup
  transactions : pending.transactions = entries.map Entry.rpc
  senders : Indexes pending.transactionSenders (fun entry => entry.rpc.signer) entries
  receipts : Indexes pending.transactionReceipts Entry.receipt entries
  states : Indexes pending.transactionState Entry.state entries

theorem Holds.tracks {builder : PendingBlocksBuilder} {entries : List Entry}
    (holds : Holds builder entries) (earliest latest : SealedHeader) (index : Nat) :
    Tracks (builder.snapshot earliest latest index) entries where
  distinct := holds.distinct
  transactions := holds.transactions
  senders := holds.senders
  receipts := holds.receipts
  states := holds.states

/-! ## Recording the runs of one block -/

structure TransactionRun where
  transaction : TransactionSigned
  sender : Address
  state : EvmState

def TransactionRun.hash (run : TransactionRun) : B256 := run.transaction.txHash

variable {processor : StateProcessor}

def recordRun (context : BlockContext processor) (index : Nat) (run : TransactionRun)
    (tally : Tally) : Result Tally := do
  let (_, tally) ← recordTransaction context index run.transaction run.sender tally
  return tally.withTransactionState run.hash run.state

def recordRuns (context : BlockContext processor) :
    Nat → List TransactionRun → Tally → Result Tally
  | _, [], tally => .ok tally
  | index, run :: rest, tally => do
      let next ← recordRun context index run tally
      recordRuns context (index + 1) rest next

/-- The entry a run leaves: the RPC transaction, the state, and the producer's
receipt for it. -/
structure EntryOf (context : BlockContext processor) (run : TransactionRun) (entry : Entry) :
    Prop where
  rpc : ∃ index, entry.rpc = context.rpcTransaction index run.transaction run.sender
  state : entry.state = run.state
  receipt : ∃ produced index gasUsed logIndex,
    context.receiptByHash.lookup run.hash = some produced ∧
    entry.receipt = processor.buildReceipt (context.transactionMeta index run.transaction)
      run.transaction run.sender produced gasUsed logIndex

theorem EntryOf.hash_eq {context : BlockContext processor} {run : TransactionRun} {entry : Entry}
    (of : EntryOf context run entry) : entry.hash = run.hash := by
  obtain ⟨index, same⟩ := of.rpc
  rw [Entry.hash, same]
  rfl

theorem EntryOf.signer_eq {context : BlockContext processor} {run : TransactionRun} {entry : Entry}
    (of : EntryOf context run entry) : entry.rpc.signer = run.sender := by
  obtain ⟨index, same⟩ := of.rpc
  rw [same]
  rfl

theorem EntryOf.inner_eq {context : BlockContext processor} {run : TransactionRun} {entry : Entry}
    (of : EntryOf context run entry) : entry.rpc.inner = run.transaction := by
  obtain ⟨index, same⟩ := of.rpc
  rw [same]
  rfl

theorem entries_inner {context : BlockContext processor} {runs : List TransactionRun}
    {entries : List Entry} (of : List.Forall₂ (EntryOf context) runs entries) :
    (entries.map fun entry => entry.rpc.inner) = runs.map TransactionRun.transaction := by
  induction of with
  | nil => rfl
  | cons first _ ih => simp [ih, first.inner_eq]

def LogsCount (number start : Nat) (logs : List RpcLog) : Prop :=
  logs.map (fun log => (log.blockNumber, log.logIndex)) =
    (List.range' start logs.length).map fun index => (some number, some index)

theorem LogsCount.append {number start : Nat} {logs others : List RpcLog}
    (first : LogsCount number start logs)
    (second : LogsCount number (start + logs.length) others) :
    LogsCount number start (logs ++ others) := by
  unfold LogsCount at first second ⊢
  rw [List.map_append, first, second, List.length_append, ← List.range'_append_1,
    List.map_append]

theorem mapLogs_length (info : TransactionMeta) (start : Nat) (logs : List LogData) :
    (mapLogs info start logs).length = logs.length := by
  induction logs generalizing start with
  | nil => rfl
  | cons log rest ih => simp [mapLogs, ih]

theorem mapLogs_count (info : TransactionMeta) (start : Nat) (logs : List LogData) :
    LogsCount info.blockNumber start (mapLogs info start logs) := by
  induction logs generalizing start with
  | nil => rfl
  | cons log rest ih =>
      have later := ih (start + 1)
      unfold LogsCount at later ⊢
      simp [mapLogs, later, List.range'_succ]

theorem recordTransaction_ok {context : BlockContext processor} {index : Nat}
    {transaction : TransactionSigned} {sender : Address} {tally next : Tally} {receipt : Receipt}
    (success : recordTransaction context index transaction sender tally = .ok (receipt, next)) :
    context.receiptByHash.lookup transaction.txHash = some receipt ∧
      tally.gasUsed ≤ receipt.cumulativeGasUsed ∧
      next = recorded context index transaction sender receipt tally := by
  unfold recordTransaction at success
  split at success
  · cases success
  · rename_i produced found
    split at success
    · cases success
    · rename_i grows
      cases success
      exact ⟨found, by omega, rfl⟩

theorem recordRun_ok {context : BlockContext processor} {index : Nat} {run : TransactionRun}
    {tally next : Tally} (success : recordRun context index run tally = .ok next) :
    ∃ produced, context.receiptByHash.lookup run.hash = some produced ∧
      tally.gasUsed ≤ produced.cumulativeGasUsed ∧
      next = (recorded context index run.transaction run.sender produced tally
        ).withTransactionState run.hash run.state := by
  obtain ⟨⟨receipt, middle⟩, recordRan, success⟩ := bind_eq_ok success
  obtain ⟨found, grows, rfl⟩ := recordTransaction_ok recordRan
  cases success
  exact ⟨receipt, found, grows, rfl⟩

theorem recordRun_clean {context : BlockContext processor} {index : Nat} {run : TransactionRun}
    {tally next : Tally} (success : recordRun context index run tally = .ok next)
    (clean : next.builder.deferredError = none) :
    ¬ (tally.builder.transactionsByHash.lookup run.hash).isSome ∧
      tally.builder.deferredError = none := by
  obtain ⟨produced, -, -, rfl⟩ := recordRun_ok success
  simp only [Tally.withTransactionState, recorded, PendingBlocksBuilder.withTransactionState,
    PendingBlocksBuilder.withReceipt] at clean
  by_cases known : (tally.builder.transactionsByHash.lookup run.hash).isSome
  · rw [PendingBlocksBuilder.withTransaction_known (by exact known)] at clean
    simp at clean
  · rw [PendingBlocksBuilder.withTransaction_fresh (by exact known)] at clean
    exact ⟨known, clean⟩

/-- The entry that a run leaves at an index, on top of the two counters. -/
def recordedEntry (context : BlockContext processor) (index gasUsed nextLogIndex : Nat)
    (run : TransactionRun) (produced : Receipt) : Entry where
  rpc := context.rpcTransaction index run.transaction run.sender
  state := run.state
  receipt := processor.buildReceipt (context.transactionMeta index run.transaction)
    run.transaction run.sender produced (produced.cumulativeGasUsed - gasUsed) nextLogIndex

theorem recordRun_holds {context : BlockContext processor} {index : Nat} {run : TransactionRun}
    {tally next : Tally} {entries : List Entry} (holds : Holds tally.builder entries)
    (success : recordRun context index run tally = .ok next)
    (clean : next.builder.deferredError = none) :
    ∃ produced, context.receiptByHash.lookup run.hash = some produced ∧
      tally.gasUsed ≤ produced.cumulativeGasUsed ∧
      Holds next.builder (entries ++
        [recordedEntry context index tally.gasUsed tally.nextLogIndex run produced]) ∧
      next.gasUsed = produced.cumulativeGasUsed ∧
      next.nextLogIndex = tally.nextLogIndex + produced.logs.length := by
  obtain ⟨unknown, -⟩ := recordRun_clean success clean
  obtain ⟨produced, found, grows, rfl⟩ := recordRun_ok success
  let entry := recordedEntry context index tally.gasUsed tally.nextLogIndex run produced
  have fresh : entry.hash ∉ entries.map Entry.hash := by
    rw [holds.byHash] at unknown
    have absent : find entries run.hash = none := by simpa using unknown
    exact find_eq_none.mp absent
  refine ⟨produced, found, grows, ?_, rfl, rfl⟩
  simp only [Tally.withTransactionState, recorded, PendingBlocksBuilder.withTransactionState,
    PendingBlocksBuilder.withReceipt]
  rw [PendingBlocksBuilder.withTransaction_fresh (by exact unknown)]
  constructor
  case clean => exact holds.clean
  case distinct =>
    rw [List.map_append]
    refine List.Nodup.append holds.distinct (List.nodup_singleton _) ?_
    intro hash inside last
    rw [List.mem_singleton.mp last] at inside
    exact fresh inside
  case transactions =>
    rw [List.map_append, ← holds.transactions]
    rfl
  case byHash => exact holds.byHash.insert entry fresh
  case senders => exact holds.senders.insert entry fresh
  case receipts => exact holds.receipts.insert entry fresh
  case states => exact holds.states.insert entry fresh

/-- The entries of a block, one after another: each at the next index, its gas counted from
the cumulative gas before it and its logs from where the last ones ended. -/
inductive Chronicle (context : BlockContext processor) :
    Nat → Nat → Nat → List TransactionRun → List Entry → Prop
  | nil {index gasUsed nextLogIndex : Nat} : Chronicle context index gasUsed nextLogIndex [] []
  | cons {index gasUsed nextLogIndex : Nat} {run : TransactionRun} {rest : List TransactionRun}
      {entries : List Entry} {produced : Receipt}
      (found : context.receiptByHash.lookup run.hash = some produced)
      (grows : gasUsed ≤ produced.cumulativeGasUsed)
      (later : Chronicle context (index + 1) produced.cumulativeGasUsed
        (nextLogIndex + produced.logs.length) rest entries) :
      Chronicle context index gasUsed nextLogIndex (run :: rest)
        (recordedEntry context index gasUsed nextLogIndex run produced :: entries)

section Chronicle

variable {context : BlockContext processor} {index gasUsed nextLogIndex : Nat}
  {runs : List TransactionRun} {entries : List Entry}

theorem Chronicle.entriesOf
    (chronicle : Chronicle context index gasUsed nextLogIndex runs entries) :
    List.Forall₂ (EntryOf context) runs entries := by
  induction chronicle with
  | nil => exact List.Forall₂.nil
  | cons found _ _ ih =>
      exact List.Forall₂.cons ⟨⟨_, rfl⟩, rfl, _, _, _, _, found, rfl⟩ ih

theorem Chronicle.logsCount
    (chronicle : Chronicle context index gasUsed nextLogIndex runs entries) :
    LogsCount context.block.header.number nextLogIndex
      (entries.flatMap fun entry => entry.receipt.logs) := by
  induction chronicle with
  | nil => rfl
  | @cons index gasUsed nextLogIndex run rest entries produced _ _ _ ih =>
      have own := mapLogs_count (context.transactionMeta index run.transaction) nextLogIndex
        produced.logs
      rw [← mapLogs_length (context.transactionMeta index run.transaction) nextLogIndex] at ih
      exact own.append ih

theorem Chronicle.indices
    (chronicle : Chronicle context index gasUsed nextLogIndex runs entries) :
    (entries.map fun entry => entry.rpc.transactionIndex) =
      (List.range' index entries.length).map some := by
  induction chronicle with
  | nil => rfl
  | cons _ _ _ ih =>
      rw [List.map_cons, ih, List.length_cons, List.range'_succ]
      rfl

theorem Chronicle.receiptOf
    (chronicle : Chronicle context index gasUsed nextLogIndex runs entries) :
    ∀ entry ∈ entries, entry.receipt.transactionHash = entry.hash ∧
      entry.receipt.transactionIndex = entry.rpc.transactionIndex := by
  induction chronicle with
  | nil => simp
  | cons _ _ _ ih =>
      intro entry member
      rcases List.mem_cons.mp member with rfl | member
      · exact ⟨rfl, rfl⟩
      · exact ih entry member

theorem Chronicle.gas (chronicle : Chronicle context index gasUsed nextLogIndex runs entries) :
    ∀ position entry, entries[position]? = some entry →
      ∃ produced, context.receiptByHash.lookup entry.hash = some produced ∧
        entry.receipt.cumulativeGasUsed = produced.cumulativeGasUsed ∧
        gasUsed + ((entries.take (position + 1)).map fun entry => entry.receipt.gasUsed).sum =
          produced.cumulativeGasUsed := by
  induction chronicle with
  | nil => simp
  | @cons index gasUsed nextLogIndex run rest entries produced found grows _ ih =>
      have first : gasUsed + (recordedEntry context index gasUsed nextLogIndex run
          produced).receipt.gasUsed = produced.cumulativeGasUsed :=
        Nat.add_sub_cancel' grows
      intro position entry isEntry
      cases position with
      | zero =>
          cases isEntry
          refine ⟨produced, found, rfl, ?_⟩
          simpa using first
      | succ position =>
          obtain ⟨later, laterFound, cumulative, total⟩ := ih position entry isEntry
          refine ⟨later, laterFound, cumulative, ?_⟩
          rw [List.take_succ_cons, List.map_cons, List.sum_cons, ← Nat.add_assoc, first]
          exact total

end Chronicle

theorem recordRun_frame {context : BlockContext processor} {index : Nat} {run : TransactionRun}
    {tally next : Tally} (success : recordRun context index run tally = .ok next) :
    next.builder.flashblocks = tally.builder.flashblocks ∧
      next.builder.headers = tally.builder.headers := by
  obtain ⟨produced, -, -, rfl⟩ := recordRun_ok success
  simp only [Tally.withTransactionState, recorded, PendingBlocksBuilder.withTransactionState,
    PendingBlocksBuilder.withReceipt]
  by_cases known : (tally.builder.transactionsByHash.lookup run.hash).isSome
  · rw [PendingBlocksBuilder.withTransaction_known (by exact known)]
    exact ⟨rfl, rfl⟩
  · rw [PendingBlocksBuilder.withTransaction_fresh (by exact known)]
    exact ⟨rfl, rfl⟩

section Runs

variable {context : BlockContext processor} {runs : List TransactionRun} {tally final : Tally}
  {index : Nat}

theorem recordRuns_clean (success : recordRuns context index runs tally = .ok final)
    (clean : final.builder.deferredError = none) : tally.builder.deferredError = none := by
  induction runs generalizing index tally with
  | nil =>
      cases success
      exact clean
  | cons run rest ih =>
      obtain ⟨next, first, success⟩ := bind_eq_ok success
      exact (recordRun_clean first (ih success)).2

theorem recordRuns_frame (success : recordRuns context index runs tally = .ok final) :
    final.builder.flashblocks = tally.builder.flashblocks ∧
      final.builder.headers = tally.builder.headers := by
  induction runs generalizing index tally with
  | nil =>
      cases success
      exact ⟨rfl, rfl⟩
  | cons run rest ih =>
      obtain ⟨next, first, success⟩ := bind_eq_ok success
      obtain ⟨flashblocks, headers⟩ := recordRun_frame first
      rw [← flashblocks, ← headers]
      exact ih success

theorem recordRuns_holds {entries : List Entry} (holds : Holds tally.builder entries)
    (success : recordRuns context index runs tally = .ok final)
    (clean : final.builder.deferredError = none) :
    ∃ added, Chronicle context index tally.gasUsed tally.nextLogIndex runs added ∧
      Holds final.builder (entries ++ added) := by
  induction runs generalizing index tally entries with
  | nil =>
      cases success
      exact ⟨[], .nil, by simpa using holds⟩
  | cons run rest ih =>
      obtain ⟨next, first, success⟩ := bind_eq_ok success
      have nextClean := recordRuns_clean success clean
      obtain ⟨produced, found, grows, nextHolds, nextGas, nextIndex⟩ :=
        recordRun_holds holds first nextClean
      obtain ⟨added, later, finalHolds⟩ := ih nextHolds success
      rw [nextGas, nextIndex] at later
      exact ⟨_ :: added, .cons found grows later, by simpa using finalHolds⟩

end Runs

/-! ## Moving the database over the runs of one block -/

def knownState (prev : Option PendingBlocks) (hash : B256) : Option EvmState :=
  prev.bind fun pending => pending.getTransactionState hash

def knownSender (prev : Option PendingBlocks) (hash : B256) : Option Address :=
  prev.bind fun pending => pending.getTransactionSender hash

/-- What one transaction does to the database: nothing when the previous snapshot
knows its state, and otherwise what its execution commits. -/
inductive Moves (prev : Option PendingBlocks) (context : BlockContext processor)
    (run : TransactionRun) (db : processor.evm.Db) : processor.evm.Db → Prop
  | reused (known : knownState prev run.hash = some run.state) : Moves prev context run db db
  | executed {success : Bool} (unknown : knownState prev run.hash = none)
      (ran : processor.evm.transact context.env (processor.evm.view db) run.transaction
        run.sender = .ok { success := success, state := run.state })
      (agrees : ∀ receipt, context.receiptByHash.lookup run.hash = some receipt →
        success = receipt.success) :
      Moves prev context run db (processor.evm.commit db run.state)

def Advances (prev : Option PendingBlocks) (context : BlockContext processor) :
    List TransactionRun → processor.evm.Db → processor.evm.Db → Prop
  | [], db, final => final = db
  | run :: rest, db, final =>
      ∃ next, Moves prev context run db next ∧ Advances prev context rest next final

theorem advances_append {prev : Option PendingBlocks} {context : BlockContext processor}
    {runs others : List TransactionRun} {db final : processor.evm.Db} :
    Advances prev context (runs ++ others) db final ↔
      ∃ middle, Advances prev context runs db middle ∧
        Advances prev context others middle final := by
  induction runs generalizing db with
  | nil => simp [Advances]
  | cons run rest ih =>
      simp only [List.cons_append, Advances, ih]
      constructor
      · rintro ⟨next, moves, middle, first, second⟩
        exact ⟨middle, ⟨next, moves, first⟩, second⟩
      · rintro ⟨middle, ⟨next, moves, first⟩, second⟩
        exact ⟨next, moves, middle, first, second⟩

section Loop

variable {prev : Option PendingBlocks} {context : BlockContext processor}

theorem buildTransaction_ok {index : Nat} {transaction : TransactionSigned} {sender : Address}
    {state next : LoopState processor}
    (success : buildTransaction prev context index transaction sender state = .ok next) :
    ∃ changes, recordRun context index ⟨transaction, sender, changes⟩ state.tally =
        .ok next.tally ∧
      Moves prev context ⟨transaction, sender, changes⟩ state.db next.db := by
  obtain ⟨⟨receipt, tally⟩, recordRan, success⟩ := bind_eq_ok success
  obtain ⟨found, -⟩ := recordTransaction_ok recordRan
  simp only [executeTransaction] at success
  split at success
  · rename_i known isKnown
    cases success
    refine ⟨known, ?_, Moves.reused isKnown⟩
    rw [recordRun, recordRan]
    rfl
  · rename_i unknown
    split at success
    · cases success
    · rename_i result ran
      split at success
      · cases success
      · rename_i agree
        cases success
        refine ⟨result.state, ?_, Moves.executed unknown ran ?_⟩
        · rw [recordRun, recordRan]
          rfl
        · intro other otherFound
          rw [TransactionRun.hash, found] at otherFound
          cases otherFound
          exact not_not.mp agree

theorem buildTransaction_of {index : Nat} {run : TransactionRun} {tally after : Tally}
    {db final : processor.evm.Db} (success : recordRun context index run tally = .ok after)
    (moves : Moves prev context run db final) :
    buildTransaction prev context index run.transaction run.sender ⟨tally, db⟩ =
      .ok ⟨after, final⟩ := by
  obtain ⟨⟨receipt, middle⟩, recordRan, success⟩ := bind_eq_ok success
  cases success
  obtain ⟨found, -⟩ := recordTransaction_ok recordRan
  rw [buildTransaction]
  simp only [recordRan, ok_bind, executeTransaction]
  cases moves with
  | reused known =>
      have known' : (prev.bind fun pending =>
          pending.getTransactionState run.transaction.txHash) = some run.state := known
      rw [known']
      rfl
  | executed unknown ran agrees =>
      have unknown' : (prev.bind fun pending =>
          pending.getTransactionState run.transaction.txHash) = none := unknown
      rw [unknown', ran]
      simp [agrees receipt found, TransactionRun.hash]

theorem buildTransactions_ok {index : Nat} {pairs : List (TransactionSigned × Address)}
    {state final : LoopState processor}
    (success : buildTransactions prev context index pairs state = .ok final) :
    ∃ runs : List TransactionRun, runs.map (fun run => (run.transaction, run.sender)) = pairs ∧
      recordRuns context index runs state.tally = .ok final.tally ∧
      Advances prev context runs state.db final.db := by
  induction pairs generalizing index state with
  | nil =>
      cases success
      exact ⟨[], rfl, rfl, rfl⟩
  | cons pair rest ih =>
      obtain ⟨transaction, sender⟩ := pair
      obtain ⟨next, first, success⟩ := bind_eq_ok success
      obtain ⟨changes, recordRan, moves⟩ := buildTransaction_ok first
      obtain ⟨runs, same, recordRest, advances⟩ := ih success
      refine ⟨⟨transaction, sender, changes⟩ :: runs, by simp [same], ?_, next.db, moves, advances⟩
      rw [recordRuns, recordRan]
      exact recordRest

theorem buildTransactions_of {index : Nat} {runs : List TransactionRun} {tally after : Tally}
    {db final : processor.evm.Db} (success : recordRuns context index runs tally = .ok after)
    (advances : Advances prev context runs db final) :
    buildTransactions prev context index
      (runs.map fun run => (run.transaction, run.sender)) ⟨tally, db⟩ = .ok ⟨after, final⟩ := by
  induction runs generalizing index tally db with
  | nil =>
      cases success
      rw [Advances] at advances
      rw [advances]
      rfl
  | cons run rest ih =>
      obtain ⟨middle, first, success⟩ := bind_eq_ok success
      obtain ⟨next, moves, later⟩ := advances
      rw [List.map_cons, buildTransactions, buildTransaction_of first moves]
      exact ih success later

end Loop

/-! ## Senders -/

def Recovers (processor : StateProcessor) (prev : Option PendingBlocks) (run : TransactionRun) :
    Prop :=
  match knownSender prev run.hash with
  | some sender => run.sender = sender
  | none => processor.alloy.recoverSigner run.transaction = .ok run.sender

section Senders

variable {prev : Option PendingBlocks}

theorem recoverSenders_ok {transactions : List TransactionSigned} {senders : List Address}
    {runs : List TransactionRun}
    (success : processor.recoverSenders transactions (knownSender prev) = .ok senders)
    (pairs : runs.map (fun run => (run.transaction, run.sender)) = transactions.zip senders) :
    runs.map TransactionRun.transaction = transactions ∧
      ∀ run ∈ runs, Recovers processor prev run := by
  induction transactions generalizing senders runs with
  | nil =>
      have empty : runs = [] := by simpa using pairs
      subst empty
      exact ⟨rfl, by simp⟩
  | cons transaction rest ih =>
      obtain ⟨sender, others, first, later, rfl⟩ := mapM_cons_ok success
      cases runs with
      | nil => simp at pairs
      | cons run runs =>
          simp only [List.map_cons, List.zip_cons_cons, List.cons.injEq, Prod.mk.injEq] at pairs
          obtain ⟨⟨rfl, rfl⟩, pairs⟩ := pairs
          obtain ⟨same, recovers⟩ := ih later pairs
          refine ⟨by simp [same], ?_⟩
          intro other member
          rcases List.mem_cons.mp member with rfl | member
          · unfold Recovers
            cases cached : knownSender prev other.hash with
            | some sender =>
                rw [TransactionRun.hash] at cached
                rw [cached] at first
                cases first
                rfl
            | none =>
                rw [TransactionRun.hash] at cached
                rw [cached] at first
                exact mapError_eq_ok first
          · exact recovers other member

theorem recoverSenders_of {runs : List TransactionRun}
    (recovers : ∀ run ∈ runs, Recovers processor prev run) :
    processor.recoverSenders (runs.map TransactionRun.transaction) (knownSender prev) =
      .ok (runs.map TransactionRun.sender) := by
  induction runs with
  | nil => rfl
  | cons run rest ih =>
      have later := ih fun other member => recovers other (List.mem_cons_of_mem _ member)
      have head := recovers run (List.mem_cons_self ..)
      unfold StateProcessor.recoverSenders at later ⊢
      simp only [List.map_cons, List.mapM_cons, later]
      unfold Recovers at head
      cases cached : knownSender prev run.hash with
      | some sender =>
          rw [cached] at head
          rw [TransactionRun.hash] at cached
          simp only [cached, ok_bind, head]
          rfl
      | none =>
          rw [cached] at head
          rw [TransactionRun.hash] at cached
          simp only [cached, head, Except.mapError, ok_bind]
          rfl

end Senders

/-! ## One block -/

variable (processor) in
/-- One block of a build: its flashblocks, what was assembled from them, its
environment, and the runs of its transactions. -/
structure BlockRun where
  flashblocks : List FlashBlock
  base : ExecutionPayloadBaseV1
  assembled : AssembledBlock
  env : processor.evm.Env
  runs : List TransactionRun

def BlockRun.context (block : BlockRun processor) : BlockContext processor where
  block := block.assembled.block
  base := block.base
  receiptByHash := collectReceipts block.flashblocks
  env := block.env

def recordBlock (block : BlockRun processor) (builder : PendingBlocksBuilder) :
    Result PendingBlocksBuilder := do
  let tally ← recordRuns block.context 0 block.runs {
    builder := (builder.withFlashblocks block.flashblocks).withHeader block.assembled.header
    gasUsed := 0
    nextLogIndex := 0 }
  return recordBalances (collectBalances block.flashblocks) tally.builder

structure Prepared (parent : Header) (block : BlockRun processor) : Prop where
  assembled : assemble processor.alloy processor.chainSpec block.flashblocks = .ok block.assembled
  base : block.flashblocks.head?.bind (·.base) = some block.base
  env : processor.evm.nextEvmEnv parent
    (blockEnvAttributes block.base block.assembled.header.header) = .ok block.env
  transactions : block.runs.map TransactionRun.transaction = block.assembled.block.transactions

def Starts (block : BlockRun processor) (db started : processor.evm.Db) : Prop :=
  ∃ middle,
    processor.applySystemCall block.env (.blockhashes block.base.parentHash)
      (processor.evm.insertBlockHash db (block.base.blockNumber - 1) block.base.parentHash) =
        .ok middle ∧
    processor.applySystemCall block.env (.beaconRoot (some block.base.parentBeaconBlockRoot))
      middle = .ok started

structure Executed (prev : Option PendingBlocks) (block : BlockRun processor)
    (db final : processor.evm.Db) : Prop where
  senders : ∀ run ∈ block.runs, Recovers processor prev run
  moves : ∃ started, Starts block db started ∧
    Advances prev block.context block.runs started final

section Block

variable {prev : Option PendingBlocks}

theorem buildBlock_ok {flashblocks : List FlashBlock} {state next : BuildState processor}
    (success : processor.buildBlock prev flashblocks state = .ok next) :
    ∃ block : BlockRun processor, block.flashblocks = flashblocks ∧
      Prepared state.header block ∧ Executed prev block state.db next.db ∧
      recordBlock block state.builder = .ok next.builder ∧
      next.header = block.assembled.block.header := by
  unfold StateProcessor.buildBlock at success
  obtain ⟨base, baseRan, success⟩ := bind_eq_ok success
  obtain ⟨assembled, assembleRan, success⟩ := bind_eq_ok success
  obtain ⟨env, envRan, success⟩ := bind_eq_ok success
  obtain ⟨middle, firstCall, success⟩ := bind_eq_ok success
  obtain ⟨started, secondCall, success⟩ := bind_eq_ok success
  obtain ⟨senders, sendersRan, success⟩ := bind_eq_ok success
  obtain ⟨loop, loopRan, success⟩ := bind_eq_ok success
  cases success
  obtain ⟨runs, pairs, recordRan, advances⟩ := buildTransactions_ok loopRan
  obtain ⟨transactions, recovers⟩ := recoverSenders_ok sendersRan pairs
  refine ⟨⟨flashblocks, base, assembled, env, runs⟩, rfl,
    ⟨assembleRan, firstBase_eq_ok.mp baseRan, mapError_eq_ok envRan, transactions⟩,
    ⟨recovers, started, ⟨middle, firstCall, secondCall⟩, advances⟩, ?_, rfl⟩
  rw [recordBlock]
  simp only [BlockRun.context]
  rw [recordRan]
  rfl

theorem buildBlock_of {block : BlockRun processor} {parent : Header}
    {builder after : PendingBlocksBuilder} {db final : processor.evm.Db}
    (prepared : Prepared parent block) (executed : Executed prev block db final)
    (recordRan : recordBlock block builder = .ok after) :
    processor.buildBlock prev block.flashblocks ⟨builder, db, parent⟩ =
      .ok ⟨after, final, block.assembled.block.header⟩ := by
  obtain ⟨started, ⟨middle, firstCall, secondCall⟩, advances⟩ := executed.moves
  obtain ⟨tally, runsRan, recordRan⟩ := bind_eq_ok recordRan
  cases recordRan
  have senders := recoverSenders_of executed.senders
  rw [prepared.transactions] at senders
  have loopRan := buildTransactions_of runsRan advances
  have pairs : block.assembled.block.transactions.zip (block.runs.map TransactionRun.sender) =
      block.runs.map fun run => (run.transaction, run.sender) := by
    rw [← prepared.transactions, List.zip_map']
  rw [← pairs] at loopRan
  unfold StateProcessor.buildBlock
  simp only [firstBase_eq_ok.mpr prepared.base, prepared.assembled, prepared.env, ok_bind,
    Except.mapError, firstCall, secondCall]
  change (processor.recoverSenders _ (knownSender prev) >>= _) = _
  rw [senders, ok_bind]
  change (buildTransactions prev block.context 0 _ _ >>= _) = _
  rw [loopRan, ok_bind]
  rfl

end Block

end EthgasReth.Ledger

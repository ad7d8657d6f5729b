import EthgasReth.BlockNumbers
import EthgasReth.Staleness

/-!
# Subscribing, then reading

An observer that subscribes to the flashblocks and then loads the published snapshot, as
`send_raw_transaction_sync` of `rpc/eth.rs` does, is to miss nothing that is published
after its load.  The processor broadcasts a snapshot before it stores it.  An observer
that does both its steps in between gets the snapshot neither way.  A caller that waits
for a receipt has one more way to lose it: a snapshot that the receiving task drops while
the processor works on it, and that the processor stores again without a broadcast.  And its
wait is broken off before the deadline when a channel closes, or when a canonical block has
the transaction and the node cannot read its receipt.
-/

set_option autoImplicit false

namespace EthgasReth.Rpc.SubscribeThenRead

open EthgasReth.Primitives
open EthgasReth.Lib
open EthgasReth.Pending
open EthgasReth.BlockAssembler
open EthgasReth.Build
open EthgasReth.Build.StateProcessor
open EthgasReth.Processor
open EthgasReth.Ledger
open EthgasReth.BuildSpec
open EthgasReth.Snapshots
open EthgasReth.BlockNumbers
open EthgasReth.Publication
open EthgasReth.Staleness

/-! ## eth_sendRawTransactionSync -/

def getReceipt (pending : PendingBlocks) (txHash : B256) : Option TransactionReceipt :=
  pending.transactionReceipts.lookup txHash

/-- What the wait can see next.  A canonical notification comes with the receipt of the
transaction when one of its blocks has it. -/
inductive Event where
  | flashblock (pending : PendingBlocks)
  | flashblocksLagged (skipped : Nat)
  | flashblocksClosed
  | canonical (receipt : Option TransactionReceipt)
  | canonicalLagged (skipped : Nat)
  | canonicalUnreadable
  | canonicalClosed
  | deadline

def Event.snapshot : Event → Option PendingBlocks
  | .flashblock pending => some pending
  | _ => none

def Receipted (snapshot : Arc PendingBlocks) (txHash : B256) : Prop :=
  (getReceipt snapshot.value txHash).isSome

def Silent (update : StateUpdate) (snapshot : Arc PendingBlocks) : Prop :=
  match update with
  | .canonical _ => True
  | .flashblock flashblock => Repeats snapshot.value flashblock

/-- The processor works on the snapshot and may store what it makes of it without a
broadcast. -/
def Resumes (processor : StateProcessor) (shared : Shared) (snapshot : Arc PendingBlocks) : Prop :=
  match shared.round with
  | .loaded update pending => pending = some snapshot ∧ Silent update snapshot ∧
      processor.isAnchoredNear snapshot.value shared.tip = true
  | .ready update prev => prev = some snapshot ∧ Silent update snapshot
  | .built update prev _ => prev = some snapshot ∧ Silent update snapshot
  | .gated update prev _ => prev = some snapshot ∧ Silent update snapshot
  | .sent update prev _ => prev = some snapshot ∧ Silent update snapshot
  | _ => False

def Announced (shared : Shared) : Prop :=
  ∃ update prev new snapshot, shared.round = .sent update prev new ∧
    announcement update prev new = some snapshot

/-- An observer that loads the cell between a broadcast and its store subscribed before the
broadcast; and the caller of a transaction does not load it while the processor alone
holds a snapshot with its receipt, to store it in silence. -/
def attentive (processor : StateProcessor) (wanted : Nat → Option B256) : Schedule where
  receive := fun _ _ => True
  check := fun shared who =>
    (Announced shared → ∀ position, shared.observer who = .subscribed position →
      position < shared.channel.length) ∧
    ∀ txHash, wanted who = some txHash → ∀ snapshot, Resumes processor shared snapshot →
      Receipted snapshot txHash → ∃ held, shared.cell = some held ∧ Receipted held txHash

/-! ## The receipts of a snapshot -/

variable {processor : StateProcessor}

structure Recorded (processor : StateProcessor) (pending : PendingBlocks) : Prop where
  decoded : (rawTransactions pending.flashblocks).mapM processor.alloy.decode2718 =
    .ok (pending.transactions.map fun transaction => transaction.inner)
  receipts : ∀ txHash, (getReceipt pending txHash).isSome ↔
    txHash ∈ pending.transactions.map RpcTransaction.txHash

theorem returns_recorded {client : Client} {prev : Option PendingBlocks}
    {flashblocks : List FlashBlock} {run : BuildRun processor} {pending : PendingBlocks}
    (returns : Returns client prev flashblocks run pending) : Recorded processor pending := by
  have whole := (returns_assembles returns).whole
  obtain ⟨earliest, latest, last, clean, -, -, -, rfl⟩ :=
    PendingBlocksBuilder.build_ok returns.finishes
  obtain ⟨⟨perBlock, of, holds, -⟩, -, -⟩ := recordBlocks_holds holds_new returns.records clean
  have finished : Holds ((run.builder.withBundleState (processor.evm.takeBundle run.db)).withAnchor
      { header := run.anchor, hash := processor.alloy.hashSlow run.anchor }) perBlock.flatten :=
    { holds with }
  have tracks := finished.tracks earliest latest last.index
  constructor
  case decoded =>
    rw [whole, tracks.transactions, List.map_map]
    exact groups_decoded (blocks_decode returns.grouped returns.prepares of)
  case receipts =>
    intro txHash
    rw [getReceipt, tracks.receipts, Option.isSome_map, tracks.transactions, List.map_map,
      ← Option.ne_none_iff_isSome, ne_eq, find_eq_none, not_not]
    rfl

theorem builds_recorded {node : Node} {prev : Option (Arc PendingBlocks)} {update : StateUpdate}
    {built : PendingBlocks} (builds : Builds processor node prev update built) :
    Recorded processor built := by
  obtain ⟨earlier, flashblocks, run, returns⟩ := builds.returns
  exact returns_recorded returns

theorem Recorded.receipted_iff {pending : PendingBlocks} (recorded : Recorded processor pending)
    (txHash : B256) : (getReceipt pending txHash).isSome ↔
      ∃ raw ∈ rawTransactions pending.flashblocks, ∃ transaction,
        processor.alloy.decode2718 raw = .ok transaction ∧ transaction.txHash = txHash := by
  rw [recorded.receipts, List.mem_map]
  constructor
  · rintro ⟨transaction, member, rfl⟩
    obtain ⟨raw, inside, decodes⟩ := mapM_mem recorded.decoded
      (List.mem_map_of_mem (f := fun transaction : RpcTransaction => transaction.inner) member)
    exact ⟨raw, inside, transaction.inner, decodes, rfl⟩
  · rintro ⟨raw, inside, transaction, decodes, rfl⟩
    obtain ⟨other, member, decodesOther⟩ := mapM_mem_of recorded.decoded inside
    rw [decodes] at decodesOther
    cases decodesOther
    obtain ⟨rpc, inTransactions, rfl⟩ := List.mem_map.mp member
    exact ⟨rpc, inTransactions, rfl⟩

/-- A canonical block adds no transaction. -/
theorem canonical_inherits {node : Node} {pending : Arc PendingBlocks} {block : Block}
    {built : PendingBlocks} (recorded : Recorded processor pending.value)
    (builds : Builds processor node (some pending) (.canonical block) built) {txHash : B256}
    (receipted : (getReceipt built txHash).isSome) :
    (getReceipt pending.value txHash).isSome := by
  have builtRecorded := builds_recorded builds
  have within : ∀ flashblock ∈ built.flashblocks, flashblock ∈ pending.value.flashblocks := by
    cases builds with
    | retained success =>
        obtain ⟨run, returns⟩ := buildPendingState_ok success
        intro flashblock member
        rw [(returns_assembles returns).whole, flashblocksPerBlock, mem_ungroup_groupEntries] at member
        exact List.mem_of_mem_filter member
    | continued _ success =>
        obtain ⟨run, returns⟩ := buildPendingState_ok success
        intro flashblock member
        rw [(returns_assembles returns).whole, flashblocksPerBlock, mem_ungroup_groupEntries] at member
        exact member
  obtain ⟨raw, inside, decoded⟩ := (builtRecorded.receipted_iff txHash).mp receipted
  refine (recorded.receipted_iff txHash).mpr ⟨raw, ?_, decoded⟩
  obtain ⟨flashblock, member, inFlashblock⟩ := List.mem_flatMap.mp inside
  exact List.mem_flatMap.mpr ⟨flashblock, within flashblock member, inFlashblock⟩

/-! ## What the processor has in hand -/

def prevOf : Round → Option (Arc PendingBlocks)
  | .loaded _ pending => pending
  | .ready _ prev => prev
  | .built _ prev _ => prev
  | .gated _ prev _ => prev
  | .sent _ prev _ => prev
  | _ => none

def makingOf : Round → Option (StateUpdate × Option (Arc PendingBlocks) × Option (Arc PendingBlocks))
  | .built update prev new => some (update, prev, new)
  | .gated update prev new => some (update, prev, new)
  | .sent update prev new => some (update, prev, new)
  | _ => none

def Makes (update : StateUpdate) (prev : Option (Arc PendingBlocks)) (new : Arc PendingBlocks) :
    Prop :=
  announcement update prev (some new) = some new ∨
    ∃ old, prev = some old ∧ Silent update old ∧
      ∀ txHash, Receipted new txHash → Receipted old txHash

structure Grounds (processor : StateProcessor) (nextAddress : Nat) (snapshot : Arc PendingBlocks) :
    Prop where
  address : snapshot.address < nextAddress
  recorded : Recorded processor snapshot.value

structure Grounded (processor : StateProcessor) (shared : Shared) : Prop where
  cell : ∀ snapshot, shared.cell = some snapshot → Grounds processor shared.nextAddress snapshot
  prev : ∀ snapshot, prevOf shared.round = some snapshot →
    Grounds processor shared.nextAddress snapshot
  made : ∀ update prev new, makingOf shared.round = some (update, prev, some new) →
    Makes update prev new ∧ Grounds processor shared.nextAddress new

theorem announcement_fresh {flashblock : FlashBlock} {prev : Option (Arc PendingBlocks)}
    {new : Arc PendingBlocks} (differs : ∀ old, prev = some old → old.address ≠ new.address) :
    announcement (.flashblock flashblock) prev (some new) = some new := by
  cases prev with
  | none => rfl
  | some old =>
      have other : old.ptrEq new = false := by simpa [Arc.ptrEq] using differs old rfl
      simp [announcement, other]

theorem canonical_found {node : Node} {prev : Option (Arc PendingBlocks)} {block : Block}
    {built : PendingBlocks} (builds : Builds processor node prev (.canonical block) built) :
    ∃ old, prev = some old := by
  cases builds with
  | @retained pending _ _ _ => exact ⟨pending, rfl⟩
  | @continued pending _ _ _ _ => exact ⟨pending, rfl⟩

theorem build_makes {shared : Shared} {node : Node} {update : StateUpdate}
    {prev : Option (Arc PendingBlocks)} {new : Arc PendingBlocks}
    (grounds : ∀ snapshot, prev = some snapshot → Grounds processor shared.nextAddress snapshot)
    (success : buildUpdate processor node shared.nextAddress prev update = some (some new)) :
    Makes update prev new ∧ Grounds processor (shared.nextAddress + 1) new := by
  rcases buildUpdate_some processor success with ⟨flashblock, rfl, isPrev, repeats⟩ |
    ⟨built, rfl, builds⟩
  · have ground := grounds new isPrev
    have used := ground.address
    refine ⟨Or.inr ⟨new, isPrev, repeats, fun _ receipted => receipted⟩, ?_, ground.recorded⟩
    omega
  · refine ⟨?_, Nat.lt_succ_self _, builds_recorded builds⟩
    cases update with
    | flashblock flashblock =>
        refine Or.inl (announcement_fresh ?_)
        intro old isOld
        have used := (grounds old isOld).address
        exact Nat.ne_of_lt used
    | canonical block =>
        obtain ⟨old, rfl⟩ := canonical_found builds
        refine Or.inr ⟨old, rfl, trivial, ?_⟩
        intro txHash receipted
        exact canonical_inherits (grounds old rfl).recorded builds receipted

theorem Grounds.later {nextAddress : Nat} {snapshot : Arc PendingBlocks}
    (grounds : Grounds processor nextAddress snapshot) :
    Grounds processor (nextAddress + 1) snapshot := by
  have used := grounds.address
  exact ⟨by omega, grounds.recorded⟩

theorem Grounded.rest {shared next : Shared} (grounded : Grounded processor shared)
    (address : next.nextAddress = shared.nextAddress)
    (cell : ∀ snapshot, next.cell = some snapshot → shared.cell = some snapshot)
    (prev : ∀ snapshot, prevOf next.round = some snapshot →
      prevOf shared.round = some snapshot ∨ shared.cell = some snapshot)
    (made : ∀ update prev new, makingOf next.round = some (update, prev, some new) →
      makingOf shared.round = some (update, prev, some new)) : Grounded processor next := by
  constructor
  case cell =>
    intro snapshot isCell
    rw [address]
    exact grounded.cell snapshot (cell snapshot isCell)
  case prev =>
    intro snapshot isPrev
    rw [address]
    rcases prev snapshot isPrev with wasPrev | wasCell
    · exact grounded.prev snapshot wasPrev
    · exact grounded.cell snapshot wasCell
  case made =>
    intro update prev new isMade
    rw [address]
    exact grounded.made update prev new (made update prev new isMade)

theorem Grounded.build {shared : Shared} {node : Node} {update : StateUpdate}
    {prev new : Option (Arc PendingBlocks)} (grounded : Grounded processor shared)
    (ready : shared.round = .ready update prev)
    (success : buildUpdate processor node shared.nextAddress prev update = some new) :
    Grounded processor { shared with
      nextAddress := shared.nextAddress + 1
      round := .built update prev new } := by
  have grounds : ∀ snapshot, prev = some snapshot →
      Grounds processor shared.nextAddress snapshot := by
    intro snapshot isPrev
    apply grounded.prev
    rw [ready]
    exact isPrev
  refine ⟨?_, ?_, ?_⟩
  · intro snapshot isCell
    exact (grounded.cell snapshot isCell).later
  · intro snapshot isPrev
    exact (grounds snapshot isPrev).later
  · intro update prev made isMade
    cases isMade
    exact build_makes grounds success

/-- An observer that has loaded the cell: what is broadcast and not stored yet is behind
its subscription, and so is all that was broadcast and stored since its load. -/
structure Follows (shared : Shared) (position before : Nat) : Prop where
  subscribed : position ≤ shared.channel.length
  checked : before ≤ shared.stores.length
  announced : Announced shared → position < shared.channel.length
  delivered : ∀ index store, before ≤ index → shared.stores[index]? = some store →
    store.announced = true → store.snapshot ∈ shared.channel.drop position

def Gets (shared : Shared) (position : Nat) (loaded : Option (Arc PendingBlocks)) (txHash : B256) :
    Prop :=
  ∃ snapshot, (loaded = some snapshot ∨ snapshot ∈ shared.channel.drop position) ∧
    Receipted snapshot txHash

/-- The snapshots that a caller has to know of: the one in the cell, the one that may come
back into it, and those that were stored since the load. -/
def AtHand (processor : StateProcessor) (shared : Shared) (before : Nat)
    (snapshot : Arc PendingBlocks) : Prop :=
  shared.cell = some snapshot ∨ Resumes processor shared snapshot ∨
    ∃ index store, before ≤ index ∧ shared.stores[index]? = some store ∧ store.snapshot = snapshot

structure Followed (processor : StateProcessor) (wanted : Nat → Option B256) (shared : Shared) :
    Prop where
  broadcast : ∀ update prev new snapshot, shared.round = .sent update prev new →
    announcement update prev new = some snapshot →
    ∃ earlier, shared.channel = earlier ++ [snapshot]
  behind : ∀ who position, shared.observer who = .subscribed position →
    position ≤ shared.channel.length
  follows : ∀ who position loaded before, shared.observer who = .checked position loaded before →
    Follows shared position before
  gets : ∀ who txHash position loaded before, wanted who = some txHash →
    shared.observer who = .checked position loaded before →
    ∀ snapshot, AtHand processor shared before snapshot → Receipted snapshot txHash →
      Gets shared position loaded txHash

variable {wanted : Nat → Option B256}

theorem Followed.rest {shared next : Shared} (followed : Followed processor wanted shared)
    (observer : next.observer = shared.observer) (channel : next.channel = shared.channel)
    (stores : next.stores = shared.stores)
    (cell : ∀ snapshot, next.cell = some snapshot → shared.cell = some snapshot)
    (sent : ∀ update prev new, next.round = .sent update prev new →
      shared.round = .sent update prev new)
    (resumes : ∀ snapshot, Resumes processor next snapshot →
      Resumes processor shared snapshot ∨ shared.cell = some snapshot) :
    Followed processor wanted next := by
  have wasAnnounced : Announced next → Announced shared := by
    rintro ⟨update, prev, new, snapshot, isSent, isAnnounced⟩
    exact ⟨update, prev, new, snapshot, sent update prev new isSent, isAnnounced⟩
  constructor
  case broadcast =>
    rw [channel]
    intro update prev new snapshot isSent
    exact followed.broadcast update prev new snapshot (sent update prev new isSent)
  case behind =>
    rw [observer, channel]
    exact followed.behind
  case follows =>
    intro who position loaded before isChecked
    rw [observer] at isChecked
    have follows := followed.follows who position loaded before isChecked
    constructor
    case subscribed =>
      rw [channel]
      exact follows.subscribed
    case checked =>
      rw [stores]
      exact follows.checked
    case announced =>
      rw [channel]
      exact fun isAnnounced => follows.announced (wasAnnounced isAnnounced)
    case delivered =>
      rw [channel, stores]
      exact follows.delivered
  case gets =>
    intro who txHash position loaded before wants isChecked snapshot atHand receipted
    rw [observer] at isChecked
    have wasAtHand : AtHand processor shared before snapshot := by
      rcases atHand with isCell | isResumed | isStored
      · exact Or.inl (cell snapshot isCell)
      · rcases resumes snapshot isResumed with wasResumed | wasCell
        · exact Or.inr (Or.inl wasResumed)
        · exact Or.inl wasCell
      · rw [stores] at isStored
        exact Or.inr (Or.inr isStored)
    unfold Gets
    rw [channel]
    exact followed.gets who txHash position loaded before wants isChecked snapshot wasAtHand
      receipted

theorem Followed.send {shared : Shared} {update : StateUpdate}
    {prev new : Option (Arc PendingBlocks)} (followed : Followed processor wanted shared)
    (gated : shared.round = .gated update prev new) :
    Followed processor wanted { shared with
      channel := shared.channel ++ (announcement update prev new).toList
      round := .sent update prev new } := by
  have grown : ∀ {position snapshot}, snapshot ∈ shared.channel.drop position →
      snapshot ∈ (shared.channel ++ (announcement update prev new).toList).drop position := by
    intro position snapshot member
    rw [List.drop_append]
    exact List.mem_append_left _ member
  constructor
  case broadcast =>
    rintro update prev new snapshot ⟨⟩ isAnnounced
    exact ⟨shared.channel, by simp [isAnnounced]⟩
  case behind =>
    intro who position isSubscribed
    have behind := followed.behind who position isSubscribed
    simp only [List.length_append]
    omega
  case follows =>
    intro who position loaded before isChecked
    have follows := followed.follows who position loaded before isChecked
    have subscribed := follows.subscribed
    refine ⟨?_, follows.checked, ?_, ?_⟩
    · simp only [List.length_append]
      omega
    · rintro ⟨update, prev, new, snapshot, ⟨⟩, isAnnounced⟩
      simp only [isAnnounced, Option.toList_some, List.length_append, List.length_singleton]
      omega
    · intro index store since isStored isAnnounced
      exact grown (follows.delivered index store since isStored isAnnounced)
  case gets =>
    intro who txHash position loaded before wants isChecked snapshot atHand receipted
    have wasAtHand : AtHand processor shared before snapshot := by
      rcases atHand with isCell | isResumed | isStored
      · exact Or.inl isCell
      · refine Or.inr (Or.inl ?_)
        unfold Resumes
        rw [gated]
        exact isResumed
      · exact Or.inr (Or.inr isStored)
    obtain ⟨found, isFound, foundReceipted⟩ :=
      followed.gets who txHash position loaded before wants isChecked snapshot wasAtHand receipted
    exact ⟨found, isFound.imp_right grown, foundReceipted⟩

theorem announcement_some {update : StateUpdate} {prev new : Option (Arc PendingBlocks)}
    {snapshot : Arc PendingBlocks} (isAnnounced : announcement update prev new = some snapshot) :
    new = some snapshot := by
  cases update with
  | canonical => cases isAnnounced
  | flashblock =>
      simp only [announcement] at isAnnounced
      split_ifs at isAnnounced
      exact isAnnounced

theorem stored_added {stores : List Store} {update : StateUpdate}
    {prev new : Option (Arc PendingBlocks)} {index : Nat} {store : Store}
    (isStored : (stores ++ stored update prev new)[index]? = some store) :
    stores[index]? = some store ∨
      (new = some store.snapshot ∧
        (store.announced = true → announcement update prev new = some store.snapshot)) := by
  rw [List.getElem?_append] at isStored
  split at isStored
  · exact Or.inl isStored
  · right
    cases new with
    | none => simp [stored] at isStored
    | some snapshot =>
        have member := List.mem_of_getElem? isStored
        simp only [stored, List.mem_singleton] at member
        subst member
        refine ⟨rfl, ?_⟩
        intro isAnnounced
        obtain ⟨other, isOther⟩ := Option.isSome_iff_exists.mp isAnnounced
        have same := announcement_some isOther
        cases same
        exact isOther

theorem Followed.catches {shared : Shared} (followed : Followed processor wanted shared)
    {update : StateUpdate} {prev new : Option (Arc PendingBlocks)} {snapshot : Arc PendingBlocks}
    (sent : shared.round = .sent update prev new)
    (isAnnounced : announcement update prev new = some snapshot) {who position before : Nat}
    {loaded : Option (Arc PendingBlocks)}
    (isChecked : shared.observer who = .checked position loaded before) :
    snapshot ∈ shared.channel.drop position := by
  obtain ⟨earlier, isChannel⟩ := followed.broadcast update prev new snapshot sent isAnnounced
  have within := (followed.follows who position loaded before isChecked).announced
    ⟨update, prev, new, snapshot, sent, isAnnounced⟩
  rw [isChannel] at within ⊢
  simp only [List.length_append, List.length_singleton] at within
  rw [List.drop_append_of_le_length (by omega)]
  simp

theorem Followed.swap {shared : Shared} {update : StateUpdate}
    {prev new : Option (Arc PendingBlocks)} (followed : Followed processor wanted shared)
    (grounded : Grounded processor shared) (sent : shared.round = .sent update prev new) :
    Followed processor wanted { shared with
      cell := new
      stores := shared.stores ++ stored update prev new
      round := .idle } := by
  constructor
  case broadcast =>
    intro update prev new snapshot impossible
    cases impossible
  case behind => exact followed.behind
  case follows =>
    intro who position loaded before isChecked
    have follows := followed.follows who position loaded before isChecked
    have checked := follows.checked
    refine ⟨follows.subscribed, ?_, ?_, ?_⟩
    · simp only [List.length_append]
      omega
    · rintro ⟨update, prev, new, snapshot, impossible, -⟩
      cases impossible
    · intro index store since isStored isAnnounced
      rcases stored_added isStored with wasStored | ⟨-, announces⟩
      · exact follows.delivered index store since wasStored isAnnounced
      · exact followed.catches sent (announces isAnnounced) isChecked
  case gets =>
    intro who txHash position loaded before wants isChecked snapshot atHand receipted
    have gets := followed.gets who txHash position loaded before wants isChecked
    -- A snapshot that was not broadcast has no receipt that the one before it did not have.
    have newGets : new = some snapshot → Gets shared position loaded txHash := by
      intro isNew
      have making : makingOf shared.round = some (update, prev, some snapshot) := by
        rw [sent, isNew]
        rfl
      rcases (grounded.made update prev snapshot making).1 with isAnnounced |
        ⟨old, isOld, silent, inherits⟩
      · have isAnnounced : announcement update prev new = some snapshot := by
          rw [isNew]
          exact isAnnounced
        exact ⟨snapshot, Or.inr (followed.catches sent isAnnounced isChecked), receipted⟩
      · refine gets old (Or.inr (Or.inl ?_)) (inherits txHash receipted)
        unfold Resumes
        rw [sent]
        exact ⟨isOld, silent⟩
    rcases atHand with isNew | impossible | ⟨index, store, since, isStored, isSnapshot⟩
    · exact newGets isNew
    · exact impossible.elim
    · rcases stored_added isStored with wasStored | ⟨isNew, -⟩
      · exact gets snapshot (Or.inr (Or.inr ⟨index, store, since, wasStored, isSnapshot⟩)) receipted
      · rw [isSnapshot] at isNew
        exact newGets isNew

theorem Followed.check {shared : Shared} {who position : Nat}
    (followed : Followed processor wanted shared)
    (subscribed : shared.observer who = .subscribed position)
    (allowed : (attentive processor wanted).check shared who) :
    Followed processor wanted { shared with
      observer := Function.update shared.observer who
        (.checked position shared.cell shared.stores.length) } := by
  obtain ⟨inTime, known⟩ := allowed
  have unstored : ∀ {index : Nat} {store : Store}, shared.stores.length ≤ index →
      shared.stores[index]? ≠ some store := by
    intro index store since
    simp [List.getElem?_eq_none since]
  constructor
  case broadcast => exact followed.broadcast
  case behind =>
    intro other place isSubscribed
    by_cases same : other = who
    · subst same
      simp at isSubscribed
    · simp only [Function.update_of_ne same] at isSubscribed
      exact followed.behind other place isSubscribed
  case follows =>
    intro other place loaded before isChecked
    by_cases same : other = who
    · subst same
      simp only [Function.update_self, Observer.checked.injEq] at isChecked
      obtain ⟨rfl, rfl, rfl⟩ := isChecked
      refine ⟨followed.behind other position subscribed, Nat.le_refl _, ?_, ?_⟩
      · intro isAnnounced
        exact inTime isAnnounced position subscribed
      · intro index store since isStored
        exact absurd isStored (unstored since)
    · simp only [Function.update_of_ne same] at isChecked
      have follows := followed.follows other place loaded before isChecked
      exact ⟨follows.subscribed, follows.checked, follows.announced, follows.delivered⟩
  case gets =>
    intro other txHash place loaded before wants isChecked snapshot atHand receipted
    by_cases same : other = who
    · subst same
      simp only [Function.update_self, Observer.checked.injEq] at isChecked
      obtain ⟨rfl, rfl, rfl⟩ := isChecked
      rcases atHand with isCell | isResumed | ⟨index, store, since, isStored, -⟩
      · exact ⟨snapshot, Or.inl isCell, receipted⟩
      · obtain ⟨held, isHeld, heldReceipted⟩ := known txHash wants snapshot isResumed receipted
        exact ⟨held, Or.inl isHeld, heldReceipted⟩
      · exact absurd isStored (unstored since)
    · simp only [Function.update_of_ne same] at isChecked
      exact followed.gets other txHash place loaded before wants isChecked snapshot atHand receipted

theorem Followed.subscribe {shared : Shared} {who : Nat}
    (followed : Followed processor wanted shared) :
    Followed processor wanted { shared with
      observer := Function.update shared.observer who (.subscribed shared.channel.length) } := by
  have wasChecked : ∀ {other position loaded before},
      Function.update shared.observer who (.subscribed shared.channel.length) other =
        .checked position loaded before →
      shared.observer other = .checked position loaded before := by
    intro other position loaded before isChecked
    by_cases same : other = who
    · subst same
      simp at isChecked
    · rw [Function.update_of_ne same] at isChecked
      exact isChecked
  constructor
  case broadcast => exact followed.broadcast
  case behind =>
    intro other position isSubscribed
    by_cases same : other = who
    · subst same
      simp only [Function.update_self, Observer.subscribed.injEq] at isSubscribed
      exact Nat.le_of_eq isSubscribed.symm
    · simp only [Function.update_of_ne same] at isSubscribed
      exact followed.behind other position isSubscribed
  case follows =>
    intro other position loaded before isChecked
    have follows := followed.follows other position loaded before (wasChecked isChecked)
    exact ⟨follows.subscribed, follows.checked, follows.announced, follows.delivered⟩
  case gets =>
    intro other txHash position loaded before wants isChecked
    exact followed.gets other txHash position loaded before wants (wasChecked isChecked)

/-- A snapshot that is near to the tip was near to every tip before it. -/
theorem Resumes.earlier {shared : Shared} {tip : Nat} {snapshot : Arc PendingBlocks}
    (higher : shared.tip ≤ tip)
    (isResumed : Resumes processor { shared with tip := tip } snapshot) :
    Resumes processor shared snapshot := by
  unfold Resumes at isResumed ⊢
  cases isRound : shared.round with
  | loaded update pending =>
      simp only [isRound] at isResumed
      obtain ⟨isPending, silent, near⟩ := isResumed
      exact ⟨isPending, silent, near_iff.mpr ((near_iff.mp near).below higher)⟩
  | idle | clearing => simp only [isRound] at isResumed
  | ready | built | gated | sent => simpa only [isRound] using isResumed

end EthgasReth.Rpc.SubscribeThenRead

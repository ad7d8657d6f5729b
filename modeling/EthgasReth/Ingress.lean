import EthgasReth.BlockNumbers
import EthgasReth.Lib.System
import EthgasReth.Publication
import EthgasReth.Wire

/-!
# From the wire to the published cell

`state.rs` and the loop of `processor.rs` as tasks that run at once.  The subscriber's task
is in `on_flashblock_received`, the canonical stream's in `on_canonical_block_received`, and
the processor takes updates from the queue and replays what it had cached.  They share the
queue, the last notified height, the fee cell and the published cell.  The chain, the sync
flag and the clock move between any two steps.

Every access to what is shared is a step of its own, but for two.  The loop takes an update
from the queue, or the next replay, in the step that loads the cell: the others only append to
the queue, behind the update it takes.  And the heights that `is_superseded` looks at are read
in the step that also builds, or fails to, so the whole build is from one reading of the chain.
-/

set_option autoImplicit false

namespace EthgasReth.Ingress

open EthgasReth.Primitives
open EthgasReth.Lib
open EthgasReth.Pending
open EthgasReth.Build
open EthgasReth.Cache
open EthgasReth.Processor
open EthgasReth.Run
open EthgasReth.BuildSpec
open EthgasReth.Snapshots
open EthgasReth.BlockNumbers
open EthgasReth.Publication
open EthgasReth.Wire

/-! ## The shared state -/

/-- Instants and durations are nanoseconds. -/
structure ReceivedInclusionFee where
  inclusionFee : InclusionFee
  blockNumber : Nat
  flashblockIndex : Nat
  receivedAt : Nat
  deriving DecidableEq

/-- Where the subscriber's task stands in `on_flashblock_received`. -/
inductive Receiving where
  | waiting
  | received (flashblock : WireFlashBlock)
  | synced (flashblock : WireFlashBlock)
  | fresh (flashblock : WireFlashBlock)
  | priced (flashblock : WireFlashBlock)

/-- Where the canonical stream's task stands in `on_canonical_block_received`. -/
inductive Notifying where
  | waiting
  | notified (block : Block)
  | loaded (block : Block) (published : Option (Arc PendingBlocks))
  | judged (block : Block) (stale : Arc PendingBlocks)
  | dropped (block : Block)

/-- `FlashblocksState` and the processor's own state.  `replays` are the drained flashblocks
that the processor has still to apply. -/
structure FlashblocksState where
  pendingBlocks : Option (Arc PendingBlocks)
  flashblockSender : List (Arc PendingBlocks)
  queue : List StateUpdate
  lastCanonicalBlock : Nat
  inclusionFee : Option ReceivedInclusionFee
  syncState : Option Bool
  cache : FlashblockCache
  replays : List FlashBlock
  nextAddress : Nat
  round : Round
  subscriber : Receiving
  stream : Notifying
  client : Client
  now : Nat

namespace FlashblocksState

variable (state : FlashblocksState)

/-- Not syncing until a sync state is bound. -/
def isSyncing : Bool :=
  match state.syncState with
  | none => false
  | some syncing => syncing

def node : Node where
  client := state.client
  lastCanonicalBlock := state.lastCanonicalBlock

def receivedFee (flashblock : WireFlashBlock) : Option ReceivedInclusionFee :=
  flashblock.inclusionFee.map fun inclusionFee => {
    inclusionFee := inclusionFee
    blockNumber := flashblock.metadata.blockNumber
    flashblockIndex := flashblock.index
    receivedAt := state.now }

def new (client : Client) (now : Nat) : FlashblocksState where
  pendingBlocks := none
  flashblockSender := []
  queue := []
  lastCanonicalBlock := 0
  inclusionFee := none
  syncState := none
  cache := (StateProcessor.initial client).cache
  replays := []
  nextAddress := 0
  round := .idle
  subscriber := .waiting
  stream := .waiting
  client := client
  now := now

end FlashblocksState

open FlashblocksState

/-! ## Steps -/

inductive SubscriberStep : FlashblocksState → FlashblocksState → Prop
  | receive {state : FlashblocksState} (flashblock : WireFlashBlock)
      (waiting : state.subscriber = .waiting) :
      SubscriberStep state { state with subscriber := .received flashblock }
  | syncing {state : FlashblocksState} {flashblock : WireFlashBlock}
      (received : state.subscriber = .received flashblock) (gate : state.isSyncing = true) :
      SubscriberStep state { state with subscriber := .waiting }
  | synced {state : FlashblocksState} {flashblock : WireFlashBlock}
      (received : state.subscriber = .received flashblock) (gate : state.isSyncing = false) :
      SubscriberStep state { state with subscriber := .synced flashblock }
  | superseded {state : FlashblocksState} {flashblock : WireFlashBlock}
      (synced : state.subscriber = .synced flashblock)
      (gate : flashblock.metadata.blockNumber ≤ state.lastCanonicalBlock) :
      SubscriberStep state { state with subscriber := .waiting }
  | fresh {state : FlashblocksState} {flashblock : WireFlashBlock}
      (synced : state.subscriber = .synced flashblock)
      (gate : state.lastCanonicalBlock < flashblock.metadata.blockNumber) :
      SubscriberStep state { state with subscriber := .fresh flashblock }
  | store {state : FlashblocksState} {flashblock : WireFlashBlock}
      (fresh : state.subscriber = .fresh flashblock) :
      SubscriberStep state { state with
        inclusionFee := state.receivedFee flashblock
        subscriber := .priced flashblock }
  | send {state : FlashblocksState} {flashblock : WireFlashBlock}
      (priced : state.subscriber = .priced flashblock) :
      SubscriberStep state { state with
        queue := state.queue ++ [.flashblock flashblock.toFlashBlock]
        subscriber := .waiting }

variable (processor : StateProcessor)

/-- A step of `on_canonical_block_received`, with `drop_pending_behind` in it. -/
inductive StreamStep : FlashblocksState → FlashblocksState → Prop
  | notify {state : FlashblocksState} (block : Block) (waiting : state.stream = .waiting) :
      StreamStep state { state with
        lastCanonicalBlock := block.number
        stream := .notified block }
  | load {state : FlashblocksState} {block : Block} (notified : state.stream = .notified block) :
      StreamStep state { state with stream := .loaded block state.pendingBlocks }
  | accept {state : FlashblocksState} {block : Block} {published : Option (Arc PendingBlocks)}
      (loaded : state.stream = .loaded block published)
      (near : ∀ snapshot, published = some snapshot →
        processor.isAnchoredNear snapshot.value block.number = true) :
      StreamStep state { state with stream := .dropped block }
  | condemn {state : FlashblocksState} {block : Block} {stale : Arc PendingBlocks}
      (loaded : state.stream = .loaded block (some stale))
      (far : processor.isAnchoredNear stale.value block.number = false) :
      StreamStep state { state with stream := .judged block stale }
  | compareAndSwap {state : FlashblocksState} {block : Block} {stale : Arc PendingBlocks}
      (judged : state.stream = .judged block stale) :
      StreamStep state { state with
        pendingBlocks := if state.pendingBlocks.any stale.ptrEq then none else state.pendingBlocks
        stream := .dropped block }
  | send {state : FlashblocksState} {block : Block} (dropped : state.stream = .dropped block) :
      StreamStep state { state with
        queue := state.queue ++ [.canonical block]
        stream := .waiting }

/-- What a flashblock that failed to apply leaves in the cache. -/
def cacheFailed (failure : StateProcessorError) (flashblock : FlashBlock)
    (cache : FlashblockCache) : FlashblockCache :=
  match failure with
  | .provider (.missingCanonicalHeader _) => (cache.insert flashblock).2
  | .missingFirstFlashblock =>
      if 0 < flashblock.index ∧
          cache.hasFlashblock flashblock.metadata.blockNumber (flashblock.index - 1) then
        (cache.insert flashblock).2
      else cache
  | _ => cache

/-- A step of the processor's loop.  The cache is its own, so it changes together with the
step that ends an update. -/
inductive LoopStep : FlashblocksState → FlashblocksState → Prop
  | recv {state : FlashblocksState} {update : StateUpdate} {rest : List StateUpdate}
      (idle : state.round = .idle) (replayed : state.replays = [])
      (head : state.queue = update :: rest) :
      LoopStep state { state with
        queue := rest
        round := .loaded update state.pendingBlocks }
  | replay {state : FlashblocksState} {flashblock : FlashBlock} {rest : List FlashBlock}
      (idle : state.round = .idle) (head : state.replays = flashblock :: rest) :
      LoopStep state { state with
        replays := rest
        round := .loaded (.flashblock flashblock) state.pendingBlocks }
  | keep {state : FlashblocksState} {update : StateUpdate} {pending : Option (Arc PendingBlocks)}
      (loaded : state.round = .loaded update pending)
      (near : ∀ snapshot best, pending = some snapshot → state.node.canonicalTip = some best →
        processor.isAnchoredNear snapshot.value best = true) :
      LoopStep state { state with round := .ready update pending }
  | strand {state : FlashblocksState} {update : StateUpdate} {snapshot : Arc PendingBlocks}
      {best : Nat} (loaded : state.round = .loaded update (some snapshot))
      (tip : state.node.canonicalTip = some best)
      (far : processor.isAnchoredNear snapshot.value best = false) :
      LoopStep state { state with round := .clearing update }
  | clear {state : FlashblocksState} {update : StateUpdate}
      (clearing : state.round = .clearing update) :
      LoopStep state { state with pendingBlocks := none, round := .ready update none }
  | superseded {state : FlashblocksState} {flashblock : FlashBlock}
      {prev : Option (Arc PendingBlocks)}
      (ready : state.round = .ready (.flashblock flashblock) prev)
      (gate : state.node.isSuperseded flashblock = true) :
      LoopStep state { state with round := .idle }
  | failed {state : FlashblocksState} {flashblock : FlashBlock} {failure : StateProcessorError}
      {prev : Option (Arc PendingBlocks)}
      (ready : state.round = .ready (.flashblock flashblock) prev)
      (gate : state.node.isSuperseded flashblock = false)
      (failing : processor.processFlashblock state.node state.nextAddress prev flashblock =
        .error failure) :
      LoopStep state { state with
        cache := cacheFailed failure flashblock state.cache
        round := .idle }
  | unreconciled {state : FlashblocksState} {block : Block} {failure : StateProcessorError}
      {prev : Option (Arc PendingBlocks)} (ready : state.round = .ready (.canonical block) prev)
      (failing : processor.processCanonicalBlock state.node state.nextAddress prev block =
        .error failure) :
      LoopStep state { state with round := .idle }
  | build {state : FlashblocksState} {update : StateUpdate}
      {prev new : Option (Arc PendingBlocks)} (ready : state.round = .ready update prev)
      (success : buildUpdate processor state.node state.nextAddress prev update = some new) :
      LoopStep state { state with
        nextAddress := state.nextAddress + 1
        round := .built update prev new }
  | gate {state : FlashblocksState} {update : StateUpdate} {prev new : Option (Arc PendingBlocks)}
      (built : state.round = .built update prev new) :
      LoopStep state { state with
        round := .gated update prev (processor.publishable state.node new) }
  | send {state : FlashblocksState} {update : StateUpdate} {prev new : Option (Arc PendingBlocks)}
      (gated : state.round = .gated update prev new) :
      LoopStep state { state with
        flashblockSender := state.flashblockSender ++ (announcement update prev new).toList
        round := .sent update prev new }
  | swapFlashblock {state : FlashblocksState} {flashblock : FlashBlock}
      {prev new : Option (Arc PendingBlocks)}
      (sent : state.round = .sent (.flashblock flashblock) prev new) :
      LoopStep state { state with pendingBlocks := new, round := .idle }
  | swapCanonical {state : FlashblocksState} {block : Block}
      {prev new : Option (Arc PendingBlocks)}
      (sent : state.round = .sent (.canonical block) prev new) :
      LoopStep state { state with
        pendingBlocks := new
        cache := ((state.cache.updateCanonical block.number).drain (block.number + 1)).2
        replays := ((state.cache.updateCanonical block.number).drain (block.number + 1)).1
        round := .idle }

inductive WorldStep : FlashblocksState → FlashblocksState → Prop
  | bind {state : FlashblocksState} (syncing : Bool) (unbound : state.syncState = none) :
      WorldStep state { state with syncState := some syncing }
  | sync {state : FlashblocksState} {before : Bool} (syncing : Bool)
      (bound : state.syncState = some before) :
      WorldStep state { state with syncState := some syncing }
  | chain {state : FlashblocksState} (client : Client) :
      WorldStep state { state with client := client }
  | tick {state : FlashblocksState} {now : Nat} (later : state.now ≤ now) :
      WorldStep state { state with now := now }

inductive Step : FlashblocksState → FlashblocksState → Prop
  | subscriber {state next : FlashblocksState} (taken : SubscriberStep state next) :
      Step state next
  | stream {state next : FlashblocksState} (taken : StreamStep processor state next) :
      Step state next
  | loop {state next : FlashblocksState} (taken : LoopStep processor state next) : Step state next
  | world {state next : FlashblocksState} (taken : WorldStep state next) : Step state next

def tasks : System FlashblocksState where
  Init := fun state => ∃ client now, state = FlashblocksState.new client now
  Step := Step processor

/-! ## Where a flashblock comes from -/

def updateOf : Round → Option StateUpdate
  | .idle => none
  | .loaded update _ | .clearing update | .ready update _ | .built update _ _
  | .gated update _ _ | .sent update _ _ => some update

def snapshotsOf : Round → List (Arc PendingBlocks)
  | .idle | .clearing _ => []
  | .loaded _ pending | .ready _ pending => pending.toList
  | .built _ prev new | .gated _ prev new | .sent _ prev new => prev.toList ++ new.toList

/-- Every snapshot that is published, was broadcast, or is being worked on. -/
def FlashblocksState.snapshots (state : FlashblocksState) : List (Arc PendingBlocks) :=
  state.pendingBlocks.toList ++ state.flashblockSender ++ snapshotsOf state.round

/-- Every flashblock in a place satisfies that place's predicate. -/
structure Carries (passed : WireFlashBlock → Prop) (arrived admitted : FlashBlock → Prop)
    (state : FlashblocksState) : Prop where
  synced : ∀ flashblock, state.subscriber = .synced flashblock → passed flashblock
  fresh : ∀ flashblock, state.subscriber = .fresh flashblock ∨
    state.subscriber = .priced flashblock → arrived flashblock.toFlashBlock
  queued : ∀ flashblock, StateUpdate.flashblock flashblock ∈ state.queue → arrived flashblock
  replayed : ∀ flashblock ∈ state.replays, arrived flashblock
  cached : state.cache.Stores fun _ _ flashblock => arrived flashblock
  worked : ∀ flashblock, updateOf state.round = some (.flashblock flashblock) → arrived flashblock
  snapshots : ∀ snapshot ∈ state.snapshots, ∀ flashblock ∈ snapshot.value.flashblocks,
    admitted flashblock

section Carries

variable {passed passed' : WireFlashBlock → Prop} {arrived arrived' admitted admitted' : FlashBlock → Prop}
  {state next : FlashblocksState} {processor}

theorem Carries.imp (carries : Carries passed arrived admitted state)
    (ofPassed : ∀ flashblock, passed flashblock → passed' flashblock)
    (ofArrived : ∀ flashblock, arrived flashblock → arrived' flashblock)
    (ofAdmitted : ∀ flashblock, admitted flashblock → admitted' flashblock) :
    Carries passed' arrived' admitted' state where
  synced := fun flashblock at_ => ofPassed _ (carries.synced flashblock at_)
  fresh := fun flashblock at_ => ofArrived _ (carries.fresh flashblock at_)
  queued := fun flashblock member => ofArrived _ (carries.queued flashblock member)
  replayed := fun flashblock member => ofArrived _ (carries.replayed flashblock member)
  cached := fun number index flashblock found =>
    ofArrived _ (carries.cached number index flashblock found)
  worked := fun flashblock at_ => ofArrived _ (carries.worked flashblock at_)
  snapshots := fun snapshot member flashblock inside =>
    ofAdmitted _ (carries.snapshots snapshot member flashblock inside)

theorem Carries.subscriber (carries : Carries passed arrived admitted state)
    (taken : SubscriberStep state next)
    (gated : ∀ flashblock, state.subscriber = .received flashblock → state.isSyncing = false →
      passed flashblock)
    (accepted : ∀ flashblock, state.subscriber = .synced flashblock →
      state.lastCanonicalBlock < flashblock.metadata.blockNumber →
      arrived flashblock.toFlashBlock) :
    Carries passed arrived admitted next := by
  cases taken with
  | receive flashblock waiting => exact { carries with synced := by simp, fresh := by simp }
  | syncing received gate => exact { carries with synced := by simp, fresh := by simp }
  | synced received gate =>
      refine { carries with synced := ?_, fresh := by simp }
      intro flashblock isSame
      cases isSame
      exact gated _ received gate
  | superseded synced gate => exact { carries with synced := by simp, fresh := by simp }
  | fresh synced gate =>
      refine { carries with synced := by simp, fresh := ?_ }
      intro flashblock isSame
      rcases isSame with isSame | isSame
      · cases isSame
        exact accepted _ synced gate
      · cases isSame
  | store fresh =>
      refine { carries with synced := by simp, fresh := ?_ }
      intro flashblock isSame
      rcases isSame with isSame | isSame
      · cases isSame
      · cases isSame
        exact carries.fresh _ (Or.inl fresh)
  | send priced =>
      refine { carries with synced := by simp, fresh := by simp, queued := ?_ }
      intro flashblock member
      rcases List.mem_append.mp member with member | member
      · exact carries.queued flashblock member
      · cases List.mem_singleton.mp member
        exact carries.fresh _ (Or.inr priced)

theorem stream_snapshots (taken : StreamStep processor state next) :
    next.nextAddress = state.nextAddress ∧
      ∀ snapshot ∈ next.snapshots, snapshot ∈ state.snapshots := by
  cases taken with
  | compareAndSwap judged =>
      refine ⟨rfl, ?_⟩
      intro snapshot member
      simp only [FlashblocksState.snapshots, List.mem_append] at member ⊢
      rcases member with (member | member) | member
      · split at member
        · simp at member
        · exact Or.inl (Or.inl member)
      · exact Or.inl (Or.inr member)
      · exact Or.inr member
  | notify | load | accept | condemn | send => exact ⟨rfl, fun _ member => member⟩

theorem Carries.stream (carries : Carries passed arrived admitted state)
    (taken : StreamStep processor state next) : Carries passed arrived admitted next := by
  have held := (stream_snapshots taken).2
  cases taken with
  | notify => exact { carries with }
  | load => exact { carries with }
  | accept => exact { carries with }
  | condemn => exact { carries with }
  | compareAndSwap =>
      exact { carries with
        snapshots := fun snapshot member => carries.snapshots snapshot (held snapshot member) }
  | send =>
      refine { carries with queued := ?_ }
      intro flashblock member
      rcases List.mem_append.mp member with member | member
      · exact carries.queued flashblock member
      · cases List.mem_singleton.mp member

theorem build_members {client : Client} {prev : Option PendingBlocks}
    {flashblocks : List FlashBlock} {built : PendingBlocks}
    (success : processor.buildPendingState client prev flashblocks = .ok (some built))
    {flashblock : FlashBlock} (member : flashblock ∈ built.flashblocks) :
    flashblock ∈ flashblocks := by
  obtain ⟨run, returns⟩ := buildPendingState_ok success
  rw [(returns_assembles returns).whole] at member
  obtain ⟨group, inGroups, inGroup⟩ := List.mem_flatMap.mp member
  exact mem_of_mem_group inGroups inGroup

theorem builds_members {node : Node} {prev : Option (Arc PendingBlocks)} {update : StateUpdate}
    {built : PendingBlocks} (builds : Builds processor node prev update built)
    {flashblock : FlashBlock} (member : flashblock ∈ built.flashblocks) :
    update = .flashblock flashblock ∨
      ∃ pending, prev = some pending ∧ flashblock ∈ pending.value.flashblocks := by
  cases builds with
  | fresh _ _ success =>
      have inside := build_members success member
      rw [List.mem_singleton.mp inside]
      exact Or.inl rfl
  | @appended pending _ _ _ success =>
      have inside := build_members success member
      rcases List.mem_append.mp inside with inside | inside
      · exact Or.inr ⟨pending, rfl, inside⟩
      · rw [List.mem_singleton.mp inside]
        exact Or.inl rfl
  | @retained pending _ _ success =>
      have inside := build_members success member
      exact Or.inr ⟨pending, rfl, List.mem_of_mem_filter inside⟩
  | @continued pending _ _ _ success =>
      exact Or.inr ⟨pending, rfl, build_members success member⟩

theorem stores_cacheFailed {failure : StateProcessorError} {flashblock : FlashBlock}
    {cache : FlashblockCache} (stores : cache.Stores fun _ _ cached => arrived cached)
    (holds : arrived flashblock) :
    (cacheFailed failure flashblock cache).Stores fun _ _ cached => arrived cached := by
  unfold cacheFailed
  split
  · exact stores.insert holds
  · split
    · exact stores.insert holds
    · exact stores
  · exact stores

/-- A step of the loop has no new snapshot but the one that it builds, at the next address. -/
theorem loop_snapshots (taken : LoopStep processor state next) :
    state.nextAddress ≤ next.nextAddress ∧ ∀ snapshot ∈ next.snapshots,
      snapshot ∈ state.snapshots ∨ ∃ update prev built, state.round = .ready update prev ∧
        buildUpdate processor state.node state.nextAddress prev update = some (some snapshot) ∧
        Builds processor state.node prev update built ∧
        snapshot = ⟨state.nextAddress, built⟩ ∧ next.nextAddress = state.nextAddress + 1 := by
  cases taken with
  | recv idle | replay idle =>
      refine ⟨Nat.le_refl _, fun snapshot member => Or.inl ?_⟩
      simp only [FlashblocksState.snapshots, snapshotsOf, idle, List.mem_append] at member ⊢
      tauto
  | keep loaded | strand loaded =>
      refine ⟨Nat.le_refl _, fun snapshot member => Or.inl ?_⟩
      simp only [FlashblocksState.snapshots, snapshotsOf, loaded, List.mem_append] at member ⊢
      tauto
  | clear clearing =>
      refine ⟨Nat.le_refl _, fun snapshot member => Or.inl ?_⟩
      simp only [FlashblocksState.snapshots, snapshotsOf, Option.toList_none, List.nil_append,
        List.append_nil] at member
      simp only [FlashblocksState.snapshots, List.mem_append]
      exact Or.inl (Or.inr member)
  | superseded ready | failed ready | unreconciled ready =>
      refine ⟨Nat.le_refl _, fun snapshot member => Or.inl ?_⟩
      simp only [FlashblocksState.snapshots, snapshotsOf, ready, List.mem_append] at member ⊢
      tauto
  | @build update prev new ready success =>
      refine ⟨Nat.le_succ _, ?_⟩
      intro snapshot member
      simp only [FlashblocksState.snapshots, snapshotsOf, List.mem_append] at member
      have ofPrev : ∀ pending, prev = some pending → pending ∈ state.snapshots := by
        intro pending isPrev
        simp [FlashblocksState.snapshots, snapshotsOf, ready, isPrev]
      rcases member with member | member | member
      · left
        simp only [FlashblocksState.snapshots, List.mem_append]
        exact Or.inl member
      · exact Or.inl (ofPrev snapshot (Option.mem_toList.mp member))
      · have isNew : new = some snapshot := Option.mem_toList.mp member
        rw [isNew] at success
        rcases buildUpdate_some processor success with ⟨other, -, isPrev, -⟩ |
          ⟨built, isBuilt, builds⟩
        · exact Or.inl (ofPrev snapshot isPrev)
        · exact Or.inr ⟨update, prev, built, ready, success, builds, isBuilt, rfl⟩
  | @gate update prev new built =>
      refine ⟨Nat.le_refl _, fun snapshot member => Or.inl ?_⟩
      simp only [FlashblocksState.snapshots, snapshotsOf, built, List.mem_append] at member ⊢
      rcases member with member | member | member
      · exact Or.inl member
      · exact Or.inr (Or.inl member)
      · have published := publishable_some (Option.mem_toList.mp member)
        exact Or.inr (Or.inr (by simp [published.1]))
  | @send update prev new gated =>
      refine ⟨Nat.le_refl _, fun snapshot member => Or.inl ?_⟩
      simp only [FlashblocksState.snapshots, snapshotsOf, gated, List.mem_append] at member ⊢
      rcases member with (member | member | member) | member
      · exact Or.inl (Or.inl member)
      · exact Or.inl (Or.inr member)
      · have announced : new = some snapshot := by
          have isAnnounced : announcement update prev new = some snapshot :=
            Option.mem_toList.mp member
          unfold announcement at isAnnounced
          grind
        exact Or.inr (Or.inr (by simp [announced]))
      · exact Or.inr member
  | swapFlashblock sent | swapCanonical sent =>
      refine ⟨Nat.le_refl _, fun snapshot member => Or.inl ?_⟩
      simp only [FlashblocksState.snapshots, snapshotsOf, sent, List.mem_append] at member ⊢
      tauto

theorem loop_works (taken : LoopStep processor state next) {flashblock : FlashBlock}
    (working : updateOf next.round = some (.flashblock flashblock)) :
    updateOf state.round = some (.flashblock flashblock) ∨
      .flashblock flashblock ∈ state.queue ∨ flashblock ∈ state.replays := by
  cases taken with
  | recv idle replayed head =>
      cases working
      exact Or.inr (Or.inl (by rw [head]; exact List.mem_cons_self))
  | replay idle head =>
      cases working
      exact Or.inr (Or.inr (by rw [head]; exact List.mem_cons_self))
  | keep before | strand before | clear before | build before | gate before | send before =>
      rw [before]
      exact Or.inl working
  | superseded | failed | unreconciled | swapFlashblock | swapCanonical => cases working

theorem Carries.loop (carries : Carries passed arrived admitted state)
    (taken : LoopStep processor state next)
    (applied : ∀ flashblock prev, state.round = .ready (.flashblock flashblock) prev →
      state.node.isSuperseded flashblock = false → arrived flashblock → admitted flashblock) :
    Carries passed arrived admitted next := by
  have worked : ∀ flashblock, updateOf next.round = some (.flashblock flashblock) →
      arrived flashblock := by
    intro flashblock working
    rcases loop_works taken working with same | queued | replayed
    · exact carries.worked flashblock same
    · exact carries.queued flashblock queued
    · exact carries.replayed flashblock replayed
  have snapshots : ∀ snapshot ∈ next.snapshots, ∀ flashblock ∈ snapshot.value.flashblocks,
      admitted flashblock := by
    intro snapshot member flashblock inside
    rcases (loop_snapshots taken).2 snapshot member with earlier |
      ⟨update, prev, built, ready, success, builds, rfl, -⟩
    · exact carries.snapshots snapshot earlier flashblock inside
    · rcases builds_members builds inside with rfl | ⟨pending, isPrev, earlier⟩
      · have fresh : state.node.isSuperseded flashblock = false := by
          by_contra superseded
          simp [buildUpdate, superseded] at success
        exact applied flashblock prev ready fresh
          (carries.worked flashblock (by rw [ready]; rfl))
      · have ofPrev : pending ∈ state.snapshots := by
          simp [FlashblocksState.snapshots, snapshotsOf, ready, isPrev]
        exact carries.snapshots pending ofPrev flashblock earlier
  cases taken with
  | recv idle replayed head =>
      refine { carries with worked := worked, snapshots := snapshots, queued := ?_ }
      intro flashblock member
      exact carries.queued flashblock (by rw [head]; exact List.mem_cons_of_mem _ member)
  | replay idle head =>
      refine { carries with worked := worked, snapshots := snapshots, replayed := ?_ }
      intro flashblock member
      exact carries.replayed flashblock (by rw [head]; exact List.mem_cons_of_mem _ member)
  | failed ready gate failing =>
      have arrives := carries.worked _ (by rw [ready]; rfl)
      exact { carries with
        worked := worked
        snapshots := snapshots
        cached := stores_cacheFailed carries.cached arrives }
  | swapCanonical sent =>
      refine { carries with
        worked := worked, snapshots := snapshots, replayed := ?_, cached := ?_ }
      · intro flashblock member
        obtain ⟨index, found⟩ := (FlashblockCache.mem_drain _ _ flashblock).mp member
        exact carries.cached.updateCanonical _ _ _ _ found
      · exact (carries.cached.updateCanonical _).drain _
  | keep | strand | clear | superseded | unreconciled | build | gate | send | swapFlashblock =>
      exact { carries with worked := worked, snapshots := snapshots }

theorem Carries.world (carries : Carries passed arrived admitted state)
    (taken : WorldStep state next) : Carries passed arrived admitted next := by
  cases taken with
  | bind => exact { carries with }
  | sync => exact { carries with }
  | chain => exact { carries with }
  | tick => exact { carries with }

end Carries

/-! ## The gates -/

/-- The flashblock was let in by the sync gate of `on_flashblock_received`. -/
def Synced (flashblock : WireFlashBlock) : FlashblocksState → Prop :=
  (tasks processor).Once fun checked =>
    checked.subscriber = .received flashblock ∧ checked.isSyncing = false

/-- Then it was above the last notified block. -/
def Accepted (flashblock : FlashBlock) : FlashblocksState → Prop :=
  (tasks processor).Once fun gated => ∃ received : WireFlashBlock,
    received.toFlashBlock = flashblock ∧ gated.subscriber = .synced received ∧
      gated.lastCanonicalBlock < flashblock.metadata.blockNumber ∧
      Synced processor received gated

/-- Then, when the processor applied it, it was above the chain's tip and what was last
notified by that time. -/
def Admitted (flashblock : FlashBlock) : FlashblocksState → Prop :=
  (tasks processor).Once fun applying => ∃ prev,
    applying.round = .ready (.flashblock flashblock) prev ∧
      applying.lastCanonicalBlock < flashblock.metadata.blockNumber ∧
      (∀ best, applying.client.bestBlockNumber = .ok best →
        best < flashblock.metadata.blockNumber) ∧
      Accepted processor flashblock applying

section Gates

variable {processor} {state : FlashblocksState}

theorem not_superseded {node : Node} {flashblock : FlashBlock}
    (fresh : node.isSuperseded flashblock = false) :
    node.lastCanonicalBlock < flashblock.metadata.blockNumber ∧
      ∀ best, node.client.bestBlockNumber = .ok best →
        best < flashblock.metadata.blockNumber := by
  have above := of_decide_eq_false fresh
  simp only [Node.effectiveCanonicalNumber, Node.canonicalTip] at above
  cases read : node.client.bestBlockNumber with
  | error message =>
      simp only [read] at above
      exact ⟨by omega, by simp⟩
  | ok best =>
      simp only [read] at above
      refine ⟨by omega, ?_⟩
      intro other isOther
      cases isOther
      omega

theorem reachable_carries (reached : (tasks processor).Reachable state) :
    Carries (Synced processor · state) (Accepted processor · state)
      (Admitted processor · state) state := by
  refine @System.Reachable.invariant _ _
    (fun state => Carries (Synced processor · state) (Accepted processor · state)
      (Admitted processor · state) state) ?_ ?_ _ reached
  · intro state initial
    obtain ⟨client, now, rfl⟩ := initial
    constructor <;> simp [FlashblocksState.new, updateOf, snapshotsOf, FlashblocksState.snapshots]
    unfold StateProcessor.initial
    cases client.bestBlockNumber <;> exact FlashblockCache.stores_new _
  · intro state next reached carries taken
    have moved : Carries (Synced processor · state) (Accepted processor · state)
        (Admitted processor · state) next := by
      cases taken with
      | subscriber taken =>
          refine carries.subscriber taken ?_ ?_
          · intro flashblock received gate
            exact .now reached ⟨received, gate⟩
          · intro flashblock synced gate
            exact .now reached ⟨flashblock, rfl, synced, gate, carries.synced flashblock synced⟩
      | stream taken => exact carries.stream taken
      | loop taken =>
          refine carries.loop taken ?_
          intro flashblock prev ready fresh accepted
          obtain ⟨notified, tip⟩ := not_superseded fresh
          exact .now reached ⟨prev, ready, notified, tip, accepted⟩
      | world taken => exact carries.world taken
    exact moved.imp (fun _ once => once.step taken) (fun _ once => once.step taken)
      (fun _ once => once.step taken)

end Gates

/-! ## An update that nothing interrupts -/

def FlashblocksState.processorState (state : FlashblocksState) : ProcessorState where
  pendingBlocks := state.pendingBlocks
  cache := state.cache
  sent := state.flashblockSender
  nextAddress := state.nextAddress

def FlashblocksState.around (state : FlashblocksState) (inner : ProcessorState)
    (replays : List FlashBlock) (round : Round) : FlashblocksState :=
  { state with
    replays := replays
    pendingBlocks := inner.pendingBlocks
    cache := inner.cache
    flashblockSender := inner.sent
    nextAddress := inner.nextAddress
    round := round }

abbrev Loops (processor : StateProcessor) : FlashblocksState → FlashblocksState → Prop :=
  Relation.ReflTransGen (LoopStep processor)

section Uninterrupted

variable {processor}

theorem loops_load (state : FlashblocksState) (inner : ProcessorState) (replays : List FlashBlock)
    (update : StateUpdate) :
    Loops processor (state.around inner replays (.loaded update inner.pendingBlocks))
      (state.around (load processor state.node inner) replays
        (.ready update (load processor state.node inner).pendingBlocks)) := by
  obtain ⟨cell, cache, sent, address⟩ := inner
  unfold load StateProcessor.loadPendingOrDropStale
  cases cell with
  | none =>
      refine .single (.keep rfl ?_)
      intro snapshot best isSnapshot
      cases isSnapshot
  | some snapshot =>
      cases tip : state.node.canonicalTip with
      | none =>
          refine .single (.keep rfl ?_)
          intro other best _ isBest
          exact absurd (tip.symm.trans isBest) (by simp)
      | some best =>
          cases near : processor.isAnchoredNear snapshot.value best with
          | true =>
              simp only [near, if_true]
              refine .single (.keep rfl ?_)
              intro other height isOther isHeight
              cases isOther
              cases tip.symm.trans isHeight
              exact near
          | false =>
              simp only [near, Bool.false_eq_true, if_false]
              exact .tail (.single (.strand rfl tip near)) (.clear rfl)

theorem loops_publish (state : FlashblocksState) (inner : ProcessorState)
    (replays : List FlashBlock) {update : StateUpdate} {prev new : Option (Arc PendingBlocks)}
    (success : buildUpdate processor state.node inner.nextAddress prev update = some new) :
    Loops processor (state.around inner replays (.ready update prev))
      (state.around { inner with
          sent := inner.sent ++
            (announcement update prev (processor.publishable state.node new)).toList
          nextAddress := inner.nextAddress + 1 } replays
        (.sent update prev (processor.publishable state.node new))) :=
  .tail (.tail (.single (.build rfl success)) (.gate rfl)) (.send rfl)

theorem loops_failed (state : FlashblocksState) (inner : ProcessorState)
    (replays : List FlashBlock) {flashblock : FlashBlock} {failure : StateProcessorError} {cache : FlashblockCache}
    (fresh : state.node.isSuperseded flashblock = false)
    (failing : processor.processFlashblock state.node inner.nextAddress inner.pendingBlocks
      flashblock = .error failure)
    (cached : cacheFailed failure flashblock inner.cache = cache) :
    Loops processor (state.around inner replays (.ready (.flashblock flashblock) inner.pendingBlocks))
      (state.around { inner with cache := cache } replays .idle) := by
  subst cached
  exact .single (.failed rfl fresh failing)

theorem loops_apply (state : FlashblocksState) (inner : ProcessorState) (replays : List FlashBlock)
    (flashblock : FlashBlock) :
    Loops processor (state.around inner replays (.ready (.flashblock flashblock) inner.pendingBlocks))
      (state.around
        (processor.applyFlashblock state.node inner.pendingBlocks flashblock inner) replays
        .idle) := by
  unfold StateProcessor.applyFlashblock
  split
  · rename_i superseded
    exact .single (.superseded rfl superseded)
  · rename_i notSuperseded
    have fresh : state.node.isSuperseded flashblock = false := by simpa using notSuperseded
    split
    · rename_i new processed
      have success : buildUpdate processor state.node inner.nextAddress inner.pendingBlocks
          (.flashblock flashblock) = some new := by
        simp [buildUpdate, fresh, processed, Except.toOption]
      refine .tail (loops_publish state inner replays success) ?_
      have swapped := @LoopStep.swapFlashblock processor (state.around { inner with
          sent := inner.sent ++ (announcement (.flashblock flashblock) inner.pendingBlocks
            (processor.publishable state.node new)).toList
          nextAddress := inner.nextAddress + 1 } replays
        (.sent (.flashblock flashblock) inner.pendingBlocks
          (processor.publishable state.node new))) flashblock inner.pendingBlocks
        (processor.publishable state.node new) rfl
      -- What the two descriptions broadcast agrees case by case.
      cases isNew : processor.publishable state.node new with
      | none =>
          cases held : inner.pendingBlocks <;>
            simpa [announcement, around, isNew, held] using swapped
      | some pending =>
          cases held : inner.pendingBlocks with
          | none => simpa [announcement, around, isNew, held] using swapped
          | some old =>
              cases same : old.ptrEq pending <;>
                simpa [announcement, around, isNew, held, same] using swapped
    · rename_i processed
      exact loops_failed state inner replays fresh processed rfl
    · rename_i processed
      split
      · rename_i follows
        exact loops_failed state inner replays fresh processed (if_pos follows)
      · rename_i other
        exact loops_failed state inner replays fresh processed (if_neg other)
    · rename_i failure notHeader notFirst processed
      refine loops_failed state inner replays fresh processed ?_
      unfold cacheFailed
      split
      · exact absurd rfl (notHeader _)
      · exact absurd rfl notFirst
      · rfl

theorem loops_replay (state : FlashblocksState) (inner : ProcessorState)
    (replays : List FlashBlock) :
    Loops processor (state.around inner replays .idle)
      (state.around (processor.replayCached (fun _ => state.node) replays inner) [] .idle) := by
  induction replays generalizing inner with
  | nil => exact .refl
  | cons flashblock rest ih =>
      have taken := @LoopStep.replay processor (state.around inner (flashblock :: rest) .idle)
        flashblock rest rfl rfl
      have loaded := @loops_load processor state inner rest (.flashblock flashblock)
      have applied := @loops_apply processor state (load processor state.node inner) rest flashblock
      rw [replayCached_cons]
      exact ((Relation.ReflTransGen.single taken).trans (loaded.trans applied)).trans (ih _)

/-- Steps of the processor's loop alone, from one update to the next, do what one iteration
of its model does, with all its replays. -/
theorem loops_update {state : FlashblocksState} {update : StateUpdate} {rest : List StateUpdate}
    (idle : state.round = .idle) (replayed : state.replays = [])
    (head : state.queue = update :: rest) :
    Loops processor state ({ state with queue := rest }.around
      (processor.processUpdate (fun _ => state.node) update state.processorState) [] .idle) := by
  have taken := @LoopStep.recv processor state update rest idle replayed head
  have loaded := @loops_load processor { state with queue := rest } state.processorState
    state.replays update
  have begun := (Relation.ReflTransGen.single taken).trans loaded
  rw [replayed] at begun
  cases update with
  | flashblock flashblock =>
      rw [processUpdate_flashblock]
      exact begun.trans (loops_apply { state with queue := rest } _ [] flashblock)
  | canonical block =>
      refine begun.trans ?_
      change Loops processor ({ state with queue := rest }.around
        (load processor state.node state.processorState) [] (.ready (.canonical block)
          (load processor state.node state.processorState).pendingBlocks)) _
      cases reconciled : processor.processCanonicalBlock state.node
          (load processor state.node state.processorState).nextAddress
          (load processor state.node state.processorState).pendingBlocks block with
      | error failure =>
          rw [processUpdate_canonical_error (fun _ => state.node) block state.processorState
            reconciled]
          exact .single (.unreconciled rfl reconciled)
      | ok new =>
          rw [processUpdate_canonical_ok (fun _ => state.node) block state.processorState
            reconciled]
          generalize load processor state.node state.processorState = inner at reconciled ⊢
          have success : buildUpdate processor state.node inner.nextAddress inner.pendingBlocks
              (.canonical block) = some new := by
            simp [buildUpdate, reconciled, Except.toOption]
          have published := loops_publish { state with queue := rest } inner [] success
          have swapped := published.tail (.swapCanonical rfl)
          refine Relation.ReflTransGen.trans ?_ (loops_replay { state with queue := rest }
            (processor.publishReconciled state.node block new inner)
            ((inner.cache.updateCanonical block.number).drain (block.number + 1)).1)
          simpa [around, node, StateProcessor.publishReconciled, announcement] using swapped

/-- What the processor's model makes of the whole queue, one iteration after another. -/
def FlashblocksState.workedThrough (processor : StateProcessor) (state : FlashblocksState) :
    FlashblocksState :=
  { state with queue := [] }.around
    (state.queue.foldl (fun inner update =>
      processor.processUpdate (fun _ => state.node) update inner) state.processorState) [] .idle

theorem loops_workedThrough {state : FlashblocksState} (idle : state.round = .idle)
    (replayed : state.replays = []) : Loops processor state (state.workedThrough processor) := by
  unfold workedThrough
  generalize isQueue : state.queue = queue
  induction queue generalizing state with
  | nil =>
      have same : { state with queue := [] }.around state.processorState [] .idle = state := by
        rw [← isQueue, ← idle, ← replayed]
        rfl
      rw [List.foldl_nil, same]
  | cons update rest ih =>
      have updated := @loops_update processor state update rest idle replayed isQueue
      have emptied := @ih ({ state with queue := rest }.around
        (processor.processUpdate (fun _ => state.node) update state.processorState) [] .idle)
        rfl rfl rfl
      exact updated.trans emptied

section Deterministic

variable {node : Node} {address : Nat} {prev : Option (Arc PendingBlocks)}
  {flashblock : FlashBlock} {failure : StateProcessorError}

theorem buildUpdate_superseded (gate : node.isSuperseded flashblock = true) :
    buildUpdate processor node address prev (.flashblock flashblock) = none := by
  simp [buildUpdate, gate]

theorem buildUpdate_failed (fresh : node.isSuperseded flashblock = false)
    (failing : processor.processFlashblock node address prev flashblock = .error failure) :
    buildUpdate processor node address prev (.flashblock flashblock) = none := by
  simp [buildUpdate, fresh, failing, Except.toOption]

theorem buildUpdate_unreconciled {block : Block}
    (failing : processor.processCanonicalBlock node address prev block = .error failure) :
    buildUpdate processor node address prev (.canonical block) = none := by
  simp [buildUpdate, failing, Except.toOption]

end Deterministic

/-- Where no other task moves, the loop has no choice. -/
theorem loopStep_deterministic : Relator.RightUnique (LoopStep processor) := by
  intro state next other first second
  cases first with
  | recv idle replayed head =>
      cases second with
      | recv _ _ sameHead =>
          cases head.symm.trans sameHead
          rfl
      | replay _ isHead => exact nomatch replayed.symm.trans isHead
      | _ before => exact nomatch idle.symm.trans before
  | replay idle head =>
      cases second with
      | recv _ replayed _ => exact nomatch replayed.symm.trans head
      | replay _ sameHead =>
          cases head.symm.trans sameHead
          rfl
      | _ before => exact nomatch idle.symm.trans before
  | keep loaded near =>
      cases second with
      | keep sameLoaded _ =>
          cases loaded.symm.trans sameLoaded
          rfl
      | strand sameLoaded tip far =>
          cases loaded.symm.trans sameLoaded
          exact nomatch (near _ _ rfl tip).symm.trans far
      | _ before => exact nomatch loaded.symm.trans before
  | strand loaded tip far =>
      cases second with
      | keep sameLoaded near =>
          cases loaded.symm.trans sameLoaded
          exact nomatch (near _ _ rfl tip).symm.trans far
      | strand sameLoaded _ _ =>
          cases loaded.symm.trans sameLoaded
          rfl
      | _ before => exact nomatch loaded.symm.trans before
  | clear clearing =>
      cases second with
      | clear sameClearing =>
          cases clearing.symm.trans sameClearing
          rfl
      | _ before => exact nomatch clearing.symm.trans before
  | superseded ready gate =>
      cases second with
      | superseded => rfl
      | failed sameReady fresh _ =>
          cases ready.symm.trans sameReady
          exact nomatch gate.symm.trans fresh
      | build sameReady success =>
          cases ready.symm.trans sameReady
          exact nomatch (buildUpdate_superseded gate).symm.trans success
      | _ before => exact nomatch ready.symm.trans before
  | failed ready fresh failing =>
      cases second with
      | superseded sameReady gate =>
          cases ready.symm.trans sameReady
          exact nomatch gate.symm.trans fresh
      | failed sameReady _ sameFailing =>
          cases ready.symm.trans sameReady
          cases failing.symm.trans sameFailing
          rfl
      | build sameReady success =>
          cases ready.symm.trans sameReady
          exact nomatch (buildUpdate_failed fresh failing).symm.trans success
      | _ before => exact nomatch ready.symm.trans before
  | unreconciled ready failing =>
      cases second with
      | unreconciled => rfl
      | build sameReady success =>
          cases ready.symm.trans sameReady
          exact nomatch (buildUpdate_unreconciled failing).symm.trans success
      | _ before => exact nomatch ready.symm.trans before
  | build ready success =>
      cases second with
      | superseded sameReady gate =>
          cases ready.symm.trans sameReady
          exact nomatch (buildUpdate_superseded gate).symm.trans success
      | failed sameReady fresh failing =>
          cases ready.symm.trans sameReady
          exact nomatch (buildUpdate_failed fresh failing).symm.trans success
      | unreconciled sameReady failing =>
          cases ready.symm.trans sameReady
          exact nomatch (buildUpdate_unreconciled failing).symm.trans success
      | build sameReady sameSuccess =>
          cases ready.symm.trans sameReady
          cases success.symm.trans sameSuccess
          rfl
      | _ before => exact nomatch ready.symm.trans before
  | gate built =>
      cases second with
      | gate sameBuilt =>
          cases built.symm.trans sameBuilt
          rfl
      | _ before => exact nomatch built.symm.trans before
  | send gated =>
      cases second with
      | send sameGated =>
          cases gated.symm.trans sameGated
          rfl
      | _ before => exact nomatch gated.symm.trans before
  | swapFlashblock sent =>
      cases second with
      | swapFlashblock sameSent =>
          cases sent.symm.trans sameSent
          rfl
      | _ before => exact nomatch sent.symm.trans before
  | swapCanonical sent =>
      cases second with
      | swapCanonical sameSent =>
          cases sent.symm.trans sameSent
          rfl
      | _ before => exact nomatch sent.symm.trans before

theorem loop_rests {state : FlashblocksState} (idle : state.round = .idle)
    (replayed : state.replays = []) (empty : state.queue = []) (next : FlashblocksState) :
    ¬ LoopStep processor state next := by
  intro taken
  cases taken with
  | recv _ _ head => exact nomatch empty.symm.trans head
  | replay _ head => exact nomatch replayed.symm.trans head
  | _ before => exact nomatch idle.symm.trans before

/-- Alone, the processor's loop works through its whole queue as its model does: whatever
steps it has taken, it can go on to the model's result, it stops nowhere else, and it does
stop. -/
theorem loops_queue {start : FlashblocksState} (idle : start.round = .idle)
    (replayed : start.replays = []) :
    (∀ state, Loops processor start state →
      Loops processor state (start.workedThrough processor)) ∧
    (∀ state, Loops processor start state →
      ((∀ next, ¬ LoopStep processor state next) ↔ state = start.workedThrough processor)) ∧
    (∀ state, Loops processor start state → state.round = .idle → state.replays = [] →
      state.queue = [] → state = start.workedThrough processor) ∧
    ∀ run : Nat → FlashblocksState, run 0 = start →
      ∃ moment, ¬ LoopStep processor (run moment) (run (moment + 1)) := by
  have leads := @loops_workedThrough processor start idle replayed
  have ends := @loop_rests processor (start.workedThrough processor) rfl rfl rfl
  have onward : ∀ state, Loops processor start state →
      Loops processor state (start.workedThrough processor) :=
    fun state reached => leads_to_end loopStep_deterministic leads ends reached
  have stops : ∀ state, Loops processor start state →
      (∀ next, ¬ LoopStep processor state next) → state = start.workedThrough processor := by
    intro state reached rests
    cases Relation.ReflTransGen.cases_head (onward state reached) with
    | inl same => exact same
    | inr further =>
        obtain ⟨next, taken, -⟩ := further
        exact absurd taken (rests next)
  refine ⟨onward, fun state reached => ⟨stops state reached, ?_⟩, ?_, ?_⟩
  · intro isResult
    rw [isResult]
    exact ends
  · intro state reached idle replayed empty
    exact stops state reached (loop_rests idle replayed empty)
  · exact comes_to_rest loopStep_deterministic leads ends

/-- A flashblock that meets no obstacle on its way is applied. -/
theorem step_through {state : FlashblocksState} (flashblock : WireFlashBlock)
    (waiting : state.subscriber = .waiting) (synced : state.isSyncing = false)
    (fresh : state.lastCanonicalBlock < flashblock.metadata.blockNumber)
    (idle : state.round = .idle) (replayed : state.replays = []) (empty : state.queue = []) :
    Relation.ReflTransGen (Step processor) state
      ({ state with inclusionFee := state.receivedFee flashblock }.around
        (processor.processUpdate (fun _ => state.node) (.flashblock flashblock.toFlashBlock)
          state.processorState) [] .idle) := by
  obtain ⟨cell, channel, queue, height, fee, sync, cache, replays, address, round, subscriber,
    stream, client, now⟩ := state
  dsimp only at waiting idle replayed empty fresh
  subst waiting idle replayed empty
  generalize isState : FlashblocksState.mk cell channel [] height fee sync cache [] address .idle
    .waiting stream client now = state at synced ⊢
  have first := @SubscriberStep.receive state flashblock (by rw [← isState])
  have second := @SubscriberStep.synced { state with subscriber := .received flashblock }
    flashblock rfl synced
  have third := @SubscriberStep.fresh { state with subscriber := .synced flashblock }
    flashblock rfl (by rw [← isState]; exact fresh)
  have fourth := @SubscriberStep.store { state with subscriber := .fresh flashblock }
    flashblock rfl
  have fifth := @SubscriberStep.send { state with
    inclusionFee := state.receivedFee flashblock
    subscriber := .priced flashblock } flashblock rfl
  have queued : Relation.ReflTransGen (Step processor) state { state with
      inclusionFee := state.receivedFee flashblock
      queue := state.queue ++ [.flashblock flashblock.toFlashBlock]
      subscriber := .waiting } :=
    .tail (.tail (.tail (.tail (.single (.subscriber first)) (.subscriber second))
      (.subscriber third)) (.subscriber fourth)) (.subscriber fifth)
  have looped := @loops_update processor { state with
      inclusionFee := state.receivedFee flashblock
      queue := state.queue ++ [.flashblock flashblock.toFlashBlock]
      subscriber := .waiting } (.flashblock flashblock.toFlashBlock) [] (by rw [← isState])
    (by rw [← isState]) (by rw [← isState]; rfl)
  subst isState
  exact queued.trans (Relation.ReflTransGen.mono (fun _ _ taken => Step.loop taken) _ _ looped)

end Uninterrupted

theorem calm_reachable (node : Node) (unnotified : node.lastCanonicalBlock = 0)
    {flashblocks : List FlashBlock}
    (above : ∀ flashblock ∈ flashblocks, 0 < flashblock.metadata.blockNumber) :
    ∃ state, (tasks Reference.processor).Reachable state ∧ state.subscriber = .waiting ∧
      state.syncState = none ∧ state.round = .idle ∧ state.replays = [] ∧ state.queue = [] ∧
      state.node = node ∧
      state.processorState = Reference.afterFlashblocks node flashblocks := by
  induction flashblocks using List.reverseRecOn with
  | nil =>
      refine ⟨FlashblocksState.new node.client 0, .init ⟨node.client, 0, rfl⟩, rfl, rfl, rfl, rfl,
        rfl, ?_, rfl⟩
      obtain ⟨client, height⟩ := node
      simp only at unnotified
      subst unnotified
      rfl
  | append_singleton flashblocks flashblock ih =>
      obtain ⟨state, reached, waiting, unbound, idle, replayed, empty, sameNode, same⟩ :=
        ih fun other member => above other (by simp [member])
      have height : state.lastCanonicalBlock = 0 := by
        rw [← unnotified, ← sameNode]
        rfl
      have through := @step_through Reference.processor state
        { toFlashBlock := flashblock, inclusionFee := none } waiting
        (by rw [FlashblocksState.isSyncing, unbound])
        (by rw [height]; exact above flashblock (by simp)) idle replayed empty
      refine ⟨_, reached.steps through, waiting, unbound, rfl, rfl, empty, sameNode, ?_⟩
      rw [Reference.afterFlashblocks_concat, ← same, ← sameNode]
      rfl

theorem loops_queue_two :
    ∃ start : FlashblocksState, start.queue.length = 2 ∧
      (start.workedThrough Reference.processor).flashblockSender.length = 2 ∧
      (∀ state, Loops Reference.processor start state → state.round = .idle →
        state.replays = [] → state.queue = [] →
        state = start.workedThrough Reference.processor) ∧
      ∀ state, Loops Reference.processor start state →
        Loops Reference.processor state (start.workedThrough Reference.processor) := by
  have worked := @loops_queue Reference.processor
    { FlashblocksState.new (Reference.nodeAt 0 fun _ => 0).client 0 with
      queue := [.flashblock (Reference.flashblock 7 1 0 [(1, 0)] [(1, true)]),
        .flashblock (Reference.flashblock 7 1 1 [(2, 1)] [(1, true), (2, true)])] } rfl rfl
  exact ⟨_, rfl, by decide, worked.2.2.1, worked.1⟩

end EthgasReth.Ingress

import EthgasReth.Snapshots

/-!
# Publication, step by step

The published cell and the broadcast channel between the tasks that use them.  The
processor loads the cell, drops a stranded snapshot, builds, reads the tip, broadcasts
and swaps; the receiving task's `drop_pending_behind` loads, judges and compares and
swaps; an observer subscribes and later loads.  Every one of these is a step of its own,
and the chain moves between any two of them.  A round in which nothing else happens is
an update of the processor's model.
-/

set_option autoImplicit false

namespace EthgasReth.Publication

open EthgasReth.Primitives
open EthgasReth.Lib
open EthgasReth.Pending
open EthgasReth.Build
open EthgasReth.Processor
open EthgasReth.Run
open EthgasReth.Snapshots

/-! ## The tasks -/

/-- Where the processor stands with an update, or with a cached flashblock that it
replays: the snapshot it works on is `prev`, the one it is to publish `new`. -/
inductive Round where
  | idle
  | loaded (update : StateUpdate) (pending : Option (Arc PendingBlocks))
  | clearing (update : StateUpdate)
  | ready (update : StateUpdate) (prev : Option (Arc PendingBlocks))
  | built (update : StateUpdate) (prev new : Option (Arc PendingBlocks))
  | gated (update : StateUpdate) (prev new : Option (Arc PendingBlocks))
  | sent (update : StateUpdate) (prev new : Option (Arc PendingBlocks))

inductive Receiver where
  | waiting
  | notified (canonicalBlockNumber : Nat)
  | loaded (canonicalBlockNumber : Nat) (published : Option (Arc PendingBlocks))
  | judged (canonicalBlockNumber : Nat) (stale : Arc PendingBlocks)

/-- An observer subscribes behind so many broadcasts, and later loads the cell, after
so many snapshots have been stored in it. -/
inductive Observer where
  | absent
  | subscribed (position : Nat)
  | checked (position : Nat) (pending : Option (Arc PendingBlocks)) (stores : Nat)

structure Store where
  snapshot : Arc PendingBlocks
  announced : Bool

/-- The shared state.  `returned` holds the notifications whose `drop_pending_behind` has
returned and `stores` every snapshot ever stored, for the record. -/
structure Shared where
  cell : Option (Arc PendingBlocks)
  channel : List (Arc PendingBlocks)
  tip : Nat
  lastCanonicalBlock : Nat
  nextAddress : Nat
  round : Round
  receiver : Receiver
  observer : Nat → Observer
  returned : List Nat
  stores : List Store

structure Reads (shared : Shared) (node : Node) : Prop where
  tip : node.canonicalTip = some shared.tip
  lastCanonicalBlock : node.lastCanonicalBlock = shared.lastCanonicalBlock

variable (processor : StateProcessor)

/-- What an update is to publish, or `none` when it is skipped or fails. -/
def buildUpdate (node : Node) (address : Nat) (prev : Option (Arc PendingBlocks)) :
    StateUpdate → Option (Option (Arc PendingBlocks))
  | .flashblock flashblock =>
      if node.isSuperseded flashblock then none
      else (processor.processFlashblock node address prev flashblock).toOption
  | .canonical block => (processor.processCanonicalBlock node address prev block).toOption

/-- A flashblock's snapshot is broadcast unless it is the one that was there; a canonical
block's is not. -/
def announcement (update : StateUpdate) (prev new : Option (Arc PendingBlocks)) :
    Option (Arc PendingBlocks) :=
  match update with
  | .canonical _ => none
  | .flashblock _ =>
      let unchanged := match prev, new with
        | some old, some new => old.ptrEq new
        | _, _ => false
      if unchanged then none else new

def stored (update : StateUpdate) (prev new : Option (Arc PendingBlocks)) : List Store :=
  match new with
  | some pending => [⟨pending, (announcement update prev new).isSome⟩]
  | none => []

/-- An update is to publish the snapshot it found, for a repeated flashblock, or one that it
has built under a new address. -/
theorem buildUpdate_some {node : Node} {address : Nat} {prev : Option (Arc PendingBlocks)}
    {update : StateUpdate} {new : Arc PendingBlocks}
    (success : buildUpdate processor node address prev update = some (some new)) :
    (∃ flashblock, update = .flashblock flashblock ∧ prev = some new ∧
        Repeats new.value flashblock) ∨
      ∃ built, new = ⟨address, built⟩ ∧ Builds processor node prev update built := by
  cases update with
  | flashblock flashblock =>
      simp only [buildUpdate] at success
      split at success
      · cases success
      · rcases processFlashblock_new (toOption_eq_some success) with ⟨isOld, repeats⟩ |
          ⟨built, rfl, builds⟩
        · exact Or.inl ⟨flashblock, rfl, isOld, repeats⟩
        · exact Or.inr ⟨built, rfl, builds⟩
  | canonical block =>
      simp only [buildUpdate] at success
      obtain ⟨built, rfl, builds⟩ := processCanonicalBlock_new (toOption_eq_some success)
      exact Or.inr ⟨built, rfl, builds⟩

/-! ## Steps -/

/-- What a schedule allows: a notification to be looked up in the cell, and an observer
to load it. -/
structure Schedule where
  receive : Shared → Nat → Prop
  check : Shared → Nat → Prop

def Schedule.free : Schedule where
  receive := fun _ _ => True
  check := fun _ _ => True

inductive ProcessorStep : Shared → Shared → Prop
  | load {shared : Shared} (update : StateUpdate) (idle : shared.round = .idle) :
      ProcessorStep shared { shared with round := .loaded update shared.cell }
  | keep {shared : Shared} {update : StateUpdate} {pending : Option (Arc PendingBlocks)}
      (loaded : shared.round = .loaded update pending)
      (near : ∀ snapshot, pending = some snapshot →
        processor.isAnchoredNear snapshot.value shared.tip = true) :
      ProcessorStep shared { shared with round := .ready update pending }
  | strand {shared : Shared} {update : StateUpdate} {snapshot : Arc PendingBlocks}
      (loaded : shared.round = .loaded update (some snapshot))
      (far : processor.isAnchoredNear snapshot.value shared.tip = false) :
      ProcessorStep shared { shared with round := .clearing update }
  | clear {shared : Shared} {update : StateUpdate} (clearing : shared.round = .clearing update) :
      ProcessorStep shared { shared with cell := none, round := .ready update none }
  | skip {shared : Shared} {update : StateUpdate} {prev : Option (Arc PendingBlocks)} {node : Node}
      (ready : shared.round = .ready update prev) (reads : Reads shared node)
      (nothing : buildUpdate processor node shared.nextAddress prev update = none) :
      ProcessorStep shared { shared with round := .idle }
  | build {shared : Shared} {update : StateUpdate} {prev new : Option (Arc PendingBlocks)}
      {node : Node} (ready : shared.round = .ready update prev) (reads : Reads shared node)
      (success : buildUpdate processor node shared.nextAddress prev update = some new) :
      ProcessorStep shared { shared with
        nextAddress := shared.nextAddress + 1
        round := .built update prev new }
  | gate {shared : Shared} {update : StateUpdate} {prev new : Option (Arc PendingBlocks)}
      {node : Node} (built : shared.round = .built update prev new) (reads : Reads shared node) :
      ProcessorStep shared { shared with
        round := .gated update prev (processor.publishable node new) }
  | send {shared : Shared} {update : StateUpdate} {prev new : Option (Arc PendingBlocks)}
      (gated : shared.round = .gated update prev new) :
      ProcessorStep shared { shared with
        channel := shared.channel ++ (announcement update prev new).toList
        round := .sent update prev new }
  | swap {shared : Shared} {update : StateUpdate} {prev new : Option (Arc PendingBlocks)}
      (sent : shared.round = .sent update prev new) :
      ProcessorStep shared { shared with
        cell := new
        stores := shared.stores ++ stored update prev new
        round := .idle }

/-- A step of the receiving task, on a notification that the chain has reached. -/
inductive ReceiverStep (schedule : Schedule) : Shared → Shared → Prop
  | notify {shared : Shared} {canonicalBlockNumber : Nat} (waiting : shared.receiver = .waiting)
      (reached : canonicalBlockNumber ≤ shared.tip) :
      ReceiverStep schedule shared { shared with
        lastCanonicalBlock := canonicalBlockNumber
        receiver := .notified canonicalBlockNumber }
  | load {shared : Shared} {canonicalBlockNumber : Nat}
      (notified : shared.receiver = .notified canonicalBlockNumber)
      (allowed : schedule.receive shared canonicalBlockNumber) :
      ReceiverStep schedule shared { shared with
        receiver := .loaded canonicalBlockNumber shared.cell }
  | accept {shared : Shared} {canonicalBlockNumber : Nat} {published : Option (Arc PendingBlocks)}
      (loaded : shared.receiver = .loaded canonicalBlockNumber published)
      (near : ∀ snapshot, published = some snapshot →
        processor.isAnchoredNear snapshot.value canonicalBlockNumber = true) :
      ReceiverStep schedule shared { shared with
        receiver := .waiting
        returned := shared.returned ++ [canonicalBlockNumber] }
  | condemn {shared : Shared} {canonicalBlockNumber : Nat} {stale : Arc PendingBlocks}
      (loaded : shared.receiver = .loaded canonicalBlockNumber (some stale))
      (far : processor.isAnchoredNear stale.value canonicalBlockNumber = false) :
      ReceiverStep schedule shared { shared with
        receiver := .judged canonicalBlockNumber stale }
  | compareAndSwap {shared : Shared} {canonicalBlockNumber : Nat} {stale : Arc PendingBlocks}
      (judged : shared.receiver = .judged canonicalBlockNumber stale) :
      ReceiverStep schedule shared { shared with
        cell := if shared.cell.any stale.ptrEq then none else shared.cell
        receiver := .waiting
        returned := shared.returned ++ [canonicalBlockNumber] }

inductive ObserverStep (schedule : Schedule) : Shared → Shared → Prop
  | subscribe {shared : Shared} {who : Nat} (absent : shared.observer who = .absent) :
      ObserverStep schedule shared { shared with
        observer := Function.update shared.observer who (.subscribed shared.channel.length) }
  | check {shared : Shared} {who position : Nat}
      (subscribed : shared.observer who = .subscribed position)
      (allowed : schedule.check shared who) :
      ObserverStep schedule shared { shared with
        observer := Function.update shared.observer who
          (.checked position shared.cell shared.stores.length) }

inductive Step (schedule : Schedule) : Shared → Shared → Prop
  | processor {shared next : Shared} (taken : ProcessorStep processor shared next) :
      Step schedule shared next
  | receiver {shared next : Shared} (taken : ReceiverStep processor schedule shared next) :
      Step schedule shared next
  | observer {shared next : Shared} (taken : ObserverStep schedule shared next) :
      Step schedule shared next
  | advance {shared : Shared} {tip : Nat} (higher : shared.tip ≤ tip) :
      Step schedule shared { shared with tip := tip }

def opened (tip : Nat) : Shared where
  cell := none
  channel := []
  tip := tip
  lastCanonicalBlock := 0
  nextAddress := 0
  round := .idle
  receiver := .waiting
  observer := fun _ => .absent
  returned := []
  stores := []

def publication (schedule : Schedule) : System Shared where
  Init := fun shared => ∃ tip, shared = opened tip
  Step := Step processor schedule

abbrev Reached (schedule : Schedule) (shared : Shared) : Prop :=
  (publication processor schedule).Reachable shared

/-! ## A round in which nothing else happens -/

section Uninterrupted

variable {processor}

def Shared.state (shared : Shared) (cache : Cache.FlashblockCache) : ProcessorState where
  pendingBlocks := shared.cell
  cache := cache
  sent := shared.channel
  nextAddress := shared.nextAddress

def Shared.resting (shared : Shared) (state : ProcessorState) (stores : List Store) : Shared :=
  { shared with
    cell := state.pendingBlocks
    channel := state.sent
    nextAddress := state.nextAddress
    stores := shared.stores ++ stores
    round := .idle }

abbrev Rounds (processor : StateProcessor) : Shared → Shared → Prop :=
  Relation.ReflTransGen (ProcessorStep processor)

theorem reached_rounds {schedule : Schedule} {shared next : Shared}
    (reached : Reached processor schedule shared) (rounds : Rounds processor shared next) :
    Reached processor schedule next :=
  reached.steps (Relation.ReflTransGen.mono (fun _ _ => Step.processor) _ _ rounds)

def Shared.ready (shared : Shared) (update : StateUpdate) (state : ProcessorState) : Shared :=
  { shared with
    cell := state.pendingBlocks
    channel := state.sent
    nextAddress := state.nextAddress
    round := .ready update state.pendingBlocks }

theorem load_round {shared : Shared} {node : Node} (cache : Cache.FlashblockCache)
    (update : StateUpdate) (idle : shared.round = .idle) (reads : Reads shared node) :
    Rounds processor shared
      (shared.ready update (load processor node (shared.state cache))) := by
  have begun := @ProcessorStep.load processor shared update idle
  have tip := reads.tip
  obtain ⟨cell, channel, height, last, address, round, receiver, observer, returned, stores⟩ := shared
  unfold Shared.ready load StateProcessor.loadPendingOrDropStale Shared.state
  cases cell with
  | none => exact .tail (.single begun) (.keep rfl (by simp))
  | some snapshot =>
      simp only [tip]
      cases near : processor.isAnchoredNear snapshot.value height with
      | true =>
          refine .tail (.single begun) (.keep rfl ?_)
          intro other isOther
          cases isOther
          exact near
      | false => exact .tail (.tail (.single begun) (.strand rfl near)) (.clear rfl)

theorem publish_round {shared : Shared} {node : Node} {update : StateUpdate}
    {prev new : Option (Arc PendingBlocks)} (ready : shared.round = .ready update prev)
    (reads : Reads shared node)
    (success : buildUpdate processor node shared.nextAddress prev update = some new) :
    Rounds processor shared { shared with
      cell := processor.publishable node new
      channel := shared.channel ++
        (announcement update prev (processor.publishable node new)).toList
      nextAddress := shared.nextAddress + 1
      stores := shared.stores ++ stored update prev (processor.publishable node new)
      round := .idle } := by
  have built := @ProcessorStep.build processor shared update prev new node ready reads success
  have stillReads : Reads { shared with
      nextAddress := shared.nextAddress + 1
      round := .built update prev new } node := ⟨reads.tip, reads.lastCanonicalBlock⟩
  exact .tail (.tail (.tail (.single built) (.gate rfl stillReads)) (.send rfl)) (.swap rfl)

/-- A flashblock's round in which nothing else happens is an update of the processor's
model. -/
theorem flashblock_round {shared : Shared} {node : Node} (cache : Cache.FlashblockCache)
    (flashblock : FlashBlock) (idle : shared.round = .idle) (reads : Reads shared node) :
    ∃ stores, Rounds processor shared (shared.resting
      (processor.processUpdate (fun _ => node) (.flashblock flashblock) (shared.state cache))
      stores) := by
  have loaded := @load_round processor shared node cache (.flashblock flashblock) idle reads
  rw [processUpdate_flashblock]
  generalize load processor node (shared.state cache) = state at loaded
  have stillReads : Reads (shared.ready (.flashblock flashblock) state) node :=
    ⟨reads.tip, reads.lastCanonicalBlock⟩
  have skipped : ∀ cache, buildUpdate processor node state.nextAddress state.pendingBlocks
      (.flashblock flashblock) = none → ∃ stores, Rounds processor shared
        (shared.resting { state with cache := cache } stores) := by
    intro cache nothing
    refine ⟨[], .tail loaded ?_⟩
    have last := ProcessorStep.skip rfl stillReads nothing
    simpa [Shared.resting, Shared.ready] using last
  unfold StateProcessor.applyFlashblock
  split
  · rename_i superseded
    exact skipped state.cache (by simp [buildUpdate, superseded])
  · rename_i fresh
    have failing : ∀ {failure}, processor.processFlashblock node state.nextAddress
        state.pendingBlocks flashblock = .error failure →
        buildUpdate processor node state.nextAddress state.pendingBlocks
          (.flashblock flashblock) = none := by
      intro failure processed
      simp [buildUpdate, fresh, processed, Except.toOption]
    split
    · rename_i new processed
      have success : buildUpdate processor node state.nextAddress state.pendingBlocks
          (.flashblock flashblock) = some new := by
        simp [buildUpdate, fresh, processed, Except.toOption]
      have published := publish_round rfl stillReads success
      refine ⟨stored (.flashblock flashblock) state.pendingBlocks (processor.publishable node new),
        loaded.trans ?_⟩
      -- The two descriptions of what is broadcast agree case by case.
      unfold Shared.resting Shared.ready at *
      cases isNew : processor.publishable node new with
      | none => cases held : state.pendingBlocks <;> simpa [announcement, isNew, held] using published
      | some pending =>
          cases held : state.pendingBlocks with
          | none => simpa [announcement, isNew, held] using published
          | some old =>
              cases same : old.ptrEq pending <;>
                simpa [announcement, isNew, held, same] using published
    · rename_i processed
      exact skipped _ (failing processed)
    · rename_i processed
      split
      · exact skipped _ (failing processed)
      · exact skipped state.cache (failing processed)
    · rename_i processed
      exact skipped state.cache (failing processed)

/-- The same of a canonical block, up to its own publication. -/
theorem canonical_round {shared : Shared} {node : Node} (cache : Cache.FlashblockCache)
    (block : Block) {new : Option (Arc PendingBlocks)} (idle : shared.round = .idle)
    (reads : Reads shared node)
    (reconciled : processor.processCanonicalBlock node
      (load processor node (shared.state cache)).nextAddress
      (load processor node (shared.state cache)).pendingBlocks block = .ok new) :
    ∃ stores, Rounds processor shared (shared.resting
      (processor.publishReconciled node block new (load processor node (shared.state cache)))
      stores) := by
  have loaded := @load_round processor shared node cache (.canonical block) idle reads
  generalize load processor node (shared.state cache) = state at loaded reconciled
  have stillReads : Reads (shared.ready (.canonical block) state) node :=
    ⟨reads.tip, reads.lastCanonicalBlock⟩
  have success : buildUpdate processor node state.nextAddress state.pendingBlocks
      (.canonical block) = some new := by
    simp [buildUpdate, reconciled, Except.toOption]
  have published := publish_round rfl stillReads success
  refine ⟨stored (.canonical block) state.pendingBlocks (processor.publishable node new),
    loaded.trans ?_⟩
  simpa [Shared.resting, Shared.ready, StateProcessor.publishReconciled, announcement]
    using published

end Uninterrupted

end EthgasReth.Publication

import EthgasReth.Publication
import EthgasReth.Reference

/-!
# How far behind the chain the published snapshot can be

`drop_pending_behind` is there to bound staleness by the chain's progress: once it has
returned, no snapshot anchored too far behind the notified block should be in the cell,
nor come back.  The processor reads the tip and swaps in two steps.  A notification that
is looked up between them finds the old content of the cell, and the snapshot that
passed the gate on the old tip is stored behind its back.  No other order of the steps
breaks the bound.
-/

set_option autoImplicit false

namespace EthgasReth.Staleness

open EthgasReth.Primitives
open EthgasReth.Lib
open EthgasReth.Pending
open EthgasReth.Build
open EthgasReth.Processor
open EthgasReth.Snapshots
open EthgasReth.Publication

/-! ## What the tasks hold -/

def candidate : Round → Option (Arc PendingBlocks)
  | .gated _ _ new => new
  | .sent _ _ new => new
  | _ => none

def handling : Receiver → Option Nat
  | .waiting => none
  | .notified number => some number
  | .loaded number _ => some number
  | .judged number _ => some number

def lookedUp : Receiver → Option (Nat × Option (Arc PendingBlocks))
  | .loaded number published => some (number, published)
  | .judged number stale => some (number, some stale)
  | _ => none

/-- Once `drop_pending_behind` has returned, no snapshot too far behind is in the cell. -/
def Fresh (processor : StateProcessor) (shared : Shared) : Prop :=
  ∀ number ∈ shared.returned, ∀ snapshot, shared.cell = some snapshot →
    number - snapshot.value.earliestBlockNumber ≤ processor.maxDepth

/-- While a snapshot is between the gate and the cell, only notifications that it is near
enough to are looked up. -/
def prompt (processor : StateProcessor) : Schedule where
  receive := fun shared number => ∀ snapshot, candidate shared.round = some snapshot →
    number - snapshot.value.earliestBlockNumber ≤ processor.maxDepth
  check := fun _ _ => True

/-! ## The invariant -/

variable {processor : StateProcessor}

def Near (processor : StateProcessor) (snapshot : Arc PendingBlocks) (number : Nat) : Prop :=
  number - snapshot.value.earliestBlockNumber ≤ processor.maxDepth

theorem near_iff {snapshot : Arc PendingBlocks} {number : Nat} :
    processor.isAnchoredNear snapshot.value number = true ↔ Near processor snapshot number := by
  simp [StateProcessor.isAnchoredNear, Near]

theorem Near.below {snapshot : Arc PendingBlocks} {number tip : Nat}
    (near : Near processor snapshot tip) (below : number ≤ tip) :
    Near processor snapshot number := by
  unfold Near at near ⊢
  omega

/-- Notifications are not ahead of the chain; the cell is near to those that have
returned, and to one that was looked up it is near or as it was found; and a snapshot
past the gate is near to all of them. -/
structure Bounded (processor : StateProcessor) (shared : Shared) : Prop where
  reached : ∀ number, number ∈ shared.returned ∨ handling shared.receiver = some number →
    number ≤ shared.tip
  settled : ∀ number ∈ shared.returned, ∀ snapshot, shared.cell = some snapshot →
    Near processor snapshot number
  found : ∀ number published, lookedUp shared.receiver = some (number, published) →
    ∀ snapshot, shared.cell = some snapshot →
      published = some snapshot ∨ Near processor snapshot number
  passed : ∀ snapshot, candidate shared.round = some snapshot →
    (∀ number ∈ shared.returned, Near processor snapshot number) ∧
      ∀ number published, lookedUp shared.receiver = some (number, published) →
        Near processor snapshot number

theorem lookedUp_handling {receiver : Receiver} {number : Nat}
    {published : Option (Arc PendingBlocks)}
    (looked : lookedUp receiver = some (number, published)) : handling receiver = some number := by
  cases receiver with
  | waiting | notified => cases looked
  | loaded | judged =>
      cases looked
      rfl

theorem Bounded.rest {shared next : Shared} (bounded : Bounded processor shared)
    (cell : next.cell = shared.cell ∨ next.cell = none) (tip : next.tip = shared.tip)
    (returned : next.returned = shared.returned) (receiver : next.receiver = shared.receiver)
    (through : ∀ snapshot, candidate next.round = some snapshot →
      candidate shared.round = some snapshot) : Bounded processor next := by
  have held : ∀ snapshot, next.cell = some snapshot → shared.cell = some snapshot := by
    intro snapshot isCell
    rcases cell with same | cleared
    · rw [← same]
      exact isCell
    · rw [cleared] at isCell
      cases isCell
  constructor
  case reached =>
    rw [returned, receiver, tip]
    exact bounded.reached
  case settled =>
    rw [returned]
    exact fun number member snapshot isCell => bounded.settled number member snapshot (held _ isCell)
  case found =>
    rw [receiver]
    exact fun number published looked snapshot isCell =>
      bounded.found number published looked snapshot (held _ isCell)
  case passed =>
    rw [returned, receiver]
    exact fun snapshot isCandidate => bounded.passed snapshot (through snapshot isCandidate)

theorem Bounded.gate {shared : Shared} {node : Node} {update : StateUpdate}
    {prev new : Option (Arc PendingBlocks)} (bounded : Bounded processor shared)
    (reads : Reads shared node) : Bounded processor { shared with
      round := .gated update prev (processor.publishable node new) } := by
  refine ⟨bounded.reached, bounded.settled, bounded.found, ?_⟩
  intro snapshot isCandidate
  obtain ⟨-, extending⟩ := publishable_some isCandidate
  have near : Near processor snapshot shared.tip := by
    unfold StateProcessor.extendsCanonicalTip at extending
    rw [reads.tip] at extending
    rw [← near_iff]
    simp only at extending
    split at extending
    · cases extending
    · rename_i isNear
      simpa using isNear
  refine ⟨?_, ?_⟩
  · intro number member
    exact near.below (bounded.reached number (Or.inl member))
  · intro number published looked
    exact near.below (bounded.reached number (Or.inr (lookedUp_handling looked)))

theorem processorStep_bounded {shared next : Shared} (bounded : Bounded processor shared)
    (taken : ProcessorStep processor shared next) : Bounded processor next := by
  cases taken with
  | load | keep | strand | skip | build =>
      exact bounded.rest (Or.inl rfl) rfl rfl rfl fun _ impossible => nomatch impossible
  | clear => exact bounded.rest (Or.inr rfl) rfl rfl rfl fun _ impossible => nomatch impossible
  | gate built reads => exact bounded.gate reads
  | send gated =>
      refine bounded.rest (Or.inl rfl) rfl rfl rfl ?_
      intro snapshot isCandidate
      rw [gated]
      exact isCandidate
  | @swap update prev new sent =>
      have isCandidate : candidate shared.round = new := by
        rw [sent]
        rfl
      have passed := bounded.passed
      rw [isCandidate] at passed
      refine ⟨bounded.reached, ?_, ?_, fun _ impossible => nomatch impossible⟩
      · intro number member snapshot isNew
        exact (passed snapshot isNew).1 number member
      · intro number published looked snapshot isNew
        exact Or.inr ((passed snapshot isNew).2 number published looked)

theorem Bounded.returning {shared : Shared} {number : Nat}
    {published cell : Option (Arc PendingBlocks)} (bounded : Bounded processor shared)
    (looked : lookedUp shared.receiver = some (number, published))
    (left : ∀ snapshot, cell = some snapshot →
      shared.cell = some snapshot ∧ Near processor snapshot number) :
    Bounded processor { shared with
      cell := cell
      receiver := .waiting
      returned := shared.returned ++ [number] } := by
  have joined : ∀ {other : Nat}, other ∈ shared.returned ++ [number] →
      other ∈ shared.returned ∨ other = number := by
    intro other member
    simpa using member
  constructor
  case reached =>
    intro other isOther
    rcases isOther with member | impossible
    · rcases joined member with member | rfl
      · exact bounded.reached other (Or.inl member)
      · exact bounded.reached other (Or.inr (lookedUp_handling looked))
    · cases impossible
  case settled =>
    intro other member snapshot isCell
    obtain ⟨wasCell, near⟩ := left snapshot isCell
    rcases joined member with member | rfl
    · exact bounded.settled other member snapshot wasCell
    · exact near
  case found =>
    intro other published impossible
    cases impossible
  case passed =>
    intro snapshot isCandidate
    obtain ⟨nearReturned, nearLooked⟩ := bounded.passed snapshot isCandidate
    refine ⟨?_, fun _ _ impossible => (nomatch impossible)⟩
    intro other member
    rcases joined member with member | rfl
    · exact nearReturned other member
    · exact nearLooked other published looked

theorem Bounded.notify {shared : Shared} {number : Nat} (bounded : Bounded processor shared)
    (reached : number ≤ shared.tip) : Bounded processor { shared with
      lastCanonicalBlock := number
      receiver := .notified number } := by
  refine ⟨?_, bounded.settled, fun _ _ impossible => (nomatch impossible), ?_⟩
  · intro other isOther
    rcases isOther with member | isNumber
    · exact bounded.reached other (Or.inl member)
    · cases isNumber
      exact reached
  · intro snapshot isCandidate
    exact ⟨(bounded.passed snapshot isCandidate).1, fun _ _ impossible => (nomatch impossible)⟩

theorem Bounded.look {shared : Shared} {number : Nat} (bounded : Bounded processor shared)
    (notified : shared.receiver = .notified number)
    (allowed : (prompt processor).receive shared number) :
    Bounded processor { shared with receiver := .loaded number shared.cell } := by
  have handles : handling shared.receiver = some number := by
    rw [notified]
    rfl
  refine ⟨?_, bounded.settled, ?_, ?_⟩
  · intro other isOther
    apply bounded.reached other
    rw [handles]
    exact isOther
  · intro other published looked snapshot isCell
    cases looked
    exact Or.inl isCell
  · intro snapshot isCandidate
    refine ⟨(bounded.passed snapshot isCandidate).1, ?_⟩
    intro other published looked
    cases looked
    exact allowed snapshot isCandidate

theorem Bounded.judge {shared : Shared} {number : Nat} {stale : Arc PendingBlocks}
    (bounded : Bounded processor shared)
    (loaded : shared.receiver = .loaded number (some stale)) :
    Bounded processor { shared with receiver := .judged number stale } := by
  obtain ⟨reached, settled, found, passed⟩ := bounded
  rw [loaded] at reached found passed
  exact ⟨reached, settled, found, passed⟩

theorem receiverStep_bounded {shared next : Shared} (bounded : Bounded processor shared)
    (taken : ReceiverStep processor (prompt processor) shared next) :
    Bounded processor next := by
  cases taken with
  | notify waiting reached => exact bounded.notify reached
  | load notified allowed => exact bounded.look notified allowed
  | @accept number published loaded near =>
      have looked : lookedUp shared.receiver = some (number, published) := by
        rw [loaded]
        rfl
      apply bounded.returning looked
      intro snapshot isCell
      refine ⟨isCell, ?_⟩
      rcases bounded.found number published looked snapshot isCell with isPublished | isNear
      · exact near_iff.mp (near snapshot isPublished)
      · exact isNear
  | condemn loaded far => exact bounded.judge loaded
  | @compareAndSwap number stale judged =>
      have looked : lookedUp shared.receiver = some (number, some stale) := by
        rw [judged]
        rfl
      apply bounded.returning looked
      intro snapshot isCell
      split at isCell
      · cases isCell
      · rename_i differs
        refine ⟨isCell, ?_⟩
        rcases bounded.found number (some stale) looked snapshot isCell with isStale | isNear
        · cases isStale
          rw [isCell] at differs
          simp [Arc.ptrEq] at differs
        · exact isNear

theorem reached_bounded {shared : Shared} (reached : Reached processor (prompt processor) shared) :
    Bounded processor shared := by
  refine System.Reachable.invariant ?_ ?_ reached
  · rintro shared ⟨tip, rfl⟩
    refine ⟨?_, ?_, ?_, ?_⟩
    · intro number isNumber
      rcases isNumber with member | impossible
      · cases member
      · cases impossible
    · intro number member
      cases member
    · intro number published impossible
      cases impossible
    · intro snapshot impossible
      cases impossible
  · intro shared next _ bounded taken
    cases taken with
    | processor taken => exact processorStep_bounded bounded taken
    | receiver taken => exact receiverStep_bounded bounded taken
    | observer taken =>
        cases taken with
        | subscribe | check => exact bounded.rest (Or.inl rfl) rfl rfl rfl fun _ same => same
    | advance higher =>
        refine ⟨?_, bounded.settled, bounded.found, bounded.passed⟩
        intro number isNumber
        exact Nat.le_trans (bounded.reached number isNumber) higher

/-! ## The main result -/

/-- In every run in which no notification is looked up, between a snapshot's gate and its
swap, that the snapshot is too far behind of, the cell stays fresh. -/
theorem staleness_bounded_by_chain {shared : Shared}
    (reached : Reached processor (prompt processor) shared) : Fresh processor shared :=
  fun number member snapshot isCell => (reached_bounded reached).settled number member snapshot isCell

/-- Left to itself, a notification returns. -/
theorem notification_returns {schedule : Schedule} {shared : Shared} {number : Nat}
    (reached : Reached processor schedule shared)
    (notified : shared.receiver = .notified number) (allowed : schedule.receive shared number) :
    ∃ next, Reached processor schedule next ∧ next.round = shared.round ∧
      number ∈ next.returned := by
  have looked := System.Reachable.step reached
    (Step.receiver (@ReceiverStep.load processor schedule shared number notified allowed))
  by_cases near : ∀ snapshot, shared.cell = some snapshot →
      processor.isAnchoredNear snapshot.value number = true
  · have returned := System.Reachable.step looked (Step.receiver (.accept rfl near))
    exact ⟨_, returned, rfl, by simp⟩
  · rw [not_forall] at near
    obtain ⟨stale, far⟩ := near
    rw [Classical.not_imp] at far
    obtain ⟨isCell, far⟩ := far
    rw [isCell] at looked
    have judged := System.Reachable.step looked
      (Step.receiver (.condemn rfl (by simpa using far)))
    have returned := System.Reachable.step judged (Step.receiver (.compareAndSwap rfl))
    exact ⟨_, returned, rfl, by simp⟩

/-- Any other order breaks the bound: a notification that returns while a snapshot too far
behind it is on its way into the cell. -/
theorem overtaken_lookup {shared : Shared} {update : StateUpdate}
    {prev : Option (Arc PendingBlocks)} {snapshot : Arc PendingBlocks} {number : Nat}
    (reached : Reached processor Schedule.free shared)
    (sent : shared.round = .sent update prev (some snapshot))
    (notified : shared.receiver = .notified number) (far : ¬ Near processor snapshot number) :
    ∃ next, Reached processor Schedule.free next ∧ ¬ Fresh processor next := by
  obtain ⟨next, returned, sameRound, member⟩ := notification_returns reached notified trivial
  rw [sent] at sameRound
  have swapped := System.Reachable.step returned (Step.processor (.swap sameRound))
  refine ⟨_, swapped, ?_⟩
  intro fresh
  exact far (fresh number member snapshot rfl)

/-! ## A flashblock of block 1 -/

def firstUpdate : StateUpdate := .flashblock (Reference.flashblock 7 1 0 [(1, 0)] [(1, true)])

theorem firstUpdate_round {shared : Shared} (idle : shared.round = .idle)
    (empty : shared.cell = none) (isTip : shared.tip = 0)
    (unnotified : shared.lastCanonicalBlock = 0) (unused : shared.nextAddress = 0) :
    ∃ snapshot, Rounds Reference.processor shared { shared with
        channel := shared.channel ++ [snapshot]
        nextAddress := 1
        round := .sent firstUpdate none (some snapshot) } ∧
      snapshot.value.earliestBlockNumber = 1 ∧
      (snapshot.value.transactionReceipts.lookup 1).isSome := by
  let node := Reference.nodeAt 0 fun _ => 0
  have built : (buildUpdate Reference.processor node 0 none firstUpdate).any (fun new =>
      (Reference.processor.publishable node new).any fun snapshot =>
        snapshot.value.earliestBlockNumber == 1 &&
          (snapshot.value.transactionReceipts.lookup 1).isSome) = true := by decide
  obtain ⟨new, success, published⟩ := (Option.any_eq_true _ _).mp built
  obtain ⟨snapshot, isPublished, holds⟩ := (Option.any_eq_true _ _).mp published
  simp only [Bool.and_eq_true, beq_iff_eq] at holds
  obtain ⟨cell, channel, tip, last, address, round, receiver, observer, returned, stores⟩ := shared
  dsimp only at idle empty isTip unnotified unused
  subst idle empty isTip unnotified unused
  have loaded := Relation.ReflTransGen.single (@ProcessorStep.load Reference.processor
    ⟨none, channel, 0, 0, 0, .idle, receiver, observer, returned, stores⟩ firstUpdate rfl)
  have ready := loaded.tail (@ProcessorStep.keep _ _ firstUpdate none rfl (by simp))
  have isBuilt := ready.tail
    (@ProcessorStep.build _ _ firstUpdate none new node rfl ⟨rfl, rfl⟩ success)
  have gated := isBuilt.tail
    (@ProcessorStep.gate _ _ firstUpdate none new node rfl ⟨rfl, rfl⟩)
  rw [isPublished] at gated
  have sent := gated.tail (.send rfl)
  exact ⟨snapshot, sent, holds⟩

theorem firstUpdate_sent (schedule : Schedule) :
    ∃ snapshot shared, Reached Reference.processor schedule shared ∧
      shared.round = .sent firstUpdate none (some snapshot) ∧ shared.tip = 0 ∧
      shared.cell = none ∧ shared.receiver = .waiting ∧ shared.returned = [] ∧
      shared.observer = (fun _ => .absent) ∧ shared.stores = [] ∧
      snapshot.value.earliestBlockNumber = 1 ∧
      (snapshot.value.transactionReceipts.lookup 1).isSome := by
  obtain ⟨snapshot, rounds, holds⟩ := @firstUpdate_round (opened 0) rfl rfl rfl rfl rfl
  have start : Reached Reference.processor schedule (opened 0) := .init ⟨0, rfl⟩
  have sent := reached_rounds start rounds
  exact ⟨snapshot, _, sent, rfl, rfl, rfl, rfl, rfl, rfl, rfl, holds⟩

/-- The snapshot is stored, and a notification of block 3 leaves it there. -/
theorem staleness_bounded_by_chain_near :
    ∃ shared snapshot, shared.returned = [3] ∧ shared.cell = some snapshot ∧
      snapshot.value.earliestBlockNumber = 1 ∧ Fresh Reference.processor shared := by
  obtain ⟨snapshot, shared, reached, sent, isTip, -, waiting, returned, -, -, earliest, -⟩ :=
    firstUpdate_sent (prompt Reference.processor)
  have swapped := System.Reachable.step reached (Step.processor (.swap sent))
  have advanced := System.Reachable.step swapped (@Step.advance _ _ _ 3 (by simp [isTip]))
  have notified := System.Reachable.step advanced
    (Step.receiver (@ReceiverStep.notify _ _ _ 3 waiting (Nat.le_refl 3)))
  have looked := System.Reachable.step notified
    (Step.receiver (.load rfl fun _ impossible => nomatch impossible))
  have near : Reference.processor.isAnchoredNear snapshot.value 3 = true := by
    rw [near_iff, Near, earliest]
    decide
  have accepted := System.Reachable.step looked (Step.receiver (.accept rfl (by
    intro other isOther
    cases isOther
    exact near)))
  exact ⟨_, snapshot, by simp [returned], rfl, earliest, staleness_bounded_by_chain accepted⟩

/-- The flashblock passes the gate at tip 0.  Before it is stored the chain moves to block
5, whose notification finds the cell empty and returns. -/
theorem stale_snapshot_stored_after_drop :
    ¬ ∀ (processor : StateProcessor) (shared : Shared),
      Reached processor Schedule.free shared → Fresh processor shared := by
  intro claim
  obtain ⟨snapshot, shared, reached, sent, isTip, -, waiting, -, -, -, earliest, -⟩ :=
    firstUpdate_sent Schedule.free
  have advanced := System.Reachable.step reached (@Step.advance _ _ _ 5 (by simp [isTip]))
  have notified := System.Reachable.step advanced
    (Step.receiver (@ReceiverStep.notify _ _ _ 5 waiting (Nat.le_refl 5)))
  have far : ¬ Near Reference.processor snapshot 5 := by
    rw [Near, earliest]
    decide
  obtain ⟨next, nextReached, stale⟩ := overtaken_lookup notified sent rfl far
  exact stale (claim Reference.processor next nextReached)

end EthgasReth.Staleness

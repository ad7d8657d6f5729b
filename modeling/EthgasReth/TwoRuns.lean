import EthgasReth.OneBlock

/-!
# Two runs over the flashblocks of one block

Two runs of the processor that start from equivalent cells and take the same
flashblocks, on nodes that show the same block below, stay in step: they publish
equivalent snapshots and broadcast the same flashblocks.
-/

set_option autoImplicit false

namespace EthgasReth.TwoRuns

open EthgasReth.Primitives
open EthgasReth.Execution
open EthgasReth.Pending
open EthgasReth.Build
open EthgasReth.Build.StateProcessor
open EthgasReth.BuildSpec
open EthgasReth.Lockstep
open EthgasReth.Processor
open EthgasReth.Run
open EthgasReth.OneBlock

variable {processor : StateProcessor}

/-! ## Two runs over the flashblocks of the block -/

def SameCell (processor : StateProcessor) (anchor : View) :
    Option (Arc PendingBlocks) → Option (Arc PendingBlocks) → Prop
  | none, none => True
  | some left, some right => Equivalent processor anchor left.value right.value
  | _, _ => False

section Linked

variable {number : Nat} {header : Header} {anchor : View} {client other : Client}
  {flashblock : FlashBlock} {left right : ProcessorState}

theorem SameCell.symm {first second : Option (Arc PendingBlocks)}
    (same : SameCell processor anchor first second) : SameCell processor anchor second first := by
  cases first with
  | none =>
      cases second with
      | none => trivial
      | some => cases same
  | some =>
      cases second with
      | none => cases same
      | some => exact Equivalent.symm same

theorem SameCell.trans (lawful : processor.evm.Lawful)
    {first second third : Option (Arc PendingBlocks)}
    (before : SameCell processor anchor first second)
    (after : SameCell processor anchor second third) : SameCell processor anchor first third := by
  cases first with
  | none =>
      cases second with
      | none => exact after
      | some => cases before
  | some =>
      cases second with
      | none => cases before
      | some =>
          cases third with
          | none => cases after
          | some => exact Equivalent.trans lawful before after

theorem SameCell.builds (lawful : processor.evm.Lawful)
    (same : SameCell processor anchor left.pendingBlocks right.pendingBlocks)
    (inBlock : InBlock number flashblock.index left)
    (isNumber : flashblock.blockNumber = number)
    (read : readAnchor client (number - 1) = .ok (header, anchor))
    (otherRead : readAnchor other (number - 1) = .ok (header, anchor)) :
    (Expects left.pendingBlocks flashblock ↔ Expects right.pendingBlocks flashblock) ∧
      ∀ built, processor.buildPendingState client (left.pendingBlocks.map (·.value))
          (held left.pendingBlocks ++ [flashblock]) = .ok (some built) →
        ∃ twin, processor.buildPendingState other (right.pendingBlocks.map (·.value))
            (held right.pendingBlocks ++ [flashblock]) = .ok (some twin) ∧
          Equivalent processor anchor built twin := by
  cases leftCell : left.pendingBlocks with
  | none =>
      cases rightCell : right.pendingBlocks with
      | some =>
          rw [leftCell, rightCell] at same
          cases same
      | none =>
          refine ⟨Iff.rfl, ?_⟩
          intro built success
          have isAnchor : anchorNumber [flashblock] = some (number - 1) :=
            anchorNumber_const (by simp) (by simpa using isNumber)
          refine ⟨built, ?_, built_refl lawful isAnchor read success⟩
          rw [← success]
          exact buildPendingState_congr isAnchor (otherRead.trans read.symm)
  | some pending =>
      cases rightCell : right.pendingBlocks with
      | none =>
          rw [leftCell, rightCell] at same
          cases same
      | some twinPending =>
          rw [leftCell, rightCell] at same
          have equivalent : Equivalent processor anchor pending.value twinPending.value := same
          have fields := equivalent.fields
          have sameIndex : twinPending.value.latestFlashblockIndex =
              pending.value.latestFlashblockIndex := by rw [fields]
          have sameList : twinPending.value.flashblocks = pending.value.flashblocks := by
            rw [fields]
          have sameHeight := equivalent.height
          refine ⟨by rw [Expects, Expects, sameIndex, sameHeight], ?_⟩
          intro built success
          have isAnchor : anchorNumber (pending.value.flashblocks ++ [flashblock]) =
              some (number - 1) := by
            refine anchorNumber_const (by simp) ?_
            intro member inside
            rcases List.mem_append.mp inside with inside | inside
            · exact (inBlock.ofBlock pending leftCell).numbers member inside
            · rw [List.mem_singleton.mp inside]
              exact isNumber
          rw [show held (some twinPending) = pending.value.flashblocks from sameList]
          exact build_lockstep lawful equivalent isAnchor read otherRead success

/-- Either both runs publish and broadcast equivalent snapshots that end with the
flashblock, or neither does. -/
inductive Linked (processor : StateProcessor) (anchor : View) (flashblock : FlashBlock)
    (left right : ProcessorState) : ProcessorState → ProcessorState → Prop
  | both {built twin : PendingBlocks} (equivalent : Equivalent processor anchor built twin)
      (ends : built.flashblocks.getLast? = some flashblock)
      (twinEnds : twin.flashblocks.getLast? = some flashblock)
      (latest : twin.latestFlashblockIndex = flashblock.index) :
      Linked processor anchor flashblock left right (broadcasting left built)
        (broadcasting right twin)
  | neither {nextLeft nextRight : ProcessorState}
      (same : SameCell processor anchor nextLeft.pendingBlocks nextRight.pendingBlocks)
      (sent : nextLeft.sent = left.sent) (twinSent : nextRight.sent = right.sent)
      (older : ∀ pending, nextRight.pendingBlocks = some pending →
        right.pendingBlocks = some pending) :
      Linked processor anchor flashblock left right nextLeft nextRight

theorem outcomes_linked (lawful : processor.evm.Lawful) {nextLeft nextRight : ProcessorState}
    (same : SameCell processor anchor left.pendingBlocks right.pendingBlocks)
    (leftIn : InBlock number flashblock.index left)
    (rightIn : InBlock number flashblock.index right)
    (isNumber : flashblock.blockNumber = number)
    (read : readAnchor client (number - 1) = .ok (header, anchor))
    (otherRead : readAnchor other (number - 1) = .ok (header, anchor))
    (leftOutcome : Outcome processor client flashblock left nextLeft)
    (rightOutcome : Outcome processor other flashblock right nextRight) :
    Linked processor anchor flashblock left right nextLeft nextRight := by
  obtain ⟨expects, builds⟩ := same.builds lawful leftIn isNumber read otherRead
  obtain ⟨-, buildsBack⟩ := same.symm.builds lawful rightIn isNumber otherRead read
  cases leftOutcome with
  | idle absent unexpected =>
      rw [absent] at same
      cases rightOutcome with
      | idle rightAbsent _ =>
          exact .neither (by rw [absent]; exact same) rfl rfl fun _ isPending => isPending
      | gap present _ =>
          rw [present] at same
          cases same
      | failed expected _ => exact absurd (expects.mpr expected) unexpected
      | behind _ expected _ _ => exact absurd (expects.mpr expected) unexpected
      | built expected _ _ => exact absurd (expects.mpr expected) unexpected
  | gap present unexpected =>
      rw [present] at same
      cases rightOutcome with
      | idle rightAbsent _ =>
          rw [rightAbsent] at same
          cases same
      | gap _ _ =>
          refine .neither trivial rfl rfl ?_
          intro pending isPending
          cases isPending
      | failed expected _ => exact absurd (expects.mpr expected) unexpected
      | behind _ expected _ _ => exact absurd (expects.mpr expected) unexpected
      | built expected _ _ => exact absurd (expects.mpr expected) unexpected
  | failed expected failure =>
      cases rightOutcome with
      | idle _ unexpected => exact absurd (expects.mp expected) unexpected
      | gap _ unexpected => exact absurd (expects.mp expected) unexpected
      | failed _ _ => exact .neither same rfl rfl fun _ isPending => isPending
      | behind _ _ success _ =>
          obtain ⟨twin, twinSuccess, -⟩ := buildsBack _ success
          exact absurd twinSuccess (failure twin)
      | built _ success _ =>
          obtain ⟨twin, twinSuccess, -⟩ := buildsBack _ success
          exact absurd twinSuccess (failure twin)
  | @behind built _ expected success below =>
      obtain ⟨twin, twinSuccess, equivalent⟩ := builds _ success
      have sameHeight := equivalent.height
      cases rightOutcome with
      | idle _ unexpected => exact absurd (expects.mp expected) unexpected
      | gap _ unexpected => exact absurd (expects.mp expected) unexpected
      | failed _ failure => exact absurd twinSuccess (failure twin)
      | behind _ _ _ _ =>
          refine .neither trivial rfl rfl ?_
          intro pending isPending
          cases isPending
      | built _ rightSuccess above =>
          rw [twinSuccess] at rightSuccess
          cases rightSuccess
          omega
  | @built built expected success above =>
      obtain ⟨twin, twinSuccess, equivalent⟩ := builds _ success
      have sameHeight := equivalent.height
      cases rightOutcome with
      | idle _ unexpected => exact absurd (expects.mp expected) unexpected
      | gap _ unexpected => exact absurd (expects.mp expected) unexpected
      | failed _ failure => exact absurd twinSuccess (failure twin)
      | behind _ _ rightSuccess below =>
          rw [twinSuccess] at rightSuccess
          cases rightSuccess
          omega
      | built rightExpected rightSuccess _ =>
          rw [twinSuccess] at rightSuccess
          cases rightSuccess
          obtain ⟨whole, -⟩ := leftIn.built isNumber success
          obtain ⟨twinWhole, -, latest, -⟩ := rightIn.built isNumber twinSuccess
          exact .both equivalent (by rw [whole]; simp) (by rw [twinWhole]; simp) latest

end Linked

/-! ## Whole runs -/

def runFlashblocks (processor : StateProcessor) :
    (Nat → Node) → List FlashBlock → ProcessorState → ProcessorState
  | _, [], state => state
  | nodes, flashblock :: rest, state =>
      runFlashblocks processor (fun i => nodes (i + 1)) rest
        (processor.processUpdate (fun _ => nodes 0) (.flashblock flashblock) state)

/-- The flashblocks of such a run that are accepted: once one is processed, the
published snapshot ends with it. -/
def accepted (processor : StateProcessor) :
    (Nat → Node) → List FlashBlock → ProcessorState → List FlashBlock
  | _, [], _ => []
  | nodes, flashblock :: rest, state =>
      let next := processor.processUpdate (fun _ => nodes 0) (.flashblock flashblock) state
      let later := accepted processor (fun i => nodes (i + 1)) rest next
      if next.pendingBlocks.any fun pending =>
          pending.value.latestFlashblockIndex = flashblock.index then flashblock :: later
      else later

def lasts (sent : List (Arc PendingBlocks)) : List (Option FlashBlock) :=
  sent.map fun pending => pending.value.flashblocks.getLast?

section Runs

variable {number : Nat} {header : Header} {anchor : View} {left right : ProcessorState}

theorem replayCached_eq_run (nodes : Nat → Node) (flashblocks : List FlashBlock)
    (state : ProcessorState) :
    processor.replayCached nodes flashblocks state =
      runFlashblocks processor nodes flashblocks state := by
  induction flashblocks generalizing nodes state with
  | nil => rfl
  | cons flashblock rest ih =>
      rw [replayCached_cons, runFlashblocks, processUpdate_flashblock, ih]

theorem runFlashblocks_append (nodes : Nat → Node) (flashblocks others : List FlashBlock)
    (state : ProcessorState) :
    runFlashblocks processor nodes (flashblocks ++ others) state =
      runFlashblocks processor (fun i => nodes (i + flashblocks.length)) others
        (runFlashblocks processor nodes flashblocks state) := by
  induction flashblocks generalizing nodes state with
  | nil => rfl
  | cons flashblock rest ih =>
      rw [List.cons_append, runFlashblocks, runFlashblocks, ih, List.length_cons]
      simp only [Nat.add_assoc]

theorem accepted_append (nodes : Nat → Node) (flashblocks others : List FlashBlock)
    (state : ProcessorState) :
    accepted processor nodes (flashblocks ++ others) state =
      accepted processor nodes flashblocks state ++
        accepted processor (fun i => nodes (i + flashblocks.length)) others
          (runFlashblocks processor nodes flashblocks state) := by
  induction flashblocks generalizing nodes state with
  | nil => rfl
  | cons flashblock rest ih =>
      rw [List.cons_append, accepted, accepted, runFlashblocks, ih, List.length_cons]
      simp only [Nat.add_assoc]
      split <;> rfl

theorem accepted_sublist (nodes : Nat → Node) (flashblocks : List FlashBlock)
    (state : ProcessorState) : (accepted processor nodes flashblocks state).Sublist flashblocks := by
  induction flashblocks generalizing nodes state with
  | nil => exact List.Sublist.refl _
  | cons flashblock rest ih =>
      rw [accepted]
      split
      · exact List.Sublist.cons_cons _ (ih _ _)
      · exact List.Sublist.cons _ (ih _ _)

structure Sequence (number index : Nat) (flashblocks : List FlashBlock) : Prop where
  numbers : ∀ flashblock ∈ flashblocks, flashblock.blockNumber = number
  indices : flashblocks.map FlashBlock.index = List.range' index flashblocks.length

theorem Sequence.cons {index : Nat} {flashblock : FlashBlock} {rest : List FlashBlock}
    (whole : Sequence number index (flashblock :: rest)) :
    flashblock.blockNumber = number ∧ flashblock.index = index ∧
      Sequence number (index + 1) rest := by
  have indices := whole.indices
  rw [List.map_cons, List.length_cons, List.range'_succ, List.cons.injEq] at indices
  refine ⟨whole.numbers _ (List.mem_cons_self ..), indices.1, ?_, indices.2⟩
  exact fun other member => whole.numbers other (List.mem_cons_of_mem _ member)

theorem Sequence.take {flashblocks : List FlashBlock} (whole : Sequence number 0 flashblocks)
    {size : Nat} (within : size ≤ flashblocks.length) :
    Sequence number 0 (flashblocks.take size) := by
  refine ⟨?_, ?_⟩
  · exact fun flashblock member => whole.numbers flashblock (List.mem_of_mem_take member)
  · rw [List.map_take, whole.indices, List.take_range'_of_length_ge within, List.length_take,
      Nat.min_eq_left within]

theorem Sequence.drop {flashblocks : List FlashBlock} (whole : Sequence number 0 flashblocks)
    (size : Nat) : Sequence number size (flashblocks.drop size) := by
  refine ⟨?_, ?_⟩
  · exact fun flashblock member => whole.numbers flashblock (List.mem_of_mem_drop member)
  · rw [List.map_drop, whole.indices, List.drop_range', List.length_drop]
    simp

theorem Sequence.nodup {index : Nat} {flashblocks : List FlashBlock}
    (whole : Sequence number index flashblocks) : flashblocks.Nodup := by
  apply List.Nodup.of_map FlashBlock.index
  rw [whole.indices]
  exact List.nodup_range'

theorem Linked.sameCell {flashblock : FlashBlock} {nextLeft nextRight : ProcessorState}
    (linked : Linked processor anchor flashblock left right nextLeft nextRight) :
    SameCell processor anchor nextLeft.pendingBlocks nextRight.pendingBlocks := by
  cases linked with
  | both equivalent => exact equivalent
  | neither same => exact same

theorem Linked.sends {flashblock : FlashBlock} {nextLeft nextRight : ProcessorState}
    (linked : Linked processor anchor flashblock left right nextLeft nextRight)
    (rightIn : InBlock number flashblock.index right) :
    ∃ leftSent rightSent, nextLeft.sent = left.sent ++ leftSent ∧
      nextRight.sent = right.sent ++ rightSent ∧
      lasts leftSent = (if nextRight.pendingBlocks.any fun pending =>
        pending.value.latestFlashblockIndex = flashblock.index then [some flashblock] else []) ∧
      lasts rightSent = lasts leftSent := by
  cases linked with
  | @both built twin equivalent ends twinEnds latest =>
      rw [if_pos (by simp [broadcasting, latest])]
      refine ⟨[⟨left.nextAddress, built⟩], [⟨right.nextAddress, twin⟩], rfl, rfl, ?_, ?_⟩
      · rw [← ends]
        rfl
      · simp [lasts, ends, twinEnds]
  | neither _ sent twinSent older =>
      have notLatest : ¬ nextRight.pendingBlocks.any (fun pending =>
          pending.value.latestFlashblockIndex = flashblock.index) = true := by
        intro found
        obtain ⟨pending, isPending, isLatest⟩ := (Option.any_eq_true _ _).mp found
        have less := rightIn.behind pending (older pending isPending)
        have equal := of_decide_eq_true isLatest
        omega
      rw [if_neg notLatest]
      exact ⟨[], [], by rw [sent, List.append_nil], by rw [twinSent, List.append_nil], rfl, rfl⟩

theorem updates_linked (lawful : processor.evm.Lawful) {node other : Node}
    {flashblock : FlashBlock} (reveals : Reveals number header anchor node)
    (otherReveals : Reveals number header anchor other)
    (same : SameCell processor anchor left.pendingBlocks right.pendingBlocks)
    (leftIn : InBlock number flashblock.index left)
    (rightIn : InBlock number flashblock.index right)
    (isNumber : flashblock.blockNumber = number) :
    Linked processor anchor flashblock left right
        (processor.processUpdate (fun _ => node) (.flashblock flashblock) left)
        (processor.processUpdate (fun _ => other) (.flashblock flashblock) right) ∧
      InBlock number (flashblock.index + 1)
        (processor.processUpdate (fun _ => node) (.flashblock flashblock) left) ∧
      InBlock number (flashblock.index + 1)
        (processor.processUpdate (fun _ => other) (.flashblock flashblock) right) := by
  have leftOutcome := apply_outcome processor reveals leftIn isNumber
  have rightOutcome := apply_outcome processor otherReveals rightIn isNumber
  have leftUpdate : processor.processUpdate (fun _ => node) (.flashblock flashblock) left =
      processor.applyFlashblock node left.pendingBlocks flashblock left := by
    rw [processUpdate_flashblock, leftIn.load processor reveals.below]
  have rightUpdate : processor.processUpdate (fun _ => other) (.flashblock flashblock) right =
      processor.applyFlashblock other right.pendingBlocks flashblock right := by
    rw [processUpdate_flashblock, rightIn.load processor otherReveals.below]
  rw [leftUpdate, rightUpdate]
  exact ⟨outcomes_linked lawful same leftIn rightIn isNumber reveals.read otherReveals.read
    leftOutcome rightOutcome, leftOutcome.inBlock leftIn isNumber,
    rightOutcome.inBlock rightIn isNumber⟩

/-- Two runs over the same flashblocks, on nodes that show the block below, stay
in step and broadcast the same flashblocks: those the second run accepts. -/
theorem runs_linked (lawful : processor.evm.Lawful) {nodes others : Nat → Node}
    {flashblocks : List FlashBlock} {index : Nat} (whole : Sequence number index flashblocks)
    (reveals : ∀ i, Reveals number header anchor (nodes i))
    (otherReveals : ∀ i, Reveals number header anchor (others i))
    (same : SameCell processor anchor left.pendingBlocks right.pendingBlocks)
    (leftIn : InBlock number index left) (rightIn : InBlock number index right) :
    SameCell processor anchor (runFlashblocks processor nodes flashblocks left).pendingBlocks
        (runFlashblocks processor others flashblocks right).pendingBlocks ∧
      InBlock number (index + flashblocks.length)
        (runFlashblocks processor nodes flashblocks left) ∧
      InBlock number (index + flashblocks.length)
        (runFlashblocks processor others flashblocks right) ∧
      ∃ leftSent rightSent,
        (runFlashblocks processor nodes flashblocks left).sent = left.sent ++ leftSent ∧
        (runFlashblocks processor others flashblocks right).sent = right.sent ++ rightSent ∧
        lasts leftSent = (accepted processor others flashblocks right).map some ∧
        lasts rightSent = (accepted processor others flashblocks right).map some := by
  induction flashblocks generalizing nodes others left right index with
  | nil =>
      refine ⟨same, leftIn, rightIn, [], [], ?_, ?_, rfl, rfl⟩
      · simp [runFlashblocks]
      · simp [runFlashblocks]
  | cons flashblock rest ih =>
      obtain ⟨isNumber, rfl, later⟩ := whole.cons
      obtain ⟨linked, nextLeftIn, nextRightIn⟩ := updates_linked lawful (reveals 0)
        (otherReveals 0) same leftIn rightIn isNumber
      obtain ⟨leftNew, rightNew, leftSends, rightSends, newLasts, sameLasts⟩ :=
        linked.sends rightIn
      obtain ⟨finalSame, finalLeft, finalRight, leftSent, rightSent, isLeft, isRight, leftLasts,
        rightLasts⟩ := ih later (fun i => reveals (i + 1)) (fun i => otherReveals (i + 1))
          linked.sameCell nextLeftIn nextRightIn
      have acceptedFirst : lasts leftNew ++ (accepted processor (fun i => others (i + 1)) rest
          (processor.processUpdate (fun _ => others 0) (.flashblock flashblock) right)).map some =
            (accepted processor others (flashblock :: rest) right).map some := by
        rw [newLasts, accepted]
        split <;> rfl
      rw [runFlashblocks, runFlashblocks, List.length_cons,
        show flashblock.index + (rest.length + 1) = flashblock.index + 1 + rest.length by omega]
      refine ⟨finalSame, finalLeft, finalRight, leftNew ++ leftSent, rightNew ++ rightSent,
        ?_, ?_, ?_, ?_⟩
      · rw [isLeft, leftSends, List.append_assoc]
      · rw [isRight, rightSends, List.append_assoc]
      · rw [← acceptedFirst, ← leftLasts]
        exact List.map_append
      · rw [← acceptedFirst, ← rightLasts, ← sameLasts]
        exact List.map_append

end Runs

end EthgasReth.TwoRuns

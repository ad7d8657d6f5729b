import EthgasReth.Contiguous

/-!
# The two block numbers of a flashblock

Flashblocks are grouped, retained and cached by the number in their metadata, while
a pending block's header takes its number from the base payload.  Nothing compares
the two.  A snapshot's headers carry the numbers of their groups exactly when every
flashblock at index zero agrees with itself, and one that does not is published like
any other.
-/

set_option autoImplicit false

namespace EthgasReth.BlockNumbers

open EthgasReth.Primitives
open EthgasReth.Lib
open EthgasReth.Pending
open EthgasReth.BlockAssembler
open EthgasReth.Build
open EthgasReth.Build.StateProcessor
open EthgasReth.Processor
open EthgasReth.Run
open EthgasReth.Ledger
open EthgasReth.BuildSpec
open EthgasReth.Snapshots
open EthgasReth.Contiguous

variable {processor : StateProcessor}

/-! ## The headers of a build -/

def AssembledFrom (processor : StateProcessor) (header : SealedHeader)
    (flashblocks : List FlashBlock) : Prop :=
  ∃ assembled, assemble processor.alloy processor.chainSpec flashblocks = .ok assembled ∧
    assembled.header = header

/-- Every pending block's header carries the metadata number of all the flashblocks
that were assembled into it. -/
def NumbersMatch (processor : StateProcessor) (pending : PendingBlocks) : Prop :=
  List.Forall₂ (fun header group => AssembledFrom processor header group.2 ∧
      ∀ flashblock ∈ group.2, flashblock.metadata.blockNumber = header.header.number)
    pending.headers (flashblocksPerBlock pending.flashblocks)

/-- What a build returns of whatever list: its groups one after another, a header for
each, and the ends of both. -/
structure Assembles (processor : StateProcessor) (flashblocks : List FlashBlock)
    (pending : PendingBlocks) : Prop where
  whole : pending.flashblocks = ungroup (flashblocksPerBlock flashblocks)
  headers : List.Forall₂ (fun header group => AssembledFrom processor header group.2)
    pending.headers (flashblocksPerBlock flashblocks)
  latest : pending.headers.getLast? = some pending.latestHeader
  index : ∀ last ∈ pending.flashblocks.getLast?, pending.latestFlashblockIndex = last.index

theorem prepares_assembled {groups : List (Nat × List FlashBlock)}
    {blocks : List (BlockRun processor)} {parent : Header}
    (grouped : blocks.map BlockRun.flashblocks = groups.map Prod.snd)
    (prepares : Prepares parent blocks) :
    List.Forall₂ (fun header group => AssembledFrom processor header group.2)
      (blocks.map fun block => block.assembled.header) groups := by
  rw [List.forall₂_map_left_iff]
  refine List.Forall₂.flip ((prepares_from grouped prepares).imp ?_)
  intro group block ofGroup
  obtain ⟨same, before, prepared⟩ := ofGroup
  have assembled := prepared.assembled
  rw [same] at assembled
  exact ⟨block.assembled, assembled, rfl⟩

theorem returns_assembles {client : Client} {prev : Option PendingBlocks}
    {flashblocks : List FlashBlock} {run : BuildRun processor} {pending : PendingBlocks}
    (returns : Returns client prev flashblocks run pending) :
    Assembles processor flashblocks pending := by
  obtain ⟨earliest, latest, last, clean, -, isLatest, isLast, rfl⟩ :=
    PendingBlocksBuilder.build_ok returns.finishes
  obtain ⟨-, flashblocksEq, headersEq⟩ := recordBlocks_holds holds_new returns.records clean
  change run.builder.flashblocks.getLast? = some last at isLast
  constructor
  case whole =>
    change run.builder.flashblocks = _
    rw [flashblocksEq, ungroup, List.flatMap_def, List.flatMap_def, returns.grouped]
    rfl
  case headers =>
    change List.Forall₂ _ run.builder.headers _
    rw [headersEq]
    exact prepares_assembled returns.grouped returns.prepares
  case latest => exact isLatest
  case index =>
    intro other isOther
    change run.builder.flashblocks.getLast? = some other at isOther
    rw [isLast] at isOther
    cases isOther
    rfl

theorem AssembledFrom.number {header : SealedHeader} {flashblocks : List FlashBlock}
    (assembledFrom : AssembledFrom processor header flashblocks) :
    ∃ first base, flashblocks.head? = some first ∧ first.base = some base ∧
      header.header.number = base.blockNumber := by
  obtain ⟨assembled, success, rfl⟩ := assembledFrom
  obtain ⟨base, shape⟩ := assemble_ok success
  obtain ⟨first, isFirst, isBase⟩ := Option.bind_eq_some_iff.mp shape.baseOf
  refine ⟨first, base, isFirst, isBase, ?_⟩
  rw [shape.sealed, shape.number]

/-! ## One build of a gap-free list -/

/-- The flashblocks at index zero name one number each. -/
def OpenersAgree (flashblocks : List FlashBlock) : Prop :=
  ∀ flashblock ∈ flashblocks, flashblock.index = 0 → flashblock.NumbersAgree

/-- In a gap-free list the flashblocks at index zero are the first of their block. -/
theorem openers_iff_firsts {flashblocks : List FlashBlock} (gapFree : GapFree flashblocks) :
    OpenersAgree flashblocks ↔ ∀ group ∈ flashblocksPerBlock flashblocks,
      ∀ first ∈ group.2.head?, first.NumbersAgree := by
  obtain ⟨start, -, counted⟩ := gapFree.counted
  have whole := ungroup_groupEntries FlashBlock.blockNumber flashblocks gapFree.ordered
  have indices : ∀ group ∈ flashblocksPerBlock flashblocks,
      group.2.map FlashBlock.index = List.range group.2.length := by
    intro group member
    obtain ⟨position, found⟩ := List.getElem?_of_mem member
    exact (counted position group found).2
  constructor
  · intro openers group member first isFirst
    have inGroup : first ∈ group.2 := List.mem_of_head? isFirst
    have inList : first ∈ flashblocks := by
      rw [← whole]
      exact List.mem_flatMap.mpr ⟨group, member, inGroup⟩
    apply openers first inList
    have counts := indices group member
    obtain ⟨rest, shape⟩ := List.head?_eq_some_iff.mp isFirst
    rw [shape, List.map_cons, List.length_cons, List.range_succ_eq_map] at counts
    exact (List.cons.inj counts).1
  · intro firsts flashblock member zero
    rw [← whole] at member
    obtain ⟨group, inGroups, inGroup⟩ := List.mem_flatMap.mp member
    apply firsts group inGroups
    obtain ⟨position, inside, isHere⟩ := List.getElem_of_mem inGroup
    have counts := congrArg (fun list => list[position]?) (indices group inGroups)
    simp only [List.getElem?_map, List.getElem?_eq_getElem inside, isHere, Option.map_some,
      List.getElem?_range inside, Option.some.injEq] at counts
    have isZero : position = 0 := by omega
    subst isZero
    rw [List.head?_eq_getElem?, List.getElem?_eq_getElem inside, isHere]
    rfl

theorem matches_iff_of_keyed {headers : List SealedHeader} {groups : List (Nat × List FlashBlock)}
    (keyed : Keyed FlashBlock.blockNumber groups)
    (assembled : List.Forall₂ (fun header group => AssembledFrom processor header group.2)
      headers groups) :
    List.Forall₂ (fun header group => AssembledFrom processor header group.2 ∧
        ∀ flashblock ∈ group.2, flashblock.metadata.blockNumber = header.header.number)
      headers groups ↔ ∀ group ∈ groups, ∀ first ∈ group.2.head?, first.NumbersAgree := by
  induction assembled with
  | nil => simp
  | @cons header group headers groups first _ ih =>
      have rest := ih fun other member => keyed other (List.mem_cons_of_mem _ member)
      obtain ⟨opener, base, isOpener, isBase, number⟩ := first.number
      have inGroup : opener ∈ group.2 := List.mem_of_head? isOpener
      have sameKey := (keyed group (List.mem_cons_self ..)).2
      have agrees : (∀ flashblock ∈ group.2,
          flashblock.metadata.blockNumber = header.header.number) ↔ opener.NumbersAgree := by
        constructor
        · intro same other isOther
          rw [isBase] at isOther
          cases isOther
          rw [← number]
          exact (same opener inGroup).symm
        · intro agree flashblock member
          rw [number, agree base isBase]
          exact (sameKey flashblock member).trans (sameKey opener inGroup).symm
      rw [List.forall₂_cons, rest, agrees]
      simp [first, isOpener]

/-- A build of gap-free flashblocks matches exactly when those at index zero agree. -/
theorem build_matches_iff {client : Client} {prev : Option PendingBlocks}
    {flashblocks : List FlashBlock} {built : PendingBlocks} (gapFree : GapFree flashblocks)
    (success : processor.buildPendingState client prev flashblocks = .ok (some built)) :
    NumbersMatch processor built ↔ OpenersAgree flashblocks := by
  obtain ⟨run, returns⟩ := buildPendingState_ok success
  have assembles := returns_assembles returns
  have whole := assembles.whole
  rw [flashblocksPerBlock, ungroup_groupEntries _ _ gapFree.ordered] at whole
  rw [NumbersMatch, whole, openers_iff_firsts gapFree]
  exact matches_iff_of_keyed (groupEntries_keyed _ _) assembles.headers

/-! ## Along a run -/

/-- A gap-free snapshot whose blocks were opened by agreeing flashblocks: its headers
match, and it ends where its last flashblock does. -/
structure Opened (processor : StateProcessor) (pending : PendingBlocks) : Prop where
  gapFree : GapFree pending.flashblocks
  openers : OpenersAgree pending.flashblocks
  numbers : NumbersMatch processor pending
  ends : ∃ last, pending.flashblocks.getLast? = some last ∧
    pending.latestBlockNumber = last.blockNumber ∧ pending.latestFlashblockIndex = last.index

theorem NumbersMatch.latest {flashblocks : List FlashBlock} {pending : PendingBlocks}
    {last : FlashBlock} (numbers : NumbersMatch processor pending)
    (assembles : Assembles processor flashblocks pending) (ordered : Ordered pending.flashblocks)
    (isLast : pending.flashblocks.getLast? = some last) :
    pending.latestBlockNumber = last.blockNumber := by
  obtain ⟨others, shape⟩ := List.getLast?_eq_some_iff.mp isLast
  rw [shape] at ordered
  obtain ⟨before, values, groups, -, -⟩ :=
    groupEntries_last FlashBlock.blockNumber others last ordered
  unfold NumbersMatch at numbers
  rw [shape, flashblocksPerBlock, groups] at numbers
  obtain ⟨headers, header, isHeaders, -, -, same⟩ := forall₂_append_singleton numbers.flip
  have isHeader : header = pending.latestHeader := by
    have latest := assembles.latest
    rw [isHeaders, List.getLast?_concat] at latest
    exact Option.some.inj latest
  rw [PendingBlocks.latestBlockNumber, ← isHeader]
  exact (same last (by simp)).symm

theorem matching_numbers {headers : List SealedHeader} {groups : List (Nat × List FlashBlock)}
    (keyed : Keyed FlashBlock.blockNumber groups)
    (numbers : List.Forall₂ (fun header group => AssembledFrom processor header group.2 ∧
      ∀ flashblock ∈ group.2, flashblock.metadata.blockNumber = header.header.number)
      headers groups) :
    headers.map (fun header => header.header.number) = groups.map Prod.fst := by
  induction numbers with
  | nil => rfl
  | @cons header group headers groups first _ ih =>
      obtain ⟨nonempty, ofKey⟩ := keyed group (List.mem_cons_self ..)
      obtain ⟨flashblock, member⟩ := List.exists_mem_of_ne_nil _ nonempty
      rw [List.map_cons, List.map_cons,
        ih fun other inside => keyed other (List.mem_cons_of_mem _ inside),
        ← first.2 flashblock member, ← ofKey flashblock member]
      rfl

theorem NumbersMatch.increasing {pending : PendingBlocks}
    (numbers : NumbersMatch processor pending) :
    pending.headers.Pairwise fun earlier later => earlier.header.number < later.header.number := by
  have sorted := groupEntries_sorted FlashBlock.blockNumber pending.flashblocks
  rw [← List.pairwise_map] at sorted ⊢
  rw [matching_numbers (groupEntries_keyed _ _) numbers]
  exact sorted

theorem build_opened {client : Client} {prev : Option PendingBlocks}
    {flashblocks : List FlashBlock} {built : PendingBlocks} (gapFree : GapFree flashblocks)
    (openers : OpenersAgree flashblocks)
    (success : processor.buildPendingState client prev flashblocks = .ok (some built)) :
    Opened processor built := by
  obtain ⟨run, returns⟩ := buildPendingState_ok success
  have assembles := returns_assembles returns
  have whole := returns_whole gapFree.ordered returns
  have numbers := (build_matches_iff gapFree success).mpr openers
  obtain ⟨first, isFirst, -⟩ := gapFree.starts
  have nonempty : built.flashblocks ≠ [] := by
    intro empty
    rw [← whole, empty] at isFirst
    cases isFirst
  rw [← whole] at gapFree openers
  have isLast := List.getLast?_eq_some_getLast nonempty
  exact ⟨gapFree, openers, numbers, _, isLast,
    numbers.latest assembles gapFree.ordered isLast, assembles.index _ isLast⟩

/-- The flashblock opens a block on the snapshot it is applied to: it has index zero,
and there is no snapshot, or it restarts the snapshot's last block under another
payload, or it is the first of the next block. -/
def Opens (prev : Option (Arc PendingBlocks)) (flashblock : FlashBlock) : Prop :=
  flashblock.index = 0 ∧ ∀ pending, prev = some pending → Restarts pending.value flashblock ∨
    flashblock.blockNumber = pending.value.latestBlockNumber + 1

def openersAgree : Guard where
  wire := fun _ => True
  flashblock := fun node prev flashblock =>
    node.isSuperseded flashblock = false → Opens prev flashblock → flashblock.NumbersAgree
  canonical := fun _ _ _ => True

theorem opened_kept : KeptByBuilds processor openersAgree (Opened processor) := by
  intro node prev update built before allowed builds
  cases builds with
  | @fresh _ flashblock _ first restarts success =>
      obtain ⟨-, met, fresh⟩ := allowed
      have agree : flashblock.NumbersAgree := by
        refine met fresh ⟨first, ?_⟩
        intro pending isPrev
        exact Or.inl (restarts pending isPrev)
      refine build_opened (gapFree_singleton first) ?_ success
      intro other member _
      rw [List.mem_singleton.mp member]
      exact agree
  | @appended pending flashblock _ continues success =>
      obtain ⟨-, met, fresh⟩ := allowed
      have old := before pending rfl
      obtain ⟨last, isLast, number, index⟩ := old.ends
      have follows : Follows last flashblock := by
        unfold Continues at continues
        rw [number, index] at continues
        exact continues
      refine build_opened (old.gapFree.append isLast follows) ?_ success
      intro other member zero
      rcases List.mem_append.mp member with member | member
      · exact old.openers other member zero
      · rw [List.mem_singleton.mp member] at zero ⊢
        refine met fresh ⟨zero, ?_⟩
        intro other isPrev
        cases isPrev
        right
        rcases continues with ⟨-, next⟩ | ⟨next, -⟩
        · omega
        · exact next
  | @retained pending block _ success =>
      have old := before pending rfl
      obtain ⟨first, isFirst, zero⟩ := old.gapFree.starts
      have kept := chain_filter (node.effectiveCanonicalNumber block.number)
        pending.value.flashblocks old.gapFree.chain
      rcases kept (by
        intro other isOther
        rw [Option.mem_def, isFirst] at isOther
        cases isOther
        exact Or.inl zero) with empty | gapFree
      · change retained node block pending.value = [] at empty
        rw [empty] at success
        cases success
      · refine build_opened gapFree ?_ success
        intro other member
        exact old.openers other (List.mem_of_mem_filter member)
  | @continued pending _ _ _ success =>
      have old := before pending rfl
      exact build_opened old.gapFree old.openers success

/-- In every run in which the flashblocks that open a block agree with themselves, the
header numbers of every snapshot that is published or broadcast are the metadata
numbers. -/
theorem visible_numbers_match {state : ProcessorState} {pending : Arc PendingBlocks}
    (visible : Visible processor openersAgree state)
    (published : state.pendingBlocks = some pending ∨ pending ∈ state.sent) :
    NumbersMatch processor pending.value := by
  obtain ⟨inCell, inSent⟩ := opened_kept.visible visible
  rcases published with isPublished | isSent
  · exact (inCell pending isPublished).numbers
  · exact (inSent pending isSent).numbers

theorem visible_numbers_match_two :
    ∃ pending, (Reference.afterFlashblocks (Reference.nodeAt 0 fun _ => 0)
        [Reference.flashblock 7 1 0 [(1, 0)] [(1, true)], Reference.flashblock 8 2 0 [] []]
        ).pendingBlocks = some pending ∧
      pending.value.headers.length = 2 ∧ NumbersMatch Reference.processor pending.value := by
  let node := Reference.nodeAt 0 fun _ => 0
  let first := Reference.flashblock 7 1 0 [(1, 0)] [(1, true)]
  let second := Reference.flashblock 8 2 0 [] []
  have begun : Reachable Reference.processor openersAgree
      (Reference.afterFlashblocks node [first]) := by
    refine .step (.init ⟨node.client, rfl⟩) (.update (fun _ => node) (.flashblock first) ?_)
    exact ⟨trivial, fun _ _ => Reference.flashblock_agrees _ _ _ _ _⟩
  have goneOn : Reachable Reference.processor openersAgree
      (Reference.afterFlashblocks node ([first] ++ [second])) := by
    rw [Reference.afterFlashblocks_concat]
    refine .step begun (.update (fun _ => node) (.flashblock second) ⟨trivial, ?_⟩)
    exact fun _ _ => Reference.flashblock_agrees _ _ _ _ _
  have published : (Reference.afterFlashblocks node [first, second]).pendingBlocks.any
      (fun pending => pending.value.headers.length == 2) = true := by decide
  obtain ⟨pending, isPending, two⟩ := (Option.any_eq_true _ _).mp published
  exact ⟨pending, isPending, by simpa using two,
    visible_numbers_match (.reached goneOn) (Or.inl isPending)⟩

def driftedFlashblock : FlashBlock :=
  { Reference.flashblock 7 1 0 [] [] with base := some (Reference.payloadBase 9) }

theorem drifted_numbers_published :
    ¬ ∀ (processor : StateProcessor) (state : ProcessorState) (pending : Arc PendingBlocks),
      Visible processor (Guard.onWire fun _ => True) state →
      state.pendingBlocks = some pending ∨ pending ∈ state.sent →
      NumbersMatch processor pending.value := by
  intro claim
  let node := Reference.nodeAt 0 fun _ => 0
  have reached : Reachable Reference.processor (Guard.onWire fun _ => True)
      (Reference.afterFlashblocks node [driftedFlashblock]) :=
    Reference.afterFlashblocks_reachable node fun _ _ => trivial
  have published : (Reference.afterFlashblocks node [driftedFlashblock]).pendingBlocks.any
      (fun pending => (pending.value.headers.map fun header => header.header.number) == [9] &&
        (pending.value.flashblocks.map fun flashblock => flashblock.metadata.blockNumber) == [1]) =
        true := by decide
  obtain ⟨pending, isPending, drifted⟩ := (Option.any_eq_true _ _).mp published
  have isMatch := claim Reference.processor _ pending (.reached reached) (Or.inl isPending)
  simp only [Bool.and_eq_true, beq_iff_eq, List.map_eq_singleton_iff] at drifted
  obtain ⟨⟨header, headers, nine⟩, flashblock, flashblocks, one⟩ := drifted
  rw [NumbersMatch, headers, flashblocks] at isMatch
  have same := (List.forall₂_cons.mp isMatch).1.2 flashblock (List.mem_singleton_self flashblock)
  rw [nine, one] at same
  cases same

end EthgasReth.BlockNumbers

import Mathlib
import EthgasReth.Reference
import EthgasReth.Snapshots

/-!
# Every snapshot is a gap-free run of flashblocks

One flashblock follows another when it has the next index of the same block, or
index zero of the next block.  Appending after validation, restarting on a new
payload and retaining the blocks above a canonical height keep a list in which
every flashblock follows the one before it, and a build returns its list as it
was given.
-/

set_option autoImplicit false

namespace EthgasReth.Contiguous

open EthgasReth.Primitives
open EthgasReth.Lib
open EthgasReth.Pending
open EthgasReth.Build
open EthgasReth.Build.StateProcessor
open EthgasReth.Processor
open EthgasReth.Run
open EthgasReth.BuildSpec
open EthgasReth.Snapshots

/-! ## Gap-free lists -/

def Follows (before after : FlashBlock) : Prop :=
  (after.blockNumber = before.blockNumber ∧ after.index = before.index + 1) ∨
    (after.blockNumber = before.blockNumber + 1 ∧ after.index = 0)

structure GapFree (flashblocks : List FlashBlock) : Prop where
  starts : ∃ first ∈ flashblocks.head?, first.index = 0
  chain : flashblocks.IsChain Follows

theorem chain_ordered {flashblocks : List FlashBlock} (chain : flashblocks.IsChain Follows) :
    Ordered flashblocks := by
  have numbers : flashblocks.IsChain fun a b => a.blockNumber ≤ b.blockNumber := by
    refine chain.imp ?_
    intro before after follows
    rcases follows with ⟨same, -⟩ | ⟨next, -⟩ <;> omega
  have trans : IsTrans FlashBlock fun a b => a.blockNumber ≤ b.blockNumber :=
    ⟨fun _ _ _ first second => Nat.le_trans first second⟩
  exact numbers.pairwise

theorem GapFree.ordered {flashblocks : List FlashBlock} (gapFree : GapFree flashblocks) :
    Ordered flashblocks :=
  chain_ordered gapFree.chain

theorem gapFree_singleton {flashblock : FlashBlock} (first : flashblock.index = 0) :
    GapFree [flashblock] :=
  ⟨⟨flashblock, rfl, first⟩, List.IsChain.singleton flashblock⟩

theorem GapFree.append {flashblocks : List FlashBlock} (gapFree : GapFree flashblocks)
    {last flashblock : FlashBlock} (isLast : last ∈ flashblocks.getLast?)
    (follows : Follows last flashblock) : GapFree (flashblocks ++ [flashblock]) := by
  obtain ⟨first, isFirst, zero⟩ := gapFree.starts
  refine ⟨⟨first, ?_, zero⟩, ?_⟩
  · rw [List.head?_append, isFirst]
    rfl
  · rw [List.isChain_append]
    refine ⟨gapFree.chain, List.IsChain.singleton flashblock, ?_⟩
    intro other isOther next isNext
    have sameLast : other = last := Option.some.inj (isOther.symm.trans isLast)
    have sameNext : next = flashblock := (Option.some.inj isNext).symm
    rw [sameLast, sameNext]
    exact follows

theorem chain_filter (canonical : Nat) (flashblocks : List FlashBlock)
    (chain : flashblocks.IsChain Follows)
    (begins : ∀ first ∈ flashblocks.head?, first.index = 0 ∨ first.blockNumber ≤ canonical) :
    flashblocks.filter (fun flashblock => decide (canonical < flashblock.blockNumber)) = [] ∨
      GapFree (flashblocks.filter fun flashblock =>
        decide (canonical < flashblock.blockNumber)) := by
  induction flashblocks with
  | nil => exact Or.inl rfl
  | cons head rest ih =>
      have headBegins := begins head rfl
      have ordered := chain_ordered chain
      obtain ⟨follows, restChain⟩ := List.isChain_cons.mp chain
      by_cases above : canonical < head.blockNumber
      · have zero : head.index = 0 := by omega
        have kept : (head :: rest).filter
            (fun flashblock => decide (canonical < flashblock.blockNumber)) = head :: rest := by
          rw [List.filter_eq_self]
          intro flashblock member
          rcases List.mem_cons.mp member with rfl | member
          · simpa using above
          · have later := (List.pairwise_cons.mp ordered).1 flashblock member
            have stillAbove : canonical < flashblock.blockNumber := by omega
            simpa using stillAbove
        rw [kept]
        exact Or.inr ⟨⟨head, rfl, zero⟩, chain⟩
      · have dropped : (head :: rest).filter
            (fun flashblock => decide (canonical < flashblock.blockNumber)) =
            rest.filter fun flashblock => decide (canonical < flashblock.blockNumber) := by
          simp [above]
        rw [dropped]
        apply ih restChain
        intro next isNext
        rcases follows next isNext with ⟨same, -⟩ | ⟨-, zero⟩
        · right
          omega
        · left
          exact zero

/-! ## The blocks of a gap-free list -/

/-- The groups have consecutive numbers and indices that count from zero. -/
def Counted (start : Nat) (groups : List (Nat × List FlashBlock)) : Prop :=
  ∀ position group, groups[position]? = some group →
    group.1 = start + position ∧
      group.2.map FlashBlock.index = List.range group.2.length

theorem Counted.append {start : Nat} {groups : List (Nat × List FlashBlock)}
    {group : Nat × List FlashBlock} (counted : Counted start groups)
    (number : group.1 = start + groups.length)
    (indices : group.2.map FlashBlock.index = List.range group.2.length) :
    Counted start (groups ++ [group]) := by
  intro position other found
  by_cases inside : position < groups.length
  · rw [List.getElem?_append_left inside] at found
    exact counted position other found
  · rw [List.getElem?_append_right (by omega)] at found
    have last : position = groups.length := by
      have bound := (List.getElem?_eq_some_iff.mp found).1
      simp only [List.length_singleton] at bound
      omega
    subst last
    simp only [Nat.sub_self, List.getElem?_cons_zero, Option.some.injEq] at found
    subst found
    exact ⟨number, indices⟩

theorem Counted.of_append {start : Nat} {groups : List (Nat × List FlashBlock)}
    {group : Nat × List FlashBlock} (counted : Counted start (groups ++ [group])) :
    Counted start groups ∧ group.1 = start + groups.length ∧
      group.2.map FlashBlock.index = List.range group.2.length := by
  refine ⟨?_, counted groups.length group (by simp)⟩
  intro position other found
  have inside := (List.getElem?_eq_some_iff.mp found).1
  exact counted position other (by rw [List.getElem?_append_left inside]; exact found)

theorem counted_append {xs : List FlashBlock} {y x : FlashBlock} {start : Nat}
    (ordered : Ordered (xs ++ [y] ++ [x])) (follows : Follows y x)
    (counted : Counted start (flashblocksPerBlock (xs ++ [y]))) :
    Counted start (flashblocksPerBlock (xs ++ [y] ++ [x])) := by
  unfold flashblocksPerBlock at counted ⊢
  obtain ⟨before, values, shape, below, -⟩ :=
    groupEntries_last FlashBlock.blockNumber xs y ordered.of_append
  rw [shape] at counted
  obtain ⟨beforeCounted, number, indices⟩ := counted.of_append
  rw [groupEntries_append, shape]
  rcases follows with ⟨sameBlock, nextIndex⟩ | ⟨nextBlock, zero⟩
  · rw [sameBlock, pushEntry_last _ _ _ _ below]
    refine beforeCounted.append number ?_
    -- The last index of the group is one below its length.
    have lastIndex : y.index = values.length := by
      simp only [List.map_append, List.map_cons, List.map_nil, List.length_append,
        List.length_singleton, List.range_succ] at indices
      have tails := List.append_inj_right' indices rfl
      simpa using tails
    dsimp only at indices ⊢
    rw [List.map_append, indices]
    simp [List.range_succ, nextIndex, lastIndex]
  · rw [pushEntry_above]
    · refine counted.append ?_ (by simp [zero])
      simp only at number
      simp only [List.length_append, List.length_singleton]
      omega
    · intro group member
      rcases List.mem_append.mp member with member | member
      · have less := below group member
        omega
      · rw [List.mem_singleton.mp member]
        omega

theorem GapFree.counted {flashblocks : List FlashBlock} (gapFree : GapFree flashblocks) :
    ∃ first ∈ flashblocks.head?, Counted first.blockNumber (flashblocksPerBlock flashblocks) := by
  obtain ⟨first, isFirst, zero⟩ := gapFree.starts
  refine ⟨first, isFirst, ?_⟩
  have chain := gapFree.chain
  clear gapFree
  induction flashblocks using List.reverseRecOn with
  | nil => cases isFirst
  | append_singleton xs x ih =>
      cases xs using List.reverseRecOn with
      | nil =>
          cases isFirst
          intro position group found
          have last : position = 0 := by
            have bound := (List.getElem?_eq_some_iff.mp found).1
            simp only [flashblocksPerBlock, groupEntries, List.nil_append, List.foldl_cons,
              List.foldl_nil, pushEntry, List.length_singleton] at bound
            omega
          subst last
          cases found
          exact ⟨rfl, by simp [zero]⟩
      | append_singleton xs y =>
          have ordered := chain_ordered chain
          obtain ⟨earlier, -, follows⟩ := List.isChain_append.mp chain
          have step := follows y (by simp) x rfl
          refine counted_append ordered step (ih ?_ earlier)
          rw [List.head?_append_of_ne_nil _ (by simp)] at isFirst
          exact isFirst

/-! ## Snapshots -/

variable {processor : StateProcessor}

/-- What every build is started with and gives back: gap-free flashblocks whose
numbers agree, and the snapshot they describe. -/
structure Sound (processor : StateProcessor) (pending : PendingBlocks) : Prop where
  gapFree : GapFree pending.flashblocks
  agree : ∀ flashblock ∈ pending.flashblocks, flashblock.NumbersAgree
  described : ∃ perBlock, Describes processor pending.flashblocks pending perBlock

theorem build_sound {client : Client} {prev : Option PendingBlocks}
    {flashblocks : List FlashBlock} {built : PendingBlocks} (gapFree : GapFree flashblocks)
    (agree : ∀ flashblock ∈ flashblocks, flashblock.NumbersAgree)
    (success : processor.buildPendingState client prev flashblocks = .ok (some built)) :
    Sound processor built ∧ built.flashblocks = flashblocks := by
  obtain ⟨run, returns⟩ := buildPendingState_ok success
  obtain ⟨perBlock, describes⟩ := returns_describes gapFree.ordered agree returns
  have whole := describes.whole
  refine ⟨⟨?_, ?_, perBlock, ?_⟩, whole⟩
  · rw [whole]
    exact gapFree
  · rw [whole]
    exact agree
  · rw [whole]
    exact describes

section Sound

variable {pending : PendingBlocks}

theorem Sound.last (sound : Sound processor pending) :
    ∃ last, pending.flashblocks.getLast? = some last ∧
      pending.latestBlockNumber = last.blockNumber ∧
      pending.latestFlashblockIndex = last.index ∧ pending.payloadId = last.payloadId := by
  obtain ⟨perBlock, describes⟩ := sound.described
  obtain ⟨first, isFirst, -⟩ := sound.gapFree.starts
  have nonempty : pending.flashblocks ≠ [] := List.ne_nil_of_mem (List.mem_of_head? isFirst)
  obtain ⟨last, isLast⟩ := Option.isSome_iff_exists.mp (List.getLast?_isSome.mpr nonempty)
  refine ⟨last, isLast, describes.last sound.gapFree.ordered isLast, describes.index last isLast, ?_⟩
  rw [PendingBlocks.payloadId, isLast]

theorem Sound.le_latest (sound : Sound processor pending) {flashblock : FlashBlock}
    (member : flashblock ∈ pending.flashblocks) :
    flashblock.blockNumber ≤ pending.latestBlockNumber := by
  obtain ⟨last, isLast, number, -, -⟩ := sound.last
  have ordered := sound.gapFree.ordered
  rcases List.eq_nil_or_concat' pending.flashblocks with empty | ⟨others, final, shape⟩
  · rw [empty] at member
    cases member
  · have same : final = last := by simpa [shape] using isLast
    rw [shape] at member ordered
    rw [number, ← same]
    rcases List.mem_append.mp member with member | member
    · exact ordered.le_last member
    · rw [List.mem_singleton.mp member]

theorem Sound.first (sound : Sound processor pending) :
    ∃ first, pending.flashblocks.head? = some first ∧ first.index = 0 ∧
      pending.earliestBlockNumber = first.blockNumber := by
  obtain ⟨perBlock, describes⟩ := sound.described
  obtain ⟨first, isFirst, zero⟩ := sound.gapFree.starts
  exact ⟨first, isFirst, zero, describes.first sound.gapFree.ordered isFirst⟩

theorem Sound.follows (sound : Sound processor pending) {flashblock : FlashBlock}
    (continues : Continues pending flashblock) :
    GapFree (pending.flashblocks ++ [flashblock]) := by
  obtain ⟨last, isLast, number, index, -⟩ := sound.last
  refine sound.gapFree.append isLast ?_
  unfold Continues at continues
  rw [number, index] at continues
  exact continues

theorem Sound.retained (sound : Sound processor pending) (node : Node) (block : Block) :
    retained node block pending = [] ∨ GapFree (retained node block pending) := by
  obtain ⟨first, isFirst, zero⟩ := sound.gapFree.starts
  refine chain_filter (node.effectiveCanonicalNumber block.number) _ sound.gapFree.chain ?_
  intro other isOther
  have same : other = first := Option.some.inj (isOther.symm.trans isFirst)
  left
  rw [same]
  exact zero

end Sound

inductive Lists (node : Node) : Option (Arc PendingBlocks) → StateUpdate → List FlashBlock → Prop
  | fresh {prev : Option (Arc PendingBlocks)} {flashblock : FlashBlock}
      (first : flashblock.index = 0) : Lists node prev (.flashblock flashblock) [flashblock]
  | appended {pending : Arc PendingBlocks} {flashblock : FlashBlock}
      (continues : Continues pending.value flashblock) :
      Lists node (some pending) (.flashblock flashblock) (pending.value.flashblocks ++ [flashblock])
  | retained {pending : Arc PendingBlocks} {block : Block} :
      Lists node (some pending) (.canonical block) (retained node block pending.value)
  | continued {pending : Arc PendingBlocks} {block : Block} :
      Lists node (some pending) (.canonical block) pending.value.flashblocks

theorem builds_sound {node : Node} {prev : Option (Arc PendingBlocks)} {update : StateUpdate}
    {built : PendingBlocks} (before : ∀ pending, prev = some pending → Sound processor pending.value)
    (agree : ∀ flashblock, update = .flashblock flashblock → flashblock.NumbersAgree)
    (builds : Builds processor node prev update built) :
    Sound processor built ∧ Lists node prev update built.flashblocks := by
  cases builds with
  | fresh first _ success =>
      have agreeing := agree _ rfl
      obtain ⟨sound, whole⟩ := build_sound (gapFree_singleton first) (by simpa using agreeing) success
      exact ⟨sound, by rw [whole]; exact .fresh first⟩
  | appended continues success =>
      have old := before _ rfl
      have agreeing := agree _ rfl
      obtain ⟨sound, whole⟩ := build_sound (old.follows continues) (by
        intro other member
        rcases List.mem_append.mp member with member | member
        · exact old.agree other member
        · rw [List.mem_singleton.mp member]
          exact agreeing) success
      exact ⟨sound, by rw [whole]; exact .appended continues⟩
  | retained success =>
      have old := before _ rfl
      rcases old.retained node _ with empty | gapFree
      · rw [empty] at success
        cases success
      · obtain ⟨sound, whole⟩ := build_sound gapFree
          (fun other member => old.agree other (List.mem_of_mem_filter member)) success
        exact ⟨sound, by rw [whole]; exact .retained⟩
  | continued _ success =>
      have old := before _ rfl
      obtain ⟨sound, whole⟩ := build_sound old.gapFree old.agree success
      exact ⟨sound, by rw [whole]; exact .continued⟩

theorem sound_kept {guard : Guard} (agree : ∀ flashblock, guard.wire flashblock →
    flashblock.NumbersAgree) : KeptByBuilds processor guard (Sound processor) := by
  intro node prev update built before allowed builds
  refine (builds_sound before ?_ builds).1
  rintro flashblock rfl
  exact agree flashblock allowed.1

/-! ## The main result -/

/-- The flashblocks are the blocks one after another: consecutive numbers from
`start` on, indices counting from zero in every block, and a base payload in the
first flashblock of each. -/
structure ConsecutiveBlocks (start : Nat) (blocks : List (List FlashBlock))
    (flashblocks : List FlashBlock) : Prop where
  whole : flashblocks = blocks.flatten
  numbered : ∀ position block, blocks[position]? = some block →
    ∀ flashblock ∈ block, flashblock.blockNumber = start + position
  indexed : ∀ block ∈ blocks, block ≠ [] ∧ block.map FlashBlock.index = List.range block.length
  based : ∀ block ∈ blocks, ∃ first base, block.head? = some first ∧ first.base = some base

theorem Sound.consecutiveBlocks {pending : PendingBlocks} (sound : Sound processor pending) :
    ∃ first ∈ pending.flashblocks.head?,
      ConsecutiveBlocks first.blockNumber
        ((flashblocksPerBlock pending.flashblocks).map Prod.snd) pending.flashblocks := by
  obtain ⟨perBlock, describes⟩ := sound.described
  obtain ⟨first, isFirst, counted⟩ := sound.gapFree.counted
  have keyed := groupEntries_keyed FlashBlock.blockNumber pending.flashblocks
  refine ⟨first, isFirst, ?_⟩
  constructor
  case whole =>
    have same := ungroup_groupEntries _ _ sound.gapFree.ordered
    rw [ungroup, List.flatMap_def] at same
    exact same.symm
  case numbered =>
    intro position block found flashblock member
    rw [List.getElem?_map] at found
    obtain ⟨group, isGroup, rfl⟩ := Option.map_eq_some_iff.mp found
    rw [← (counted position group isGroup).1]
    exact (keyed group (List.mem_of_getElem? isGroup)).2 flashblock member
  case indexed =>
    intro block member
    obtain ⟨group, inGroups, rfl⟩ := List.mem_map.mp member
    obtain ⟨position, found⟩ := List.getElem?_of_mem inGroups
    exact ⟨(keyed group inGroups).1, (counted position group found).2⟩
  case based =>
    intro block member
    obtain ⟨group, inGroups, rfl⟩ := List.mem_map.mp member
    obtain ⟨base, isBase⟩ := Option.isSome_iff_exists.mp (describes.based group inGroups)
    obtain ⟨head, isHead, baseOf⟩ := Option.bind_eq_some_iff.mp isBase
    exact ⟨head, base, isHead, baseOf⟩

/-- Every snapshot a reader can see is a gap-free run of flashblocks, and its
ends are those of the run. -/
theorem visible_snapshot_consecutive {state : ProcessorState} {pending : Arc PendingBlocks}
    (visible : Visible processor (Guard.onWire FlashBlock.NumbersAgree) state)
    (published : state.pendingBlocks = some pending) :
    ∃ first last blocks,
      pending.value.flashblocks.head? = some first ∧
      pending.value.flashblocks.getLast? = some last ∧
      ConsecutiveBlocks first.blockNumber blocks pending.value.flashblocks ∧
      pending.value.earliestBlockNumber = first.blockNumber ∧
      pending.value.latestBlockNumber = last.blockNumber ∧
      pending.value.latestFlashblockIndex = last.index ∧
      pending.value.payloadId = last.payloadId := by
  have kept : KeptByBuilds processor (Guard.onWire FlashBlock.NumbersAgree) (Sound processor) :=
    sound_kept fun _ agree => agree
  have sound := (kept.visible visible).1 pending published
  obtain ⟨first, isFirst, -, earliest⟩ := sound.first
  obtain ⟨last, isLast, latest, index, payload⟩ := sound.last
  obtain ⟨start, isStart, blocks⟩ := sound.consecutiveBlocks
  have same : start = first := Option.some.inj (isStart.symm.trans isFirst)
  subst same
  exact ⟨start, last, _, isFirst, isLast, blocks, earliest, latest, index, payload⟩

def threeFlashblocks : List FlashBlock :=
  [Reference.flashblock 7 1 0 [(1, 0)] [(1, true)], Reference.flashblock 7 1 1 [(2, 1)] [(2, true)],
    Reference.flashblock 8 2 0 [(3, 2)] [(3, true)]]

theorem visible_snapshot_consecutive_three :
    ∃ pending, (Reference.afterFlashblocks (Reference.nodeAt 0 fun _ => 0) threeFlashblocks
        ).pendingBlocks = some pending ∧
      ∃ first last blocks,
        pending.value.flashblocks.head? = some first ∧
        pending.value.flashblocks.getLast? = some last ∧
        ConsecutiveBlocks first.blockNumber blocks pending.value.flashblocks ∧
        pending.value.earliestBlockNumber = first.blockNumber ∧
        pending.value.latestBlockNumber = last.blockNumber ∧
        pending.value.latestFlashblockIndex = last.index ∧
        pending.value.payloadId = last.payloadId := by
  have agree : ∀ flashblock ∈ threeFlashblocks, flashblock.NumbersAgree := by
    intro flashblock member
    simp only [threeFlashblocks, List.mem_cons, List.not_mem_nil, or_false] at member
    rcases member with rfl | rfl | rfl <;> exact Reference.flashblock_agrees _ _ _ _ _
  have reached := Reference.afterFlashblocks_reachable (Reference.nodeAt 0 fun _ => 0) agree
  obtain ⟨pending, published⟩ := Option.isSome_iff_exists.mp (show (Reference.afterFlashblocks
    (Reference.nodeAt 0 fun _ => 0) threeFlashblocks).pendingBlocks.isSome = true by decide)
  exact ⟨pending, published, visible_snapshot_consecutive (.reached reached) published⟩

end EthgasReth.Contiguous

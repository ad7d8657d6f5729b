import EthgasReth.Simulator.InclusionProducer

/-!
# What the published inclusion lists hold

One build is a greedy selection in score order that keeps its candidates.  Along a
run the two collections can part in two ways: an entry of an equal score keeps a new
transaction out of the ordered set, and a transaction that was demoted and comes
back under another score gets a second entry.
-/

set_option autoImplicit false

namespace EthgasReth.Simulator.InclusionList

open EthgasReth.Primitives
open EthgasReth.Lib
open EthgasReth.Simulator.InclusionProducer

/-! ## One build -/

/-- What the loop has made of the entries it has seen: `taken` are those it
published, each with its transaction. -/
structure Selects (pendingTxs : PendingTxs) (seen : List OrderedTx) (selection : Selection)
    (taken : List (OrderedTx × ValidPoolTransaction)) : Prop where
  pending : ∀ pair ∈ taken, pendingTxs.lookup pair.1.txHash = some pair.2
  ordered : (taken.map Prod.fst).Sublist seen
  list : selection.inclusionList = taken.map fun pair => pair.2.encoded
  size : selection.totalEncodedSize = (taken.map fun pair => pair.2.encodedLength).sum
  bounded : selection.totalEncodedSize ≤ maxListBytes
  maximal : ∀ entry ∈ seen, ∀ tx, pendingTxs.lookup entry.txHash = some tx →
    entry ∉ taken.map Prod.fst → maxListBytes < selection.totalEncodedSize + tx.encodedLength
  kept : selection.toAdd = seen.filter fun entry => (pendingTxs.lookup entry.txHash).isSome

section Build

variable {pendingTxs : PendingTxs} {seen : List OrderedTx} {selection : Selection}
  {taken : List (OrderedTx × ValidPoolTransaction)}

theorem selects_empty : Selects pendingTxs [] Selection.empty [] where
  pending := by simp
  ordered := List.Sublist.refl _
  list := rfl
  size := rfl
  bounded := Nat.zero_le _
  maximal := by simp
  kept := rfl

theorem considerTx_selects (selects : Selects pendingTxs seen selection taken) (entry : OrderedTx) :
    ∃ now, Selects pendingTxs (seen ++ [entry]) (considerTx pendingTxs selection entry) now := by
  unfold considerTx
  cases found : pendingTxs.lookup entry.txHash with
  | none =>
      refine ⟨taken, selects.pending, selects.ordered.trans (List.sublist_append_left ..),
        selects.list, selects.size, selects.bounded, ?_, ?_⟩
      · intro other member tx isPending
        rcases List.mem_append.mp member with member | member
        · exact selects.maximal other member tx isPending
        · rw [List.mem_singleton.mp member, found] at isPending
          cases isPending
      · simp [selects.kept, found]
  | some tx =>
      dsimp only
      split
      · rename_i tooLong
        refine ⟨taken, selects.pending, selects.ordered.trans (List.sublist_append_left ..),
          selects.list, selects.size, selects.bounded, ?_, ?_⟩
        · intro other member otherTx isPending unpublished
          rcases List.mem_append.mp member with member | member
          · exact selects.maximal other member otherTx isPending unpublished
          · rw [List.mem_singleton.mp member, found] at isPending
            cases isPending
            exact tooLong
        · simp [selects.kept, found]
      · rename_i fits
        refine ⟨taken ++ [(entry, tx)], ?_, ?_, ?_, ?_, Nat.not_lt.mp fits, ?_, ?_⟩
        · intro pair member
          rcases List.mem_append.mp member with member | member
          · exact selects.pending pair member
          · rw [List.mem_singleton.mp member]
            exact found
        · rw [List.map_append]
          exact selects.ordered.append (List.Sublist.refl _)
        · simp [selects.list]
        · simp [selects.size]
        · -- The total has only grown since an earlier entry was skipped.
          intro other member otherTx isPending unpublished
          rw [List.map_append, List.mem_append, not_or] at unpublished
          rcases List.mem_append.mp member with member | member
          · have skipped := selects.maximal other member otherTx isPending unpublished.1
            dsimp only
            omega
          · exact absurd member unpublished.2
        · simp [selects.kept, found]

theorem foldl_selects (entries : List OrderedTx) (selects : Selects pendingTxs seen selection taken) :
    ∃ now, Selects pendingTxs (seen ++ entries)
      (entries.foldl (considerTx pendingTxs) selection) now := by
  induction entries generalizing seen selection taken with
  | nil =>
      rw [List.append_nil]
      exact ⟨taken, selects⟩
  | cons entry rest ih =>
      obtain ⟨next, nextSelects⟩ := considerTx_selects selects entry
      obtain ⟨now, whole⟩ := ih nextSelects
      rw [List.append_assoc] at whole
      exact ⟨now, whole⟩

theorem selectTxs_selects (orderedTxs : OrderedTxs) (pendingTxs : PendingTxs) :
    ∃ taken, Selects pendingTxs orderedTxs.entries (selectTxs orderedTxs pendingTxs) taken :=
  foldl_selects orderedTxs.entries selects_empty

theorem buildInclusionList_keeps (orderedTxs : OrderedTxs) (pendingTxs : PendingTxs) :
    (buildInclusionList orderedTxs pendingTxs).2.entries =
      orderedTxs.entries.filter fun entry => (pendingTxs.lookup entry.txHash).isSome := by
  obtain ⟨taken, selects⟩ := selectTxs_selects orderedTxs pendingTxs
  have sorted : (selectTxs orderedTxs pendingTxs).toAdd.Pairwise
      fun a b => OrderedTx.rank a < OrderedTx.rank b := by
    rw [selects.kept]
    exact orderedTxs.sorted.filter _
  exact (KeyedSet.extend_empty _ sorted).trans selects.kept

end Build

/-- A build publishes pending transactions in score order, as many as fit: an entry
that it passes over would not fit beside the list.  It leaves the ordered set with
exactly the entries that are still pending. -/
theorem buildInclusionList_selects (orderedTxs : OrderedTxs) (pendingTxs : PendingTxs) :
    ∃ taken : List (OrderedTx × ValidPoolTransaction),
      (buildInclusionList orderedTxs pendingTxs).1 = (taken.map fun pair => pair.2.encoded) ∧
      (taken.map fun pair => pair.2.encodedLength).sum ≤ maxListBytes ∧
      (taken.map Prod.fst).Sublist orderedTxs.entries ∧
      (taken.map Prod.fst).Pairwise (fun a b => b.score < a.score) ∧
      (∀ pair ∈ taken, pendingTxs.lookup pair.1.txHash = some pair.2) ∧
      (∀ entry ∈ orderedTxs.entries, ∀ tx, pendingTxs.lookup entry.txHash = some tx →
        entry ∉ taken.map Prod.fst →
        maxListBytes < (taken.map fun pair => pair.2.encodedLength).sum + tx.encodedLength) ∧
      (buildInclusionList orderedTxs pendingTxs).2.entries =
        orderedTxs.entries.filter fun entry => (pendingTxs.lookup entry.txHash).isSome := by
  obtain ⟨taken, selects⟩ := selectTxs_selects orderedTxs pendingTxs
  refine ⟨taken, selects.list, ?_, selects.ordered, ?_, selects.pending, ?_,
    buildInclusionList_keeps orderedTxs pendingTxs⟩
  · rw [← selects.size]
    exact selects.bounded
  · exact orderedTxs.sorted.sublist selects.ordered
  · rw [← selects.size]
    exact selects.maximal

/-! ## The ordering follows the map -/

def Tracked (state : ProducerState) : Prop :=
  ∀ hash, (state.pendingTxs.lookup hash).isSome →
    ∃ entry ∈ state.orderedTxs.entries, entry.txHash = hash

variable {externals : Externals}

/-- A transaction that becomes pending has an entry already, or no entry has its
score. -/
def Unshadowed (externals : Externals) (state : ProducerState) : Input → Prop
  | .txEvent pool now (.pending txHash) =>
      ∀ tx, accepted pool txHash = some tx →
        (∃ entry ∈ state.orderedTxs.entries, entry.txHash = externals.hash tx) ∨
          ∀ entry ∈ state.orderedTxs.entries, entry.score ≠ externals.scoreTx now tx
  | _ => True

theorem lookup_erase_isSome {pendingTxs : PendingTxs} {gone hash : B256}
    (present : ((pendingTxs.erase gone).lookup hash).isSome) :
    (pendingTxs.lookup hash).isSome := by
  by_cases same : hash = gone
  · subst same
    rw [AList.lookup_erase] at present
    cases present
  · rw [AList.lookup_erase_ne same] at present
    exact present

theorem insert_tracked_iff {state : ProducerState} (tracked : Tracked state) (now : Nat)
    (tx : ValidPoolTransaction) :
    Tracked { state with
        orderedTxs := state.orderedTxs.insert (externals.orderedTx now tx)
        pendingTxs := state.pendingTxs.insert (externals.hash tx) tx } ↔
      (∃ entry ∈ state.orderedTxs.entries, entry.txHash = externals.hash tx) ∨
        ∀ entry ∈ state.orderedTxs.entries, entry.score ≠ externals.scoreTx now tx := by
  constructor
  · intro after
    obtain ⟨entry, member, isHash⟩ := after (externals.hash tx) (by simp)
    rcases (KeyedSet.mem_insert _ _ _).mp member with member | ⟨-, unequal⟩
    · exact Or.inl ⟨entry, member, isHash⟩
    · exact Or.inr unequal
  · intro condition hash present
    by_cases same : hash = externals.hash tx
    · subst same
      rcases condition with ⟨entry, member, isHash⟩ | unequal
      · exact ⟨entry, (KeyedSet.mem_insert _ _ _).mpr (Or.inl member), isHash⟩
      · exact ⟨externals.orderedTx now tx,
          (KeyedSet.mem_insert _ _ _).mpr (Or.inr ⟨rfl, unequal⟩), rfl⟩
    · rw [AList.lookup_insert_ne same] at present
      obtain ⟨entry, member, isHash⟩ := tracked hash present
      exact ⟨entry, (KeyedSet.mem_insert _ _ _).mpr (Or.inl member), isHash⟩

theorem erase_tracked {state : ProducerState} (tracked : Tracked state) (gone : B256) :
    Tracked { state with pendingTxs := state.pendingTxs.erase gone } :=
  fun hash present => tracked hash (lookup_erase_isSome present)

theorem commit_tracked {state : ProducerState} (tracked : Tracked state) :
    Tracked (state.step externals .commit) := by
  intro hash present
  obtain ⟨entry, member, isHash⟩ := tracked hash present
  refine ⟨entry, ?_, isHash⟩
  change entry ∈ (buildInclusionList state.orderedTxs state.pendingTxs).2.entries
  rw [buildInclusionList_keeps, List.mem_filter]
  refine ⟨member, ?_⟩
  rw [isHash]
  exact present

theorem step_tracked_iff {state : ProducerState} (tracked : Tracked state) (input : Input) :
    Tracked (state.step externals input) ↔ Unshadowed externals state input := by
  cases input with
  | txEvent pool now event =>
      cases event with
      | pending txHash =>
          simp only [ProducerState.step, handleTxEvent, Unshadowed]
          cases accepted pool txHash with
          | none => exact iff_of_true tracked (by simp)
          | some tx =>
              rw [insert_tracked_iff tracked now tx]
              simp
      | queued txHash => exact iff_of_true (erase_tracked tracked txHash) trivial
      | mined txHash _ => exact iff_of_true (erase_tracked tracked txHash) trivial
      | replaced tx _ => exact iff_of_true (erase_tracked tracked (externals.hash tx)) trivial
      | discarded txHash => exact iff_of_true (erase_tracked tracked txHash) trivial
      | invalid txHash => exact iff_of_true (erase_tracked tracked txHash) trivial
      | propagated => exact iff_of_true tracked trivial
  | commit => exact iff_of_true (commit_tracked tracked) trivial
  | reorg => exact iff_of_true tracked trivial

/-- In every run in which no transaction becomes pending behind an entry of its own
score, every pending transaction is in the ordered set; and the next input keeps
that exactly when it is of this kind again. -/
theorem pending_ordered_iff {state : ProducerState}
    (reached : (producer externals (Unshadowed externals)).Reachable state) :
    Tracked state ∧
      ∀ input, Tracked (state.step externals input) ↔ Unshadowed externals state input := by
  have tracked : Tracked state := by
    refine System.Reachable.invariant ?_ ?_ reached
    · rintro state rfl hash present
      cases present
    · rintro state next - tracked ⟨input, met, rfl⟩
      exact (step_tracked_iff tracked input).mpr met
  exact ⟨tracked, step_tracked_iff tracked⟩

/-! ### A small pool -/

/-- `f64` arithmetic as far as it is exact on zero and on powers of two, and a
stand-in for the hash. -/
def exactExternals : Externals where
  ofNat := fun n => if n = 0 then ⟨0⟩ else ⟨BitVec.ofNat 64 ((1023 + n.log2) * 2 ^ 52)⟩
  mul := fun x y =>
    if x.bits = 0 ∨ y.bits = 0 then ⟨0⟩ else ⟨x.bits + y.bits - 0x3ff0000000000000⟩
  div := fun x y => if x.bits = 0 then ⟨0⟩ else ⟨x.bits - y.bits + 0x3ff0000000000000⟩
  keccak256 := fun bytes => BitVec.ofNat 256 (bytes.foldl (fun value b => value * 256 + b.toNat) 0)

def poolTx (fee : Nat) (encoded : Bytes) : ValidPoolTransaction where
  timestamp := 0
  blobCount := none
  gasLimit := 32768
  priorityFeeOrPrice := fee
  encodedLength := encoded.length
  encoded := encoded

def holding (tx : ValidPoolTransaction) : B256 → Option ValidPoolTransaction :=
  fun hash => if hash = exactExternals.hash tx then some tx else none

def becomesPending (now : Nat) (tx : ValidPoolTransaction) : Input :=
  .txEvent (holding tx) now (.pending (exactExternals.hash tx))

def afterInputs (inputs : List Input) : ProducerState :=
  inputs.foldl (fun state input => state.step exactExternals input) .initial

theorem afterInputs_reachable (inputs : List Input) :
    (producer exactExternals fun _ _ => True).Reachable (afterInputs inputs) := by
  induction inputs using List.reverseRecOn with
  | nil => exact .init rfl
  | append_singleton earlier input ih =>
      refine .step ih ⟨input, trivial, ?_⟩
      simp [afterInputs]

/-- A first transaction has no entry to compete with. -/
theorem pending_ordered_one :
    Tracked (afterInputs [becomesPending 1 (poolTx 0 [7])]) ∧
      ((afterInputs [becomesPending 1 (poolTx 0 [7])]).pendingTxs.lookup 7).isSome := by
  have reached : (producer exactExternals (Unshadowed exactExternals)).Reachable
      (afterInputs [becomesPending 1 (poolTx 0 [7])]) := by
    refine .step (.init rfl) ⟨becomesPending 1 (poolTx 0 [7]), ?_, rfl⟩
    intro tx _
    right
    intro entry member
    cases member
  exact ⟨(pending_ordered_iff reached).1, by decide⟩

/-- Two transactions without a priority fee both score zero, and the second one never
enters the ordered set. -/
theorem equal_scores_lose_transaction :
    ¬ ∀ (externals : Externals) (state : ProducerState),
      (producer externals fun _ _ => True).Reachable state → Tracked state := by
  intro claim
  let state := afterInputs [becomesPending 1 (poolTx 0 [7]), becomesPending 1 (poolTx 0 [8])]
  obtain ⟨entry, member, isHash⟩ := claim exactExternals state (afterInputs_reachable _) 8
    (by decide)
  have lost : state.orderedTxs.entries.all (fun entry => decide (entry.txHash ≠ 8)) = true := by
    decide
  have differs := of_decide_eq_true (List.all_eq_true.mp lost entry member)
  exact differs isHash

/-! ## No transaction twice -/

/-- No transaction has two entries, the map is keyed by the hash, and no list holds
a transaction twice. -/
structure Unique (externals : Externals) (state : ProducerState) : Prop where
  entries : ∀ a ∈ state.orderedTxs.entries, ∀ b ∈ state.orderedTxs.entries,
    a.txHash = b.txHash → a = b
  keys : ∀ hash tx, state.pendingTxs.lookup hash = some tx → externals.hash tx = hash
  lists : ∀ list ∈ state.published, list.Nodup

/-- A transaction that becomes pending has no entry yet, or an entry with its score is
there and no second one is added. -/
def Unrepeated (externals : Externals) (state : ProducerState) : Input → Prop
  | .txEvent pool now (.pending txHash) =>
      ∀ tx, accepted pool txHash = some tx →
        (∀ entry ∈ state.orderedTxs.entries, entry.txHash ≠ externals.hash tx) ∨
          ∃ entry ∈ state.orderedTxs.entries, entry.score = externals.scoreTx now tx
  | _ => True

theorem insert_unique {state : ProducerState} (unique : Unique externals state) {now : Nat}
    {tx : ValidPoolTransaction}
    (unrepeated : (∀ entry ∈ state.orderedTxs.entries, entry.txHash ≠ externals.hash tx) ∨
      ∃ entry ∈ state.orderedTxs.entries, entry.score = externals.scoreTx now tx) :
    Unique externals { state with
      orderedTxs := state.orderedTxs.insert (externals.orderedTx now tx)
      pendingTxs := state.pendingTxs.insert (externals.hash tx) tx } := by
  -- An entry that insertion added has no older entry of its hash beside it.
  have added : (∀ other ∈ state.orderedTxs.entries,
      other.rank ≠ (externals.orderedTx now tx).rank) →
      ∀ entry ∈ state.orderedTxs.entries, entry.txHash ≠ externals.hash tx := by
    intro unequal
    rcases unrepeated with absent | ⟨entry, member, same⟩
    · exact absent
    · exact absurd (congrArg OrderDual.toDual same) (unequal entry member)
  refine ⟨?_, ?_, unique.lists⟩
  · intro a inA b inB same
    rcases (KeyedSet.mem_insert _ _ _).mp inA with inA | ⟨rfl, unequal⟩
    · rcases (KeyedSet.mem_insert _ _ _).mp inB with inB | ⟨rfl, unequal⟩
      · exact unique.entries a inA b inB same
      · exact absurd same (added unequal a inA)
    · rcases (KeyedSet.mem_insert _ _ _).mp inB with inB | ⟨rfl, -⟩
      · exact absurd same.symm (added unequal b inB)
      · rfl
  · intro hash other found
    by_cases same : hash = externals.hash tx
    · subst same
      rw [AList.lookup_insert] at found
      cases found
      rfl
    · rw [AList.lookup_insert_ne same] at found
      exact unique.keys hash other found

theorem erase_unique {state : ProducerState} (unique : Unique externals state) (gone : B256) :
    Unique externals { state with pendingTxs := state.pendingTxs.erase gone } := by
  refine ⟨unique.entries, ?_, unique.lists⟩
  intro hash tx found
  by_cases same : hash = gone
  · subst same
    rw [AList.lookup_erase] at found
    cases found
  · rw [AList.lookup_erase_ne same] at found
    exact unique.keys hash tx found

theorem buildInclusionList_nodup {state : ProducerState} (unique : Unique externals state) :
    (buildInclusionList state.orderedTxs state.pendingTxs).1.Nodup := by
  obtain ⟨taken, selects⟩ := selectTxs_selects state.orderedTxs state.pendingTxs
  have entriesNodup : (taken.map Prod.fst).Nodup :=
    (state.orderedTxs.sorted.imp fun less same => by
      subst same
      exact lt_irrefl _ less).sublist selects.ordered
  have hashesNodup : ((taken.map Prod.fst).map OrderedTx.txHash).Nodup := by
    rw [List.nodup_map_iff_inj_on entriesNodup]
    intro a inA b inB
    exact unique.entries a (selects.ordered.subset inA) b (selects.ordered.subset inB)
  have hashes : (taken.map fun pair => pair.2.encoded).map externals.keccak256 =
      (taken.map Prod.fst).map OrderedTx.txHash := by
    rw [List.map_map, List.map_map]
    apply List.map_congr_left
    intro pair member
    exact unique.keys _ _ (selects.pending pair member)
  have distinct : ((taken.map fun pair => pair.2.encoded).map externals.keccak256).Nodup := by
    rw [hashes]
    exact hashesNodup
  change (selectTxs state.orderedTxs state.pendingTxs).inclusionList.Nodup
  rw [selects.list]
  exact distinct.of_map _

theorem commit_unique {state : ProducerState} (unique : Unique externals state) :
    Unique externals (state.step externals .commit) := by
  have kept : (state.step externals .commit).orderedTxs.entries =
      state.orderedTxs.entries.filter fun entry => (state.pendingTxs.lookup entry.txHash).isSome :=
    buildInclusionList_keeps state.orderedTxs state.pendingTxs
  refine ⟨?_, unique.keys, ?_⟩
  · rw [kept]
    intro a inA b inB
    exact unique.entries a (List.mem_of_mem_filter inA) b (List.mem_of_mem_filter inB)
  · intro list member
    rcases List.mem_append.mp member with member | member
    · exact unique.lists list member
    · rw [List.mem_singleton.mp member]
      exact buildInclusionList_nodup unique

theorem step_unique {state : ProducerState} (unique : Unique externals state) {input : Input}
    (met : Unrepeated externals state input) : Unique externals (state.step externals input) := by
  cases input with
  | txEvent pool now event =>
      cases event with
      | pending txHash =>
          simp only [ProducerState.step, handleTxEvent]
          cases isAccepted : accepted pool txHash with
          | none => exact unique
          | some tx => exact insert_unique unique (met tx isAccepted)
      | queued txHash => exact erase_unique unique txHash
      | mined txHash _ => exact erase_unique unique txHash
      | replaced tx _ => exact erase_unique unique (externals.hash tx)
      | discarded txHash => exact erase_unique unique txHash
      | invalid txHash => exact erase_unique unique txHash
      | propagated => exact unique
  | commit => exact commit_unique unique
  | reorg => exact unique

/-- In every run in which no transaction becomes pending beside an older entry of its
own, every published list holds each transaction once. -/
theorem published_lists_nodup {state : ProducerState}
    (reached : (producer externals (Unrepeated externals)).Reachable state) :
    ∀ list ∈ state.published, list.Nodup := by
  have unique : Unique externals state := by
    refine System.Reachable.invariant ?_ ?_ reached
    · rintro state rfl
      refine ⟨?_, ?_, ?_⟩
      · intro a member
        cases member
      · intro hash tx found
        cases found
      · intro list member
        cases member
    · rintro state next - unique ⟨input, met, rfl⟩
      exact step_unique unique met
  exact unique.lists

/-- One transaction, pending once and published. -/
theorem published_lists_nodup_one :
    (afterInputs [becomesPending 1 (poolTx 1 [7]), .commit]).published = [[[7]]] ∧
      ∀ list ∈ (afterInputs [becomesPending 1 (poolTx 1 [7]), .commit]).published, list.Nodup := by
  have first : (producer exactExternals (Unrepeated exactExternals)).Reachable
      (afterInputs [becomesPending 1 (poolTx 1 [7])]) := by
    refine .step (.init rfl) ⟨becomesPending 1 (poolTx 1 [7]), ?_, rfl⟩
    intro tx _
    left
    intro entry member
    cases member
  have reached : (producer exactExternals (Unrepeated exactExternals)).Reachable
      (afterInputs [becomesPending 1 (poolTx 1 [7]), .commit]) :=
    .step first ⟨.commit, trivial, rfl⟩
  exact ⟨by decide, published_lists_nodup reached⟩

/-- A transaction that becomes pending, is queued and becomes pending again a
microsecond later has two entries, and the next list holds it twice. -/
theorem requeued_transaction_listed_twice :
    ¬ ∀ (externals : Externals) (state : ProducerState),
      (producer externals fun _ _ => True).Reachable state →
        ∀ list ∈ state.published, list.Nodup := by
  intro claim
  let tx := poolTx 1 [7]
  let queued := Input.txEvent (holding tx) 1 (.queued (exactExternals.hash tx))
  let state := afterInputs [becomesPending 1 tx, queued, becomesPending 2 tx, .commit]
  have listed : state.published = [[[7], [7]]] := by decide
  have distinct := claim exactExternals state (afterInputs_reachable _) [[7], [7]]
    (by rw [listed]; exact List.mem_singleton_self _)
  exact absurd distinct (by decide)

end EthgasReth.Simulator.InclusionList

import EthgasReth.Primitives
import EthgasReth.Lib.System

/-!
# The subscription slots of the connections

`rpc/pubsub.rs` caps the flashblocks subscriptions of a connection.  A subscription holds
a `ConnectionSlot` from its start to its end; the map of counts gets an entry with the
first slot of a connection and loses it with the last.  The counter of queued messages
lives in the entry, so it is one counter for the connection as long as the connection
holds a slot.  `take` and `drop` hold the mutex of the map for their whole bodies: a run
is a sequence of them.
-/

set_option autoImplicit false

namespace EthgasReth.Rpc.ConnectionSlots

open EthgasReth.Primitives
open EthgasReth.Lib

abbrev ConnectionId := BitVec 64

/-! ## Slots and their counts -/

def maxFlashblocksSubscriptionsPerConnection : Nat := 32
def maxNewFlashblocksSubscriptionsPerConnection : Nat := 4

inductive SlotKind where
  | newFlashblocks
  | perItem
  deriving DecidableEq

def SlotKind.cap : SlotKind → Nat
  | .newFlashblocks => maxNewFlashblocksSubscriptionsPerConnection
  | .perItem => maxFlashblocksSubscriptionsPerConnection

/-- `queuedTotal` says which counter this is, by the order in which they were allocated. -/
structure HeldSubscriptions where
  newFlashblocks : Nat
  perItem : Nat
  queuedTotal : Nat
  deriving DecidableEq

namespace HeldSubscriptions

def count (held : HeldSubscriptions) : SlotKind → Nat
  | .newFlashblocks => held.newFlashblocks
  | .perItem => held.perItem

def setCount (held : HeldSubscriptions) (kind : SlotKind) (count : Nat) : HeldSubscriptions :=
  match kind with
  | .newFlashblocks => { held with newFlashblocks := count }
  | .perItem => { held with perItem := count }

def isEmpty (held : HeldSubscriptions) : Bool :=
  held.newFlashblocks == 0 && held.perItem == 0

@[simp] theorem count_setCount (held : HeldSubscriptions) (kind other : SlotKind) (count : Nat) :
    (held.setCount kind count).count other = if other = kind then count else held.count other := by
  cases kind <;> cases other <;> rfl

@[simp] theorem queuedTotal_setCount (held : HeldSubscriptions) (kind : SlotKind) (count : Nat) :
    (held.setCount kind count).queuedTotal = held.queuedTotal := by
  cases kind <;> rfl

theorem isEmpty_iff (held : HeldSubscriptions) :
    held.isEmpty = true ↔ ∀ kind, held.count kind = 0 := by
  simp only [isEmpty, Bool.and_eq_true, beq_iff_eq]
  constructor
  · intro zero kind
    cases kind with
    | newFlashblocks => exact zero.1
    | perItem => exact zero.2
  · intro zero
    exact ⟨zero .newFlashblocks, zero .perItem⟩

end HeldSubscriptions

structure ConnectionSlot where
  connection : ConnectionId
  kind : SlotKind
  queuedTotal : Nat
  deriving DecidableEq

/-- The map behind the mutex, and how many counters have been allocated so far. -/
structure SubscriptionCounts where
  held : HashMap ConnectionId HeldSubscriptions
  allocated : Nat

namespace SubscriptionCounts

def entryOrDefault (counts : SubscriptionCounts) (connection : ConnectionId) :
    HeldSubscriptions × SubscriptionCounts :=
  match counts.held.lookup connection with
  | some subscriptions => (subscriptions, counts)
  | none =>
      let subscriptions : HeldSubscriptions := ⟨0, 0, counts.allocated⟩
      (subscriptions, ⟨counts.held.insert connection subscriptions, counts.allocated + 1⟩)

def take (counts : SubscriptionCounts) (connection : ConnectionId) (kind : SlotKind) :
    Option ConnectionSlot × SubscriptionCounts :=
  let (subscriptions, counts) := counts.entryOrDefault connection
  let count := subscriptions.count kind
  if kind.cap ≤ count then (none, counts)
  else
    (some ⟨connection, kind, subscriptions.queuedTotal⟩,
      { counts with held := counts.held.insert connection (subscriptions.setCount kind (count + 1)) })

/-- `none` when the subtraction underflows. -/
def drop (counts : SubscriptionCounts) (slot : ConnectionSlot) : Option SubscriptionCounts :=
  match counts.held.lookup slot.connection with
  | none => some counts
  | some subscriptions =>
      let count := subscriptions.count slot.kind
      if count = 0 then none
      else
        let subscriptions := subscriptions.setCount slot.kind (count - 1)
        if subscriptions.isEmpty then
          some { counts with held := counts.held.erase slot.connection }
        else some { counts with held := counts.held.insert slot.connection subscriptions }

/-- The stored count; a connection without an entry has none. -/
def stored (counts : SubscriptionCounts) (connection : ConnectionId) (kind : SlotKind) : Nat :=
  match counts.held.lookup connection with
  | none => 0
  | some subscriptions => subscriptions.count kind

end SubscriptionCounts

/-! ## Connections over time -/

structure Connections where
  counts : SubscriptionCounts
  live : List ConnectionSlot

inductive Step : Connections → Connections → Prop
  | take {state : Connections} (connection : ConnectionId) (kind : SlotKind) :
      Step state
        ⟨(state.counts.take connection kind).2,
          (state.counts.take connection kind).1.toList ++ state.live⟩
  | drop {state : Connections} {slot : ConnectionSlot} {counts : SubscriptionCounts}
      (held : slot ∈ state.live) (dropped : state.counts.drop slot = some counts) :
      Step state ⟨counts, state.live.erase slot⟩

def connections : System Connections where
  Init state := state = ⟨⟨∅, 0⟩, []⟩
  Step := Step

def ConnectionSlot.IsOf (connection : ConnectionId) (kind : SlotKind) (slot : ConnectionSlot) :
    Prop :=
  slot.connection = connection ∧ slot.kind = kind

instance (connection : ConnectionId) (kind : SlotKind) :
    DecidablePred (ConnectionSlot.IsOf connection kind) :=
  fun slot => inferInstanceAs (Decidable (slot.connection = connection ∧ slot.kind = kind))

def liveCount (live : List ConnectionSlot) (connection : ConnectionId) (kind : SlotKind) : Nat :=
  live.countP fun slot => slot.IsOf connection kind

/-! ## What the entry of a connection says about its slots -/

theorem liveCount_cons (slot : ConnectionSlot) (live : List ConnectionSlot)
    (connection : ConnectionId) (kind : SlotKind) :
    liveCount (slot :: live) connection kind =
      liveCount live connection kind + if slot.IsOf connection kind then 1 else 0 := by
  simp [liveCount, List.countP_cons]

theorem liveCount_erase {slot : ConnectionSlot} {live : List ConnectionSlot}
    (held : slot ∈ live) (connection : ConnectionId) (kind : SlotKind) :
    liveCount live connection kind =
      liveCount (live.erase slot) connection kind +
        if slot.IsOf connection kind then 1 else 0 := by
  rw [← liveCount_cons]
  exact (List.perm_cons_erase held).countP_eq _

theorem liveCount_pos {live : List ConnectionSlot} {connection : ConnectionId} {kind : SlotKind} :
    0 < liveCount live connection kind ↔ ∃ slot ∈ live, slot.IsOf connection kind := by
  simp [liveCount, List.countP_pos_iff]

theorem liveCount_absent {live : List ConnectionSlot} {connection : ConnectionId}
    (absent : ∀ slot ∈ live, slot.connection ≠ connection) (kind : SlotKind) :
    liveCount live connection kind = 0 := by
  apply Nat.eq_zero_of_not_pos
  rw [liveCount_pos]
  intro ⟨slot, held, same, _⟩
  exact absent slot held same

/-- The entry counts the slots of its connection, and they all hold its counter. -/
structure Counted (subscriptions : HeldSubscriptions) (live : List ConnectionSlot)
    (connection : ConnectionId) : Prop where
  counted : ∀ kind, subscriptions.count kind = liveCount live connection kind
  capped : ∀ kind, subscriptions.count kind ≤ kind.cap
  shared : ∀ slot ∈ live, slot.connection = connection →
    slot.queuedTotal = subscriptions.queuedTotal

def Accounted (entry : Option HeldSubscriptions) (live : List ConnectionSlot)
    (connection : ConnectionId) : Prop :=
  match entry with
  | none => ∀ slot ∈ live, slot.connection ≠ connection
  | some subscriptions => Counted subscriptions live connection ∧ subscriptions.isEmpty = false

theorem Counted.default {live : List ConnectionSlot} {connection : ConnectionId}
    (absent : ∀ slot ∈ live, slot.connection ≠ connection) (counter : Nat) :
    Counted ⟨0, 0, counter⟩ live connection := by
  constructor
  · intro kind
    rw [liveCount_absent absent]
    cases kind <;> rfl
  · intro kind
    cases kind <;> exact Nat.zero_le _
  · intro slot held same
    exact absurd same (absent slot held)

theorem Counted.take {subscriptions : HeldSubscriptions} {live : List ConnectionSlot}
    {connection : ConnectionId} {kind : SlotKind}
    (before : Counted subscriptions live connection)
    (room : subscriptions.count kind < kind.cap) :
    Counted (subscriptions.setCount kind (subscriptions.count kind + 1))
      (⟨connection, kind, subscriptions.queuedTotal⟩ :: live) connection := by
  constructor
  · intro other
    rw [HeldSubscriptions.count_setCount, liveCount_cons, before.counted kind,
      before.counted other]
    by_cases same : other = kind
    · simp [same, ConnectionSlot.IsOf]
    · simp [same, ConnectionSlot.IsOf, Ne.symm same]
  · intro other
    rw [HeldSubscriptions.count_setCount]
    split
    · rename_i same
      rw [same]
      omega
    · exact before.capped other
  · intro slot held same
    rw [HeldSubscriptions.queuedTotal_setCount]
    rcases List.mem_cons.mp held with rfl | held
    · rfl
    · exact before.shared slot held same

theorem Counted.drop {subscriptions : HeldSubscriptions} {live : List ConnectionSlot}
    {slot : ConnectionSlot} (before : Counted subscriptions live slot.connection)
    (held : slot ∈ live) :
    Counted (subscriptions.setCount slot.kind (subscriptions.count slot.kind - 1))
      (live.erase slot) slot.connection := by
  constructor
  · intro other
    have counts := liveCount_erase held slot.connection other
    rw [HeldSubscriptions.count_setCount, before.counted slot.kind, before.counted other]
    by_cases same : other = slot.kind
    · subst same
      simp only [ConnectionSlot.IsOf, and_self, if_true] at counts
      rw [if_pos rfl]
      omega
    · simp only [ConnectionSlot.IsOf, true_and, Ne.symm same, if_false] at counts
      rw [if_neg same]
      omega
  · intro other
    have capped := before.capped other
    rw [HeldSubscriptions.count_setCount]
    split
    · rename_i same
      rw [← same]
      omega
    · exact capped
  · intro other kept same
    rw [HeldSubscriptions.queuedTotal_setCount]
    exact before.shared other (List.mem_of_mem_erase kept) same

theorem Counted.positive {subscriptions : HeldSubscriptions} {live : List ConnectionSlot}
    {slot : ConnectionSlot} (counts : Counted subscriptions live slot.connection)
    (held : slot ∈ live) : 0 < subscriptions.count slot.kind := by
  rw [counts.counted, liveCount_pos]
  exact ⟨slot, held, rfl, rfl⟩

theorem Counted.absent {subscriptions : HeldSubscriptions} {live : List ConnectionSlot}
    {connection : ConnectionId} (counts : Counted subscriptions live connection)
    (empty : subscriptions.isEmpty = true) : ∀ slot ∈ live, slot.connection ≠ connection := by
  intro slot held same
  subst same
  have positive := counts.positive held
  have zero := (HeldSubscriptions.isEmpty_iff subscriptions).mp empty slot.kind
  omega

theorem accounted_cons_ne {entry : Option HeldSubscriptions} {live : List ConnectionSlot}
    {slot : ConnectionSlot} {connection : ConnectionId} (other : slot.connection ≠ connection) :
    Accounted entry (slot :: live) connection ↔ Accounted entry live connection := by
  have counts (kind : SlotKind) :
      liveCount (slot :: live) connection kind = liveCount live connection kind := by
    simp [liveCount_cons, ConnectionSlot.IsOf, other]
  cases entry with
  | none => simp [Accounted, other]
  | some subscriptions =>
      constructor
      · intro ⟨before, occupied⟩
        refine ⟨⟨?_, before.capped, ?_⟩, occupied⟩
        · intro kind
          rw [before.counted, counts]
        · intro held member
          exact before.shared held (List.mem_cons_of_mem _ member)
      · intro ⟨before, occupied⟩
        refine ⟨⟨?_, before.capped, ?_⟩, occupied⟩
        · intro kind
          rw [before.counted, counts]
        · intro held member same
          rcases List.mem_cons.mp member with rfl | member
          · exact absurd same other
          · exact before.shared held member same

theorem accounted_perm {entry : Option HeldSubscriptions} {live reordered : List ConnectionSlot}
    {connection : ConnectionId} (perm : live.Perm reordered)
    (before : Accounted entry live connection) : Accounted entry reordered connection := by
  cases entry with
  | none =>
      intro slot held
      exact before slot (perm.mem_iff.mpr held)
  | some subscriptions =>
      obtain ⟨counts, occupied⟩ := before
      refine ⟨⟨?_, counts.capped, ?_⟩, occupied⟩
      · intro kind
        rw [counts.counted]
        exact perm.countP_eq _
      · intro slot held
        exact counts.shared slot (perm.mem_iff.mpr held)

theorem accounted_erase_ne {entry : Option HeldSubscriptions} {live : List ConnectionSlot}
    {slot : ConnectionSlot} {connection : ConnectionId} (other : slot.connection ≠ connection)
    (held : slot ∈ live) (before : Accounted entry live connection) :
    Accounted entry (live.erase slot) connection :=
  (accounted_cons_ne other).mp (accounted_perm (List.perm_cons_erase held) before)

/-! ## What every run keeps -/

structure Consistent (state : Connections) : Prop where
  accounted : ∀ connection,
    Accounted (state.counts.held.lookup connection) state.live connection
  allocated : ∀ connection subscriptions,
    state.counts.held.lookup connection = some subscriptions →
      subscriptions.queuedTotal < state.counts.allocated
  separate : ∀ first second one two,
    state.counts.held.lookup first = some one → state.counts.held.lookup second = some two →
      one.queuedTotal = two.queuedTotal → first = second

theorem Consistent.write {state : Connections} (before : Consistent state)
    {connection : ConnectionId} {subscriptions : HeldSubscriptions} {live : List ConnectionSlot}
    {held : HashMap ConnectionId HeldSubscriptions} {allocated : Nat}
    (written : held.lookup connection = some subscriptions)
    (frame : ∀ other, other ≠ connection →
      held.lookup other = state.counts.held.lookup other)
    (accounted : Accounted (some subscriptions) live connection)
    (others : ∀ other, other ≠ connection →
      Accounted (state.counts.held.lookup other) live other)
    (grown : state.counts.allocated ≤ allocated)
    (below : subscriptions.queuedTotal < allocated)
    (apart : ∀ other stored, other ≠ connection →
      state.counts.held.lookup other = some stored →
        stored.queuedTotal ≠ subscriptions.queuedTotal) :
    Consistent ⟨⟨held, allocated⟩, live⟩ := by
  constructor
  · intro other
    by_cases same : other = connection
    · subst same
      simpa only [written] using accounted
    · simpa only [frame other same] using others other same
  · intro other stored found
    by_cases same : other = connection
    · subst same
      cases written.symm.trans found
      exact below
    · rw [frame other same] at found
      exact lt_of_lt_of_le (before.allocated other stored found) grown
  · intro first second one two foundFirst foundSecond equal
    by_cases sameFirst : first = connection
    · subst sameFirst
      cases written.symm.trans foundFirst
      by_contra different
      rw [frame second (Ne.symm different)] at foundSecond
      exact apart second two (Ne.symm different) foundSecond equal.symm
    · rw [frame first sameFirst] at foundFirst
      by_cases sameSecond : second = connection
      · subst sameSecond
        cases written.symm.trans foundSecond
        exact absurd equal (apart first one sameFirst foundFirst)
      · rw [frame second sameSecond] at foundSecond
        exact before.separate first second one two foundFirst foundSecond equal

theorem lookup_of_erase {held : HashMap ConnectionId HeldSubscriptions}
    {connection other : ConnectionId} {stored : HeldSubscriptions}
    (found : (held.erase connection).lookup other = some stored) :
    held.lookup other = some stored := by
  by_cases same : other = connection
  · subst same
    rw [AList.lookup_erase] at found
    cases found
  · rwa [AList.lookup_erase_ne same] at found

theorem Consistent.erase {state : Connections} (before : Consistent state)
    {connection : ConnectionId} {live : List ConnectionSlot}
    (absent : ∀ slot ∈ live, slot.connection ≠ connection)
    (others : ∀ other, other ≠ connection →
      Accounted (state.counts.held.lookup other) live other) :
    Consistent ⟨{ state.counts with held := state.counts.held.erase connection }, live⟩ := by
  constructor
  · intro other
    by_cases same : other = connection
    · subst same
      simpa only [AList.lookup_erase, Accounted] using absent
    · simpa only [AList.lookup_erase_ne same] using others other same
  · intro other stored found
    exact before.allocated other stored (lookup_of_erase found)
  · intro first second one two foundFirst foundSecond
    exact before.separate first second one two (lookup_of_erase foundFirst)
      (lookup_of_erase foundSecond)

/-- The three ways through `take`.  A connection without an entry always has room. -/
theorem take_cases (counts : SubscriptionCounts) (connection : ConnectionId) (kind : SlotKind) :
    (∃ subscriptions, counts.held.lookup connection = some subscriptions ∧
        kind.cap ≤ subscriptions.count kind ∧ counts.take connection kind = (none, counts)) ∨
      (∃ subscriptions, counts.held.lookup connection = some subscriptions ∧
        subscriptions.count kind < kind.cap ∧
        counts.take connection kind =
          (some ⟨connection, kind, subscriptions.queuedTotal⟩,
            ⟨counts.held.insert connection
              (subscriptions.setCount kind (subscriptions.count kind + 1)), counts.allocated⟩)) ∨
      (counts.held.lookup connection = none ∧
        counts.take connection kind =
          (some ⟨connection, kind, counts.allocated⟩,
            ⟨(counts.held.insert connection ⟨0, 0, counts.allocated⟩).insert connection
              (HeldSubscriptions.setCount ⟨0, 0, counts.allocated⟩ kind 1),
              counts.allocated + 1⟩)) := by
  unfold SubscriptionCounts.take SubscriptionCounts.entryOrDefault
  cases entry : counts.held.lookup connection with
  | none =>
      refine Or.inr (Or.inr ⟨rfl, ?_⟩)
      cases kind <;> rfl
  | some subscriptions =>
      by_cases full : kind.cap ≤ subscriptions.count kind
      · exact Or.inl ⟨subscriptions, rfl, full, by simp [full]⟩
      · exact Or.inr (Or.inl ⟨subscriptions, rfl, by omega, by simp [full]⟩)

theorem isEmpty_setCount_succ (subscriptions : HeldSubscriptions) (kind : SlotKind) (count : Nat) :
    (subscriptions.setCount kind (count + 1)).isEmpty = false := by
  rw [Bool.eq_false_iff]
  intro empty
  have zero := (HeldSubscriptions.isEmpty_iff _).mp empty kind
  simp at zero

theorem Consistent.take {state : Connections} (before : Consistent state)
    (connection : ConnectionId) (kind : SlotKind) :
    Consistent ⟨(state.counts.take connection kind).2,
      (state.counts.take connection kind).1.toList ++ state.live⟩ := by
  have own := before.accounted connection
  rcases take_cases state.counts connection kind with
    ⟨subscriptions, _, _, taken⟩ | ⟨subscriptions, entry, room, taken⟩ | ⟨entry, taken⟩
  · rw [taken]
    exact before
  · rw [entry] at own
    rw [taken]
    apply before.write (AList.lookup_insert _)
    · intro other different
      exact AList.lookup_insert_ne different
    · exact ⟨own.1.take room, isEmpty_setCount_succ ..⟩
    · intro other different
      exact (accounted_cons_ne (Ne.symm different)).mpr (before.accounted other)
    · exact le_rfl
    · rw [HeldSubscriptions.queuedTotal_setCount]
      exact before.allocated connection subscriptions entry
    · intro other stored different found equal
      rw [HeldSubscriptions.queuedTotal_setCount] at equal
      exact different (before.separate other connection stored subscriptions found entry equal)
  · rw [entry] at own
    rw [taken]
    have zero : HeldSubscriptions.count ⟨0, 0, state.counts.allocated⟩ kind = 0 := by
      cases kind <;> rfl
    have room : HeldSubscriptions.count ⟨0, 0, state.counts.allocated⟩ kind < kind.cap := by
      rw [zero]
      cases kind <;> decide
    have counted := (Counted.default own state.counts.allocated).take room
    rw [zero] at counted
    apply before.write (AList.lookup_insert _)
    · intro other different
      rw [AList.lookup_insert_ne different, AList.lookup_insert_ne different]
    · exact ⟨counted, isEmpty_setCount_succ _ kind 0⟩
    · intro other different
      exact (accounted_cons_ne (Ne.symm different)).mpr (before.accounted other)
    · exact Nat.le_succ _
    · rw [HeldSubscriptions.queuedTotal_setCount]
      exact Nat.lt_succ_self _
    · intro other stored _ found equal
      rw [HeldSubscriptions.queuedTotal_setCount] at equal
      exact absurd equal (Nat.ne_of_lt (before.allocated other stored found))

theorem Consistent.entry {state : Connections} (consistent : Consistent state)
    {slot : ConnectionSlot} (held : slot ∈ state.live) :
    ∃ subscriptions, state.counts.held.lookup slot.connection = some subscriptions ∧
      Counted subscriptions state.live slot.connection ∧
      0 < subscriptions.count slot.kind := by
  have own := consistent.accounted slot.connection
  cases found : state.counts.held.lookup slot.connection with
  | none =>
      rw [found] at own
      exact absurd rfl (own slot held)
  | some subscriptions =>
      rw [found] at own
      exact ⟨subscriptions, rfl, own.1, own.1.positive held⟩

theorem Consistent.drop {state : Connections} (before : Consistent state)
    {slot : ConnectionSlot} (held : slot ∈ state.live) :
    ∃ counts, state.counts.drop slot = some counts ∧
      Consistent ⟨counts, state.live.erase slot⟩ := by
  obtain ⟨subscriptions, entry, counted, positive⟩ := before.entry held
  have others (other : ConnectionId) (different : other ≠ slot.connection) :
      Accounted (state.counts.held.lookup other) (state.live.erase slot) other :=
    accounted_erase_ne (Ne.symm different) held (before.accounted other)
  have after := counted.drop held
  have nonzero : subscriptions.count slot.kind ≠ 0 := by omega
  simp only [SubscriptionCounts.drop, entry, if_neg nonzero]
  by_cases empty : (subscriptions.setCount slot.kind (subscriptions.count slot.kind - 1)).isEmpty
  · rw [if_pos empty]
    exact ⟨_, rfl, before.erase (after.absent empty) others⟩
  · rw [if_neg empty]
    refine ⟨_, rfl, ?_⟩
    apply before.write (AList.lookup_insert _)
    · intro other different
      exact AList.lookup_insert_ne different
    · exact ⟨after, by simpa using empty⟩
    · exact others
    · exact le_rfl
    · rw [HeldSubscriptions.queuedTotal_setCount]
      exact before.allocated slot.connection subscriptions entry
    · intro other stored different found equal
      rw [HeldSubscriptions.queuedTotal_setCount] at equal
      exact different
        (before.separate other slot.connection stored subscriptions found entry equal)

theorem consistent {state : Connections} (reached : connections.Reachable state) :
    Consistent state := by
  apply reached.invariant
  · intro state initial
    cases initial
    constructor
    · intro connection slot held
      cases held
    · intro connection subscriptions found
      cases found
    · intro first second one two found
      cases found
  · intro state next _ before taken
    cases taken with
    | take connection kind => exact before.take connection kind
    | drop held dropped =>
        obtain ⟨counts, left, after⟩ := before.drop held
        rw [dropped] at left
        cases left
        exact after

/-! ## The count is exact -/

/-- What the counts, the slots and the next call of either kind say about each other. -/
structure CountedExactly (state : Connections) : Prop where
  stored_eq : ∀ connection kind,
    state.counts.stored connection kind = liveCount state.live connection kind
  stored_le : ∀ connection kind, state.counts.stored connection kind ≤ kind.cap
  take_fails : ∀ connection kind,
    (state.counts.take connection kind).1 = none ↔
      state.counts.stored connection kind = kind.cap
  take_unchanged : ∀ connection kind, (state.counts.take connection kind).1 = none →
    (state.counts.take connection kind).2 = state.counts
  drop_defined : ∀ slot ∈ state.live, (state.counts.drop slot).isSome
  entry_iff : ∀ connection, connection ∈ state.counts.held ↔
    ∃ slot ∈ state.live, slot.connection = connection
  counter_iff : ∀ first ∈ state.live, ∀ second ∈ state.live,
    first.queuedTotal = second.queuedTotal ↔ first.connection = second.connection

theorem Consistent.stored {state : Connections} (consistent : Consistent state)
    (connection : ConnectionId) (kind : SlotKind) :
    state.counts.stored connection kind = liveCount state.live connection kind ∧
      state.counts.stored connection kind ≤ kind.cap := by
  have own := consistent.accounted connection
  unfold SubscriptionCounts.stored
  cases found : state.counts.held.lookup connection with
  | none =>
      rw [found] at own
      exact ⟨(liveCount_absent own kind).symm, Nat.zero_le _⟩
  | some subscriptions =>
      rw [found] at own
      exact ⟨own.1.counted kind, own.1.capped kind⟩

theorem stored_of_lookup {counts : SubscriptionCounts} {connection : ConnectionId}
    {subscriptions : HeldSubscriptions} (kind : SlotKind)
    (found : counts.held.lookup connection = some subscriptions) :
    counts.stored connection kind = subscriptions.count kind := by
  simp only [SubscriptionCounts.stored, found]

theorem Consistent.take_fails {state : Connections} (consistent : Consistent state)
    (connection : ConnectionId) (kind : SlotKind) :
    (state.counts.take connection kind).1 = none ↔
      state.counts.stored connection kind = kind.cap := by
  have capped := (consistent.stored connection kind).2
  rcases take_cases state.counts connection kind with
    ⟨subscriptions, entry, full, taken⟩ | ⟨subscriptions, entry, room, taken⟩ | ⟨entry, taken⟩
  · have stored := stored_of_lookup kind entry
    rw [taken]
    constructor
    · intro _
      omega
    · intro _
      rfl
  · have stored := stored_of_lookup kind entry
    rw [taken]
    constructor
    · intro none
      cases none
    · intro reached
      omega
  · have stored : state.counts.stored connection kind = 0 := by
      simp only [SubscriptionCounts.stored, entry]
    have positive : 0 < kind.cap := by
      cases kind <;> decide
    rw [taken]
    constructor
    · intro none
      cases none
    · intro reached
      omega

/-- The default entry of a failing `take` would be a change, but an entry at its cap is
already in the map. -/
theorem take_unchanged_of_none (counts : SubscriptionCounts) (connection : ConnectionId)
    (kind : SlotKind) (failed : (counts.take connection kind).1 = none) :
    (counts.take connection kind).2 = counts := by
  rcases take_cases counts connection kind with
    ⟨_, _, _, taken⟩ | ⟨_, _, _, taken⟩ | ⟨_, taken⟩
  · rw [taken]
  · rw [taken] at failed
    cases failed
  · rw [taken] at failed
    cases failed

theorem Consistent.entry_iff {state : Connections} (consistent : Consistent state)
    (connection : ConnectionId) :
    connection ∈ state.counts.held ↔ ∃ slot ∈ state.live, slot.connection = connection := by
  constructor
  · intro present
    obtain ⟨subscriptions, found⟩ := Option.isSome_iff_exists.mp
      (AList.lookup_isSome.mpr present)
    have own := consistent.accounted connection
    rw [found] at own
    by_contra none
    push Not at none
    have empty : subscriptions.isEmpty = true := by
      rw [HeldSubscriptions.isEmpty_iff]
      intro kind
      rw [own.1.counted, liveCount_absent none]
    rw [own.2] at empty
    cases empty
  · intro ⟨slot, held, same⟩
    obtain ⟨subscriptions, found, _⟩ := consistent.entry held
    rw [← same]
    exact AList.lookup_isSome.mp (by rw [found]; rfl)

theorem Consistent.counter_iff {state : Connections} (consistent : Consistent state)
    {first second : ConnectionSlot} (one : first ∈ state.live) (two : second ∈ state.live) :
    first.queuedTotal = second.queuedTotal ↔ first.connection = second.connection := by
  obtain ⟨firstEntry, foundFirst, firstCounted, _⟩ := consistent.entry one
  obtain ⟨secondEntry, foundSecond, secondCounted, _⟩ := consistent.entry two
  have firstCounter := firstCounted.shared first one rfl
  have secondCounter := secondCounted.shared second two rfl
  constructor
  · intro equal
    rw [firstCounter, secondCounter] at equal
    exact consistent.separate _ _ _ _ foundFirst foundSecond equal
  · intro same
    rw [firstCounter]
    exact (firstCounted.shared second two same.symm).symm

/-- In every state that takes and drops can reach, over any connections and kinds and in
any order. -/
theorem slots_counted_exactly {state : Connections} (reached : connections.Reachable state) :
    CountedExactly state := by
  have invariant := consistent reached
  constructor
  · intro connection kind
    exact (invariant.stored connection kind).1
  · intro connection kind
    exact (invariant.stored connection kind).2
  · exact invariant.take_fails
  · exact take_unchanged_of_none state.counts
  · intro slot held
    obtain ⟨counts, dropped, _⟩ := invariant.drop held
    rw [dropped]
    rfl
  · exact invariant.entry_iff
  · intro first one second two
    exact invariant.counter_iff one two

/-- One connection holds a slot of each kind; the only slot of another was given back. -/
theorem slots_counted_exactly_two_connections :
    ∃ state, connections.Reachable state ∧
      state.live = [⟨1, .perItem, 0⟩, ⟨1, .newFlashblocks, 0⟩] ∧ CountedExactly state := by
  have start : connections.Reachable ⟨⟨∅, 0⟩, []⟩ := .init rfl
  have one := start.step (.take 1 .newFlashblocks)
  have two := one.step (.take 2 .perItem)
  have three := two.step (.take 1 .perItem)
  have reached := three.step (@Step.drop _ ⟨2, .perItem, 1⟩ _ (by decide) rfl)
  exact ⟨_, reached, rfl, slots_counted_exactly reached⟩

end EthgasReth.Rpc.ConnectionSlots

import Mathlib

/-!
# A broadcast channel with a bounded backlog

The channel keeps the last values sent, as many as it has room for.  A receiver reads the
values after its own position one by one; when more than the channel keeps are ahead of it, it
is told how many it has missed and goes on with the oldest that is kept.  What a receiver was
told accounts for every value between where it started and where it stands.
-/

set_option autoImplicit false

namespace EthgasReth.Lib

universe u

inductive Passed (Value : Type u) where
  | value (value : Value)
  | lagged (missed : Nat)

namespace BroadcastRing

/-- The room that a channel has when `requested` is asked for: the next power of two. -/
def capacity (requested : Nat) : Nat := 2 ^ Nat.clog 2 requested

variable {Value : Type u}

/-- The next receive at the position, and the position after it; `none` when nothing is left to
read.  `sent` is all that has been sent. -/
def recv (capacity : Nat) (sent : List Value) (next : Nat) : Option (Passed Value × Nat) :=
  if capacity < sent.length - next then
    some (.lagged (sent.length - capacity - next), sent.length - capacity)
  else sent[next]?.map fun value => (.value value, next + 1)

def valueOf : Passed Value → Option Value
  | .value value => some value
  | .lagged _ => none

def missedBy : Passed Value → Nat
  | .value _ => 0
  | .lagged missed => missed

def values (log : List (Passed Value)) : List Value := log.filterMap valueOf

def missed (log : List (Passed Value)) : Nat := (log.map missedBy).sum

/-- The log tells of every value from one position to the next. -/
inductive Accounts (sent : List Value) (start : Nat) : List (Passed Value) → Nat → Prop
  | nil (inside : start ≤ sent.length) : Accounts sent start [] start
  | value {log : List (Passed Value)} {next : Nat} {value : Value}
      (accounts : Accounts sent start log next) (found : sent[next]? = some value) :
      Accounts sent start (log ++ [.value value]) (next + 1)
  | lagged {log : List (Passed Value)} {next missed : Nat}
      (accounts : Accounts sent start log next) (inside : next + missed ≤ sent.length) :
      Accounts sent start (log ++ [.lagged missed]) (next + missed)

section Accounts

variable {sent : List Value} {start next : Nat} {log : List (Passed Value)}

/-- A receiver is told of a lag when more than the channel keeps is ahead of it, and otherwise
reads the value at its position. -/
theorem recv_cases {capacity : Nat} {passed : Passed Value} {after : Nat}
    (received : recv capacity sent next = some (passed, after)) :
    (∃ missed, passed = .lagged missed ∧ 0 < missed ∧ after = next + missed ∧
        sent.length = next + missed + capacity) ∨
      ∃ value, passed = .value value ∧ after = next + 1 ∧ sent[next]? = some value ∧
        sent.length ≤ next + capacity := by
  unfold recv at received
  split at received
  · rename_i behind
    cases received
    exact Or.inl ⟨sent.length - capacity - next, rfl, by omega, by omega, by omega⟩
  · rename_i near
    cases found : sent[next]? with
    | none =>
        rw [found] at received
        cases received
    | some value =>
        rw [found] at received
        cases received
        exact Or.inr ⟨value, rfl, rfl, rfl, by omega⟩

theorem Accounts.send (accounts : Accounts sent start log next) (value : Value) :
    Accounts (sent ++ [value]) start log next := by
  induction accounts with
  | nil inside => exact .nil (by rw [List.length_append]; omega)
  | value _ found ih =>
      have inside := (List.getElem?_eq_some_iff.mp found).1
      exact .value ih (by rw [List.getElem?_append_left inside]; exact found)
  | lagged _ inside ih => exact .lagged ih (by rw [List.length_append]; omega)

theorem Accounts.recv (accounts : Accounts sent start log next) {capacity : Nat}
    {passed : Passed Value} {after : Nat}
    (received : BroadcastRing.recv capacity sent next = some (passed, after)) :
    Accounts sent start (log ++ [passed]) after := by
  rcases recv_cases received with ⟨missed, rfl, -, rfl, length⟩ | ⟨value, rfl, rfl, found, -⟩
  · exact .lagged accounts (by omega)
  · exact .value accounts found

theorem Accounts.inside (accounts : Accounts sent start log next) : next ≤ sent.length := by
  cases accounts with
  | nil inside => exact inside
  | value _ found => exact (List.getElem?_eq_some_iff.mp found).1
  | lagged _ inside => exact inside

/-- Every value passed was received or counted as missed. -/
theorem Accounts.count (accounts : Accounts sent start log next) :
    start + (values log).length + missed log = next := by
  induction accounts with
  | nil => simp [values, missed]
  | value _ _ ih =>
      simp only [values, missed, List.filterMap_append, List.map_append, List.length_append,
        List.sum_append] at ih ⊢
      simp only [List.filterMap_cons, valueOf, missedBy, List.filterMap_nil, List.map_cons,
        List.map_nil, List.sum_cons, List.sum_nil, List.length_singleton]
      omega
  | lagged _ _ ih =>
      simp only [values, missed, List.filterMap_append, List.map_append, List.length_append,
        List.sum_append] at ih ⊢
      simp only [List.filterMap_cons, valueOf, missedBy, List.filterMap_nil, List.map_cons,
        List.map_nil, List.sum_cons, List.sum_nil, List.length_nil]
      omega

/-- What was received is what was sent, in its order, with the missed values left out. -/
theorem Accounts.sublist (accounts : Accounts sent start log next) :
    (values log).Sublist ((sent.take next).drop start) := by
  induction accounts with
  | nil => simp [values]
  | @value log next value accounts found ih =>
      have counted := accounts.count
      rw [values, List.filterMap_append, ← values, List.take_add_one, found, Option.toList_some]
      have inside := (List.getElem?_eq_some_iff.mp found).1
      have reached : start ≤ (sent.take next).length := by
        rw [List.length_take]
        omega
      rw [List.drop_append_of_le_length reached]
      exact ih.append (List.Sublist.refl _)
  | @lagged log next missed accounts inside ih =>
      have same : values (log ++ [.lagged missed]) = values log := by
        simp [values, List.filterMap_append, valueOf]
      rw [same]
      have longer : (sent.take next).Sublist (sent.take (next + missed)) :=
        (List.take_prefix_take_left (by omega)).sublist
      exact ih.trans (longer.drop start)

theorem Accounts.complete (accounts : Accounts sent start log next) (kept : missed log = 0) :
    values log = (sent.take next).drop start := by
  have counted := accounts.count
  have inside := accounts.inside
  apply accounts.sublist.eq_of_length
  rw [List.length_drop, List.length_take]
  omega

end Accounts

end BroadcastRing

end EthgasReth.Lib

import Mathlib

/-!
# Watch channels

A cell with a version.  The sender replaces the value; a reader waits until the version is not
the one it has seen, takes the value that is there by then, and works on it before it waits
again.  Values may pass unread, but those that a reader takes it takes in order and once each,
and one that waits with nothing new has taken the latest.
-/

set_option autoImplicit false

namespace EthgasReth.Lib

universe u

structure Watch (α : Type u) where
  initial : α
  sent : List α
  closed : Bool

namespace Watch

variable {α : Type u}

def version (watch : Watch α) : Nat := watch.sent.length

def value (watch : Watch α) : α := watch.sent.getLast?.getD watch.initial

def send (watch : Watch α) (value : α) : Watch α := { watch with sent := watch.sent ++ [value] }

def close (watch : Watch α) : Watch α := { watch with closed := true }

/-- `holding` works on the value it took last. -/
inductive Phase where
  | waiting
  | notified
  | holding
  | ended
  deriving DecidableEq

structure Reader (α : Type u) where
  seen : Nat
  phase : Phase
  taken : List α

def Reader.start (seen : Nat) : Reader α := { seen := seen, phase := .waiting, taken := [] }

/-- A change is reported before the end. -/
inductive Reader.Step (watch : Watch α) : Reader α → Reader α → Prop
  | changed {reader : Reader α} (waiting : reader.phase = .waiting)
      (newer : reader.seen ≠ watch.version) :
      Step watch reader { reader with seen := watch.version, phase := .notified }
  | borrowAndUpdate {reader : Reader α} (notified : reader.phase = .notified) :
      Step watch reader
        { seen := watch.version, phase := .holding, taken := reader.taken ++ [watch.value] }
  | release {reader : Reader α} (holding : reader.phase = .holding) :
      Step watch reader { reader with phase := .waiting }
  | hangUp {reader : Reader α} (waiting : reader.phase = .waiting)
      (same : reader.seen = watch.version) (closed : watch.closed = true) :
      Step watch reader { reader with phase := .ended }

/-- A reader that started at a version.  It has taken values up to `last`, which is behind what
it has seen only between the notification and the read. -/
structure Follows (start : Nat) (watch : Watch α) (reader : Reader α) (last : Nat) : Prop where
  within : reader.seen ≤ watch.version
  begun : start ≤ last
  inOrder : reader.taken.Sublist ((watch.sent.take last).drop start)
  notified : reader.phase = .notified → last < reader.seen
  taken : reader.phase ≠ .notified → last = reader.seen
  latest : start < last → reader.taken.getLast? = watch.sent[last - 1]?
  ended : reader.phase = .ended → watch.closed = true ∧ reader.seen = watch.version

section Follows

variable {start last : Nat} {watch : Watch α} {reader next : Reader α}

theorem follows_start (watch : Watch α) (started : start ≤ watch.version) :
    Follows start watch (.start start) start where
  within := started
  begun := le_rfl
  inOrder := by simp [Reader.start]
  notified := by simp [Reader.start]
  taken := by simp [Reader.start]
  latest := by simp
  ended := by simp [Reader.start]

theorem Follows.last_le (follows : Follows start watch reader last) : last ≤ reader.seen := by
  by_cases notified : reader.phase = .notified
  · exact Nat.le_of_lt (follows.notified notified)
  · exact Nat.le_of_eq (follows.taken notified)

theorem Follows.send (follows : Follows start watch reader last) (value : α)
    (opened : watch.closed = false) : Follows start (watch.send value) reader last := by
  have before := follows.last_le.trans follows.within
  unfold version at before
  refine ⟨?_, follows.begun, ?_, follows.notified, follows.taken, ?_, ?_⟩
  · have within := follows.within
    simp only [version, Watch.send, List.length_append, List.length_singleton] at within ⊢
    omega
  · simp only [Watch.send]
    rw [List.take_append_of_le_length before]
    exact follows.inOrder
  · intro ahead
    rw [follows.latest ahead]
    simp only [Watch.send]
    rw [List.getElem?_append_left (by omega)]
  · intro ended
    have impossible := (follows.ended ended).1
    rw [opened] at impossible
    cases impossible

theorem Follows.close (follows : Follows start watch reader last) :
    Follows start watch.close reader last where
  within := follows.within
  begun := follows.begun
  inOrder := follows.inOrder
  notified := follows.notified
  taken := follows.taken
  latest := follows.latest
  ended := fun ended => ⟨rfl, (follows.ended ended).2⟩

theorem Follows.step (follows : Follows start watch reader last)
    (taken : Reader.Step watch reader next) : ∃ last, Follows start watch next last := by
  cases taken with
  | changed waiting newer =>
      have isLast := follows.taken (by simp [waiting])
      have within := follows.within
      refine ⟨last, le_rfl, follows.begun, follows.inOrder, ?_, by simp, follows.latest, by simp⟩
      intro _
      change last < watch.version
      omega
  | borrowAndUpdate notified =>
      have behind := follows.notified notified
      have within := follows.within
      have begun := follows.begun
      have nonempty : watch.sent ≠ [] := by
        intro empty
        simp only [version, empty, List.length_nil] at within
        omega
      have isValue : watch.value = watch.sent.getLast nonempty := by
        simp [value, List.getLast?_eq_some_getLast nonempty]
      unfold version at within
      refine ⟨watch.version, le_rfl, by unfold version; omega, ?_, by simp, by simp, ?_, by simp⟩
      · -- Everything up to the version is what came before the value, and the value.
        have whole : (watch.sent.take watch.version).drop start =
            watch.sent.dropLast.drop start ++ [watch.value] := by
          rw [version, List.take_length, isValue, ← List.drop_append_of_le_length,
            List.dropLast_concat_getLast]
          rw [List.length_dropLast]
          omega
        rw [whole]
        refine List.Sublist.append ?_ (List.Sublist.refl _)
        refine follows.inOrder.trans (List.Sublist.drop ?_ start)
        rw [List.dropLast_eq_take]
        exact (List.take_prefix_take_left (by omega)).sublist
      · intro _
        rw [List.getLast?_concat, isValue, version, ← List.getLast?_eq_getElem?,
          List.getLast?_eq_some_getLast nonempty]
  | release holding =>
      exact ⟨last, follows.within, follows.begun, follows.inOrder, by simp,
        fun _ => follows.taken (by simp [holding]), follows.latest, by simp⟩
  | hangUp waiting same closed =>
      exact ⟨last, follows.within, follows.begun, follows.inOrder, by simp,
        fun _ => follows.taken (by simp [waiting]), follows.latest, fun _ => ⟨closed, same⟩⟩

theorem Follows.idle (follows : Follows start watch reader last)
    (unnotified : reader.phase ≠ .notified) (same : reader.seen = watch.version) :
    reader.taken.getLast? = (watch.sent.drop start).getLast? := by
  have isLast : last = watch.sent.length := (follows.taken unnotified).trans same
  by_cases ahead : start < last
  · rw [follows.latest ahead, isLast, ← List.getLast?_eq_getElem?, List.getLast?_drop,
      if_neg (by omega)]
  · have atStart : last = start := by
      have begun := follows.begun
      omega
    have nothing : reader.taken = [] := by
      have inOrder := follows.inOrder
      rw [atStart, List.drop_take, Nat.sub_self] at inOrder
      simpa using inOrder
    rw [nothing, List.drop_eq_nil_of_le (by omega)]

end Follows

end Watch

end EthgasReth.Lib

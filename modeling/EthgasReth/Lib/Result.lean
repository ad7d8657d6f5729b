import Mathlib

/-!
# Inversion rules for fallible computations

`Except` code is taken apart from the success of its last step: a bind that
returns gives the value of each part.
-/

set_option autoImplicit false

namespace EthgasReth.Lib

section Except

variable {ε α β γ : Type}

@[simp] theorem ok_bind (value : α) (next : α → Except ε β) :
    (Except.ok value >>= next) = next value := rfl

theorem bind_eq_ok {first : Except ε α} {next : α → Except ε β} {result : β}
    (success : (first >>= next) = Except.ok result) :
    ∃ value, first = Except.ok value ∧ next value = Except.ok result := by
  cases first with
  | error failure => cases success
  | ok value => exact ⟨value, rfl, success⟩

theorem reject_eq_ok {reject : Prop} [Decidable reject] {failure : ε} {next : Except ε α}
    {result : α} : (if reject then Except.error failure else next) = Except.ok result ↔
      ¬ reject ∧ next = Except.ok result := by
  split
  next rejected => simp [rejected]
  next passed => simp [passed]

theorem mapError_eq_ok {ε' : Type} {wrap : ε → ε'} {first : Except ε α} {result : α}
    (success : first.mapError wrap = Except.ok result) : first = Except.ok result := by
  cases first with
  | error failure => cases success
  | ok value =>
      cases success
      rfl

theorem bind_eq_ok_iff {first : Except ε α} {next : α → Except ε β} {result : β} :
    (first >>= next) = Except.ok result ↔
      ∃ value, first = Except.ok value ∧ next value = Except.ok result := by
  constructor
  · exact bind_eq_ok
  · intro parts
    obtain ⟨value, isValue, success⟩ := parts
    rw [isValue]
    exact success

theorem check_eq_ok_iff {first : Except ε Unit} {next : Unit → Except ε β} {result : β} :
    (first >>= next) = Except.ok result ↔ first = Except.ok () ∧ next () = Except.ok result := by
  rw [bind_eq_ok_iff]
  constructor
  · intro parts
    obtain ⟨_, passed, success⟩ := parts
    exact ⟨passed, success⟩
  · intro parts
    exact ⟨(), parts⟩

theorem mapError_eq_ok_iff {ε' : Type} {wrap : ε → ε'} {first : Except ε α} {result : α} :
    first.mapError wrap = Except.ok result ↔ first = Except.ok result := by
  constructor
  · exact mapError_eq_ok
  · intro success
    rw [success]
    rfl

theorem toOption_eq_some {result : Except ε α} {value : α}
    (success : result.toOption = some value) : result = Except.ok value := by
  cases result with
  | error failure => cases success
  | ok other =>
      cases success
      rfl

theorem mapM_append_ok {convert : α → Except ε β} {xs ys : List α} {result : List β}
    (success : (xs ++ ys).mapM convert = Except.ok result) :
    ∃ left right, xs.mapM convert = Except.ok left ∧
      ys.mapM convert = Except.ok right ∧ result = left ++ right := by
  rw [List.mapM_append] at success
  obtain ⟨left, leftRun, success⟩ := bind_eq_ok success
  obtain ⟨right, rightRun, success⟩ := bind_eq_ok success
  cases success
  exact ⟨left, right, leftRun, rightRun, rfl⟩

theorem mapM_append_of {convert : α → Except ε β} {xs ys : List α} {left right : List β}
    (leftRun : xs.mapM convert = Except.ok left) (rightRun : ys.mapM convert = Except.ok right) :
    (xs ++ ys).mapM convert = Except.ok (left ++ right) := by
  rw [List.mapM_append, leftRun, ok_bind, rightRun]
  rfl

theorem mapM_cons_ok {convert : α → Except ε β} {x : α} {xs : List α} {result : List β}
    (success : (x :: xs).mapM convert = Except.ok result) :
    ∃ head tail, convert x = Except.ok head ∧
      xs.mapM convert = Except.ok tail ∧ result = head :: tail := by
  rw [List.mapM_cons] at success
  obtain ⟨head, headRun, success⟩ := bind_eq_ok success
  obtain ⟨tail, tailRun, success⟩ := bind_eq_ok success
  cases success
  exact ⟨head, tail, headRun, tailRun, rfl⟩

theorem mapM_mem {convert : α → Except ε β} {xs : List α} {result : List β}
    (success : xs.mapM convert = Except.ok result) {y : β} (member : y ∈ result) :
    ∃ x ∈ xs, convert x = Except.ok y := by
  induction xs generalizing result with
  | nil =>
      cases success
      cases member
  | cons x xs ih =>
      obtain ⟨head, tail, headRun, tailRun, rfl⟩ := mapM_cons_ok success
      rcases List.mem_cons.mp member with rfl | member
      · exact ⟨x, List.mem_cons_self .., headRun⟩
      · obtain ⟨other, inside, ran⟩ := ih tailRun member
        exact ⟨other, List.mem_cons_of_mem _ inside, ran⟩

theorem mapM_mem_of {convert : α → Except ε β} {xs : List α} {result : List β}
    (success : xs.mapM convert = Except.ok result) {x : α} (member : x ∈ xs) :
    ∃ y ∈ result, convert x = Except.ok y := by
  induction xs generalizing result with
  | nil => cases member
  | cons head xs ih =>
      obtain ⟨first, tail, headRun, tailRun, rfl⟩ := mapM_cons_ok success
      rcases List.mem_cons.mp member with rfl | member
      · exact ⟨first, List.mem_cons_self .., headRun⟩
      · obtain ⟨other, inside, ran⟩ := ih tailRun member
        exact ⟨other, List.mem_cons_of_mem _ inside, ran⟩

theorem mapM_length {convert : α → Except ε β} {xs : List α} {result : List β}
    (success : xs.mapM convert = Except.ok result) : result.length = xs.length := by
  induction xs generalizing result with
  | nil =>
      cases success
      rfl
  | cons x xs ih =>
      obtain ⟨head, tail, -, tailRun, rfl⟩ := mapM_cons_ok success
      simp [ih tailRun]

theorem bind_congr_ok {first : Except ε α} {next other : α → Except ε β}
    (same : ∀ value, first = Except.ok value → next value = other value) :
    (first >>= next) = (first >>= other) := by
  cases first with
  | error failure => rfl
  | ok value => exact same value rfl

theorem mapM_congr_mem {convert other : α → Except ε β} {xs : List α}
    (same : ∀ x ∈ xs, convert x = other x) : xs.mapM convert = xs.mapM other := by
  induction xs with
  | nil => rfl
  | cons x xs ih =>
      rw [List.mapM_cons, List.mapM_cons, same x List.mem_cons_self,
        ih fun y member => same y (List.mem_cons_of_mem _ member)]

/-- Every failure of the computation has the property. -/
def Fails (P : ε → Prop) (result : Except ε α) : Prop :=
  ∀ failure, result = Except.error failure → P failure

variable {P : ε → Prop}

theorem fails_ok (value : α) : Fails P (Except.ok value) := by
  intro failure isError
  cases isError

theorem fails_error {failure : ε} (holds : P failure) : Fails P (Except.error failure : Except ε α) := by
  intro other isError
  cases isError
  exact holds

theorem fails_bind {first : Except ε α} {next : α → Except ε β} (firstFails : Fails P first)
    (nextFails : ∀ value, first = Except.ok value → Fails P (next value)) :
    Fails P (first >>= next) := by
  cases first with
  | error failure =>
      intro other isError
      cases isError
      exact firstFails _ rfl
  | ok value => exact nextFails value rfl

theorem fails_mapError {γ : Type} {result : Except γ α} {convert : γ → ε}
    (holds : ∀ failure, P (convert failure)) : Fails P (result.mapError convert) := by
  cases result with
  | error failure => exact fails_error (holds failure)
  | ok value => exact fails_ok value

theorem fails_mapM {convert : α → Except ε β} {xs : List α}
    (holds : ∀ x, Fails P (convert x)) : Fails P (xs.mapM convert) := by
  induction xs with
  | nil => exact fails_ok []
  | cons x xs ih =>
      rw [List.mapM_cons]
      refine fails_bind (holds x) fun value _ => fails_bind ih fun rest _ => fails_ok _

end Except

end EthgasReth.Lib

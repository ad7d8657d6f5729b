import Mathlib

/-!
# Sets ordered by a key alone

A `BTreeSet` whose order looks at one key of its values: two values with one key
are one value to the set, and inserting the second leaves the first in place.  The
set is the list of its values in key order.
-/

set_option autoImplicit false

namespace EthgasReth.Lib

section Insert

variable {α κ : Type} [LinearOrder κ]

def insertKeyed (keyOf : α → κ) (x : α) : List α → List α
  | [] => [x]
  | y :: rest =>
      if keyOf x < keyOf y then x :: y :: rest
      else if keyOf x = keyOf y then y :: rest
      else y :: insertKeyed keyOf x rest

theorem mem_insertKeyed (keyOf : α → κ) (x y : α) (ys : List α)
    (sorted : ys.Pairwise fun a b => keyOf a < keyOf b) :
    y ∈ insertKeyed keyOf x ys ↔ y ∈ ys ∨ (y = x ∧ ∀ other ∈ ys, keyOf other ≠ keyOf x) := by
  induction ys with
  | nil => simp [insertKeyed]
  | cons head rest ih =>
      obtain ⟨above, restSorted⟩ := List.pairwise_cons.mp sorted
      simp only [insertKeyed]
      split
      · rename_i less
        have noOther : ∀ other ∈ head :: rest, keyOf other ≠ keyOf x := by
          intro other member
          rcases List.mem_cons.mp member with rfl | member
          · exact ne_of_gt less
          · exact ne_of_gt (lt_trans less (above other member))
        rw [List.mem_cons, and_iff_left noOther]
        exact or_comm
      · split
        · rename_i same
          constructor
          · exact Or.inl
          · rintro (member | ⟨-, noOther⟩)
            · exact member
            · exact absurd same.symm (noOther head (List.mem_cons_self ..))
        · rename_i differ
          rw [List.mem_cons, ih restSorted, List.mem_cons, or_assoc]
          simp only [List.forall_mem_cons, and_iff_right (Ne.symm differ)]

theorem insertKeyed_sorted (keyOf : α → κ) (x : α) (ys : List α)
    (sorted : ys.Pairwise fun a b => keyOf a < keyOf b) :
    (insertKeyed keyOf x ys).Pairwise fun a b => keyOf a < keyOf b := by
  induction ys with
  | nil => simp [insertKeyed]
  | cons head rest ih =>
      obtain ⟨above, restSorted⟩ := List.pairwise_cons.mp sorted
      simp only [insertKeyed]
      split
      · rename_i less
        refine List.pairwise_cons.mpr ⟨?_, sorted⟩
        intro other member
        rcases List.mem_cons.mp member with rfl | member
        · exact less
        · exact lt_trans less (above other member)
      · rename_i notLess
        split
        · exact sorted
        · rename_i differ
          refine List.pairwise_cons.mpr ⟨?_, ih restSorted⟩
          intro other member
          rcases (mem_insertKeyed keyOf x other rest restSorted).mp member with member | ⟨rfl, -⟩
          · exact above other member
          · exact lt_of_le_of_ne (not_lt.mp notLess) (Ne.symm differ)

theorem insertKeyed_above (keyOf : α → κ) (x : α) (ys : List α)
    (below : ∀ y ∈ ys, keyOf y < keyOf x) : insertKeyed keyOf x ys = ys ++ [x] := by
  induction ys with
  | nil => rfl
  | cons head rest ih =>
      have headBelow := below head (List.mem_cons_self ..)
      simp only [insertKeyed, if_neg (not_lt_of_gt headBelow), if_neg (ne_of_gt headBelow),
        List.cons_append]
      rw [ih fun y member => below y (List.mem_cons_of_mem _ member)]

end Insert

structure KeyedSet {α κ : Type} [LinearOrder κ] (keyOf : α → κ) where
  entries : List α
  sorted : entries.Pairwise fun a b => keyOf a < keyOf b

namespace KeyedSet

variable {α κ : Type} [LinearOrder κ] {keyOf : α → κ}

def empty : KeyedSet keyOf := ⟨[], List.Pairwise.nil⟩

def insert (set : KeyedSet keyOf) (x : α) : KeyedSet keyOf :=
  ⟨insertKeyed keyOf x set.entries, insertKeyed_sorted keyOf x set.entries set.sorted⟩

def extend (set : KeyedSet keyOf) (xs : List α) : KeyedSet keyOf := xs.foldl insert set

theorem mem_insert (set : KeyedSet keyOf) (x y : α) :
    y ∈ (set.insert x).entries ↔
      y ∈ set.entries ∨ (y = x ∧ ∀ other ∈ set.entries, keyOf other ≠ keyOf x) :=
  mem_insertKeyed keyOf x y set.entries set.sorted

theorem extend_above (set : KeyedSet keyOf) (xs : List α)
    (sorted : (set.entries ++ xs).Pairwise fun a b => keyOf a < keyOf b) :
    (set.extend xs).entries = set.entries ++ xs := by
  induction xs generalizing set with
  | nil => simp [extend]
  | cons x rest ih =>
      have below : ∀ y ∈ set.entries, keyOf y < keyOf x := by
        intro y member
        exact (List.pairwise_append.mp sorted).2.2 y member x (List.mem_cons_self ..)
      have inserted : (set.insert x).entries = set.entries ++ [x] :=
        insertKeyed_above keyOf x set.entries below
      have restSorted : ((set.insert x).entries ++ rest).Pairwise
          fun a b => keyOf a < keyOf b := by
        rw [inserted, List.append_assoc]
        exact sorted
      calc (set.extend (x :: rest)).entries
          = ((set.insert x).extend rest).entries := rfl
        _ = (set.insert x).entries ++ rest := ih (set.insert x) restSorted
        _ = set.entries ++ x :: rest := by rw [inserted, List.append_assoc]; rfl

theorem extend_empty (xs : List α) (sorted : xs.Pairwise fun a b => keyOf a < keyOf b) :
    (empty.extend xs : KeyedSet keyOf).entries = xs :=
  extend_above empty xs sorted

end KeyedSet

end EthgasReth.Lib
